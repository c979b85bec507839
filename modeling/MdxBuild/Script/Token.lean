import MdxBuild.Text.Identifier
import MdxBuild.Script.Content

/-!
# Tokens of module code

The smallest parts of module code, each read at the start of a text together with the rest of the
text: what stands between tokens, names, punctuators, strings and the texts of templates.
-/

namespace MdxBuild.Script

open Text

/-- The characters that end a line. -/
def isLineEnd (char : Char) : Bool :=
  char = '\n' || char = '\r' || char = '\u2028' || char = '\u2029'

/-- The characters other than line ends that separate tokens. -/
def isSpacing (char : Char) : Bool :=
  char = ' ' || ('\t' ≤ char && char ≤ '\x0c' && char != '\n') || char = '\u00a0' ||
    char = '\u0085' || char = '\u1680' || ('\u2000' ≤ char && char ≤ '\u200b') ||
    char = '\u202f' || char = '\u205f' || char = '\u3000' || char = '\ufeff'

/-- What is being skipped between two tokens. -/
inductive Gap where
  | spacing
  | lineComment
  | blockComment

/-- Skips to the next token and tells whether a line ends on the way. A comment that is not closed
leaves its opening behind, which starts no token. -/
def skipGap : Gap → (lineEnded : Bool) → Text → Bool × Text
  | .blockComment, lineEnded, [] => (lineEnded, "/*".toList)
  | _, lineEnded, [] => (lineEnded, [])
  | .spacing, lineEnded, '/' :: '/' :: rest => skipGap .lineComment lineEnded rest
  | .spacing, lineEnded, '/' :: '*' :: rest => skipGap .blockComment lineEnded rest
  | .spacing, lineEnded, char :: rest =>
    if isLineEnd char then skipGap .spacing true rest
    else if isSpacing char then skipGap .spacing lineEnded rest
    else (lineEnded, char :: rest)
  | .lineComment, lineEnded, char :: rest =>
    if isLineEnd char then skipGap .spacing true rest else skipGap .lineComment lineEnded rest
  | .blockComment, lineEnded, '*' :: '/' :: rest => skipGap .spacing lineEnded rest
  | .blockComment, lineEnded, char :: rest =>
    skipGap .blockComment (lineEnded || isLineEnd char) rest

/-- The text from its first token on. -/
def token (text : Text) : Text :=
  (skipGap .spacing false text).2

/-- A line ends before the first token of a text. -/
def lineEndsFirst (text : Text) : Bool :=
  (skipGap .spacing false text).1

/-! ## Characters spelled by their codes -/

/-- The value of a hexadecimal digit. -/
def hexDigit? (char : Char) : Option Nat :=
  if char.isDigit then some (char.toNat - 48)
  else if 'a' ≤ char && char ≤ 'f' then some (char.toNat - 87)
  else if 'A' ≤ char && char ≤ 'F' then some (char.toNat - 55)
  else none

/-- The number that hexadecimal digits spell. -/
def hexValue? (digits : Text) : Option Nat :=
  if digits.isEmpty then none
  else digits.foldlM (fun value char => (hexDigit? char).map (16 * value + ·)) 0

/-- The code of half a character, of which two make one. -/
def isHalf (code : Nat) : Bool :=
  0xd800 ≤ code && code < 0xe000

/-- The part of a string that has a code. -/
def partOfCode (code : Nat) : StringPart :=
  if isHalf code then .half code else .char (Char.ofNat code)

/-- The code that four hexadecimal digits spell, and the rest. -/
def shortCode? (text : Text) : Option (Nat × Text) :=
  if text.length < 4 then none
  else (hexValue? (text.take 4)).map fun code => (code, text.drop 4)

/-- The second half of a character, spelled by an escape of its own, and the rest. -/
def secondHalf? (text : Text) : Option (Nat × Text) := do
  let (code, rest) ← shortCode? (← after? "\\u".toList text)
  if 0xdc00 ≤ code && code < 0xe000 then some (code, rest) else none

/-- What an escape behind `\u` stands for, and the rest. The escape of a first half takes in that of
the second half behind it. -/
def unicodeEscape? (text : Text) : Option (StringPart × Text) :=
  match text with
  | '{' :: rest =>
    match rest.dropWhile (· != '}') with
    | '}' :: behind =>
      (hexValue? (rest.takeWhile (· != '}'))).bind fun code =>
        if code ≤ 0x10ffff then some (partOfCode code, behind) else none
    | _ => none
  | _ => do
    let (code, rest) ← shortCode? text
    if 0xd800 ≤ code && code < 0xdc00 then
      match secondHalf? rest with
      | some (second, behind) =>
        some (.char (Char.ofNat (0x10000 + (code - 0xd800) * 0x400 + (second - 0xdc00))), behind)
      | none => some (.half code, rest)
    else some (partOfCode code, rest)

/-! ## Names -/

/-- A character that a name can start with. -/
def isNameStart (char : Char) : Bool :=
  char = '_' || char = '$' || isIdentifierStart char

/-- A character of a name behind its first one. -/
def isNamePart (char : Char) : Bool :=
  char = '$' || isIdentifierPart char

/-- The word at the start of a text: a name without escapes, or a keyword. -/
def word? (text : Text) : Option (Text × Text) :=
  match token text with
  | [] => none
  | first :: rest =>
    let remainder := rest.dropWhile isNamePart
    if isNameStart first && remainder.head? != some '\\' then
      some (first :: rest.takeWhile isNamePart, remainder)
    else none

/-- The text behind a given word. -/
def afterWord? (expected : String) (text : Text) : Option Text := do
  let (word, rest) ← word? text
  if word = expected.toList then some rest else none

/-- The words that are no names, two of them only where they mean something of their own. -/
def reservedWords : List Text :=
  ["await", "break", "case", "catch", "class", "const", "continue", "debugger", "default", "delete",
    "do", "else", "enum", "export", "extends", "false", "finally", "for", "function", "if",
    "import", "in", "instanceof", "new", "null", "return", "super", "switch", "this", "throw",
    "true", "try", "typeof", "var", "void", "while", "with", "yield"].map String.toList

/-- The character of a name that an escape behind a backslash stands for, and the rest. -/
def nameEscape? (text : Text) : Option (Char × Text) := do
  let behind ← after? ['u'] text
  match behind with
  | '{' :: _ =>
    match ← unicodeEscape? behind with
    | (.char char, rest) => some (char, rest)
    | (.half _, _) => none
  | _ => do
    let (code, rest) ← shortCode? behind
    if isHalf code then none else some (Char.ofNat code, rest)

/-- The character of a name at the start of a text, spelled by itself or by an escape, and the
rest. -/
def nameCharacter? : Text → Option (Char × Text)
  | [] => none
  | '\\' :: rest => nameEscape? rest
  | char :: rest => some (char, rest)

/-- The characters that a name goes on with, and the rest. -/
def nameRest? : (fuel : Nat) → Text → Option (Text × Text)
  | 0, text => some ([], text)
  | fuel + 1, text =>
    match text with
    | [] => some ([], [])
    | first :: _ =>
      if isNamePart first || first = '\\' then do
        let (char, rest) ← nameCharacter? text
        let (others, remainder) ← nameRest? fuel rest
        if isNamePart char then some (char :: others, remainder) else none
      else some ([], text)

/-- A name with escapes in it, with what they stand for in their places. -/
def escapedName? (text : Text) : Option (Text × Text) := do
  let (first, rest) ← nameCharacter? (token text)
  let (others, remainder) ← nameRest? rest.length rest
  if isNameStart first then some (first :: others, remainder) else none

/-- The name of anything at the start of a text, be it a word of the language or not. -/
def anyName? (text : Text) : Option (Text × Text) :=
  (word? text).orElse fun _ => escapedName? text

/-! ## Punctuators -/

/-- The punctuators, longer ones before the ones that they start with. -/
def punctuators : List Text :=
  [">>>=", "...", "===", "!==", "**=", "<<=", ">>=", ">>>", "&&=", "||=", "??=", "=>", "==", "!=",
    "<=", ">=", "&&", "||", "??", "?.", "++", "--", "+=", "-=", "*=", "/=", "%=", "&=", "|=", "^=",
    "<<", ">>", "**", "\x7b", "\x7d", "(", ")", "[", "]", ".", ";", ",", "<", ">", "+", "-", "*",
    "/", "%", "&", "|", "^", "!", "~", "?", ":", "="].map String.toList

/-- A punctuator stands in front of the rest of a text: a question mark with a number behind it that
starts with a dot is one by itself. -/
def endsBefore (symbol rest : Text) : Bool :=
  symbol != "?.".toList || !rest.head?.any Char.isDigit

/-- The punctuator at the start of a text. -/
def punctuator? (text : Text) : Option (Text × Text) :=
  let start := token text
  punctuators.findSome? fun symbol =>
    ((after? symbol start).filter (endsBefore symbol)).map fun rest => (symbol, rest)

/-- The text behind a given punctuator. -/
def after (expected : String) (text : Text) : Option Text := do
  let (symbol, rest) ← punctuator? text
  if symbol = expected.toList then some rest else none

/-- The text starts with a given punctuator. -/
def startsWith (expected : String) (text : Text) : Bool :=
  (after expected text).isSome

/-- Nothing but gaps is left. -/
def isEnd (text : Text) : Bool :=
  (token text).isEmpty

/-! ## Strings -/

/-- A digit of a number in base eight. -/
def isOctalDigit (char : Char) : Bool :=
  '0' ≤ char && char ≤ '7'

/-- The code that an escape of octal digits spells, and the rest: at most three digits, or two if
the first one is above three. -/
def octalEscape (text : Text) : Nat × Text :=
  let most := if text.head?.any (· ≤ '3') then 3 else 2
  let digits := (text.take most).takeWhile isOctalDigit
  (digits.foldl (fun value char => 8 * value + (char.toNat - 48)) 0, text.drop digits.length)

/-- What an escape stands for, read behind its backslash, and the rest. -/
def escape? : Text → Option (Content × Text)
  | [] => none
  | 'n' :: rest => some ([.char '\n'], rest)
  | 't' :: rest => some ([.char '\t'], rest)
  | 'r' :: rest => some ([.char '\r'], rest)
  | 'b' :: rest => some ([.char '\x08'], rest)
  | 'v' :: rest => some ([.char '\x0b'], rest)
  | 'f' :: rest => some ([.char '\x0c'], rest)
  | 'x' :: high :: low :: rest => (hexValue? [high, low]).map fun code => ([partOfCode code], rest)
  | 'u' :: rest => (unicodeEscape? rest).map fun (part, behind) => ([part], behind)
  | '\r' :: '\n' :: rest => some ([], rest)
  | char :: rest =>
    if isLineEnd char then some ([], rest)
    else if char = 'x' then none
    else if isOctalDigit char then
      let (code, behind) := octalEscape (char :: rest)
      some ([partOfCode code], behind)
    else some ([.char char], rest)

/-- The value of a string up to its closing quote, and the rest. -/
def stringRest? (quote : Char) : (fuel : Nat) → Text → Option (Content × Text)
  | 0, _ => none
  | _, [] => none
  | fuel + 1, char :: rest =>
    if char = quote then some ([], rest)
    else if char = '\\' then do
      let (value, behind) ← escape? rest
      let (others, remainder) ← stringRest? quote fuel behind
      some (value ++ others, remainder)
    else if char = '\n' || char = '\r' then none
    else
      (stringRest? quote fuel rest).map fun (value, remainder) => (.char char :: value, remainder)

/-- A quote that a string can start with. -/
def isQuote (char : Char) : Bool :=
  char = '"' || char = '\''

/-- The string at the start of a text. -/
def string? (text : Text) : Option (Content × Text) :=
  match token text with
  | [] => none
  | quote :: rest => if isQuote quote then stringRest? quote (rest.length + 1) rest else none

/-! ## Templates -/

/-- How a piece of a template ends. -/
inductive TemplateEnd where
  | closed
  | value
deriving DecidableEq, Repr

/-- A backslash may stand in front of the text in a template: digits are no escapes there, apart
from a zero without digits behind it. -/
def mayEscape : Text → Bool
  | [] => false
  | '0' :: rest => !rest.head?.any Char.isDigit
  | char :: rest => !char.isDigit && (escape? (char :: rest)).isSome

/-- The text of a template up to its end or the next value, as it is written, and the rest. Every
line end is written as a line feed. -/
def templateText? : Text → Option (Text × TemplateEnd × Text)
  | [] => none
  | ['\\'] => none
  | '`' :: rest => some ([], .closed, rest)
  | '$' :: '{' :: rest => some ([], .value, rest)
  | '\\' :: '\r' :: rest =>
    (templateText? ('\r' :: rest)).map fun (text, ending, remainder) =>
      ('\\' :: text, ending, remainder)
  | '\\' :: char :: rest =>
    if mayEscape (char :: rest) then
      (templateText? rest).map fun (text, ending, remainder) =>
        ('\\' :: char :: text, ending, remainder)
    else none
  | '\r' :: '\n' :: rest =>
    (templateText? rest).map fun (text, ending, remainder) => ('\n' :: text, ending, remainder)
  | char :: rest =>
    (templateText? rest).map fun (text, ending, remainder) =>
      ((if char = '\r' then '\n' else char) :: text, ending, remainder)

end MdxBuild.Script

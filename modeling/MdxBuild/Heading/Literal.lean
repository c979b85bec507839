import MdxBuild.Json.Scanner
import MdxBuild.Text.Blank

/-!
# Literals and brackets in generated code

The generated code is scanned without a syntax tree. A string literal runs from a quote of one of
the three kinds to the next quote of the same kind, where a backslash hides the character behind
it. Brackets of all kinds count alike, outside string literals. `decode` reads what stands between
the quotes of a literal.
-/

namespace MdxBuild.Generated

/-- One of the quotes that enclose string literals. -/
def isQuote (char : Char) : Bool :=
  char = '"' || char = '\'' || char = '`'

/-- An opening bracket. -/
def isOpening (char : Char) : Bool :=
  char = '{' || char = '[' || char = '('

/-- A closing bracket. -/
def isClosing (char : Char) : Bool :=
  char = '}' || char = ']' || char = ')'

/-- The text behind its leading blanks. -/
def skipBlanks (text : Text) : Text :=
  text.dropWhile Text.isAsciiBlank

/-- The text between the quotes of a literal and the text behind it, from the text behind the
opening quote. -/
def literal? (quote : Char) : Text → Option (Text × Text)
  | [] => none
  | '\\' :: hidden :: rest =>
    (literal? quote rest).map fun (inner, after) => ('\\' :: hidden :: inner, after)
  | char :: rest =>
    if char = '\\' then none
    else if char = quote then some ([], rest)
    else (literal? quote rest).map fun (inner, after) => (char :: inner, after)

/-- What a scan of brackets is doing. -/
inductive ScanMode where
  | code
  | inside (quote : Char)
  | hidden (quote : Char)
deriving DecidableEq, Repr

/-- The mode of a scan after a character. -/
def ScanMode.next (mode : ScanMode) (char : Char) : ScanMode :=
  match mode with
  | .code => if isQuote char then .inside char else .code
  | .inside quote =>
    if char = '\\' then .hidden quote else if char = quote then .code else .inside quote
  | .hidden quote => .inside quote

/-- The text before and behind the bracket that closes `depth + 1` open brackets. -/
def closingFrom? : ScanMode → (depth : Nat) → Text → Option (Text × Text)
  | _, _, [] => none
  | mode, depth, char :: rest =>
    let deeper :=
      if mode = .code && isOpening char then depth + 1 else depth
    if mode = .code && isClosing char then
      match depth with
      | 0 => some ([], rest)
      | outer + 1 =>
        (closingFrom? .code outer rest).map fun (inner, after) => (char :: inner, after)
    else
      (closingFrom? (mode.next char) deeper rest).map fun (inner, after) => (char :: inner, after)

/-- The text inside the brackets of which the opening one stands just before `text`, and the text
behind them. -/
def bracketed? (text : Text) : Option (Text × Text) :=
  closingFrom? .code 0 text

/-- The text from the next comma or closing bracket outside all brackets and literals; nothing
where there is none. -/
def toDelimiterFrom : ScanMode → (depth : Nat) → Text → Text
  | _, _, [] => []
  | mode, depth, char :: rest =>
    if mode = .code && depth = 0 && (char = ',' || isClosing char) then char :: rest
    else
      let next :=
        if mode = .code && isOpening char then depth + 1
        else if mode = .code && isClosing char then depth - 1
        else depth
      toDelimiterFrom (mode.next char) next rest

/-- The text from the next comma or closing bracket outside all brackets and literals. -/
def toDelimiter (text : Text) : Text :=
  toDelimiterFrom .code 0 text

/-! ## The value of a literal -/

/-- The number that hexadecimal digits stand for, perhaps behind a plus sign, if it fits 32 bits. -/
def hexCode? (digits : Text) : Option Nat := do
  let unsigned := (Text.after? ['+'] digits).getD digits
  if unsigned.isEmpty then none
  else
    let value ← Json.hexNumber? unsigned
    if value < Nat.pow 2 32 then some value else none

/-- The character of a code point. -/
def charOfCode? (code : Nat) : Option Char :=
  if code.isValidChar then some (Char.ofNat code) else none

/-- The character that follows `\u`, as four digits or any number of them between braces, and the
length of this form. -/
def unicodeEscape? (text : Text) : Option (Char × Nat) :=
  match Text.after? ['{'] text with
  | some braced =>
    let digits := braced.takeWhile (· != '}')
    (hexCode? digits).bind charOfCode? |>.map fun char => (char, digits.length + 2)
  | none => (hexCode? (text.take 4)).bind charOfCode? |>.map fun char => (char, 4)

/-- The value of the text between the quotes; `skip` characters still belong to the escape read
last. -/
def decodeFrom : (skip : Nat) → Text → Text
  | _, [] => []
  | skip + 1, _ :: rest => decodeFrom skip rest
  | 0, char :: rest =>
    if char != '\\' then char :: decodeFrom 0 rest
    else
      match rest with
      | [] => []
      | letter :: after =>
        if letter = 'n' then '\n' :: decodeFrom 1 (letter :: after)
        else if letter = 't' then '\t' :: decodeFrom 1 (letter :: after)
        else if letter = 'r' then '\r' :: decodeFrom 1 (letter :: after)
        else if letter = 'u' then
          match unicodeEscape? after with
          | some (escaped, length) => escaped :: decodeFrom (length + 1) (letter :: after)
          | none => 'u' :: decodeFrom 1 (letter :: after)
        else letter :: decodeFrom 1 (letter :: after)

/-- The value of the text between the quotes of a literal. -/
def decode (inner : Text) : Text :=
  decodeFrom 0 inner

end MdxBuild.Generated

import MdxBuild.Text.Line
import MdxBuild.Text.Word

/-!
# The default export of a compiled module

The build exports the content component itself, so the statement by which the compiled module
exports it is taken out. An exported function becomes a plain declaration, under a name of its own
if it has none; the statement that exports a name is removed. Both forms begin at a line start, and
only the first one counts.
-/

namespace MdxBuild.DefaultExport

open Text

/-- The name of a content component that has none. -/
def contentComponent : Text :=
  "MDXContent".toList

/-- A letter of the ASCII range, an underscore or a dollar sign. -/
def isNameStart (char : Char) : Bool :=
  char.isAlpha || char = '_' || char = '$'

/-- A character of a name behind its first one. -/
def isNamePart (char : Char) : Bool :=
  isWord char || char = '$'

/-- The name at the start of a text, and the rest. -/
def name? : Text → Option (Text × Text)
  | [] => none
  | first :: rest =>
    if isNameStart first then some (first :: rest.takeWhile isNamePart, rest.dropWhile isNamePart)
    else none

/-- The text behind at least one blank. -/
def afterBlanks? : Text → Option Text
  | [] => none
  | char :: rest => if isBlank char then some (rest.dropWhile isBlank) else none

/-- The text behind `export default` and blanks. -/
def afterExportDefault? (text : Text) : Option Text := do
  let afterExport ← afterBlanks? (← after? "export".toList text)
  afterBlanks? (← after? "default".toList afterExport)

/-- The word `async` with the blanks behind it, and the text behind both. -/
def asyncMark (text : Text) : Text × Text :=
  match (after? "async".toList text).bind afterBlanks? with
  | some rest =>
    if "function".toList.isPrefixOf rest then (text.take (text.length - rest.length), rest)
    else ([], text)
  | none => ([], text)

/-- The star of a generator with the blanks before it, and the text behind both. -/
def starMark (text : Text) : Text × Text :=
  match text.dropWhile isBlank with
  | '*' :: rest => (text.takeWhile isBlank ++ ['*'], rest)
  | _ => ([], text)

/-- A function declaration that takes the place of an exported function up to its parenthesis. -/
structure FunctionHead where
  /-- The head of the declaration. -/
  declaration : Text
  name : Text
  /-- The text behind the parenthesis. -/
  rest : Text
deriving DecidableEq, Repr

/-- Reads the head of an exported function at the start of a text. -/
def functionHead? (text : Text) : Option FunctionHead := do
  let (mark, afterMark) := asyncMark (← afterExportDefault? text)
  let (star, afterStar) := starMark (← after? "function".toList afterMark)
  let atName := afterStar.dropWhile isBlank
  let (name, afterName) := (name? atName).getD (contentComponent, atName)
  let rest ← after? ['('] (afterName.dropWhile isBlank)
  some ⟨mark ++ "function".toList ++ star ++ [' '] ++ name ++ ['('], name, rest⟩

/-- The text without one leading character, if it is the given one. -/
def dropOne (char : Char) (text : Text) : Text :=
  (after? [char] text).getD text

/-- The name that a statement at the start of a text exports, and the text behind the statement and
its line break. -/
def binding? (text : Text) : Option (Text × Text) := do
  let (name, afterName) ← name? (← afterExportDefault? text)
  let afterSemicolon := dropOne ';' (afterName.dropWhile isBlank)
  some (name, dropOne '\n' (dropOne '\r' (afterSemicolon.dropWhile isSpaceOrTab)))

/-- The module without its default export, and the name of what it exported. -/
def normalize (code : Text) : Text × Option Text :=
  match firstAtLineStart? functionHead? code with
  | some (before, head) => (before ++ head.declaration ++ head.rest, some head.name)
  | none =>
    match firstAtLineStart? binding? code with
    | some (before, name, rest) => (before ++ rest, some name)
    | none => (code, none)

end MdxBuild.DefaultExport

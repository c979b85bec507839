import MdxBuild.Text.Word
import MdxBuild.Text.Line

/-!
# Import statements

An import statement begins, after spaces and tabs, at a line start. Between the word `import` and
the first quote stand only word characters, blanks and the punctuation of import clauses; they are
either blanks alone (an import for its side effects) or a clause followed by the word `from`. The
quote opens the specifier.
-/

namespace MdxBuild.Import

open Text

/-- A character that may stand between the word `import` and the quote. -/
def isClauseChar (char : Char) : Bool :=
  isWord char || char = '$' || char = '*' || char = '{' || char = '}' || char = ',' || isBlank char

/-- A single or double quote. -/
def isQuote (char : Char) : Bool :=
  char = '\'' || char = '"'

/-- The text between the word `import` and the quote, and the text after the quote. -/
def head? (text : Text) : Option (Text × Text) := do
  let afterImport ← after? "import".toList (text.dropWhile isSpaceOrTab)
  match afterImport.dropWhile isClauseChar with
  | [] => none
  | quote :: rest =>
    if isQuote quote then some (afterImport.takeWhile isClauseChar, rest) else none

/-- What stands before the word `from` at the end of the head: a blank, a clause, a blank. -/
def beforeFrom? (between : Text) : Option Text := do
  let reversed ← after? "from".toList.reverse (trimEnd between).reverse
  let before := reversed.reverse
  if 3 ≤ before.length && (before.head?.any isBlank) && (before.getLast?.any isBlank) then
    some before
  else none

/-- The specifier that an opening quote begins, and the text after its closing quote. -/
def specifier? (text : Text) : Option (Text × Text) :=
  let inside := fun char => !isQuote char && char != '\n'
  match text.takeWhile inside, text.dropWhile inside with
  | [], _ => none
  | _, [] => none
  | specifier, quote :: rest => if isQuote quote then some (specifier, rest) else none

/-- The specifier of the import statement at the start of a text, and the statement's length. -/
def statement? (text : Text) : Option (Text × Nat) := do
  let (between, afterQuote) ← head? text
  if (beforeFrom? between).isSome || allBlank between then
    let (specifier, rest) ← specifier? afterQuote
    some (specifier, text.length - rest.length)
  else none

/-- The specifiers of the import statements of a text, each once, in order of first appearance. -/
def specifiers (text : Text) : List Text :=
  (atLineStarts statement? text).eraseDups

end MdxBuild.Import

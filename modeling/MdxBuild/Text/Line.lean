import MdxBuild.Text.Blank

/-!
# Lines

`lines` cuts a text after every line feed, so each line keeps its terminator and the lines
concatenate to the text. A line divides further into its content and its line break, which may
hold carriage returns.

`atLineStarts` and `firstAtLineStart?` look for a form that can only begin where a line does. A
form found may extend over several lines; the search goes on behind it.
-/

namespace MdxBuild.Text

/-- The lines of a text, each with the line feed that ends it. -/
def lines : Text → List Text
  | [] => []
  | char :: rest =>
    if char = '\n' then [char] :: lines rest
    else
      match lines rest with
      | [] => [[char]]
      | line :: others => (char :: line) :: others

@[simp]
theorem lines_nil : lines [] = [] :=
  rfl

/-- The lines of a text hold it whole and in order. -/
@[simp]
theorem flatten_lines (text : Text) : (lines text).flatten = text := by
  induction text with
  | nil => rfl
  | cons char rest ih =>
    rw [lines]
    split
    · simp [ih]
    · split
      · next noLine => simpa [noLine] using ih
      · next line others someLine =>
        rw [someLine] at ih
        simpa using ih

/-- The content of a line: everything before its line feeds and carriage returns at the end. -/
def content (line : Text) : Text :=
  trimEndBy isLineBreak line

/-- The line feeds and carriage returns that end a line. -/
def ending (line : Text) : Text :=
  tailBy isLineBreak line

@[simp]
theorem content_append_ending (line : Text) : content line ++ ending line = line :=
  trimEndBy_append_tailBy isLineBreak line

/-- The line break that synthesized lines use: that of the text, if it is the two-character one. -/
def newlineOf (text : Text) : Text :=
  if occursIn ['\r', '\n'] text then ['\r', '\n'] else ['\n']

/-- Every line break as one line feed. -/
def unifyNewlines : Text → Text
  | [] => []
  | '\r' :: '\n' :: rest => '\n' :: unifyNewlines rest
  | char :: rest => (if char = '\r' then '\n' else char) :: unifyNewlines rest

@[simp]
theorem unifyNewlines_nil : unifyNewlines [] = [] :=
  rfl

/-- The text ends with a line feed. -/
def endsLine (text : Text) : Bool :=
  text.getLast? == some '\n'

/-- The search of `atLineStarts` from a position in the middle of a text: `isStart` tells whether a
line begins here, and `skip` characters still belong to the form found last. -/
def atLineStartsFrom {α : Type} (find : Text → Option (α × Nat)) :
    (isStart : Bool) → (skip : Nat) → Text → List α
  | _, _, [] => []
  | _, skip + 1, char :: rest => atLineStartsFrom find (char = '\n') skip rest
  | false, 0, char :: rest => atLineStartsFrom find (char = '\n') 0 rest
  | true, 0, char :: rest =>
    match find (char :: rest) with
    | some (found, length) => found :: atLineStartsFrom find (char = '\n') (length - 1) rest
    | none => atLineStartsFrom find (char = '\n') 0 rest

/-- What `find` yields at the line starts of a text, from left to right without overlap. The number
that comes with a form is its length. -/
def atLineStarts {α : Type} (find : Text → Option (α × Nat)) (text : Text) : List α :=
  atLineStartsFrom find true 0 text

/-- The search of `firstAtLineStart?` from a position in the middle of a text. -/
def firstAtLineStartFrom? {α : Type} (find : Text → Option α) :
    (isStart : Bool) → Text → Option (Text × α)
  | _, [] => none
  | isStart, char :: rest =>
    match if isStart then find (char :: rest) else none with
    | some found => some ([], found)
    | none =>
      (firstAtLineStartFrom? find (char = '\n') rest).map fun (before, found) =>
        (char :: before, found)

/-- The text before the first line start at which `find` yields something, and what it yields. -/
def firstAtLineStart? {α : Type} (find : Text → Option α) (text : Text) : Option (Text × α) :=
  firstAtLineStartFrom? find true text

end MdxBuild.Text

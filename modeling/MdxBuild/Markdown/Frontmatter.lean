import MdxBuild.Text.Line

/-!
# Frontmatter

A frontmatter block stands at the very start of a document: after an optional byte order mark, a
delimiter line, any lines that are no delimiters, and a second delimiter line. A document whose
first delimiter is never answered has no frontmatter.
-/

namespace MdxBuild

open Text

/-- A document cut at its frontmatter block. -/
structure Frontmatter where
  /-- The byte order mark, if any, and the first delimiter line. -/
  opening : Text
  /-- The lines between the delimiters. -/
  content : Text
  /-- The second delimiter line. -/
  closing : Text
  /-- Everything after the block. -/
  body : Text
deriving DecidableEq, Repr

namespace Frontmatter

/-- The byte order mark that may stand before the block. -/
def mark : Char :=
  '\uFEFF'

/-- A delimiter line is `---` up to blanks at its end. -/
def isDelimiter (line : Text) : Bool :=
  trimEnd line == ['-', '-', '-']

/-- The byte order mark at the start of a text, and the rest. -/
def splitMark : Text → Text × Text
  | [] => ([], [])
  | char :: rest => if char = mark then ([char], rest) else ([], char :: rest)

/-- The frontmatter block at the start of a document. -/
def find? (source : Text) : Option Frontmatter :=
  match lines (splitMark source).2 with
  | [] => none
  | first :: others =>
    if isDelimiter first then
      match others.span (!isDelimiter ·) with
      | (_, []) => none
      | (between, last :: after) =>
        some ⟨(splitMark source).1 ++ first, between.flatten, last, after.flatten⟩
    else none

/-- The block with its delimiters, as it stands in the document. -/
def block (frontmatter : Frontmatter) : Text :=
  frontmatter.opening ++ frontmatter.content ++ frontmatter.closing

/-- The byte offset at which the body begins. -/
def bodyStart (frontmatter : Frontmatter) : Nat :=
  utf8Length frontmatter.block

/-- The document without its frontmatter block. -/
def strip (source : Text) : Text :=
  match find? source with
  | some frontmatter => frontmatter.body
  | none => source

end Frontmatter

end MdxBuild

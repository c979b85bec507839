import MdxBuild.Text.Basic

/-!
# Text between tags

The text of an element is laid out freely over lines. What counts are its lines without the blanks
around the line breaks, joined by single spaces; lines that are blank do not count. A text within
one line is taken as it is.
-/

namespace MdxBuild.Jsx

/-- The lines behind a line break, trimmed where they meet a line break. -/
def trimInner (isBlank : Char → Bool) : List Text → List Text
  | [] => []
  | [last] => [last.dropWhile isBlank]
  | line :: others => Text.trimBy isBlank line :: trimInner isBlank others

/-- The lines of a text, trimmed where they meet a line break. -/
def trimLines (isBlank : Char → Bool) : List Text → List Text
  | [] => []
  | [only] => [only]
  | first :: others => Text.trimEndBy isBlank first :: trimInner isBlank others

/-- The lines that count. -/
def visibleLines (isBlank : Char → Bool) (lines : List Text) : List Text :=
  (trimLines isBlank lines).filter fun line => !line.isEmpty

/-- Lines joined by spaces, if there are any. -/
def joinLines (lines : List Text) : Option Text :=
  if lines.isEmpty then none else some ([' '].intercalate lines)

/-- A space or a tab. -/
def isPadding (char : Char) : Bool :=
  char = ' ' || char = '\t'

/-- The lines of a text without the returns at their ends. -/
def plainLines (text : Text) : List Text :=
  (text.splitOn '\n').map (Text.trimEndBy (· = '\r'))

/-- The visible part of a text between tags. -/
def cleanText (text : Text) : Option Text :=
  joinLines (visibleLines isPadding (plainLines text))

end MdxBuild.Jsx

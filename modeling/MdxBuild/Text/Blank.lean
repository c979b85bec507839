import MdxBuild.Text.Basic

/-!
# Blank characters

A character is blank when it has the Unicode property `White_Space`; trimming without a further
word removes blank characters. Scanners of generated code and of layout know smaller classes,
which are named here as well.
-/

namespace MdxBuild.Text

/-- A character with the Unicode property `White_Space`. -/
def isBlank (char : Char) : Bool :=
  let code := char.toNat
  (9 ≤ code && code ≤ 13) || code = 0x20 || code = 0x85 || code = 0xA0 || code = 0x1680 ||
    (0x2000 ≤ code && code ≤ 0x200A) || code = 0x2028 || code = 0x2029 || code = 0x202F ||
    code = 0x205F || code = 0x3000

/-- A blank of the ASCII range other than the vertical tab. -/
def isAsciiBlank (char : Char) : Bool :=
  char = ' ' || char = '\t' || char = '\n' || char = '\x0c' || char = '\r'

/-- A space or a tab. -/
def isSpaceOrTab (char : Char) : Bool :=
  char = ' ' || char = '\t'

/-- A character that ends a line: a line feed or a carriage return. -/
def isLineBreak (char : Char) : Bool :=
  char = '\n' || char = '\r'

/-- The text without the blanks at its end. -/
def trimEnd (text : Text) : Text :=
  trimEndBy isBlank text

/-- The text without the blanks at its start. -/
def trimStart (text : Text) : Text :=
  text.dropWhile isBlank

/-- The text without the blanks at both ends. -/
def trim (text : Text) : Text :=
  trimEnd (trimStart text)

/-- The text holds blanks only. -/
def allBlank (text : Text) : Bool :=
  text.all isBlank

end MdxBuild.Text

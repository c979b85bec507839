import MdxBuild.Text.Basic

/-!
# Values of strings

The value of a string in module code is mostly a text. Escapes can also put the code of half a
character into it, which no text holds.
-/

namespace MdxBuild.Script

/-- A part of a string: a character, or the code of half a character that stands alone. -/
inductive StringPart where
  | char (value : Char)
  | half (code : Nat)
deriving DecidableEq, Repr

/-- The character that a part of a string is, if it is a whole one. -/
def StringPart.char? : StringPart → Option Char
  | .char value => some value
  | .half _ => none

/-- The value of a string. -/
abbrev Content : Type :=
  List StringPart

namespace Content

/-- The value that is a text. -/
def ofText (text : Text) : Content :=
  text.map .char

/-- The text that a value is, if it has whole characters only. -/
def text? (content : Content) : Option Text :=
  content.mapM StringPart.char?

@[simp]
theorem text?_nil : text? [] = some [] :=
  rfl

@[simp]
theorem text?_ofText (text : Text) : text? (ofText text) = some text := by
  induction text with
  | nil => rfl
  | cons first rest ih =>
    have whole : (StringPart.char first).char? = some first := rfl
    simp only [text?, ofText] at ih
    simp [text?, ofText, List.mapM_cons, whole, ih]

end Content

end MdxBuild.Script

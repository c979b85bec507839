import MdxBuild.Text.Blank

/-!
# Directive attributes

The text between the braces of a directive is a sequence of attribute tokens: a key, and perhaps an
equals sign and a value, which is quoted or has neither blanks nor quotes. Attributes that every tag
is given anyway are dropped; the others are passed on verbatim.
-/

namespace MdxBuild.Attribute

open Text

/-- An attribute as it stands in the text, and the key it begins with. -/
structure Token where
  key : Text
  text : Text
deriving DecidableEq, Repr

/-- A character of a key. -/
def isKeyChar (char : Char) : Bool :=
  !isBlank char && char != '='

/-- A character of a value without quotes. -/
def isBareChar (char : Char) : Bool :=
  !isBlank char && char != '"' && char != '\''

/-- The number of characters of the value at the start of a text. -/
def valueLength? : Text → Option Nat
  | [] => none
  | char :: rest =>
    if char = '"' || char = '\'' then
      let inside := rest.takeWhile (· != char)
      if inside.length < rest.length then some (inside.length + 2) else none
    else
      match (char :: rest).takeWhile isBareChar with
      | [] => none
      | value => some value.length

/-- The number of characters of the equals sign and the value behind a key, with the blanks around
the sign. A sign without a value does not count. -/
def assignmentLength (text : Text) : Nat :=
  let afterBlanks := text.dropWhile isBlank
  match afterBlanks with
  | [] => 0
  | sign :: rest =>
    if sign = '=' then
      match valueLength? (rest.dropWhile isBlank) with
      | some length =>
        (text.length - afterBlanks.length) + 1 + (rest.length - (rest.dropWhile isBlank).length) +
          length
      | none => 0
    else 0

/-- The tokens of a text; `skip` characters still belong to the token found last. -/
def tokensFrom : (skip : Nat) → Text → List Token
  | _, [] => []
  | skip + 1, _ :: rest => tokensFrom skip rest
  | 0, char :: rest =>
    if isKeyChar char then
      let key := (char :: rest).takeWhile isKeyChar
      let length := key.length + assignmentLength ((char :: rest).drop key.length)
      ⟨key, (char :: rest).take length⟩ :: tokensFrom (length - 1) rest
    else tokensFrom 0 rest

/-- The attribute tokens of a text, in order. -/
def tokens (text : Text) : List Token :=
  tokensFrom 0 text

/-- The keys of attributes that tags are given anyway. -/
def synthesizedKeys : List Text :=
  ["type".toList, "title".toList]

/-- The token has the key of an attribute that tags are given anyway, up to ASCII case. -/
def Token.isSynthesized (token : Token) : Bool :=
  synthesizedKeys.contains (asciiLower token.key)

/-- The attributes of a text that are passed on, joined by spaces. -/
def passedOn (text : Text) : Text :=
  [' '].intercalate (((tokens text).filter (!·.isSynthesized)).map Token.text)

/-- The text of an attribute value between double quotes. -/
def escape (value : Text) : Text :=
  value.flatMap fun char =>
    if char = '&' then "&amp;".toList else if char = '"' then "&quot;".toList else [char]

/-- An attribute with its value between double quotes. -/
def quoted (name value : Text) : Text :=
  name ++ "=\"".toList ++ escape value ++ ['"']

end MdxBuild.Attribute

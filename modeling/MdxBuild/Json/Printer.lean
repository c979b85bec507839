import MdxBuild.Json.Value

/-!
# Writing JSON

The compact form has no blanks; the indented form, for files that people look at, has a line for
each item. Strings escape quotes, backslashes and the controls below the space, nothing else.
-/

namespace MdxBuild.Json

/-- The lower-case hexadecimal digit of a number below 16. -/
def hexDigit (value : Nat) : Char :=
  Nat.digitChar value

/-- A character as it stands between the quotes of a string. -/
def escapeChar (char : Char) : Text :=
  if char = '"' then ['\\', '"']
  else if char = '\\' then ['\\', '\\']
  else if char = '\x08' then ['\\', 'b']
  else if char = '\x0c' then ['\\', 'f']
  else if char = '\n' then ['\\', 'n']
  else if char = '\r' then ['\\', 'r']
  else if char = '\t' then ['\\', 't']
  else if char.toNat < 32 then
    ['\\', 'u', '0', '0', hexDigit (char.toNat / 16), hexDigit (char.toNat % 16)]
  else [char]

/-- The text between the quotes of a string. -/
def escape (value : Text) : Text :=
  value.flatMap escapeChar

/-- A string with its quotes. -/
def quote (value : Text) : Text :=
  ['"'] ++ escape value ++ ['"']

/-- The text of an integer. -/
def integerText (value : Int) : Text :=
  if value < 0 then '-' :: Text.ofNat value.natAbs else Text.ofNat value.natAbs

/-- The text of a number. -/
def Number.render : Number → Text
  | .integer value => integerText value
  | .double bits => Decimal.ofBits Decimal.jsonLayout bits

/-- The text of a value other than an array or an object. -/
def renderScalar : Json → Text
  | .bool true => "true".toList
  | .bool false => "false".toList
  | .number value => value.render
  | .string value => quote value
  | _ => "null".toList

mutual

/-- The compact form of a value. -/
def render : Json → Text
  | .array items => ['['] ++ renderItems items ++ [']']
  | .object members => ['{'] ++ renderMembers members ++ ['}']
  | scalar => renderScalar scalar

/-- The items of an array, with commas between them. -/
def renderItems : List Json → Text
  | [] => []
  | [item] => render item
  | item :: others => render item ++ [','] ++ renderItems others

/-- The members of an object, with commas between them. -/
def renderMembers : List (Text × Json) → Text
  | [] => []
  | [(key, value)] => quote key ++ [':'] ++ render value
  | (key, value) :: others => quote key ++ [':'] ++ render value ++ [','] ++ renderMembers others

end

/-- A line break with an indentation of two spaces for each level. -/
def indentation (level : Nat) : Text :=
  '\n' :: List.replicate (2 * level) ' '

mutual

/-- The indented form of a value at a level of nesting. -/
def renderIndented (level : Nat) : Json → Text
  | .array [] => ['[', ']']
  | .array items => ['['] ++ indentItems (level + 1) items ++ indentation level ++ [']']
  | .object [] => ['{', '}']
  | .object members => ['{'] ++ indentMembers (level + 1) members ++ indentation level ++ ['}']
  | scalar => renderScalar scalar

/-- The items of an array, each on a line of its own. -/
def indentItems (level : Nat) : List Json → Text
  | [] => []
  | [item] => indentation level ++ renderIndented level item
  | item :: others =>
    indentation level ++ renderIndented level item ++ [','] ++ indentItems level others

/-- The members of an object, each on a line of its own. -/
def indentMembers (level : Nat) : List (Text × Json) → Text
  | [] => []
  | [(key, value)] => indentation level ++ quote key ++ ": ".toList ++ renderIndented level value
  | (key, value) :: others =>
    indentation level ++ quote key ++ ": ".toList ++ renderIndented level value ++ [','] ++
      indentMembers level others

end

/-- The indented form of a value. -/
def renderPretty (json : Json) : Text :=
  renderIndented 0 json

end MdxBuild.Json

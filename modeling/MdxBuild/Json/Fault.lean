import MdxBuild.Json.Printer
import MdxBuild.Text.Visible

/-!
# Faults of JSON texts

What can be wrong with a text that is read as JSON of an expected shape. A fault belongs to one of
three categories: the text ends too early, it is not JSON, or it is JSON of another shape.
-/

namespace MdxBuild.Json

/-- What was being read when the text ended. -/
inductive Unfinished where
  | value
  | list
  | object
  | string
deriving DecidableEq, Repr

/-- A value as a message about its kind names it. -/
inductive Found where
  | null
  | bool (value : Bool)
  | number (value : Number)
  | string (value : Text)
  | sequence
  | map
deriving DecidableEq, Repr

/-- What is wrong with a JSON text. -/
inductive Fault where
  | endOf (what : Unfinished)
  | expectedValue
  | expectedIdent
  | expectedColon
  | expectedCommaOrBracket
  | expectedCommaOrBrace
  | keyMustBeString
  | trailingComma
  | trailingCharacters
  | invalidNumber
  | numberOutOfRange
  | invalidEscape
  | endOfHexEscape
  | loneSurrogate
  | controlCharacter
  | tooDeep
  | invalidType (found : Found) (expected : Text)
  | invalidValue (found : Found) (expected : Text)
  | invalidLength (length : Nat) (expected : Text)
  | missingField (name : Text)
  | duplicateField (name : Text)
  | unknownVariant (name : Text) (known : List Text)
deriving DecidableEq, Repr

/-- The category of a fault. -/
inductive Category where
  | syntactic
  | unexpectedEnd
  | data
deriving DecidableEq, Repr

/-- The value itself as a message names it. -/
def Found.render : Found → Text
  | .null => "null".toList
  | .bool true => "boolean `true`".toList
  | .bool false => "boolean `false`".toList
  | .number (.integer value) => "integer `".toList ++ integerText value ++ ['`']
  | .number (.double bits) =>
    "floating point `".toList ++ Decimal.ofBits Decimal.jsonLayout bits ++ ['`']
  | .string value => "string ".toList ++ Text.visible value
  | .sequence => "sequence".toList
  | .map => "map".toList

/-- How a message names a JSON value. -/
def found : Json → Found
  | .null => .null
  | .bool value => .bool value
  | .number value => .number value
  | .string value => .string value
  | .array _ => .sequence
  | .object _ => .map

/-- The names that a message offers. -/
def alternatives (names : List Text) : Text :=
  let ticked := names.map fun name => ['`'] ++ name ++ ['`']
  match ticked with
  | [] => []
  | [only] => "expected ".toList ++ only
  | [first, second] => "expected ".toList ++ first ++ " or ".toList ++ second
  | all => "expected one of ".toList ++ (", ".toList).intercalate all

namespace Fault

/-- The category of a fault. -/
def category : Fault → Category
  | .endOf _ => .unexpectedEnd
  | .invalidType .. | .invalidValue .. | .invalidLength .. | .missingField _ | .duplicateField _
  | .unknownVariant .. => .data
  | _ => .syntactic

/-- The fault in words. -/
def message : Fault → Text
  | .endOf .value => "EOF while parsing a value".toList
  | .endOf .list => "EOF while parsing a list".toList
  | .endOf .object => "EOF while parsing an object".toList
  | .endOf .string => "EOF while parsing a string".toList
  | .expectedValue => "expected value".toList
  | .expectedIdent => "expected ident".toList
  | .expectedColon => "expected `:`".toList
  | .expectedCommaOrBracket => "expected `,` or `]`".toList
  | .expectedCommaOrBrace => "expected `,` or `\x7d`".toList
  | .keyMustBeString => "key must be a string".toList
  | .trailingComma => "trailing comma".toList
  | .trailingCharacters => "trailing characters".toList
  | .invalidNumber => "invalid number".toList
  | .numberOutOfRange => "number out of range".toList
  | .invalidEscape => "invalid escape".toList
  | .endOfHexEscape => "unexpected end of hex escape".toList
  | .loneSurrogate => "lone leading surrogate in hex escape".toList
  | .controlCharacter =>
    "control character (\\u0000-\\u001F) found while parsing a string".toList
  | .tooDeep => "recursion limit exceeded".toList
  | .invalidType found expected =>
    "invalid type: ".toList ++ found.render ++ ", expected ".toList ++ expected
  | .invalidValue found expected =>
    "invalid value: ".toList ++ found.render ++ ", expected ".toList ++ expected
  | .invalidLength length expected =>
    "invalid length ".toList ++ Text.ofNat length ++ ", expected ".toList ++ expected
  | .missingField name => "missing field `".toList ++ name ++ ['`']
  | .duplicateField name => "duplicate field `".toList ++ name ++ ['`']
  | .unknownVariant name known =>
    "unknown variant `".toList ++ name ++ "`, ".toList ++ alternatives known

end Fault

end MdxBuild.Json

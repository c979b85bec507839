import MdxBuild.Decimal.Double
import MdxBuild.Dictionary

/-!
# JSON values

A JSON value as it is read and written. Integers that fit 64 bits stay integers; every other number
is one of double precision, given by its bits. The members of an object are a list: values that
were read have them sorted by key, each key once, while values about to be written may keep an
order of their own.
-/

namespace MdxBuild

/-- A JSON number. -/
inductive Json.Number where
  | integer (value : Int)
  | double (bits : UInt64)
deriving DecidableEq, Repr

/-- A JSON value. -/
inductive Json where
  | null
  | bool (value : Bool)
  | number (value : Json.Number)
  | string (value : Text)
  | array (items : List Json)
  | object (members : List (Text × Json))
deriving Repr, Inhabited, BEq

namespace Json

/-- A natural number as a JSON value. -/
def ofNat (value : Nat) : Json :=
  .number (.integer value)

/-- The null value for nothing. -/
def ofOption {α : Type} (encode : α → Json) : Option α → Json
  | none => .null
  | some value => encode value

/-- An object with the entries of a dictionary. -/
def ofDictionary (entries : Dictionary Json) : Json :=
  .object entries.entries

/-- The value of a key in an object. -/
def member? (json : Json) (key : Text) : Option Json :=
  match json with
  | .object members => (members.find? fun member => member.1 == key).map Prod.snd
  | _ => none

end Json

end MdxBuild

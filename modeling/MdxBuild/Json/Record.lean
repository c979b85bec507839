import MdxBuild.Json.Reader

/-!
# Reading records

Readers for values of an expected shape. A record is an object whose members fill the fields of a
draft, in any order and each at most once, or an array of the fields in order; members that are no
fields are passed over. A draft becomes the record once its object or array has been read.
-/

namespace MdxBuild.Json

/-- The fault of a value of another kind at the start of a text, unless it cannot be read. -/
def mismatch (expected : Text) (text : Text) : Fault :=
  match text with
  | [] => .expectedValue
  | char :: rest =>
    if char = 'n' then
      match readWord "ull".toList rest with
      | .ok _ => .invalidType .null expected
      | .error fault => fault
    else if char = 't' then
      match readWord "rue".toList rest with
      | .ok _ => .invalidType (.bool true) expected
      | .error fault => fault
    else if char = 'f' then
      match readWord "alse".toList rest with
      | .ok _ => .invalidType (.bool false) expected
      | .error fault => fault
    else if char = '-' || char.isDigit then
      match if char = '-' then readNumber false rest else readNumber true text with
      | .ok (value, _) => .invalidType (.number value) expected
      | .error fault => fault
    else if char = '"' then
      match readString rest with
      | .ok (value, _) => .invalidType (.string value) expected
      | .error fault => fault
    else if char = '[' then .invalidType .sequence expected
    else if char = '{' then .invalidType .map expected
    else .expectedValue

/-! ## Scalars -/

/-- Reads a truth value. -/
def readBool (text : Text) : Except Fault (Bool × Text) :=
  match skipBlanks text with
  | [] => .error (.endOf .value)
  | char :: rest =>
    if char = 't' then (readWord "rue".toList rest).map (true, ·)
    else if char = 'f' then (readWord "alse".toList rest).map (false, ·)
    else .error (mismatch "a boolean".toList (char :: rest))

/-- Reads a string that a message calls `expected`. -/
def readText (expected : Text) (text : Text) : Except Fault (Text × Text) :=
  match skipBlanks text with
  | [] => .error (.endOf .value)
  | char :: rest =>
    if char = '"' then readString rest else .error (mismatch expected (char :: rest))

/-- Accepts a natural number of at most 64 bits. -/
def unsignedOf (expected : Text) : Number → Except Fault Nat
  | .integer value =>
    if 0 ≤ value then .ok value.toNat
    else .error (.invalidValue (.number (.integer value)) expected)
  | .double bits => .error (.invalidType (.number (.double bits)) expected)

/-- Reads a natural number of at most 64 bits that a message calls `expected`. -/
def readUnsigned (expected : Text) (text : Text) : Except Fault (Nat × Text) :=
  match skipBlanks text with
  | [] => .error (.endOf .value)
  | char :: rest =>
    if char = '-' then do
      let (value, after) ← readNumber false rest
      .ok (← unsignedOf expected value, after)
    else if char.isDigit then do
      let (value, after) ← readNumber true (char :: rest)
      .ok (← unsignedOf expected value, after)
    else .error (mismatch expected (char :: rest))

/-- Reads `null` as nothing and everything else with a reader. -/
def readOptional {α : Type} (readSome : Text → Except Fault (α × Text)) (text : Text) :
    Except Fault (Option α × Text) :=
  match skipBlanks text with
  | [] => (readSome []).map fun (value, after) => (some value, after)
  | char :: rest =>
    if char = 'n' then (readWord "ull".toList rest).map (none, ·)
    else (readSome (char :: rest)).map fun (value, after) => (some value, after)

/-- Reads an array of items. -/
def readList {α : Type} (readItem : Text → Except Fault (α × Text)) (text : Text) :
    Except Fault (List α × Text) :=
  match skipBlanks text with
  | [] => .error (.endOf .value)
  | char :: rest =>
    if char = '[' then readItems readItem (rest.length + 1) true rest
    else .error (mismatch "a sequence".toList (char :: rest))

/-! ## Alternatives -/

/-- Reads the name of one of several alternatives. -/
def readVariantName {α : Type} (variants : List (Text × α)) (text : Text) :
    Except Fault (α × Text) := do
  let (name, after) ← readText "variant identifier".toList text
  match variants.find? fun variant => variant.1 == name with
  | some variant => .ok (variant.2, after)
  | none => .error (.unknownVariant name (variants.map Prod.fst))

/-- Reads `null` where an alternative has no content. -/
def readNothing (text : Text) : Except Fault Text :=
  match skipBlanks text with
  | [] => .error (.endOf .value)
  | char :: rest =>
    if char = 'n' then readWord "ull".toList rest
    else .error (mismatch "unit".toList (char :: rest))

/-- Reads the name of one of several alternatives as the key of an object, behind the brace. -/
def readVariantKey {α : Type} (variants : List (Text × α)) (text : Text) :
    Except Fault (α × Text) :=
  match skipBlanks text with
  | [] => readVariantName variants text
  | char :: _ =>
    if char = '"' || char = '}' then readVariantName variants text else .error .keyMustBeString

/-- Reads one of several alternatives without content: its name, or an object whose only member
has this name and no content. -/
def readVariant {α : Type} (variants : List (Text × α)) (text : Text) : Except Fault (α × Text) :=
  match skipBlanks text with
  | [] => .error (.endOf .value)
  | char :: rest =>
    if char = '"' then readVariantName variants (char :: rest)
    else if char = '{' then do
      let (variant, afterName) ← readVariantKey variants rest
      let after ← readNothing (← afterColon afterName)
      match skipBlanks after with
      | [] => .error (.endOf .object)
      | brace :: final => if brace = '}' then .ok (variant, final) else .error .expectedValue
    else .error .expectedValue

/-! ## Records -/

/-- A field of a record that is filled into a draft. -/
structure Field (σ : Type) where
  name : Text
  /-- The record cannot do without the field. -/
  required : Bool
  /-- The draft holds the field already. -/
  isFilled : σ → Bool
  /-- Reads the field's value into the draft. -/
  fill : σ → Text → Except Fault (σ × Text)

/-- A kind of record. -/
structure Record (σ α : Type) where
  /-- What a message calls the record. -/
  name : Text
  fields : List (Field σ)
  /-- The draft without fields. -/
  blank : σ
  /-- The record of a complete draft. -/
  finish : σ → Except Fault α

/-- A field with a reader for its value and an accessor of the draft. -/
def Field.of {σ β : Type} (name : Text) (required : Bool) (get : σ → Option β) (set : σ → β → σ)
    (readField : Text → Except Fault (β × Text)) : Field σ where
  name := name
  required := required
  isFilled draft := (get draft).isSome
  fill draft text := (readField text).map fun (value, after) => (set draft value, after)

/-- The value of a field that the record cannot do without. -/
def require {β : Type} (name : Text) : Option β → Except Fault β
  | some value => .ok value
  | none => .error (.missingField name)

namespace Record

variable {σ α : Type}

/-- Takes one member of an object into the draft. -/
def member (record : Record σ α) (draft : σ) (key afterKey : Text) : Except Fault (σ × Text) :=
  match record.fields.find? fun field => field.name == key with
  | some field =>
    if field.isFilled draft then .error (.duplicateField key)
    else do field.fill draft (← afterColon afterKey)
  | none => do
    let value ← afterColon afterKey
    .ok (draft, ← skipValue value.length value)

/-- What a message expects of an array with too few items. -/
def arrayForm (record : Record σ α) : Text :=
  let count := record.fields.length
  record.name ++ " with ".toList ++ Text.ofNat count ++
    (if count = 1 then " element".toList else " elements".toList)

/-- Fills the fields in order from the items of an array; `index` of them are filled. -/
def items (record : Record σ α) : (remaining : List (Field σ)) → (index : Nat) → σ → Text →
    Except Fault (σ × Text)
  | [], _, draft, text => .ok (draft, text)
  | field :: others, index, draft, text =>
    match skipBlanks text with
    | [] => .error (.endOf .list)
    | char :: rest =>
      if char = ']' then
        if field.required then .error (.invalidLength index record.arrayForm)
        else items record others (index + 1) draft (char :: rest)
      else if index = 0 then do
        let (next, after) ← field.fill draft (char :: rest)
        items record others (index + 1) next after
      else if char = ',' then
        match skipBlanks rest with
        | [] => .error (.endOf .value)
        | item :: more =>
          if item = ']' then .error .trailingComma
          else do
            let (next, after) ← field.fill draft (item :: more)
            items record others (index + 1) next after
      else .error .expectedCommaOrBracket

/-- Reads the closing bracket of an array that may hold nothing more. -/
def closeArray (text : Text) : Except Fault Text :=
  match skipBlanks text with
  | [] => .error (.endOf .list)
  | char :: rest =>
    if char = ']' then .ok rest
    else if char = ',' && (skipBlanks rest).head? = some ']' then .error .trailingComma
    else .error .trailingCharacters

/-- Reads a record. -/
def read (record : Record σ α) (text : Text) : Except Fault (α × Text) :=
  match skipBlanks text with
  | [] => .error (.endOf .value)
  | char :: rest =>
    if char = '{' then do
      let (draft, after) ← readMembers record.member (rest.length + 1) true record.blank rest
      .ok (← record.finish draft, after)
    else if char = '[' then do
      let (draft, after) ← record.items record.fields 0 record.blank rest
      let value ← record.finish draft
      .ok (value, ← closeArray after)
    else .error (mismatch record.name (char :: rest))

end Record

/-- Reads a text that holds one value of an expected shape and nothing else. -/
def parseAs {α : Type} (readWhole : Text → Except Fault (α × Text)) (text : Text) :
    Except Fault α := do
  let (value, rest) ← readWhole text
  if (skipBlanks rest).isEmpty then .ok value else .error .trailingCharacters

end MdxBuild.Json

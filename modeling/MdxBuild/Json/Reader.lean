import MdxBuild.Json.Scanner

/-!
# Reading JSON

`readItems` and `readMembers` walk over the items of an array and the members of an object with any
reader of what stands there; `readValue` uses them for values of any shape, `skipValue` for values
that are not wanted, and the readers of records for values of an expected shape. A value may nest
to a fixed depth; a value that is not wanted may nest to any.
-/

namespace MdxBuild.Json

/-- Reads what follows the opening bracket of an array. The first argument bounds the items. -/
def readItems {α : Type} (readItem : Text → Except Fault (α × Text)) :
    (bound : Nat) → (first : Bool) → Text →
    Except Fault (List α × Text)
  | 0, _, _ => .error (.endOf .list)
  | bound + 1, first, text =>
    match skipBlanks text with
    | [] => .error (.endOf .list)
    | char :: rest =>
      if char = ']' then .ok ([], rest)
      else if first then do
        let (item, after) ← readItem (char :: rest)
        let (items, final) ← readItems readItem bound false after
        .ok (item :: items, final)
      else if char = ',' then
        match skipBlanks rest with
        | [] => .error (.endOf .value)
        | next :: others =>
          if next = ']' then .error .trailingComma
          else do
            let (item, after) ← readItem (next :: others)
            let (items, final) ← readItems readItem bound false after
            .ok (item :: items, final)
      else .error .expectedCommaOrBracket

/-- Reads what follows the opening brace of an object: `step` takes the value of each key into a
state. The first argument bounds the members. -/
def readMembers {σ : Type} (step : σ → Text → Text → Except Fault (σ × Text)) :
    (bound : Nat) → (first : Bool) → σ → Text → Except Fault (σ × Text)
  | 0, _, _, _ => .error (.endOf .object)
  | bound + 1, first, state, text =>
    match skipBlanks text with
    | [] => .error (.endOf .object)
    | char :: rest =>
      if char = '}' then .ok (state, rest)
      else if first then
        if char = '"' then do
          let (key, afterKey) ← readString rest
          let (next, after) ← step state key afterKey
          readMembers step bound false next after
        else .error .keyMustBeString
      else if char = ',' then
        match skipBlanks rest with
        | [] => .error (.endOf .value)
        | quote :: others =>
          if quote = '"' then do
            let (key, afterKey) ← readString others
            let (next, after) ← step state key afterKey
            readMembers step bound false next after
          else if quote = '}' then .error .trailingComma
          else .error .keyMustBeString
      else .error .expectedCommaOrBrace

/-- The text behind the colon between a key and its value. -/
def afterColon (text : Text) : Except Fault Text :=
  match skipBlanks text with
  | [] => .error (.endOf .object)
  | colon :: rest => if colon = ':' then .ok rest else .error .expectedColon

/-! ## Values of any shape -/

/-- Members with the value of one more key; the last value of a key counts. -/
def insertMember (members : List (Text × Json)) (key : Text) (value : Json) : List (Text × Json) :=
  Dictionary.insertEntry key value members

/-- The greatest depth of arrays and objects in a value. -/
def greatestDepth : Nat :=
  127

/-- Reads a value; the first argument bounds its depth. -/
def readValue : (depth : Nat) → Text → Except Fault (Json × Text)
  | depth, text =>
    match skipBlanks text with
    | [] => .error (.endOf .value)
    | char :: rest =>
      if char = 'n' then (readWord "ull".toList rest).map (.null, ·)
      else if char = 't' then (readWord "rue".toList rest).map (.bool true, ·)
      else if char = 'f' then (readWord "alse".toList rest).map (.bool false, ·)
      else if char = '-' then
        (readNumber false rest).map fun (value, after) => (.number value, after)
      else if char.isDigit then
        (readNumber true (char :: rest)).map fun (value, after) => (.number value, after)
      else if char = '"' then (readString rest).map fun (value, after) => (.string value, after)
      else if char = '[' then
        match depth with
        | 0 => .error .tooDeep
        | depth + 1 =>
          (readItems (readValue depth) (rest.length + 1) true rest).map fun (items, after) =>
            (.array items, after)
      else if char = '{' then
        match depth with
        | 0 => .error .tooDeep
        | depth + 1 =>
          (readMembers (fun members key afterKey => do
            let (value, after) ← readValue depth (← afterColon afterKey)
            .ok (insertMember members key value, after)) (rest.length + 1) true [] rest).map
              fun (members, after) => (.object members, after)
      else .error .expectedValue

/-- Reads a text that holds one value and nothing else. -/
def parse (text : Text) : Except Fault Json := do
  let (value, rest) ← readValue greatestDepth text
  if (skipBlanks rest).isEmpty then .ok value else .error .trailingCharacters

/-! ## Values that are not wanted -/

/-- Passes over what follows the opening bracket of an array. A comma has to be followed by an
item. -/
def skipItems (skipItem : Text → Except Fault Text) : (bound : Nat) → (first : Bool) → Text →
    Except Fault Text
  | 0, _, _ => .error (.endOf .list)
  | bound + 1, first, text =>
    match skipBlanks text with
    | [] => .error (.endOf .list)
    | char :: rest =>
      if char = ']' then .ok rest
      else if first then do skipItems skipItem bound false (← skipItem (char :: rest))
      else if char = ',' then do skipItems skipItem bound false (← skipItem rest)
      else .error .expectedCommaOrBracket

/-- Passes over one member of an object. -/
def skipMember (skipItem : Text → Except Fault Text) (text : Text) : Except Fault Text :=
  match skipBlanks text with
  | [] => .error (.endOf .object)
  | quote :: rest =>
    if quote = '"' then do
      skipItem (← afterColon (← skipStringFrom 0 rest))
    else .error .keyMustBeString

/-- Passes over what follows the opening brace of an object. -/
def skipMembers (skipItem : Text → Except Fault Text) : (bound : Nat) → (first : Bool) → Text →
    Except Fault Text
  | 0, _, _ => .error (.endOf .object)
  | bound + 1, first, text =>
    match skipBlanks text with
    | [] => .error (.endOf .object)
    | char :: rest =>
      if char = '}' then .ok rest
      else if first then do
        skipMembers skipItem bound false (← skipMember skipItem (char :: rest))
      else if char = ',' then do skipMembers skipItem bound false (← skipMember skipItem rest)
      else .error .expectedCommaOrBrace

/-- Passes over a value; the first argument bounds its depth and the number of its items, and the
length of the text is always enough: a text gets shorter with each bracket. -/
def skipValue : (size : Nat) → Text → Except Fault Text
  | size, text =>
    match skipBlanks text with
    | [] => .error (.endOf .value)
    | char :: rest =>
      if char = 'n' then readWord "ull".toList rest
      else if char = 't' then readWord "rue".toList rest
      else if char = 'f' then readWord "alse".toList rest
      else if char = '-' then skipNumber rest
      else if char.isDigit then skipNumber (char :: rest)
      else if char = '"' then skipStringFrom 0 rest
      else
        match size with
        | 0 => .error .expectedValue
        | size + 1 =>
          if char = '[' then skipItems (skipValue size) (size + 1) true rest
          else if char = '{' then skipMembers (skipValue size) (size + 1) true rest
          else .error .expectedValue

end MdxBuild.Json

import MdxBuild.Script.Level

/-!
# Binding patterns

What a declaration or a parameter binds: a name, or the parts of an object or a list, each possibly
with a value to fall back to.
-/

namespace MdxBuild.Script

/-- The key of an object member at the start of a text. -/
def key? (text : Text) : Option (Key × Text) :=
  match string? text with
  | some (value, rest) => some (.string value, rest)
  | none =>
    match number? text with
    | some (digits, rest) => some (.number digits, rest)
    | none => (anyName? text).map fun (name, rest) => (.name name, rest)

namespace Level

variable (level : Level) (scope : Scope)

/-- A pattern, possibly with a value to fall back to. -/
def patternItem : Reader := fun text => do
  let (target, rest) ← level.pattern scope text
  match after "=" rest with
  | none => some (target, rest)
  | some behind =>
    let (value, remainder) ← level.assignment scope behind
    some (.initialized target value, remainder)

/-- A pattern item, or a pattern for the rest behind three dots. -/
def patternOrRest : Reader := fun text =>
  match after "..." text with
  | some rest => do
    let (target, behind) ← level.pattern scope rest
    some (.spread target, behind)
  | none => level.patternItem scope text

/-- A member of an object pattern; the rest of an object is bound to a name. -/
def patternMember : Reader := fun text =>
  match after "..." text with
  | some rest => (scope.name? rest).map fun (name, behind) => (.spread (.name name), behind)
  | none =>
    match after "[" text with
    | some rest => do
      let (key, behind) ← enclosed "]" (level.assignment scope) rest
      let (value, remainder) ← level.patternItem scope (← after ":" behind)
      some (.computedProperty key value, remainder)
    | none => do
      let (key, rest) ← key? text
      match after ":" rest with
      | some behind =>
        let (value, remainder) ← level.patternItem scope behind
        some (.boundMember key value, remainder)
      | none =>
        let _ ← scope.name? text
        level.patternItem scope text

/-- A list pattern's item: places may be left out. -/
def patternPlace : Reader := fun text =>
  if startsWith "," text then some (.hole, text) else level.patternOrRest scope text

/-- Items of which at most the last one stands for the rest, without a comma behind it. -/
def restComesLast : List Node → Bool
  | [] => true
  | [.beforeComma _] => false
  | [_] => true
  | .spread _ :: _ => false
  | _ :: others => restComesLast others

/-- Items of which only the last one may stand for the rest. -/
def restLast (reader : ListReader) : ListReader := fun text =>
  (reader text).filter fun (nodes, _) => restComesLast nodes

/-- A name or a pattern. -/
def readPattern : Reader := fun text =>
  match after "\x7b" text with
  | some rest => do
    let (members, behind) ← restLast (items "\x7d" (level.patternMember scope)) rest
    some (.objectPattern members, behind)
  | none =>
    match after "[" text with
    | some rest => do
      let (places, behind) ← restLast (items "]" (level.patternPlace scope)) rest
      some (.arrayPattern places, behind)
    | none => (scope.name? text).map fun (name, rest) => (.name name, rest)

/-- The parameters of a function, behind the opening parenthesis. -/
def parameters : ListReader :=
  restLast (items ")" (level.patternOrRest scope))

end Level

end MdxBuild.Script

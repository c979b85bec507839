import MdxBuild.Script.Node
import MdxBuild.Script.Number

/-!
# Levels of nesting

Module code nests without bound: expressions hold statements and markup, which hold expressions. The
readers of the parts of one level of nesting are given the readers for the parts inside of them, so
none of them is recursive; how deep a text nests is bounded by its length.
-/

namespace MdxBuild.Script

/-- What may stand in a piece of code because of the code around it. -/
structure Scope where
  canReturn : Bool := false
  canAwait : Bool := true
  canYield : Bool := false

/-- The scope of a function's body. -/
def Scope.body (isAsync isGenerator : Bool) : Scope :=
  ⟨true, isAsync, isGenerator⟩

/-- A word is no name: some words are names where what they are for cannot be done. -/
def Scope.reserves (scope : Scope) (word : Text) : Bool :=
  if word = "await".toList then scope.canAwait
  else if word = "yield".toList then scope.canYield
  else reservedWords.contains word

/-- The name of a variable at the start of a text. -/
def Scope.name? (scope : Scope) (text : Text) : Option (Text × Text) :=
  (anyName? text).filter fun (name, _) => !scope.reserves name

/-- Reads a node at the start of a text and gives the rest. -/
abbrev Reader : Type :=
  Text → Option (Node × Text)

/-- Reads a list of nodes at the start of a text and gives the rest. -/
abbrev ListReader : Type :=
  Text → Option (List Node × Text)

/-- The readers for the parts inside of a part. -/
structure Level where
  /-- An expression without a comma on its outside. -/
  assignment : Scope → Reader
  /-- An expression whose operators bind more tightly than a strength. -/
  operation : (strength : Nat) → Scope → Reader
  /-- An expression that starts with an operator, or one without operators. -/
  unary : Scope → Reader
  /-- An expression without operators, calls and members. -/
  primary : Scope → Reader
  /-- What is bound to a value: a name or a pattern. -/
  pattern : Scope → Reader
  statement : Scope → Reader
  /-- A markup element, behind the sign that opens its tag. -/
  markup : Scope → Reader

/-- The level at which nothing can be read. -/
def Level.bottom : Level where
  assignment _ _ := none
  operation _ _ _ := none
  unary _ _ := none
  primary _ _ := none
  pattern _ _ := none
  statement _ _ := none
  markup _ _ := none

/-- Items separated by commas up to a closing punctuator, whether a comma stands behind the last
one, and the rest. -/
def itemsUntil (close : String) (item : Reader) : (fuel : Nat) → Text →
    Option (List Node × Bool × Text)
  | 0, _ => none
  | fuel + 1, text =>
    match after close text with
    | some rest => some ([], false, rest)
    | none => do
      let (first, rest) ← item text
      match after close rest with
      | some behind => some ([first], false, behind)
      | none =>
        let behind ← after "," rest
        match after close behind with
        | some remainder => some ([first], true, remainder)
        | none =>
          let (others, endsWithComma, remainder) ← itemsUntil close item fuel behind
          some (first :: others, endsWithComma, remainder)

/-- Items of which a last spread one keeps the comma behind it, since it matters there. -/
def keepComma (endsWithComma : Bool) : List Node → List Node
  | [] => []
  | [.spread value] => [if endsWithComma then .beforeComma (.spread value) else .spread value]
  | item :: others => item :: keepComma endsWithComma others

/-- The items of a text up to a closing punctuator. -/
def items (close : String) (item : Reader) : ListReader := fun text => do
  let (nodes, endsWithComma, rest) ← itemsUntil close item (text.length + 1) text
  some (keepComma endsWithComma nodes, rest)

/-- Items separated by commas, at least one. -/
def itemsWhile (item : Reader) : (fuel : Nat) → ListReader
  | 0, _ => none
  | fuel + 1, text => do
    let (first, rest) ← item text
    match after "," rest with
    | none => some ([first], rest)
    | some behind =>
      let (others, remainder) ← itemsWhile item fuel behind
      some (first :: others, remainder)

namespace Level

variable (level : Level) (scope : Scope)

/-- An expression, possibly several with commas between them. -/
def expression : Reader := fun text => do
  let (values, rest) ← itemsWhile (level.assignment scope) (text.length + 1) text
  match values with
  | [value] => some (value, rest)
  | _ => some (.sequence values, rest)

/-- An expression, or a spread one behind three dots. -/
def spreadable : Reader := fun text =>
  match after "..." text with
  | some rest => do
    let (value, behind) ← level.assignment scope rest
    some (.spread value, behind)
  | none => level.assignment scope text

/-- A value and the punctuator behind it. -/
def enclosed (close : String) (value : Reader) : Reader := fun text => do
  let (inner, rest) ← value text
  some (inner, ← after close rest)

end Level

/-! ## Bodies -/

/-- The rest of the code behind a statement: a semicolon ends it, or that nothing more can belong to
it. -/
def afterStatement? (text : Text) : Option Text :=
  match after ";" text with
  | some rest => some rest
  | none =>
    if lineEndsFirst text || isEnd text || startsWith "\x7d" text then some text else none

/-- The statement read at the start of a body: a string alone is a directive, kept as written. -/
def asDirective (text : Text) (statement : Node) : Option Node :=
  match statement, string? text with
  | .expression (.string _), some (_, rest) =>
    let start := (token text).drop 1
    some (.directive (start.take (start.length - rest.length - 1)))
  | _, _ => none

/-- Statements while there are some; directives may stand first. -/
def statementsUntil (isOver : Text → Bool) (statement : Reader) :
    (fuel : Nat) → (directives : Bool) → ListReader
  | 0, _, _ => none
  | fuel + 1, directives, text =>
    if isOver text then some ([], text)
    else do
      let (first, rest) ← statement text
      let directive := if directives then asDirective text first else none
      let (others, remainder) ←
        statementsUntil isOver statement fuel directive.isSome rest
      some (directive.getD first :: others, remainder)

namespace Level

variable (level : Level) (scope : Scope)

/-- The statements of a block behind its opening brace, with the closing one. -/
def blockRest (directives : Bool) : ListReader := fun text => do
  let (body, rest) ←
    statementsUntil (startsWith "\x7d") (level.statement scope) (text.length + 1) directives text
  some (body, ← after "\x7d" rest)

end Level

end MdxBuild.Script

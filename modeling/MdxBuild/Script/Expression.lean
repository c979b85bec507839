import MdxBuild.Script.Pattern
import MdxBuild.Script.Target

/-!
# Expressions

The expressions of module code, from names and literals up to assignments. Operators bind by their
strength; operators of one strength group to the left, except for powers.
-/

namespace MdxBuild.Script

/-! ## Operators -/

/-- The strength of an operator between two operands; stronger operators bind more tightly. -/
def strength? (operator : Text) : Option Nat :=
  match String.ofList operator with
  | "??" => some 6
  | "||" => some 7
  | "&&" => some 8
  | "|" => some 9
  | "^" => some 10
  | "&" => some 11
  | "==" | "!=" | "===" | "!==" => some 12
  | "<" | ">" | "<=" | ">=" | "in" | "instanceof" => some 13
  | "<<" | ">>" | ">>>" => some 14
  | "+" | "-" => some 15
  | "*" | "/" | "%" => some 16
  | "**" => some 17
  | _ => none

/-- The operator between two operands at the start of a text, with its strength. -/
def operator? (text : Text) : Option (Text × Nat × Text) := do
  let (symbol, rest) ← (punctuator? text).orElse fun _ => word? text
  let strength ← strength? symbol
  some (symbol, strength, rest)

/-- The operators in front of an operand that change nothing. -/
def unaryOperators : List Text :=
  ["!", "~", "+", "-", "typeof", "void", "delete"].map String.toList

/-- The operators that store a value. -/
def assignmentOperators : List Text :=
  ["=", "+=", "-=", "*=", "/=", "%=", "**=", "<<=", ">>=", ">>>=", "&=", "|=", "^=", "&&=", "||=",
    "??="].map String.toList

/-- The operators that may leave their right operand alone. -/
def logicalOperators : List Text :=
  ["&&", "||", "??"].map String.toList

/-- An operation of logic. -/
def isLogical : Node → Bool
  | .binary operator _ _ => operator = "||".toList || operator = "&&".toList
  | _ => false

/-- The operands of a fallback do not mix with it: operations of logic have to be in parentheses.
An operand that starts with a parenthesis counts as if it were in parentheses, and the left operand
does not count beside a right one that is an operation of logic. -/
def mixesOperators (left right : Node) (leftGrouped rightGrouped : Bool) : Bool :=
  if isLogical right then !rightGrouped else isLogical left && !leftGrouped

/-- An operation with an operator in front of its operand. -/
def isUnary : Node → Bool
  | .unary _ _ => true
  | _ => false

namespace Level

variable (level : Level) (scope : Scope)

/-! ## Functions -/

/-- A function, behind its keyword. The name of a declared function belongs to the code around it,
that of another one to the function itself. -/
def function (isDeclared isAsync : Bool) : Reader := fun text => do
  let (isGenerator, text) := match after "*" text with
    | some rest => (true, rest)
    | none => (false, text)
  let own := Scope.body isAsync isGenerator
  let (id, text) := match (if isDeclared then scope else own).name? text with
    | some (name, rest) => (some name, rest)
    | none => (none, text)
  let (parameters, rest) ← level.parameters own (← after "(" text)
  let (body, behind) ← level.blockRest own true (← after "\x7b" rest)
  some (.function isAsync isGenerator id parameters body, behind)

/-- The text behind the keyword of an asynchronous function. -/
def afterAsyncFunction? (text : Text) : Option Text := do
  let rest ← afterWord? "async" text
  if lineEndsFirst rest then none else afterWord? "function" rest

/-- The body of an arrow function. -/
def arrowBody (isAsync : Bool) : Reader := fun text =>
  match after "\x7b" text with
  | some rest => do
    let (body, behind) ← level.blockRest (.body isAsync false) true rest
    some (.block body, behind)
  | none => level.assignment (.body isAsync false) text

/-- An arrow function with given parameters, from its arrow on. -/
def arrowFrom (isAsync : Bool) (parameters : List Node) : Reader := fun text =>
  if lineEndsFirst text then none
  else do
    let (body, rest) ← level.arrowBody isAsync (← after "=>" text)
    some (.arrow isAsync parameters body, rest)

/-! ## Literals -/

/-- A member of an object. A name alone may have a value to fall back to, as long as the object can
still become a pattern. -/
def member : Reader := fun text =>
  if startsWith "..." text then level.spreadable scope text
  else
    match after "[" text with
    | some rest => do
      let (key, behind) ← enclosed "]" (level.assignment scope) rest
      let (value, remainder) ← level.assignment scope (← after ":" behind)
      some (.computedProperty key value, remainder)
    | none => do
      let (key, rest) ← key? text
      match after ":" rest with
      | some behind =>
        let (value, remainder) ← level.assignment scope behind
        some (.property key value, remainder)
      | none =>
        let (name, behind) ← scope.name? text
        match after "=" behind with
        | none => some (.shorthand name, behind)
        | some behind =>
          let (value, remainder) ← level.assignment scope behind
          some (.initialized (.shorthand name) value, remainder)

/-- An item of a list; places may be left out. -/
def place : Reader := fun text =>
  if startsWith "," text then some (.hole, text) else level.spreadable scope text

/-- The values of a template and the texts behind them, from the first value on. -/
def templateParts : (fuel : Nat) → ListReader
  | 0, _ => none
  | fuel + 1, text => do
    let (value, rest) ← level.expression scope text
    match ← templateText? (← after "\x7d" rest) with
    | (tail, .closed, remainder) => some ([.templatePart value tail], remainder)
    | (tail, .value, behind) =>
      let (others, remainder) ← templateParts fuel behind
      some (.templatePart value tail :: others, remainder)

/-- A template, behind its opening quote. -/
def template : Reader := fun text => do
  match ← templateText? text with
  | (head, .closed, rest) => some (.template head [], rest)
  | (head, .value, rest) =>
    let (parts, behind) ← level.templateParts scope (rest.length + 1) rest
    some (.template head parts, behind)

/-! ## Expressions without operators -/

/-- The arguments of a call, behind the opening parenthesis. -/
def arguments : ListReader :=
  items ")" (level.spreadable scope)

/-- The members that follow a value, and the calls if they are wanted. -/
def accesses (calls : Bool) : (fuel : Nat) → Node → Reader
  | 0, _, _ => none
  | fuel + 1, node, text =>
    match after "." text with
    | some rest => do
      let (property, behind) ← anyName? rest
      accesses calls fuel (.member node property) behind
    | none =>
      match after "[" text with
      | some rest => do
        let (property, behind) ← enclosed "]" (level.expression scope) rest
        accesses calls fuel (.index node property) behind
      | none =>
        match if calls then after "(" text else none with
        | some rest => do
          let (args, behind) ← level.arguments scope rest
          accesses calls fuel (.call false node args) behind
        | none => some (node, text)

/-- The creation of an object, behind its keyword. -/
def creation : Reader := fun text => do
  let (head, rest) ← level.primary scope text
  let (callee, behind) ← level.accesses scope false (rest.length + 1) head rest
  match after "(" behind with
  | none => some (.create callee [], behind)
  | some inner =>
    let (args, remainder) ← level.arguments scope inner
    some (.create callee args, remainder)

/-- An expression that starts with a word. -/
def wordExpression : Reader := fun text =>
  let named := (scope.name? text).map fun (name, rest) => (Node.name name, rest)
  match word? text with
  | none => named
  | some (word, rest) =>
    match String.ofList word with
    | "this" | "null" | "true" | "false" => some (.word word, rest)
    | "function" => level.function scope false false rest
    | "new" => level.creation scope rest
    | _ =>
      match afterAsyncFunction? text with
      | some behind => level.function scope false true behind
      | none => named

/-- An expression without operators, calls and members. -/
def readPrimary : Reader := fun text =>
  match token text with
  | [] => none
  | '(' :: rest => do
    let (value, behind) ← enclosed ")" (level.expression scope) rest
    some (.group value, behind)
  | '[' :: rest => do
    let (places, behind) ← items "]" (level.place scope) rest
    some (.array places, behind)
  | '{' :: rest => do
    let (members, behind) ← items "\x7d" (level.member scope) rest
    some (.object members, behind)
  | '`' :: rest => level.template scope rest
  | first :: rest =>
    if isQuote first then (string? text).map fun (value, rest) => (.string value, rest)
    else if first.isDigit || first = '.' then
      (number? text).map fun (digits, rest) => (.number digits, rest)
    else level.wordExpression scope (first :: rest)

/-! ## Operators -/

/-- The members and calls of a value, and the increment or decrement behind them. -/
def postfixedFrom (head : Node) : Reader := fun text => do
  let (node, rest) ← level.accesses scope true (text.length + 1) head text
  match punctuator? rest with
  | some (symbol, behind) =>
    if (symbol = "++".toList || symbol = "--".toList) && !lineEndsFirst rest then
      if isTarget node then some (.update symbol false node, behind) else none
    else some (node, rest)
  | none => some (node, rest)

/-- A markup element, which has no members, or another expression without operators in front of
it. -/
def operand : Reader := fun text =>
  match token text with
  | '<' :: rest => level.markup scope rest
  | _ => do
    let (head, rest) ← level.readPrimary scope text
    level.postfixedFrom scope head rest

/-- The code behind `await` goes on, on the same line, as an operand that only an asynchronous
function can wait for; otherwise the word is a name where nothing can be waited for. -/
def continuesAwait (text : Text) : Bool :=
  !lineEndsFirst text && ((word? text).isSome || (number? text).isSome || (string? text).isSome)

/-- An expression that starts with an operator, or one without operators. -/
def readUnary : Reader := fun text =>
  match (punctuator? text).orElse fun _ => word? text with
  | none => level.operand scope text
  | some (symbol, rest) =>
    if unaryOperators.contains symbol || (symbol = "await".toList && scope.canAwait) then do
      let (operand, behind) ← level.unary scope rest
      some (.unary symbol operand, behind)
    else if symbol = "++".toList || symbol = "--".toList then do
      let (operand, behind) ← level.unary scope rest
      if isTarget operand then some (.update symbol true operand, behind) else none
    else if symbol = "await".toList && continuesAwait rest then none
    else level.operand scope text

/-- The operators behind an operand that bind more tightly than a strength, with their operands. The
operand starts with a parenthesis or not. -/
def operationRest (least : Nat) (grouped : Bool) : (fuel : Nat) → Node → Reader
  | 0, _, _ => none
  | fuel + 1, left, text =>
    match operator? text with
    | none => some (left, text)
    | some (symbol, strength, rest) =>
      if strength ≤ least then some (left, text)
      else do
        let isPower := symbol = "**".toList
        let (right, behind) ←
          level.operation (if isPower then strength - 1 else strength) scope rest
        let mixes := symbol = "??".toList && mixesOperators left right grouped (startsWith "(" rest)
        if mixes || (isPower && isUnary left) then none
        else operationRest least grouped fuel (.binary symbol left right) behind

/-- An expression whose operators bind more tightly than a strength. -/
def readOperation (least : Nat) : Reader := fun text => do
  let (left, rest) ← level.readUnary scope text
  level.operationRest scope least (startsWith "(" text) (rest.length + 1) left rest

/-! ## Choices and assignments -/

/-- The code behind an operation: it may be the test of a choice between two expressions, or what a
value is assigned to. -/
def assignmentFrom (left : Node) : Reader := fun text =>
  match punctuator? text with
  | none => some (left, text)
  | some (symbol, rest) =>
    if symbol = ['?'] then do
      let (positive, behind) ← level.assignment scope rest
      let (negative, remainder) ← level.assignment scope (← after ":" behind)
      some (.conditional left positive negative, remainder)
    else if assignmentOperators.contains symbol then do
      let target ←
        if symbol = ['='] then left.toTarget? false else if isTarget left then some left else none
      let (value, behind) ← level.assignment scope rest
      some (.assign symbol target value, behind)
    else some (left, text)

/-- The code behind a first operand, which starts with a parenthesis or not. -/
def continued (grouped : Bool) (head : Node) : Reader := fun text => do
  let (first, rest) ← level.postfixedFrom scope head text
  let (left, behind) ← level.operationRest scope 0 grouped (rest.length + 1) first rest
  level.assignmentFrom scope left behind

/-- What a list in parentheses is as an expression: one or more values without a comma at the
end. -/
def groupOf? (nodes : List Node) (endsWithComma : Bool) : Option Node :=
  let isSpread := fun (node : Node) =>
    match node with
    | .spread _ => true
    | _ => false
  if endsWithComma || nodes.any isSpread then none
  else
    match nodes with
    | [] => none
    | [value] => some (.group value)
    | values => some (.group (.sequence values))

/-- Words that are names, though they mean something of their own in some places. -/
def contextualWords : List Text :=
  ["abstract", "accessor", "any", "as", "assert", "asserts", "async", "bigint", "boolean",
    "constructor", "declare", "defer", "from", "get", "global", "implements", "infer", "interface",
    "intrinsic", "is", "keyof", "let", "meta", "module", "namespace", "never", "number", "object",
    "of", "out", "override", "package", "private", "protected", "public", "readonly", "require",
    "satisfies", "set", "source", "static", "string", "symbol", "target", "type", "undefined",
    "unique", "unknown", "using"].map String.toList

/-- The code behind `async (` can only be that of an arrow function, whatever its end is: a list
that is empty and before a colon or brace, or one that starts with three dots and an ordinary
name. -/
def mustBeArrow (text : Text) : Bool :=
  match after ")" text with
  | some rest => startsWith ":" rest || startsWith "\x7b" rest
  | none =>
    match (after "..." text).bind anyName? with
    | some (name, _) => !reservedWords.contains name && !contextualWords.contains name
    | none => false

/-- An arrow function, or what starts with a list in parentheses, behind the opening one. The list
has `async` in front of it or not. -/
def listed (isAsync : Bool) : Reader := fun text => do
  let (nodes, endsWithComma, rest) ←
    itemsUntil ")" (level.spreadable scope) (text.length + 1) text
  let kept := keepComma endsWithComma nodes
  if startsWith "=>" rest then
    level.arrowFrom isAsync (← Node.toPatternItems? kept) rest
  else if isAsync then
    if mustBeArrow text then none
    else level.continued scope false (.call false (.name "async".toList) kept) rest
  else level.continued scope true (← groupOf? nodes endsWithComma) rest

/-- The parameters of an arrow function that are a name alone, whether `async` is in front of it,
and the text from the arrow on. -/
def loneParameter? (text : Text) : Option (Bool × Text × Text) := do
  let (name, rest) ← scope.name? text
  if startsWith "=>" rest then some (false, name, rest)
  else do
    let behind ← afterWord? "async" text
    let (parameter, remainder) ← (Scope.body true scope.canYield).name? behind
    if !lineEndsFirst behind && startsWith "=>" remainder then some (true, parameter, remainder)
    else none

/-- The text behind the parenthesis that opens a list, and whether `async` is in front of it. -/
def openedList? (text : Text) : Option (Bool × Text) :=
  match after "(" text with
  | some rest => some (false, rest)
  | none => do
    let rest ← afterWord? "async" text
    if lineEndsFirst rest then none else (after "(" rest).map fun behind => (true, behind)

/-- An expression without a comma on its outside. -/
def readAssignment : Reader := fun text =>
  match loneParameter? scope text with
  | some (isAsync, name, rest) => level.arrowFrom isAsync [.name name] rest
  | none =>
    match openedList? text with
    | some (isAsync, rest) => level.listed scope isAsync rest
    | none => do
      let (left, rest) ← level.readOperation scope 0 text
      level.assignmentFrom scope left rest

end Level

end MdxBuild.Script

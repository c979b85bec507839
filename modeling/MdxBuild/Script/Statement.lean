import MdxBuild.Script.Markup

/-!
# Statements

The statements of module code that may stand anywhere in it.
-/

namespace MdxBuild.Script

/-- A constant and a pattern have to be given a value where they are declared. -/
def mayStayUnset (kind : Text) : Node → Bool
  | .name _ => kind != "const".toList
  | .initialized _ _ => true
  | _ => false

/-- A statement may stand without a block around it where another statement branches: no declaration
may, apart from variables without a block scope and ordinary functions. -/
def mayBeBranch : Node → Bool
  | .variableDeclaration kind _ => kind = "var".toList
  | .functionDeclaration (.function isAsync isGenerator _ _ _) => !isAsync && !isGenerator
  | _ => true

/-- The code behind `let` uses a variable of that name: it goes on as an expression. -/
def usesLet (text : Text) : Bool :=
  match operator? text with
  | some (symbol, _) => !logicalOperators.contains symbol
  | none =>
    (punctuator? text).any fun (symbol, _) =>
      assignmentOperators.contains symbol || [".".toList, "(".toList, ";".toList].contains symbol

namespace Level

variable (level : Level) (scope : Scope)

/-- Declared variables, behind the keyword of their kind. -/
def variableStatement (kind : Text) : Reader := fun text => do
  let (declarators, rest) ← itemsWhile (level.patternItem scope) (text.length + 1) text
  if declarators.all (mayStayUnset kind) then
    some (.variableDeclaration kind declarators, ← afterStatement? rest)
  else none

/-- A function that is declared under its name. -/
def functionDeclaration (isAsync : Bool) : Reader := fun text => do
  match ← level.function scope true isAsync text with
  | (.function isAsync isGenerator (some name) parameters body, rest) =>
    some (.functionDeclaration (.function isAsync isGenerator (some name) parameters body), rest)
  | _ => none

/-- A statement that is the branch of another one. -/
def branchStatement : Reader := fun text =>
  (level.statement scope text).filter fun (statement, _) => mayBeBranch statement

/-- A statement of two branches or one, behind its keyword. -/
def branch : Reader := fun text => do
  let (test, rest) ← enclosed ")" (level.expression scope) (← after "(" text)
  let (positive, behind) ← level.branchStatement scope rest
  match afterWord? "else" behind with
  | none => some (.branch test positive, behind)
  | some rest =>
    let (negative, remainder) ← level.branchStatement scope rest
    some (.branchElse test positive negative, remainder)

/-- A return, behind its keyword. -/
def returning : Reader := fun text =>
  if !scope.canReturn then none
  else if lineEndsFirst text || isEnd text || startsWith ";" text || startsWith "\x7d" text then
    (afterStatement? text).map fun rest => (.returnNothing, rest)
  else do
    let (value, rest) ← level.expression scope text
    some (.returnValue value, ← afterStatement? rest)

/-- A statement that is an expression. -/
def expressionStatement : Reader := fun text => do
  let (value, rest) ← level.expression scope text
  some (.expression value, ← afterStatement? rest)

/-- A statement. -/
def readStatement : Reader := fun text =>
  match after "\x7b" text with
  | some rest => do
    let (body, behind) ← level.blockRest scope false rest
    some (.block body, behind)
  | none =>
    match after ";" text with
    | some rest => some (.empty, rest)
    | none =>
      match word? text with
      | none => level.expressionStatement scope text
      | some (word, rest) =>
        match String.ofList word with
        | "const" | "var" => level.variableStatement scope word rest
        | "let" =>
          if usesLet rest then level.expressionStatement scope text
          else level.variableStatement scope word rest
        | "function" => level.functionDeclaration scope false rest
        | "if" => level.branch scope rest
        | "return" => level.returning scope rest
        | _ =>
          match afterAsyncFunction? text with
          | some behind => level.functionDeclaration scope true behind
          | none => level.expressionStatement scope text

end Level

/-- The level at which everything can be read that nests no deeper than `depth`. -/
def Level.ofDepth : (depth : Nat) → Level
  | 0 => .bottom
  | depth + 1 =>
    let inner := Level.ofDepth depth
    { assignment := inner.readAssignment
      operation := fun least scope => inner.readOperation scope least
      unary := inner.readUnary
      primary := inner.readPrimary
      pattern := inner.readPattern
      statement := inner.readStatement
      markup := inner.readMarkup }

end MdxBuild.Script

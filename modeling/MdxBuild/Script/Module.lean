import MdxBuild.Script.Parts
import MdxBuild.Script.Statement

/-!
# Modules

A module is a list of statements, among them imports and exports, which stand on its outside only.
No name is exported twice.
-/

namespace MdxBuild.Script

/-- What may stand on the outside of a module. -/
def moduleScope : Scope :=
  {}

/-! ## Imports -/

/-- The module that a statement names, behind `from`. -/
def fromSource? (text : Text) : Option (Content × Text) := do
  string? (← afterWord? "from" text)

/-- The name in a module that an import or export statement mentions; a string has to be a text. -/
def moduleName? (text : Text) : Option (Key × Text) :=
  match string? text with
  | some (value, rest) => if value.text?.isSome then some (.string value, rest) else none
  | none => (anyName? text).map fun (name, rest) => (.name name, rest)

/-- Items in braces, behind the opening one. -/
def braced {α : Type} (item : Text → Option (α × Text)) : (fuel : Nat) → Text →
    Option (List α × Text)
  | 0, _ => none
  | fuel + 1, text =>
    match after "\x7d" text with
    | some rest => some ([], rest)
    | none => do
      let (first, rest) ← item text
      match after "\x7d" rest with
      | some behind => some ([first], behind)
      | none =>
        let (others, behind) ← braced item fuel (← after "," rest)
        some (first :: others, behind)

/-- A named import item: a name of the module, possibly bound under another name. -/
def importItem? (text : Text) : Option (ImportItem × Text) := do
  let (exported, rest) ← moduleName? text
  match afterWord? "as" rest with
  | some behind =>
    let (binding, remainder) ← moduleScope.name? behind
    some (.named exported binding, remainder)
  | none =>
    let (binding, remainder) ← moduleScope.name? text
    some (.named exported binding, remainder)

/-- The named items, or the one for the whole module, that an import statement lists. -/
def importList? (text : Text) : Option (List ImportItem × Text) :=
  match after "*" text with
  | some rest => do
    let (binding, behind) ← moduleScope.name? (← afterWord? "as" rest)
    some ([.all binding], behind)
  | none => do
    let rest ← after "\x7b" text
    braced importItem? (rest.length + 1) rest

/-- What an import statement binds, up to its `from`. -/
def importClause? (text : Text) : Option (List ImportItem × Text) :=
  match moduleScope.name? text with
  | none => importList? text
  | some (binding, rest) =>
    match after "," rest with
    | none => some ([.default binding], rest)
    | some behind => do
      let (others, remainder) ← importList? behind
      some (.default binding :: others, remainder)

/-- An import statement, behind its keyword. -/
def importStatement : Reader := fun text =>
  match string? text with
  | some (source, rest) => do some (.importEffects source, ← afterStatement? rest)
  | none => do
    let (clause, rest) ← importClause? text
    let (source, behind) ← fromSource? rest
    some (.importItems clause source, ← afterStatement? behind)

/-! ## Exports -/

/-- An item of an export statement. -/
def exportItem? (text : Text) : Option (ExportItem × Text) := do
  let (source, rest) ← moduleName? text
  match afterWord? "as" rest with
  | none => some (⟨source, source⟩, rest)
  | some behind =>
    let (exported, remainder) ← moduleName? behind
    some (⟨source, exported⟩, remainder)

/-- What is exported without naming another module has to be a variable. -/
def isVariable : Key → Bool
  | .name text => !reservedWords.contains text
  | _ => false

/-- An export of listed items, behind the opening brace. -/
def exportList : Reader := fun text => do
  let (items, rest) ← braced exportItem? (text.length + 1) text
  match fromSource? rest with
  | some (source, behind) => some (.exportItems items (some source), ← afterStatement? behind)
  | none =>
    if items.all fun item => isVariable item.source then
      some (.exportItems items none, ← afterStatement? rest)
    else none

/-- An export of all that another module exports, behind the star. -/
def exportAll : Reader := fun text => do
  let (binding, rest) ← match afterWord? "as" text with
    | some rest => (moduleName? rest).map fun (name, behind) => (some name, behind)
    | none => some (none, text)
  let (source, behind) ← fromSource? rest
  some (.exportAll binding source, ← afterStatement? behind)

namespace Level

variable (level : Level) (scope : Scope)

/-- A default export, behind its keywords. -/
def exportDefault : Reader := fun text =>
  let function? := match afterWord? "function" text with
    | some rest => some (false, rest)
    | none => (afterAsyncFunction? text).map fun rest => (true, rest)
  match function? with
  | some (isAsync, rest) => do
    let (function, behind) ← level.function scope true isAsync rest
    some (.exportDefault function, behind)
  | none => do
    let (value, rest) ← level.assignment scope text
    some (.exportDefault value, ← afterStatement? rest)

/-- An exported declaration, behind the keyword of the export. -/
def exportDeclaration : Reader := fun text => do
  let (declaration, rest) ← level.statement scope text
  match declaration with
  | .variableDeclaration _ _ => some (.exportDeclaration declaration, rest)
  | .functionDeclaration _ => some (.exportDeclaration declaration, rest)
  | _ => none

/-- An export statement, behind its keyword. -/
def exportStatement : Reader := fun text =>
  match after "\x7b" text with
  | some rest => exportList rest
  | none =>
    match after "*" text with
    | some rest => exportAll rest
    | none =>
      match afterWord? "default" text with
      | some rest => level.exportDefault scope rest
      | none => level.exportDeclaration scope text

/-- A statement on the outside of a module. -/
def moduleStatement : Reader := fun text =>
  match afterWord? "import" text with
  | some rest => importStatement rest
  | none =>
    match afterWord? "export" text with
    | some rest => level.exportStatement scope rest
    | none => level.statement scope text

end Level

/-! ## Exported names -/

mutual

/-- The names that a pattern binds. -/
def Node.boundNames : Node → List Text
  | .name id => [id]
  | .initialized target _ => target.boundNames
  | .property _ value => value.boundNames
  | .computedProperty _ value => value.boundNames
  | .spread value => value.boundNames
  | .objectPattern members => Node.boundNamesOfAll members
  | .arrayPattern items => Node.boundNamesOfAll items
  | _ => []

/-- The names that patterns bind. -/
def Node.boundNamesOfAll : List Node → List Text
  | [] => []
  | node :: others => node.boundNames ++ Node.boundNamesOfAll others

end

/-- The value of a key. -/
def Key.content : Key → Content
  | .name text => .ofText text
  | .string value => value
  | .number digits => .ofText digits

/-- The names under which a statement exports something. -/
def Node.exportedNames : Node → List Content
  | .exportItems items _ => items.map fun item => item.exported.content
  | .exportAll binding _ => binding.toList.map Key.content
  | .exportDeclaration (.variableDeclaration _ declarators) =>
    (Node.boundNamesOfAll declarators).map Content.ofText
  | .exportDeclaration (.functionDeclaration (.function _ _ id _ _)) =>
    id.toList.map Content.ofText
  | .exportDefault _ => [Content.ofText "default".toList]
  | _ => []

namespace Module

/-- The module of a code, unless the code is malformed. Nothing in a text nests deeper than it is
long, and statements stand one level above the expressions that they start with. -/
def ofText? (code : Text) : Option Module := do
  let level := Level.ofDepth (2 * code.length + 4)
  let (statements, _) ←
    statementsUntil isEnd (level.moduleStatement moduleScope) (code.length + 1) true code
  if (statements.flatMap Node.subnodes).any isUnfinished then none
  else if (statements.flatMap Node.exportedNames).Nodup then some statements
  else none

end Module

end MdxBuild.Script

import MdxBuild.Script.Content

/-!
# Module code as a tree

The code of a generated module: the statements, expressions and binding patterns that such modules
are made of, and the markup elements inside them. One type holds them all, so that a function on
the tree of a module is one recursion. Parentheses are kept as groups, as far as they were written.
-/

namespace MdxBuild.Script

/-- The key of an object member that is known from its code. -/
inductive Key where
  | name (text : Text)
  | string (value : Content)
  | number (digits : Text)
deriving DecidableEq, Repr

/-- The name that a key is, if it is one. -/
def Key.name? : Key → Option Text
  | .name text => some text
  | _ => none

/-- What an import statement binds. -/
inductive ImportItem where
  | default (binding : Text)
  | all (binding : Text)
  | named (exported : Key) (binding : Text)
deriving DecidableEq, Repr

/-- The name that an item of an import statement binds. -/
def ImportItem.binding : ImportItem → Text
  | .default binding => binding
  | .all binding => binding
  | .named _ binding => binding

/-- What an export statement exports, and under which name. -/
structure ExportItem where
  source : Key
  exported : Key
deriving DecidableEq, Repr

/-- The tag of a markup element. -/
inductive Tag where
  /-- An element of the page. -/
  | intrinsic (name : Text)
  /-- A component: a variable or `this`, and the properties that lead from it to the component. -/
  | component (root : Text) (path : List Text)
  | namespaced (space name : Text)
deriving DecidableEq, Repr

/-- A node of the tree of a module. -/
inductive Node where
  -- Expressions
  | name (id : Text)
  /-- One of `this`, `null`, `true` and `false`. -/
  | word (text : Text)
  | number (digits : Text)
  | string (value : Content)
  /-- A template: its text up to the first value, then the values with the text behind each. -/
  | template (head : Text) (parts : List Node)
  | templatePart (value : Node) (tail : Text)
  | array (items : List Node)
  | hole
  | object (members : List Node)
  | property (key : Key) (value : Node)
  /-- A member that is written as the name of a variable alone. -/
  | shorthand (id : Text)
  | computedProperty (key value : Node)
  | spread (value : Node)
  /-- The last item of a list, with a comma behind it. -/
  | beforeComma (item : Node)
  | group (value : Node)
  | function (isAsync isGenerator : Bool) (id : Option Text) (parameters body : List Node)
  /-- An arrow function; its body is a block or an expression. -/
  | arrow (isAsync : Bool) (parameters : List Node) (body : Node)
  /-- A call, and whether it is marked as free of effects. -/
  | call (isPure : Bool) (callee : Node) (args : List Node)
  | create (callee : Node) (args : List Node)
  | member (object : Node) (property : Text)
  | index (object property : Node)
  | unary (operator : Text) (operand : Node)
  /-- An increment or a decrement, and whether the operator stands before the operand. -/
  | update (operator : Text) (before : Bool) (operand : Node)
  | binary (operator : Text) (left right : Node)
  | conditional (test positive negative : Node)
  | assign (operator : Text) (target value : Node)
  | sequence (items : List Node)
  -- Binding patterns, beside names, spreads and properties
  /-- A pattern for an object; a member that is a variable alone is bound to the value of its
  name. -/
  | objectPattern (members : List Node)
  | arrayPattern (items : List Node)
  /-- A binding with the value that it starts with or falls back to. -/
  | initialized (target value : Node)
  -- Assignment patterns, beside what values are stored in and spreads
  | objectTarget (members : List Node)
  /-- A member with a key, and what its value is stored in. -/
  | storedProperty (key : Key) (target : Node)
  | arrayTarget (items : List Node)
  -- Statements
  /-- A string at the start of a body, as it is written between its quotes. -/
  | directive (raw : Text)
  | expression (value : Node)
  | variableDeclaration (kind : Text) (declarators : List Node)
  | functionDeclaration (function : Node)
  | block (body : List Node)
  | branch (test positive : Node)
  | branchElse (test positive negative : Node)
  | returnNothing
  | returnValue (value : Node)
  | empty
  | importEffects (source : Content)
  | importItems (items : List ImportItem) (source : Content)
  | exportItems (items : List ExportItem) (source : Option Content)
  | exportAll (binding : Option Key) (source : Content)
  | exportDeclaration (declaration : Node)
  /-- A default export; a function outside of a group is a declaration. -/
  | exportDefault (value : Node)
  -- Markup
  | element (tag : Tag) (attributes children : List Node)
  | fragment (children : List Node)
  /-- An attribute with a value. -/
  | setting (key : Text) (value : Node)
  /-- An attribute without a value. -/
  | flag (key : Text)
  /-- The value of an attribute between quotes, as it is written. -/
  | quoted (raw : Text)
  | text (raw : Text)
  /-- An expression in braces inside of markup. -/
  | container (value : Node)
  | emptyContainer
deriving Repr, Inhabited

/-- The variable that is bound by a pattern without parts, with or without a value to fall back
to. -/
def Node.boundVariable? : Node → Option Text
  | .name id => some id
  | .initialized (.name id) _ => some id
  | _ => none

/-- The member of an object pattern that binds the value of a key. -/
def Node.boundMember (key : Key) (target : Node) : Node :=
  if key.name?.isSome && key.name? = target.boundVariable? then target else .property key target

/-- A module: its statements. -/
abbrev Module : Type :=
  List Node

/-- An expression without the groups around it. -/
def Node.ungrouped : Node → Node
  | .group value => value.ungrouped
  | node => node

end MdxBuild.Script

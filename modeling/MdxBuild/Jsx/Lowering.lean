import MdxBuild.Script.Parts

/-!
# Lowering markup to calls

Every element of a module becomes a call of a runtime function that is given the tag, an object of
the attributes and the children, and the key of the element if it has one. A style fixes what the
ways of lowering differ in. Lowering leaves no markup behind, and code without markup as it is.
-/

namespace MdxBuild.Jsx

open Script

/-- A binding of the runtime. -/
inductive RuntimeName where
  | fragment
  /-- Makes an element with at most one child. -/
  | jsx
  /-- Makes an element with a list of children. -/
  | jsxs
  /-- Makes an element whose key may be overridden. -/
  | createElement
deriving DecidableEq, Repr

/-- The name under which the runtime exports a binding. -/
def RuntimeName.exported : RuntimeName → Text
  | .fragment => "Fragment".toList
  | .jsx => "jsx".toList
  | .jsxs => "jsxs".toList
  | .createElement => "createElement".toList

/-- A way of lowering. -/
structure Style where
  /-- The names under which a module binds the runtime. -/
  name : RuntimeName → Text
  /-- Calls are marked as free of effects. -/
  marksPure : Bool
  /-- The child that a text between tags stands for, if any. -/
  childText : Text → Option Text
  /-- The value that an attribute text between quotes stands for. -/
  attributeText : Text → Text
  /-- The attribute name can stand as a key without quotes. -/
  isPlainKey : Text → Bool
  /-- What a spread child becomes in the list of children. -/
  spreadChild : Node → Node
  /-- The members of a spread object literal become members of the attribute object. -/
  inlinesObjects : Bool
  /-- A key behind spread attributes may be overridden by them. -/
  keepsLateKeys : Bool
  /-- Of several keys of an element all are lowered, though the last one alone is used. -/
  lowersEveryKey : Bool

/-- An attribute of an element, lowered. -/
inductive Setting where
  | value (key : Text) (value : Node)
  | spread (value : Node)

/-- The attribute that names an element among its siblings. -/
def keyName : Text :=
  "key".toList

/-- The key of an attribute of an element: nothing for a spread. -/
def attributeKey? : Node → Option (Option Text)
  | .setting key _ => some (some key)
  | .flag key => some (some key)
  | .spread _ => some none
  | _ => none

/-- The key of a lowered attribute: nothing for a spread. -/
def Setting.key? : Setting → Option Text
  | .value key _ => some key
  | .spread _ => none

/-- An attribute with the name `key` comes behind a spread. -/
def hasLateKey : List (Option Text) → Bool
  | [] => false
  | none :: others => others.contains (some keyName)
  | some _ :: others => hasLateKey others

/-- The names of the members of an object include the one that sets its prototype. -/
def setsPrototype (members : List Node) : Bool :=
  members.any fun member =>
    match member with
    | .property (.name name) _ => name = "__proto__".toList
    | .property (.string name) _ => name = .ofText "__proto__".toList
    | _ => false

namespace Style

variable (style : Style)

/-- An attribute as a member of the attribute object. -/
def property (key : Text) (value : Node) : Node :=
  .property (if style.isPlainKey key then .name key else .string (.ofText key)) value

/-- The members that an attribute adds to the attribute object. -/
def members : Setting → List Node
  | .value key value => [style.property key value]
  | .spread (.object members) =>
    if style.inlinesObjects && !setsPrototype members then members else [.spread (.object members)]
  | .spread value => [.spread value]

/-- The runtime function that makes an element. -/
def callee (keys : List (Option Text)) (children : Nat) : RuntimeName :=
  if style.keepsLateKeys && hasLateKey keys then .createElement
  else if children ≤ 1 then .jsx
  else .jsxs

/-- The `children` member for the children of an element. -/
def childrenMember : List Node → List Node
  | [] => []
  | [child] => [.property (.name "children".toList) child]
  | children => [.property (.name "children".toList) (.array children)]

/-- The value of the last attribute with the name `key`. -/
def lastKey? (settings : List Setting) : Option Node :=
  (settings.filterMap fun setting =>
    match setting with
    | .value key value => if key = keyName then some value else none
    | .spread _ => none).getLast?

/-- A child in the list of children. -/
def listedChild : Node → Node
  | .spread value => style.spreadChild value
  | child => child

/-- The call that makes an element. -/
def call (tag : Node) (settings : List Setting) (children : List Node) : Node :=
  let function := style.callee (settings.map Setting.key?) children.length
  let args :=
    if function = .createElement then
      tag :: .object (settings.flatMap style.members) :: children
    else
      let others := settings.filter fun setting => setting.key? != some keyName
      let listed := children.map style.listedChild
      [tag, .object (others.flatMap style.members ++ childrenMember listed)] ++
        (lastKey? settings).toList
  .call style.marksPure (.name (style.name function)) args

/-- The first argument of the call that makes an element. -/
def tag : Tag → Node
  | .intrinsic name => .string (.ofText name)
  | .component root path =>
    path.foldl .member (if root = "this".toList then .word root else .name root)
  | .namespaced space name => .string (.ofText (space ++ ':' :: name))

mutual

/-- A node with all markup in it lowered. -/
def lower : Node → Node
  | .name id => .name id
  | .word spelling => .word spelling
  | .number digits => .number digits
  | .string value => .string value
  | .template head inner => .template head (lowerAll inner)
  | .templatePart value tail => .templatePart (lower value) tail
  | .array items => .array (lowerAll items)
  | .hole => .hole
  | .object members => .object (lowerAll members)
  | .property key value => .property key (lower value)
  | .shorthand id => .shorthand id
  | .computedProperty key value => .computedProperty (lower key) (lower value)
  | .spread value => .spread (lower value)
  | .beforeComma item => .beforeComma (lower item)
  | .group value => .group (lower value)
  | .function isAsync isGenerator id parameters body =>
    .function isAsync isGenerator id (lowerAll parameters) (lowerAll body)
  | .arrow isAsync parameters body => .arrow isAsync (lowerAll parameters) (lower body)
  | .call isPure callee args => .call isPure (lower callee) (lowerAll args)
  | .create callee args => .create (lower callee) (lowerAll args)
  | .member owner key => .member (lower owner) key
  | .index owner key => .index (lower owner) (lower key)
  | .unary operator operand => .unary operator (lower operand)
  | .update operator before operand => .update operator before (lower operand)
  | .binary operator left right => .binary operator (lower left) (lower right)
  | .conditional test positive negative =>
    .conditional (lower test) (lower positive) (lower negative)
  | .assign operator target value => .assign operator (lower target) (lower value)
  | .sequence items => .sequence (lowerAll items)
  | .objectPattern members => .objectPattern (lowerAll members)
  | .arrayPattern items => .arrayPattern (lowerAll items)
  | .initialized target value => .initialized (lower target) (lower value)
  | .objectTarget members => .objectTarget (lowerAll members)
  | .storedProperty key target => .storedProperty key (lower target)
  | .arrayTarget items => .arrayTarget (lowerAll items)
  | .directive raw => .directive raw
  | .expression value => .expression (lower value)
  | .variableDeclaration kind declarators => .variableDeclaration kind (lowerAll declarators)
  | .functionDeclaration declared => .functionDeclaration (lower declared)
  | .block body => .block (lowerAll body)
  | .branch test positive => .branch (lower test) (lower positive)
  | .branchElse test positive negative =>
    .branchElse (lower test) (lower positive) (lower negative)
  | .returnNothing => .returnNothing
  | .returnValue value => .returnValue (lower value)
  | .empty => .empty
  | .importEffects source => .importEffects source
  | .importItems items source => .importItems items source
  | .exportItems items source => .exportItems items source
  | .exportAll binding source => .exportAll binding source
  | .exportDeclaration declaration => .exportDeclaration (lower declaration)
  | .exportDefault value => .exportDefault (lower value)
  | .element name attributes children =>
    style.call (tag name) (lowerAttributes attributes) (lowerChildren children)
  | .fragment children => style.call (.name (style.name .fragment)) [] (lowerChildren children)
  | .setting key value => style.property key (lower value)
  | .flag key => style.property key (.word "true".toList)
  | .quoted raw => .string (.ofText (style.attributeText raw))
  | .text raw => .string (.ofText raw)
  | .container value => lower value
  | .emptyContainer => .name "undefined".toList

/-- Nodes with all markup in them lowered. -/
def lowerAll : List Node → List Node
  | [] => []
  | node :: others => lower node :: lowerAll others

/-- The attributes of an element, lowered. -/
def lowerAttributes : List Node → List Setting
  | [] => []
  | .setting key value :: others => .value key (lower value) :: lowerAttributes others
  | .flag key :: others => .value key (.word "true".toList) :: lowerAttributes others
  | .spread value :: others => .spread (lower value) :: lowerAttributes others
  | _ :: others => lowerAttributes others

/-- The children of an element, lowered; those that are spread stay so. -/
def lowerChildren : List Node → List Node
  | [] => []
  | .text raw :: others =>
    ((style.childText raw).toList.map fun text => .string (.ofText text)) ++ lowerChildren others
  | .emptyContainer :: others => lowerChildren others
  | .spread value :: others => .spread (lower value) :: lowerChildren others
  | node :: others => lower node :: lowerChildren others

end

/-! ## Runtime names -/

/-- The number of the children of an element that count. -/
def childCount (children : List Node) : Nat :=
  children.countP fun child =>
    match child with
    | .text raw => (style.childText raw).isSome
    | .emptyContainer => false
    | _ => true

/-- The attribute has the name `key`. -/
def isKeyAttribute (setting : Node) : Bool :=
  attributeKey? setting == some (some keyName)

mutual

/-- The runtime names that lowering an element itself needs, in order: first those of the elements
directly in it, then its own. A key counts last, unless it may be overridden. -/
def ownNames : Node → List RuntimeName
  | .element _ attributes children =>
    let callee := style.callee (attributes.filterMap attributeKey?) (style.childCount children)
    if callee = .createElement then
      namesOfAll attributes ++ namesOfAll children ++ [callee]
    else
      namesOfOthers attributes ++ namesOfAll children ++ namesOfKeys attributes ++ [callee]
  | .fragment children =>
    namesOfAll children ++ [.fragment, style.callee [] (style.childCount children)]
  | .setting _ value => ownNames value
  | _ => []

/-- The names for the elements that are values of attributes, apart from keys. -/
def namesOfOthers : List Node → List RuntimeName
  | [] => []
  | setting :: others =>
    (if isKeyAttribute setting then [] else ownNames setting) ++ namesOfOthers others

/-- The names for the elements that are keys. -/
def namesOfKeys : List Node → List RuntimeName
  | [] => []
  | setting :: others =>
    let counts := style.lowersEveryKey || !others.any isKeyAttribute
    (if isKeyAttribute setting && counts then ownNames setting else []) ++ namesOfKeys others

/-- The names for the elements among attributes or children. -/
def namesOfAll : List Node → List RuntimeName
  | [] => []
  | node :: others => ownNames node ++ namesOfAll others

end

/-- The node is an element inside of another one, lowered together with it. -/
def isNested : Node → Bool
  | .element .. => true
  | .fragment .. => true
  | .setting .. => true
  | _ => false

/-- The runtime names that lowering the expressions inside of a node needs, in order: the elements
of an expression are lowered before what the expression belongs to. -/
def innerNames (node : Node) : List RuntimeName :=
  node.parts.attach.flatMap fun part =>
    innerNames part.1 ++
      (if isNested node && isNested part.1 then [] else style.ownNames part.1)
termination_by sizeOf node
decreasing_by exact Node.sizeOf_lt_of_mem_parts part.2

/-- The runtime names that lowering a list of statements needs, in order. -/
def runtimeNames (statements : List Node) : List RuntimeName :=
  (statements.flatMap fun statement =>
    style.innerNames statement ++ style.ownNames statement).eraseDups

end Style

end MdxBuild.Jsx

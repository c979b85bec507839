import MdxBuild.Script.Parts

/-!
# Nodes below a node

What is below a node is below one of its parts, so that proofs about everything below a node go by
induction from the parts of a node to the node. Markup is told apart from code by the nodes that
stand for it.
-/

namespace MdxBuild.Script.Node

/-- What holds for a node if it holds for its parts holds for every node. -/
theorem induction_of_parts {motive : Node → Prop}
    (step : ∀ node : Node, (∀ part ∈ node.parts, motive part) → motive node) (node : Node) :
    motive node :=
  step node fun part _ => induction_of_parts step part
termination_by sizeOf node
decreasing_by exact sizeOf_lt_of_mem_parts ‹_›

/-! ## Subnodes -/

variable {sub part node : Node}

theorem mem_subnodes_iff :
    sub ∈ node.subnodes ↔ sub = node ∨ ∃ part ∈ node.parts, sub ∈ part.subnodes := by
  rw [subnodes]
  simp

@[simp]
theorem mem_subnodes_self (node : Node) : node ∈ node.subnodes :=
  mem_subnodes_iff.mpr (.inl rfl)

theorem mem_subnodes_of_mem_parts (isPart : part ∈ node.parts) (member : sub ∈ part.subnodes) :
    sub ∈ node.subnodes :=
  mem_subnodes_iff.mpr (.inr ⟨part, isPart, member⟩)

theorem part_mem_subnodes (isPart : part ∈ node.parts) : part ∈ node.subnodes :=
  mem_subnodes_of_mem_parts isPart part.mem_subnodes_self

theorem mem_subnodes_trans (inner : sub ∈ part.subnodes) (outer : part ∈ node.subnodes) :
    sub ∈ node.subnodes := by
  induction node using induction_of_parts with
  | step node ih =>
    obtain rfl | ⟨between, isPart, below⟩ := mem_subnodes_iff.mp outer
    · exact inner
    · exact mem_subnodes_of_mem_parts isPart (ih between isPart below)

/-- A condition holds for a node and for all nodes below it. -/
def Throughout (holds : Node → Prop) (node : Node) : Prop :=
  ∀ sub ∈ node.subnodes, holds sub

theorem throughout_iff {holds : Node → Prop} :
    node.Throughout holds ↔ holds node ∧ ∀ part ∈ node.parts, part.Throughout holds := by
  constructor
  · intro throughout
    refine ⟨throughout node node.mem_subnodes_self, ?_⟩
    intro part isPart sub member
    exact throughout sub (mem_subnodes_of_mem_parts isPart member)
  · rintro ⟨here, below⟩ sub member
    obtain rfl | ⟨part, isPart, member⟩ := mem_subnodes_iff.mp member
    · exact here
    · exact below part isPart sub member

/-! ## Changing the parts -/

/-- The same node with other parts. -/
def mapParts (change : Node → Node) : Node → Node
  | .template head inner => .template head (inner.map change)
  | .templatePart value tail => .templatePart (change value) tail
  | .array items => .array (items.map change)
  | .object members => .object (members.map change)
  | .property key value => .property key (change value)
  | .computedProperty key value => .computedProperty (change key) (change value)
  | .spread value => .spread (change value)
  | .beforeComma item => .beforeComma (change item)
  | .group value => .group (change value)
  | .function isAsync isGenerator id parameters body =>
    .function isAsync isGenerator id (parameters.map change) (body.map change)
  | .arrow isAsync parameters body => .arrow isAsync (parameters.map change) (change body)
  | .call isPure callee args => .call isPure (change callee) (args.map change)
  | .create callee args => .create (change callee) (args.map change)
  | .member owner key => .member (change owner) key
  | .index owner key => .index (change owner) (change key)
  | .unary operator operand => .unary operator (change operand)
  | .update operator before operand => .update operator before (change operand)
  | .binary operator left right => .binary operator (change left) (change right)
  | .conditional test positive negative =>
    .conditional (change test) (change positive) (change negative)
  | .assign operator target value => .assign operator (change target) (change value)
  | .sequence items => .sequence (items.map change)
  | .objectPattern members => .objectPattern (members.map change)
  | .arrayPattern items => .arrayPattern (items.map change)
  | .initialized target value => .initialized (change target) (change value)
  | .objectTarget members => .objectTarget (members.map change)
  | .storedProperty key target => .storedProperty key (change target)
  | .arrayTarget items => .arrayTarget (items.map change)
  | .expression value => .expression (change value)
  | .variableDeclaration kind declarators => .variableDeclaration kind (declarators.map change)
  | .functionDeclaration declared => .functionDeclaration (change declared)
  | .block body => .block (body.map change)
  | .branch test positive => .branch (change test) (change positive)
  | .branchElse test positive negative =>
    .branchElse (change test) (change positive) (change negative)
  | .returnValue value => .returnValue (change value)
  | .exportDeclaration declaration => .exportDeclaration (change declaration)
  | .exportDefault value => .exportDefault (change value)
  | .element tag attributes children =>
    .element tag (attributes.map change) (children.map change)
  | .fragment children => .fragment (children.map change)
  | .setting key value => .setting key (change value)
  | .container value => .container (change value)
  | node => node

@[simp]
theorem parts_mapParts (change : Node → Node) (node : Node) :
    (node.mapParts change).parts = node.parts.map change := by
  cases node <;> simp [mapParts, parts]

/-- A change that leaves the parts as they are leaves the node as it is. -/
theorem mapParts_eq_self {change : Node → Node} (same : ∀ part ∈ node.parts, change part = part) :
    node.mapParts change = node := by
  have map_eq {nodes : List Node} (same : ∀ part ∈ nodes, change part = part) :
      nodes.map change = nodes := by
    simpa using List.map_congr_left same
  cases node <;> simp_all [mapParts, parts]

/-! ## Markup -/

/-- The node is a piece of markup. -/
def isMarkup : Node → Bool
  | .element .. => true
  | .fragment _ => true
  | .setting .. => true
  | .flag _ => true
  | .quoted _ => true
  | .text _ => true
  | .container _ => true
  | .emptyContainer => true
  | _ => false

theorem isMarkup_mapParts (change : Node → Node) (node : Node) :
    (node.mapParts change).isMarkup = node.isMarkup := by
  cases node <;> rfl

/-- There is no markup at any depth. -/
def IsCode (node : Node) : Prop :=
  node.Throughout fun sub => sub.isMarkup = false

/-- The variable that a node refers to. -/
def reference? : Node → Option Text
  | .name id => some id
  | _ => none

/-- There is no markup at any depth, and the variables referred to are among the given ones. -/
def IsCodeOver (names : Text → Prop) (node : Node) : Prop :=
  node.Throughout fun sub => sub.isMarkup = false ∧ ∀ id ∈ sub.reference?, names id

/-- Beside variables and markup, only the parts of a node matter. -/
theorem isCodeOver_of_parts {names : Text → Prop} (code : node.isMarkup = false)
    (nameless : node.reference? = none) (parts : ∀ part ∈ node.parts, part.IsCodeOver names) :
    node.IsCodeOver names :=
  throughout_iff.mpr ⟨⟨code, by simp [nameless]⟩, parts⟩

theorem isCodeOver_name {names : Text → Prop} {id : Text} (known : names id) :
    (Node.name id).IsCodeOver names :=
  throughout_iff.mpr ⟨⟨rfl, by simpa [reference?] using known⟩, nofun⟩

end MdxBuild.Script.Node

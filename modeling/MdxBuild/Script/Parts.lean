import MdxBuild.Script.Node

/-!
# Parts of a tree

The nodes directly inside of a node, in the order in which they are written, and all nodes below
it.
-/

namespace MdxBuild.Script.Node

/-- The nodes directly inside of a node. -/
def parts : Node → List Node
  | .template _ inner => inner
  | .templatePart value _ => [value]
  | .array items => items
  | .object members => members
  | .property _ value => [value]
  | .computedProperty key value => [key, value]
  | .spread value => [value]
  | .beforeComma item => [item]
  | .group value => [value]
  | .function _ _ _ parameters body => parameters ++ body
  | .arrow _ parameters body => parameters ++ [body]
  | .call _ callee args => callee :: args
  | .create callee args => callee :: args
  | .member owner _ => [owner]
  | .index owner key => [owner, key]
  | .unary _ operand => [operand]
  | .update _ _ operand => [operand]
  | .binary _ left right => [left, right]
  | .conditional test positive negative => [test, positive, negative]
  | .assign _ target value => [target, value]
  | .sequence items => items
  | .objectPattern members => members
  | .arrayPattern items => items
  | .initialized target value => [target, value]
  | .objectTarget members => members
  | .storedProperty _ target => [target]
  | .arrayTarget items => items
  | .expression value => [value]
  | .variableDeclaration _ declarators => declarators
  | .functionDeclaration declared => [declared]
  | .block body => body
  | .branch test positive => [test, positive]
  | .branchElse test positive negative => [test, positive, negative]
  | .returnValue value => [value]
  | .exportDeclaration declaration => [declaration]
  | .exportDefault value => [value]
  | .element _ attributes children => attributes ++ children
  | .fragment children => children
  | .setting _ value => [value]
  | .container value => [value]
  | _ => []

theorem sizeOf_lt_of_mem_parts {part node : Node} (isPart : part ∈ node.parts) :
    sizeOf part < sizeOf node := by
  have inList : ∀ {nodes : List Node}, part ∈ nodes → sizeOf part < sizeOf nodes :=
    fun member => List.sizeOf_lt_of_mem member
  cases node <;>
    simp only [parts, List.mem_append, List.mem_cons, List.not_mem_nil, or_false] at isPart <;>
    grind

/-- A node and all nodes below it. -/
def subnodes (node : Node) : List Node :=
  node :: node.parts.attach.flatMap fun part => subnodes part.1
termination_by sizeOf node
decreasing_by exact sizeOf_lt_of_mem_parts part.2

end MdxBuild.Script.Node

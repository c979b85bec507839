import MdxBuild.Script.Node

/-!
# Targets

Up to its `=>` or `=`, the parameters of an arrow function and what is assigned to read like
expressions. Once the sign is found, the expressions become binding patterns or what values are
stored in. Reading them only once keeps the work in proportion to the length of the code.
-/

namespace MdxBuild.Script

/-- A variable or a member: what a single value can be stored in. -/
def isTarget : Node → Bool
  | .group value => isTarget value
  | .name _ => true
  | .member _ _ => true
  | .index _ _ => true
  | _ => false

mutual

/-- What an expression stores a value in: a variable, a member, or the parts of an object or a list.
A part may fall back to a value. -/
def Node.toTarget? (mayFallBack : Bool) : Node → Option Node
  | .assign operator target value =>
    if mayFallBack && operator = ['='] then some (.initialized target value) else none
  | .array items => (Node.toTargetItems? items).map .arrayTarget
  | .object members => (Node.toTargetMembers? members).map .objectTarget
  | node => if isTarget node then some node else none

/-- What the items of a list are stored in. -/
def Node.toTargetItems? : List Node → Option (List Node)
  | [] => some []
  | [.spread value] => do some [.spread (← value.toTarget? false)]
  | .hole :: others => do some (.hole :: (← Node.toTargetItems? others))
  | item :: others => do some ((← item.toTarget? true) :: (← Node.toTargetItems? others))

/-- What the members of an object are stored in. -/
def Node.toTargetMembers? : List Node → Option (List Node)
  | [] => some []
  | [.spread value] => if isTarget value then some [.spread value] else none
  | .property key value :: others => do
    some (.storedProperty key (← value.toTarget? true) :: (← Node.toTargetMembers? others))
  | .computedProperty key value :: others => do
    some (.computedProperty key (← value.toTarget? true) :: (← Node.toTargetMembers? others))
  | .shorthand id :: others => do some (.shorthand id :: (← Node.toTargetMembers? others))
  | .initialized target value :: others => do
    some (.initialized target value :: (← Node.toTargetMembers? others))
  | _ => none

end

mutual

/-- The binding pattern that an expression or a target reads like. A part of a pattern may fall back
to a value. -/
def Node.toPattern? (mayFallBack : Bool) : Node → Option Node
  | .name id => some (.name id)
  | .assign operator target value =>
    if mayFallBack && operator = ['='] then
      (target.toPattern? false).map fun target => .initialized target value
    else none
  | .initialized target value =>
    if mayFallBack then (target.toPattern? false).map fun target => .initialized target value
    else none
  | .array items => (Node.toPatternItems? items).map .arrayPattern
  | .arrayTarget items => (Node.toPatternItems? items).map .arrayPattern
  | .object members => (Node.toPatternMembers? members).map .objectPattern
  | .objectTarget members => (Node.toPatternMembers? members).map .objectPattern
  | _ => none

/-- Binding patterns for parameters or for the items of a list. -/
def Node.toPatternItems? : List Node → Option (List Node)
  | [] => some []
  | [.spread value] => do some [.spread (← value.toPattern? false)]
  | .hole :: others => do some (.hole :: (← Node.toPatternItems? others))
  | item :: others => do some ((← item.toPattern? true) :: (← Node.toPatternItems? others))

/-- Binding patterns for the members of an object. -/
def Node.toPatternMembers? : List Node → Option (List Node)
  | [] => some []
  | [.spread (.name id)] => some [.spread (.name id)]
  | .property key value :: others => do
    some (.boundMember key (← value.toPattern? true) :: (← Node.toPatternMembers? others))
  | .storedProperty key target :: others => do
    some (.boundMember key (← target.toPattern? true) :: (← Node.toPatternMembers? others))
  | .computedProperty key value :: others => do
    some (.computedProperty key (← value.toPattern? true) :: (← Node.toPatternMembers? others))
  | .shorthand id :: others => do some (.name id :: (← Node.toPatternMembers? others))
  | .initialized (.shorthand id) value :: others => do
    some (.initialized (.name id) value :: (← Node.toPatternMembers? others))
  | _ => none

end

/-- A member that only the pattern for an object can have. -/
def isPatternMember : Node → Bool
  | .initialized _ _ => true
  | _ => false

/-- An object that is an expression, though it reads like a pattern. -/
def isUnfinished : Node → Bool
  | .object members => members.any isPatternMember
  | _ => false

end MdxBuild.Script

import MdxBuild.Text.Basic

/-!
# Source hooks

Hooks change the source of a document before anything else is done with it. They run in three
groups, each in the order of registration, and each hook gets what the one before it made. The
first hook that fails ends the run.
-/

namespace MdxBuild

/-- The group in which a hook runs. -/
inductive HookOrder where
  | pre
  | normal
  | post
deriving DecidableEq, Repr

/-- The place of a group. -/
def HookOrder.rank : HookOrder → Nat
  | .pre => 0
  | .normal => 1
  | .post => 2

/-- A hook: from the id and the source of a document it makes a new source, or a message. -/
structure Hook where
  name : Text
  order : HookOrder
  apply : (id source : Text) → Except Text Text

/-- A hook that failed on a document. -/
structure HookFailure where
  hook : Text
  id : Text
  message : Text
deriving DecidableEq, Repr

/-- The failure in words. -/
def HookFailure.render (failure : HookFailure) : Text :=
  "hook '".toList ++ failure.hook ++ "' failed for ".toList ++ failure.id ++ ": ".toList ++
    failure.message

namespace Hook

/-- The hooks with one more, behind those of its group and of the groups before. -/
def register (hooks : List Hook) (hook : Hook) : List Hook :=
  match hooks with
  | [] => [hook]
  | first :: others =>
    if first.order.rank ≤ hook.order.rank then first :: register others hook
    else hook :: first :: others

/-- The hooks registered one after the other. -/
def registerAll (hooks : List Hook) : List Hook :=
  hooks.foldl register []

/-- The source that the hooks make of a document's source. -/
def run (hooks : List Hook) (id source : Text) : Except HookFailure Text :=
  match hooks with
  | [] => .ok source
  | hook :: others =>
    match hook.apply id source with
    | .ok changed => run others id changed
    | .error message => .error ⟨hook.name, id, message⟩

end Hook

end MdxBuild

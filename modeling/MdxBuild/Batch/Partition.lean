/-!
# Balanced groups

A list of jobs is split into consecutive groups for the workers: as many as there are workers, but
none of them empty, with sizes that differ by at most one and the larger groups first.
-/

namespace MdxBuild.Batch

/-- The number of workers for a machine: all of its processors but one, at least one and at most
`maxWorkers`, which counts as one if it is zero. -/
def parallelism (available maxWorkers : Nat) : Nat :=
  min (max (available - 1) 1) (max maxWorkers 1)

/-- The sizes of the groups of `total` items in `count` groups. -/
def groupSizes (total count : Nat) : List Nat :=
  (List.range count).map fun index => total / count + if index < total % count then 1 else 0

/-- Cuts a list into groups of the given sizes. -/
def cut {α : Type} : List Nat → List α → List (List α)
  | [], _ => []
  | size :: sizes, items => items.take size :: cut sizes (items.drop size)

/-- Splits a list into balanced groups, at most `groups` of them. -/
def partition {α : Type} (items : List α) (groups : Nat) : List (List α) :=
  match items with
  | [] => []
  | _ => cut (groupSizes items.length (min (max groups 1) items.length)) items

end MdxBuild.Batch

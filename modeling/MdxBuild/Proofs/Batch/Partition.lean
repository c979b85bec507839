import Mathlib.Algebra.BigOperators.Group.List.Basic
import Mathlib.Algebra.GroupWithZero.Nat
import Mathlib.Data.List.SplitLengths
import MdxBuild.Batch.Partition

/-!
# What balanced groups contain

The sizes of the groups add up to the number of items, so cutting a list into balanced groups loses
no item and keeps their order. No size is zero, and they go down by one at most once.
-/

namespace MdxBuild.Batch

variable {α : Type}

/-- The first `rest` of `count` groups get one item more. -/
theorem sum_extra (count rest : Nat) :
    ((List.range count).map fun index => if index < rest then 1 else 0).sum = min count rest := by
  induction count with
  | zero => simp
  | succ count ih =>
    rw [List.range_succ, List.map_append, List.sum_append, ih, List.map_singleton,
      List.sum_singleton]
    split <;> omega

/-- The sizes of the groups add up to the number of items. -/
theorem sum_groupSizes {total count : Nat} (positive : 0 < count) :
    (groupSizes total count).sum = total := by
  have extra : min count (total % count) = total % count :=
    Nat.min_eq_right (Nat.le_of_lt (Nat.mod_lt total positive))
  rw [groupSizes, List.sum_map_add, sum_extra, extra, List.map_const', List.sum_replicate_nat,
    List.length_range]
  exact Nat.div_add_mod total count

theorem cut_eq_splitLengths (sizes : List Nat) (items : List α) :
    cut sizes items = sizes.splitLengths items := by
  induction sizes generalizing items with
  | nil => rfl
  | cons size sizes ih => rw [cut, ih, List.splitLengths_cons]

/-- Cutting a list into groups that take all of it loses no item. -/
theorem flatten_cut {sizes : List Nat} {items : List α} (enough : items.length ≤ sizes.sum) :
    (cut sizes items).flatten = items := by
  rw [cut_eq_splitLengths]
  exact List.flatten_splitLengths items sizes enough

/-- There is a group if there is an item. -/
theorem groupCount_pos (groups : Nat) (item : α) (others : List α) :
    0 < min (max groups 1) (item :: others).length :=
  Nat.lt_min.mpr ⟨Nat.lt_of_lt_of_le Nat.one_pos (Nat.le_max_right groups 1),
    Nat.succ_pos others.length⟩

/-- The groups of a list are the list, in order. -/
theorem flatten_partition (items : List α) (groups : Nat) :
    (partition items groups).flatten = items := by
  cases items with
  | nil => rfl
  | cons item others =>
    exact flatten_cut (Nat.le_of_eq (sum_groupSizes (groupCount_pos groups item others)).symm)

/-! ## Sizes -/

theorem length_groupSizes (total count : Nat) : (groupSizes total count).length = count := by
  rw [groupSizes, List.length_map, List.length_range]

/-- With no more groups than items none of them is empty. -/
theorem pos_of_mem_groupSizes {total count size : Nat} (positive : 0 < count)
    (enough : count ≤ total) (member : size ∈ groupSizes total count) : 0 < size := by
  obtain ⟨index, -, rfl⟩ := List.mem_map.mp member
  exact Nat.add_pos_left (Nat.div_pos enough positive) _

/-- Each size is that of every later group, or one more. -/
theorem pairwise_groupSizes (total count : Nat) :
    (groupSizes total count).Pairwise fun size later => later ≤ size ∧ size ≤ later + 1 := by
  rw [groupSizes, List.pairwise_map]
  refine List.pairwise_lt_range.imp fun {index later} isEarlier => ?_
  split <;> split <;> omega

/-- The groups have the sizes that they are cut to. -/
theorem map_length_partition (items : List α) (groups : Nat) :
    (partition items groups).map List.length =
      groupSizes items.length (min (max groups 1) items.length) := by
  cases items with
  | nil =>
    rw [List.length_nil, Nat.min_zero]
    rfl
  | cons item others =>
    change (cut (groupSizes _ _) (item :: others)).map List.length = _
    rw [cut_eq_splitLengths]
    exact List.map_splitLengths_length _ _
      (Nat.le_of_eq (sum_groupSizes (groupCount_pos groups item others)))

/-- A partition is balanced: the groups are the list, in order, there are as many as asked for but
at least one and no more than items, none is empty, and a group has the size of each later one or
one item more. -/
theorem partition_balanced (items : List α) (groups : Nat) :
    (partition items groups).flatten = items ∧
    (∀ group ∈ partition items groups, group ≠ []) ∧
    (partition items groups).length = min (max groups 1) items.length ∧
    (partition items groups).Pairwise fun group later =>
      later.length ≤ group.length ∧ group.length ≤ later.length + 1 := by
  have sizes := map_length_partition items groups
  refine ⟨flatten_partition items groups, ?_, ?_, ?_⟩
  · cases items with
    | nil => exact fun group member => absurd member List.not_mem_nil
    | cons item others =>
      intro group member
      have isSize := List.mem_map_of_mem (f := List.length) member
      rw [sizes] at isSize
      exact List.length_pos_iff.mp (pos_of_mem_groupSizes (groupCount_pos groups item others)
        (Nat.min_le_right ..) isSize)
  · rw [← length_groupSizes items.length (min (max groups 1) items.length), ← sizes,
      List.length_map]
  · have balanced := pairwise_groupSizes items.length (min (max groups 1) items.length)
    rwa [← sizes, List.pairwise_map] at balanced

/-- Fewer items than groups, and no groups asked for. -/
example : partition [1, 2, 3] 8 = [[1], [2], [3]] ∧ partition [1, 2, 3] 0 = [[1, 2, 3]] ∧
    partition [1, 2, 3, 4, 5] 3 = [[1, 2], [3, 4], [5]] := by
  decide

end MdxBuild.Batch

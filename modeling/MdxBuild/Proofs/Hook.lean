import Mathlib.Data.List.Basic
import Mathlib.Data.List.Pairwise
import MdxBuild.Hook

/-!
# Hooks in order

However hooks are registered, they stand in their groups and in each group in the order of
registration: putting one more among them is the same as sorting all of them again, and as sorting
the whole history once, by a sort that keeps the order of equals. A run passes a text on from hook
to hook; it ends with the last one, or with the first one that fails.
-/

namespace MdxBuild.Hook

variable {hooks earlier later : List Hook} {hook : Hook} {id source result : Text}

/-! ## Groups -/

/-- The hooks of one group, in the order of the list. -/
def inGroup (order : HookOrder) (hooks : List Hook) : List Hook :=
  hooks.filter (·.order = order)

/-- The hooks group by group. -/
def grouped (hooks : List Hook) : List Hook :=
  inGroup .pre hooks ++ inGroup .normal hooks ++ inGroup .post hooks

/-- The first hook does not run in a later group than the second. -/
def runsBefore (first second : Hook) : Bool :=
  first.order.rank ≤ second.order.rank

/-- The hooks sorted by their groups, those of one group as they were. -/
def sorted (hooks : List Hook) : List Hook :=
  hooks.mergeSort runsBefore

/-- The hooks with one more behind them, all of them sorted again. -/
def resort (hooks : List Hook) (hook : Hook) : List Hook :=
  sorted (hooks ++ [hook])

theorem order_of_mem_inGroup {order : HookOrder} (member : hook ∈ inGroup order hooks) :
    hook.order = order :=
  of_decide_eq_true (List.mem_filter.mp member).2

theorem inGroup_concat_of_eq {order : HookOrder} (same : hook.order = order) (hooks : List Hook) :
    inGroup order (hooks ++ [hook]) = inGroup order hooks ++ [hook] := by
  simp only [inGroup, List.filter_append, List.filter_singleton, same, decide_true, cond_true]

theorem inGroup_concat_of_ne {order : HookOrder} (differs : hook.order ≠ order)
    (hooks : List Hook) : inGroup order (hooks ++ [hook]) = inGroup order hooks := by
  simp only [inGroup, List.filter_append, List.filter_singleton, differs, decide_false, cond_false,
    List.append_nil]

/-! ## Registration -/

/-- A hook goes behind those that do not run in a later group and in front of the others. -/
theorem register_append (before : ∀ first ∈ earlier, first.order.rank ≤ hook.order.rank)
    (behind : ∀ other ∈ later, hook.order.rank < other.order.rank) :
    register (earlier ++ later) hook = earlier ++ [hook] ++ later := by
  induction earlier with
  | nil =>
    cases later with
    | nil => rfl
    | cons first others =>
      rw [List.nil_append, register, if_neg (Nat.not_le.mpr (List.forall_mem_cons.mp behind).1)]
      rfl
  | cons first others ih =>
    obtain ⟨isBefore, othersBefore⟩ := List.forall_mem_cons.mp before
    rw [List.cons_append, register, if_pos isBefore, ih othersBefore]
    rfl

/-- A hook that runs before no other one goes to the end. -/
theorem register_concat (before : ∀ first ∈ earlier, first.order.rank ≤ hook.order.rank) :
    register earlier hook = earlier ++ [hook] := by
  have placed : register (earlier ++ []) hook = earlier ++ [hook] ++ [] :=
    register_append before fun _ member => absurd member List.not_mem_nil
  rwa [List.append_nil, List.append_nil] at placed

/-- One more hook is registered at the end of its group. -/
theorem register_grouped (hooks : List Hook) (hook : Hook) :
    register (grouped hooks) hook = grouped (hooks ++ [hook]) := by
  have before {order : HookOrder} (le : order.rank ≤ hook.order.rank) :
      ∀ first ∈ inGroup order hooks, first.order.rank ≤ hook.order.rank := by
    intro first member
    rwa [order_of_mem_inGroup member]
  have behind {order : HookOrder} (lt : hook.order.rank < order.rank) :
      ∀ other ∈ inGroup order hooks, hook.order.rank < other.order.rank := by
    intro other member
    rwa [order_of_mem_inGroup member]
  rw [grouped, grouped]
  -- The list is cut behind the hook's own group; only what is behind the cut runs later.
  cases group : hook.order with
  | pre =>
    rw [inGroup_concat_of_eq group, inGroup_concat_of_ne (by rw [group]; decide),
      inGroup_concat_of_ne (by rw [group]; decide), List.append_assoc, register_append,
      List.append_assoc (_ ++ [hook])]
    · exact before (Nat.le_of_eq (by rw [group]))
    · exact List.forall_mem_append.mpr
        ⟨behind (by rw [group]; decide), behind (by rw [group]; decide)⟩
  | normal =>
    rw [inGroup_concat_of_eq group, inGroup_concat_of_ne (by rw [group]; decide),
      inGroup_concat_of_ne (by rw [group]; decide), register_append,
      List.append_assoc (inGroup .pre hooks)]
    · exact List.forall_mem_append.mpr
        ⟨before (by rw [group]; decide), before (Nat.le_of_eq (by rw [group]))⟩
    · exact behind (by rw [group]; decide)
  | post =>
    have allBefore : ∀ first ∈ inGroup .pre hooks ++ inGroup .normal hooks ++ inGroup .post hooks,
        first.order.rank ≤ hook.order.rank := by
      rw [List.forall_mem_append, List.forall_mem_append]
      exact ⟨⟨before (by rw [group]; decide), before (by rw [group]; decide)⟩,
        before (Nat.le_of_eq (by rw [group]))⟩
    rw [inGroup_concat_of_eq group, inGroup_concat_of_ne (by rw [group]; decide),
      inGroup_concat_of_ne (by rw [group]; decide), ← List.append_assoc, register_concat allBefore]

theorem foldl_register_grouped (earlier later : List Hook) :
    later.foldl register (grouped earlier) = grouped (earlier ++ later) := by
  induction later generalizing earlier with
  | nil => rw [List.append_nil, List.foldl_nil]
  | cons hook others ih =>
    rw [List.foldl_cons, register_grouped, ih, ← List.append_cons]

/-- After any registrations the hooks stand group by group, each group in order of registration. -/
theorem registerAll_eq_grouped (history : List Hook) : registerAll history = grouped history :=
  foldl_register_grouped [] history

/-! ## Sorting -/

theorem runsBefore_trans (first second third : Hook) (before : runsBefore first second = true)
    (behind : runsBefore second third = true) : runsBefore first third = true :=
  decide_eq_true (Nat.le_trans (of_decide_eq_true before) (of_decide_eq_true behind))

theorem runsBefore_total (first second : Hook) :
    (runsBefore first second || runsBefore second first) = true := by
  rw [Bool.or_eq_true, runsBefore, runsBefore, decide_eq_true_eq, decide_eq_true_eq]
  exact Nat.le_total ..

/-- Sorting leaves each group as it was. -/
theorem inGroup_sorted (order : HookOrder) (hooks : List Hook) :
    inGroup order (sorted hooks) = inGroup order hooks := by
  -- Hooks of one group are ties, so the sort keeps them as a sublist, and their number stays.
  have ties : (inGroup order hooks).Pairwise fun first second =>
      runsBefore first second = true := by
    refine List.pairwise_of_forall_mem_list fun first isFirst second isSecond => ?_
    rw [runsBefore, order_of_mem_inGroup isFirst, order_of_mem_inGroup isSecond]
    exact decide_eq_true (Nat.le_refl _)
  have kept : (inGroup order hooks).Sublist (sorted hooks) :=
    List.sublist_mergeSort runsBefore_trans runsBefore_total ties List.filter_sublist
  have size : (inGroup order (sorted hooks)).length = (inGroup order hooks).length :=
    ((List.mergeSort_perm hooks runsBefore).filter _).length_eq
  have whole : inGroup order (inGroup order hooks) = inGroup order hooks :=
    List.filter_eq_self.mpr fun _ member => (List.mem_filter.mp member).2
  have sublist := kept.filter (·.order = order)
  rw [← inGroup, ← inGroup, whole] at sublist
  exact (sublist.eq_of_length size.symm).symm

/-- Hooks that come group by group are registered one behind the other. -/
theorem foldl_register_of_pairwise
    (isSorted : (earlier ++ later).Pairwise fun first second => runsBefore first second = true) :
    later.foldl register earlier = earlier ++ later := by
  induction later generalizing earlier with
  | nil => rw [List.append_nil, List.foldl_nil]
  | cons hook others ih =>
    have before : ∀ first ∈ earlier, first.order.rank ≤ hook.order.rank := fun first member =>
      of_decide_eq_true ((List.pairwise_append.mp isSorted).2.2 first member hook
        List.mem_cons_self)
    rw [List.append_cons] at isSorted
    rw [List.foldl_cons, register_concat before, ih isSorted, ← List.append_cons]

/-- Hooks that are sorted stand group by group. -/
theorem grouped_of_pairwise
    (isSorted : hooks.Pairwise fun first second => runsBefore first second = true) :
    grouped hooks = hooks := by
  have unchanged : hooks.foldl register [] = [] ++ hooks := foldl_register_of_pairwise isSorted
  rw [← registerAll_eq_grouped, registerAll, unchanged, List.nil_append]

theorem pairwise_sorted (hooks : List Hook) :
    (sorted hooks).Pairwise fun first second => runsBefore first second = true :=
  List.pairwise_mergeSort runsBefore_trans runsBefore_total hooks

/-- Sorting puts the hooks group by group. -/
theorem sorted_eq_grouped (hooks : List Hook) : sorted hooks = grouped hooks := by
  rw [← grouped_of_pairwise (pairwise_sorted hooks), grouped, inGroup_sorted, inGroup_sorted,
    inGroup_sorted, grouped]

/-- Among sorted hooks, registering one more is sorting all of them again. -/
theorem register_eq_resort
    (isSorted : hooks.Pairwise fun first second => runsBefore first second = true) (hook : Hook) :
    register hooks hook = resort hooks hook := by
  rw [resort, sorted_eq_grouped, ← register_grouped, grouped_of_pairwise isSorted]

theorem foldl_register_eq_resort
    (isSorted : earlier.Pairwise fun first second => runsBefore first second = true)
    (later : List Hook) : later.foldl register earlier = later.foldl resort earlier := by
  induction later generalizing earlier with
  | nil => rfl
  | cons hook others ih =>
    -- What is sorted again is sorted, so the next hook meets the same condition.
    rw [List.foldl_cons, List.foldl_cons, register_eq_resort isSorted]
    exact ih (pairwise_sorted _)

/-! ## Runs -/

/-- The hooks make one text of another, each from what the one before it made. -/
inductive Passes (id : Text) : List Hook → (source result : Text) → Prop
  | done {source : Text} : Passes id [] source source
  | step {hook : Hook} {others : List Hook} {source changed result : Text}
    (applied : hook.apply id source = .ok changed) (rest : Passes id others changed result) :
    Passes id (hook :: others) source result

/-- A run, and the hooks that it applies, in order. -/
def runLogged (hooks : List Hook) (id source : Text) : Except HookFailure Text × List Hook :=
  match hooks with
  | [] => (.ok source, [])
  | hook :: others =>
    match hook.apply id source with
    | .ok changed =>
      let (outcome, applied) := runLogged others id changed
      (outcome, hook :: applied)
    | .error message => (.error ⟨hook.name, id, message⟩, [hook])

/-- Keeping the log does not change the outcome. -/
theorem fst_runLogged (hooks : List Hook) (id source : Text) :
    (runLogged hooks id source).1 = run hooks id source := by
  induction hooks generalizing source with
  | nil => rfl
  | cons hook others ih =>
    rw [runLogged, run]
    cases hook.apply id source with
    | ok changed => exact ih changed
    | error message => rfl

theorem run_cons_of_ok {others : List Hook} {changed : Text}
    (applied : hook.apply id source = .ok changed) :
    run (hook :: others) id source = run others id changed := by
  rw [run, applied]

theorem run_cons_of_error {others : List Hook} {message : Text}
    (refused : hook.apply id source = .error message) :
    run (hook :: others) id source = .error ⟨hook.name, id, message⟩ := by
  rw [run, refused]

/-- A run succeeds exactly with what the hooks make of the source one after the other. -/
theorem run_eq_ok_iff : run hooks id source = .ok result ↔ Passes id hooks source result := by
  constructor
  · intro isOk
    induction hooks generalizing source with
    | nil =>
      obtain rfl := Except.ok.inj isOk
      exact .done
    | cons hook others ih =>
      cases applied : hook.apply id source with
      | error message => rw [run_cons_of_error applied] at isOk; cases isOk
      | ok changed => exact .step applied (ih ((run_cons_of_ok applied).symm.trans isOk))
  · intro passes
    induction passes with
    | done => rfl
    | step applied _ ih => rwa [run_cons_of_ok applied]

/-- A run fails exactly with the failure of the first hook that refuses what the hooks before it
made. -/
theorem run_eq_error_iff {failure : HookFailure} :
    run hooks id source = .error failure ↔ ∃ earlier hook later reached message,
      hooks = earlier ++ hook :: later ∧ Passes id earlier source reached ∧
        hook.apply id reached = .error message ∧ failure = ⟨hook.name, id, message⟩ := by
  constructor
  · intro isError
    induction hooks generalizing source with
    | nil => cases isError
    | cons hook others ih =>
      cases applied : hook.apply id source with
      | error message =>
        rw [run_cons_of_error applied] at isError
        exact ⟨[], hook, others, source, message, rfl, .done, applied,
          (Except.error.inj isError).symm⟩
      | ok changed =>
        rw [run_cons_of_ok applied] at isError
        obtain ⟨earlier, failed, later, reached, message, rfl, passes, refused, named⟩ := ih isError
        exact ⟨hook :: earlier, failed, later, reached, message, rfl, .step applied passes, refused,
          named⟩
  · rintro ⟨earlier, hook, later, reached, message, rfl, passes, refused, rfl⟩
    induction passes with
    | done => exact run_cons_of_error refused
    | step applied _ ih => exact (run_cons_of_ok applied).trans (ih refused)

/-- A run that succeeds applies all hooks. -/
theorem snd_runLogged_of_passes (passes : Passes id hooks source result) :
    (runLogged hooks id source).2 = hooks := by
  induction passes with
  | done => rfl
  | step applied _ ih =>
    rw [runLogged, applied]
    exact congrArg _ ih

/-- A run applies no hook behind the first one that refuses. -/
theorem snd_runLogged_of_refused {reached message : Text}
    (passes : Passes id earlier source reached)
    (refused : hook.apply id reached = .error message) (later : List Hook) :
    (runLogged (earlier ++ hook :: later) id source).2 = earlier ++ [hook] := by
  induction passes with
  | done => rw [List.nil_append, runLogged, refused, List.nil_append]
  | step applied _ ih =>
    rw [List.cons_append, runLogged, applied]
    exact congrArg _ (ih refused)

/-- After any history of registrations the hooks are those of the first group, then those of the
middle one, then those of the last, each group in order of registration. This is what sorting all
hooks again at each registration leaves, and one stable sort of the history. A run of these hooks
makes of a source what they make of it one after the other, and applies all of them; or it fails
with the message of the first hook that refuses what those before it made, under the names of this
hook and of the document, and applies none behind it. -/
theorem run_registerAll (history : List Hook) (id source : Text) :
    let hooks := registerAll history
    hooks = inGroup .pre history ++ inGroup .normal history ++ inGroup .post history ∧
    hooks = history.foldl resort [] ∧
    hooks = sorted history ∧
    (runLogged hooks id source).1 = run hooks id source ∧
    (∀ result, run hooks id source = .ok result ↔
      Passes id hooks source result ∧ (runLogged hooks id source).2 = hooks) ∧
    ∀ failure, run hooks id source = .error failure ↔ ∃ earlier hook later reached message,
      hooks = earlier ++ hook :: later ∧ Passes id earlier source reached ∧
        hook.apply id reached = .error message ∧ failure = ⟨hook.name, id, message⟩ ∧
        (runLogged hooks id source).2 = earlier ++ [hook] := by
  intro hooks
  have isGrouped : hooks = grouped history := registerAll_eq_grouped history
  have logged : (runLogged hooks id source).1 = run hooks id source := fst_runLogged ..
  refine ⟨isGrouped, foldl_register_eq_resort .nil history,
    isGrouped.trans (sorted_eq_grouped history).symm, logged, fun result => ?_, fun failure => ?_⟩
  · rw [run_eq_ok_iff]
    exact ⟨fun passes => ⟨passes, snd_runLogged_of_passes passes⟩, And.left⟩
  · rw [run_eq_error_iff]
    constructor
    · rintro ⟨earlier, hook, later, reached, message, isSplit, passes, refused, named⟩
      refine ⟨earlier, hook, later, reached, message, isSplit, passes, refused, named, ?_⟩
      rw [isSplit]
      exact snd_runLogged_of_refused passes refused later
    · rintro ⟨earlier, hook, later, reached, message, isSplit, passes, refused, named, -⟩
      exact ⟨earlier, hook, later, reached, message, isSplit, passes, refused, named⟩

end MdxBuild.Hook

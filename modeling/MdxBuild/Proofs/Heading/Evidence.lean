import Mathlib.Data.Prod.Lex
import MdxBuild.Proofs.Heading.Assignment

/-!
# The evidence for an assigned heading

A call is assigned a heading only for a reason that can be read off the two: the same text, a
literal start, or that no other heading of this depth is left. What is left is told by turns. Calls
whose whole text is known have theirs first, then the others, and in either group the calls come in
the order of the code. No heading is claimed twice, so the reason fixes the heading: a call has a
heading exactly if there is evidence for it when its turn comes.
-/

namespace MdxBuild.Generated.Assignment

open Text

variable {headings : List HeadingRecord} {claimed : List Nat} {calls : List HeadingCall}
  {call : HeadingCall} {slot : Slot} {slots : List Slot} {index position : Nat}

/-! ## Evidence -/

/-- A reason to assign a heading to a call, where some headings are claimed already. -/
inductive Evidence (headings : List HeadingRecord) (isClaimed : Nat → Prop) (call : HeadingCall)
    (index : Nat) : Prop
  /-- The whole text of the call is known, and this is the first heading left with this text. -/
  | text {text : Text} (whole : call.text? = some text)
      (first : IsFirst headings isClaimed
        (fun record => record.depth = call.depth ∧ trim record.text = trim text) index)
  /-- A literal start is known, and this is the first heading left that begins with it. -/
  | start {start : Text} (unknown : call.text? = none) (isStart : call.prefix? = some start)
      (notBlank : allBlank start = false)
      (first : IsFirst headings isClaimed
        (fun record => record.depth = call.depth ∧ trimStart start <+: trimStart record.text) index)
  /-- Nothing is known of the text, and this is the only heading of the depth that is left. -/
  | sole (unknown : call.text? = none)
      (noStart : ∀ start, call.prefix? = some start → allBlank start = true)
      (sole : IsSole headings isClaimed (fun record => record.depth = call.depth) index)

/-- A call whose whole text is known chooses by evidence. -/
theorem byText_eq_some_iff {text : Text} (whole : call.text? = some text) :
    byText headings call claimed = some index ↔
      Evidence headings (· ∈ claimed) call index := by
  have isKey : call.key? = some (call.depth, trim text) := by rw [HeadingCall.key?, whole]; rfl
  rw [byText_of_key isKey, head?_free]
  simp only [HeadingRecord.key, beq_iff_eq, Prod.mk.injEq]
  constructor
  · exact .text whole
  · rintro (⟨same, first⟩ | ⟨unknown⟩ | ⟨unknown⟩)
    · rw [whole, Option.some.injEq] at same
      rwa [same]
    · rw [whole] at unknown
      cases unknown
    · rw [whole] at unknown
      cases unknown

/-- The literal start that a call chooses by is one that is not blank. -/
theorem start_eq_some_iff {start : Text} :
    call.prefix?.filter (!allBlank ·) = some start ↔
      call.prefix? = some start ∧ allBlank start = false := by
  rw [Option.filter_eq_some_iff, Bool.not_eq_true']

/-- A call whose whole text is not known chooses by evidence. -/
theorem byStart_eq_some_iff (unknown : call.text? = none) :
    byStart headings call claimed = some index ↔
      Evidence headings (· ∈ claimed) call index := by
  cases start : call.prefix?.filter (!allBlank ·) with
  | some literal =>
    obtain ⟨isStart, notBlank⟩ := start_eq_some_iff.mp start
    simp only [byStart, unknown, Option.isSome_none, Bool.false_eq_true, if_false, start,
      head?_free, Bool.and_eq_true, beq_iff_eq, List.isPrefixOf_iff_prefix]
    constructor
    · exact .start unknown isStart notBlank
    · rintro (⟨whole⟩ | ⟨-, same, -, first⟩ | ⟨-, noStart, -⟩)
      · rw [unknown] at whole
        cases whole
      · rw [isStart, Option.some.injEq] at same
        rwa [same]
      · rw [noStart literal isStart] at notBlank
        cases notBlank
  | none =>
    have noStart : ∀ start, call.prefix? = some start → allBlank start = true := by
      intro literal isStart
      by_contra notBlank
      rw [start_eq_some_iff.mpr ⟨isStart, Bool.eq_false_iff.mpr notBlank⟩] at start
      cases start
    have isOnly : byStart headings call claimed = some index ↔
        free headings claimed (fun heading => heading.depth == call.depth) = [index] := by
      simp only [byStart, unknown, Option.isSome_none, Bool.false_eq_true, if_false, start]
      cases free headings claimed (fun heading => heading.depth == call.depth) with
      | nil => simp
      | cons first others => cases others <;> simp
    rw [isOnly, free_eq_singleton]
    simp only [beq_iff_eq]
    constructor
    · exact .sole unknown noStart
    · rintro (⟨whole⟩ | ⟨-, isStart, notBlank⟩ | ⟨-, -, sole⟩)
      · rw [unknown] at whole
        cases whole
      · rw [noStart _ isStart] at notBlank
        cases notBlank
      · exact sole

/-! ## Turns within a pass -/

section Pass

variable {choose : HeadingCall → List Nat → Option Nat}

/-- The headings that are claimed in a pass when it gets to a position. -/
def claimedUpTo (choose : HeadingCall → List Nat → Option Nat) (claimed : List Nat)
    (slots : List Slot) (position : Nat) : List Nat :=
  (pass (claiming choose) claimed (slots.take position)).2

theorem claimedUpTo_length :
    claimedUpTo choose claimed slots slots.length = (pass (claiming choose) claimed slots).2 := by
  rw [claimedUpTo, List.take_length]

/-- The slot at a position, after a pass in which so much is claimed when it gets there. -/
def turned (choose : HeadingCall → List Nat → Option Nat) (claimed : List Nat) (slot : Slot) :
    Slot :=
  if IsOpen slot then { slot with heading := choose slot.call claimed } else slot

/-- A call that takes part in a pass chooses by what is claimed when the pass gets to it. -/
theorem getElem?_pass (position : Nat) :
    (pass (claiming choose) claimed slots).1[position]? =
      slots[position]?.map (turned choose (claimedUpTo choose claimed slots position)) := by
  induction slots generalizing claimed position with
  | nil => rfl
  | cons slot others ih =>
    by_cases isOpen : IsOpen slot
    · cases position with
      | zero =>
        rw [pass_cons_of_isOpen isOpen, List.getElem?_cons_zero, List.getElem?_cons_zero,
          Option.map_some, turned, if_pos isOpen]
        rfl
      | succ position =>
        rw [pass_cons_of_isOpen isOpen, List.getElem?_cons_succ, ih, List.getElem?_cons_succ]
        simp only [claimedUpTo, List.take_succ_cons, pass_cons_of_isOpen isOpen]
    · cases position with
      | zero =>
        rw [pass_cons_of_not_isOpen isOpen, List.getElem?_cons_zero, List.getElem?_cons_zero,
          Option.map_some, turned, if_neg isOpen]
      | succ position =>
        rw [pass_cons_of_not_isOpen isOpen, List.getElem?_cons_succ, ih, List.getElem?_cons_succ]
        simp only [claimedUpTo, List.take_succ_cons, pass_cons_of_not_isOpen isOpen]

/-- A slot adds the choice of its call to what is claimed. -/
theorem claimedUpTo_succ (isSlot : slots[position]? = some slot) :
    claimedUpTo choose claimed slots (position + 1) =
      if IsOpen slot then
        (choose slot.call (claimedUpTo choose claimed slots position)).toList ++
          claimedUpTo choose claimed slots position
      else claimedUpTo choose claimed slots position := by
  induction slots generalizing claimed position with
  | nil => cases isSlot
  | cons first others ih =>
    cases position with
    | zero =>
      obtain rfl : first = slot := Option.some.inj isSlot
      by_cases isOpen : IsOpen first
      · rw [claimedUpTo, List.take_succ_cons, pass_cons_of_isOpen isOpen, if_pos isOpen]
        rfl
      · rw [claimedUpTo, List.take_succ_cons, pass_cons_of_not_isOpen isOpen, if_neg isOpen]
        rfl
    | succ position =>
      by_cases isOpen : IsOpen first
      · simp only [claimedUpTo, List.take_succ_cons, pass_cons_of_isOpen isOpen]
        exact ih isSlot
      · simp only [claimedUpTo, List.take_succ_cons, pass_cons_of_not_isOpen isOpen]
        exact ih isSlot

/-- At a position, those headings are claimed that were claimed at first or were chosen before. -/
theorem mem_claimedUpTo : index ∈ claimedUpTo choose claimed slots position ↔
    index ∈ claimed ∨ ∃ earlier < position, ∃ slot, slots[earlier]? = some slot ∧ IsOpen slot ∧
      choose slot.call (claimedUpTo choose claimed slots earlier) = some index := by
  induction position with
  | zero => simp [claimedUpTo, pass]
  | succ position ih =>
    rw [Nat.exists_lt_succ_right, ← or_assoc, ← ih]
    cases isSlot : slots[position]? with
    | none =>
      have beyond : slots.length ≤ position := List.getElem?_eq_none_iff.mp isSlot
      simp [claimedUpTo, List.take_of_length_le beyond,
        List.take_of_length_le (Nat.le_succ_of_le beyond)]
    | some slot =>
      simp only [claimedUpTo_succ isSlot, Option.some.injEq, exists_eq_left']
      by_cases isOpen : IsOpen slot
      · rw [if_pos isOpen, List.mem_append, Option.mem_toList, or_comm]
        simp only [isOpen, true_and]
      · simp only [isOpen, if_false, false_and, or_false]

end Pass

/-! ## Turns within both passes -/

/-- The headings that are claimed when the first pass gets to a position. -/
def claimedByTexts (headings : List HeadingRecord) (calls : List HeadingCall) (position : Nat) :
    List Nat :=
  claimedUpTo (byText headings) (claimedByIds headings calls) (calls.map (⟨·, none⟩)) position

/-- The headings that are claimed when the second pass gets to a position. -/
def claimedByStarts (headings : List HeadingRecord) (calls : List HeadingCall) (position : Nat) :
    List Nat :=
  claimedUpTo (byStart headings) (textPass headings calls).2 (textPass headings calls).1 position

theorem getElem?_textPass (position : Nat) : (textPass headings calls).1[position]? =
    calls[position]?.map fun call => ⟨call, if call.existingId = none then
      byText headings call (claimedByTexts headings calls position) else none⟩ := by
  rw [textPass, getElem?_pass, List.getElem?_map, Option.map_map]
  congr 1
  funext call
  by_cases noId : call.existingId = none
  · exact (if_pos ⟨noId, rfl⟩).trans (by rw [if_pos noId]; rfl)
  · exact (if_neg fun isOpen => noId isOpen.1).trans (by rw [if_neg noId])

/-- A call without an id chooses in the pass of its kind, by what is claimed at its turn. -/
theorem getElem?_assign (position : Nat) : (assign headings calls)[position]? =
    calls[position]?.map fun call => ⟨call, if call.existingId = none then
      if call.text? = none then byStart headings call (claimedByStarts headings calls position)
      else byText headings call (claimedByTexts headings calls position)
      else none⟩ := by
  rw [assign_eq, getElem?_pass, getElem?_textPass, Option.map_map]
  congr 1
  funext call
  by_cases noId : call.existingId = none
  · simp only [Function.comp_apply, noId, if_true]
    by_cases unknown : call.text? = none
    · have chosen : byText headings call (claimedByTexts headings calls position) = none :=
        byText_of_none (HeadingCall.key?_eq_none.mpr unknown)
      rw [if_pos unknown, chosen, turned, if_pos ⟨noId, rfl⟩]
      rfl
    · obtain ⟨text, whole⟩ := Option.ne_none_iff_exists'.mp unknown
      have isKey : call.key? = some (call.depth, trim text) := by
        rw [HeadingCall.key?, whole]
        rfl
      rw [if_neg unknown, turned]
      split
      next isOpen => exact congrArg (Slot.mk call) ((byStart_of_key isKey).trans isOpen.2.symm)
      next => rfl
  · simp only [Function.comp_apply, noId, if_false]
    exact if_neg fun isOpen => noId isOpen.1

/-- The heading that the call at a position was assigned. -/
def chosen (headings : List HeadingRecord) (calls : List HeadingCall) (position : Nat) :
    Option Nat :=
  (assign headings calls)[position]?.bind Slot.heading

/-- The whole text of the call at a position is not known. -/
def unknownAt (calls : List HeadingCall) (position : Nat) : Bool :=
  (calls[position]?.bind HeadingCall.text?).isNone

theorem unknownAt_of_getElem? (isCall : calls[position]? = some call) :
    unknownAt calls position = call.text?.isNone := by
  rw [unknownAt, isCall, Option.bind_some]

theorem chosen_of_unknown (unknown : unknownAt calls position = true) :
    chosen headings calls position = some index ↔
      ∃ call, calls[position]? = some call ∧ call.existingId = none ∧
        byStart headings call (claimedByStarts headings calls position) = some index := by
  rw [chosen, getElem?_assign]
  cases isCall : calls[position]? with
  | none => simp
  | some call =>
    rw [unknownAt_of_getElem? isCall, Option.isNone_iff_eq_none] at unknown
    simp [unknown, Option.ite_none_right_eq_some]

theorem chosen_of_known (known : unknownAt calls position = false) :
    chosen headings calls position = some index ↔
      ∃ call, calls[position]? = some call ∧ call.existingId = none ∧
        byText headings call (claimedByTexts headings calls position) = some index := by
  rw [chosen, getElem?_assign]
  cases isCall : calls[position]? with
  | none => simp
  | some call =>
    rw [unknownAt_of_getElem? isCall, Option.isNone_eq_false_iff,
      Option.isSome_iff_ne_none] at known
    simp [known, Option.ite_none_right_eq_some]

/-- The order of turns: calls whose whole text is known come first. -/
def turn (calls : List HeadingCall) (position : Nat) : Bool ×ₗ Nat :=
  toLex (unknownAt calls position, position)

/-- A heading is claimed when a call has its turn: by an id, or by a call that had its turn
before. -/
def ClaimedAt (headings : List HeadingRecord) (calls : List HeadingCall) (position index : Nat) :
    Prop :=
  index ∈ claimedByIds headings calls ∨
    ∃ other, turn calls other < turn calls position ∧ chosen headings calls other = some index

theorem turn_injective : Function.Injective (turn calls) := fun _ _ same =>
  congrArg (fun pair => (ofLex pair).2) same

theorem mem_claimedByTexts : index ∈ claimedByTexts headings calls position ↔
    index ∈ claimedByIds headings calls ∨ ∃ other < position,
      unknownAt calls other = false ∧ chosen headings calls other = some index := by
  rw [claimedByTexts, mem_claimedUpTo]
  refine or_congr_right (exists_congr fun other => and_congr_right fun _ => ?_)
  constructor
  · rintro ⟨slot, isSlot, isOpen, chosen⟩
    obtain ⟨call, isCall, rfl⟩ := Option.map_eq_some_iff.mp (List.getElem?_map ▸ isSlot)
    have known : unknownAt calls other = false := by
      rw [unknownAt_of_getElem? isCall, Option.isNone_eq_false_iff, Option.isSome_iff_ne_none]
      intro unknown
      rw [byText_of_none (HeadingCall.key?_eq_none.mpr unknown)] at chosen
      cases chosen
    exact ⟨known, (chosen_of_known known).mpr ⟨call, isCall, isOpen.1, chosen⟩⟩
  · rintro ⟨known, isChosen⟩
    obtain ⟨call, isCall, noId, chosen⟩ := (chosen_of_known known).mp isChosen
    exact ⟨⟨call, none⟩, by rw [List.getElem?_map, isCall]; rfl, ⟨noId, rfl⟩, chosen⟩

theorem mem_claimedByStarts : index ∈ claimedByStarts headings calls position ↔
    index ∈ claimedByTexts headings calls calls.length ∨ ∃ other < position,
      unknownAt calls other = true ∧ chosen headings calls other = some index := by
  have allTexts : (textPass headings calls).2 = claimedByTexts headings calls calls.length := by
    rw [claimedByTexts, ← List.length_map, claimedUpTo_length, textPass]
  rw [claimedByStarts, mem_claimedUpTo, ← allTexts]
  refine or_congr_right (exists_congr fun other => and_congr_right fun _ => ?_)
  constructor
  · rintro ⟨slot, isSlot, isOpen, chosen⟩
    obtain ⟨call, isCall, rfl⟩ := Option.map_eq_some_iff.mp (getElem?_textPass other ▸ isSlot)
    have unknown : unknownAt calls other = true := by
      rw [unknownAt_of_getElem? isCall, Option.isNone_iff_eq_none]
      by_contra known
      obtain ⟨text, whole⟩ := Option.ne_none_iff_exists'.mp known
      have isKey : call.key? = some (call.depth, trim text) := by
        rw [HeadingCall.key?, whole]
        rfl
      rw [byStart_of_key isKey] at chosen
      cases chosen
    exact ⟨unknown, (chosen_of_unknown unknown).mpr ⟨call, isCall, isOpen.1, chosen⟩⟩
  · rintro ⟨unknown, isChosen⟩
    obtain ⟨call, isCall, noId, chosen⟩ := (chosen_of_unknown unknown).mp isChosen
    have noText : call.key? = none := by
      rw [unknownAt_of_getElem? isCall, Option.isNone_iff_eq_none] at unknown
      exact HeadingCall.key?_eq_none.mpr unknown
    refine ⟨⟨call, none⟩, ?_, ⟨noId, rfl⟩, chosen⟩
    rw [getElem?_textPass, isCall, Option.map_some, byText_of_none noText, ite_self]

/-- What the first pass takes for claimed is claimed. -/
theorem mem_claimedByTexts_iff (known : unknownAt calls position = false) :
    index ∈ claimedByTexts headings calls position ↔ ClaimedAt headings calls position index := by
  rw [mem_claimedByTexts, ClaimedAt]
  refine or_congr_right (exists_congr fun other => ?_)
  rw [turn, turn, Prod.Lex.toLex_lt_toLex, known]
  cases unknownAt calls other <;> simp

/-- What the second pass takes for claimed is claimed. -/
theorem mem_claimedByStarts_iff (unknown : unknownAt calls position = true) :
    index ∈ claimedByStarts headings calls position ↔ ClaimedAt headings calls position index := by
  rw [mem_claimedByStarts, mem_claimedByTexts, ClaimedAt, or_assoc, ← exists_or]
  refine or_congr_right (exists_congr fun other => ?_)
  rw [turn, turn, Prod.Lex.toLex_lt_toLex, unknown]
  cases isUnknown : unknownAt calls other with
  | true => simp
  | false =>
    suffices chosen headings calls other = some index → other < calls.length by simpa
    intro isChosen
    obtain ⟨call, isCall, -⟩ := (chosen_of_known isUnknown).mp isChosen
    exact (List.getElem?_eq_some_iff.mp isCall).1

/-! ## The main statement -/

theorem Evidence.notClaimed {isClaimed : Nat → Prop}
    (evidence : Evidence headings isClaimed call index) : ¬isClaimed index := by
  rcases evidence with ⟨-, first⟩ | ⟨-, -, -, first⟩ | ⟨-, -, sole⟩
  · exact first.unclaimed
  · exact first.unclaimed
  · exact sole.unclaimed

/-- A call has the heading for which there is evidence at its turn. -/
theorem chosen_eq_some_iff : chosen headings calls position = some index ↔
    ∃ call, calls[position]? = some call ∧ call.existingId = none ∧
      Evidence headings (ClaimedAt headings calls position) call index := by
  cases unknown : unknownAt calls position with
  | true =>
    have sameClaims : ClaimedAt headings calls position =
        (· ∈ claimedByStarts headings calls position) :=
      funext fun _ => propext (mem_claimedByStarts_iff unknown).symm
    rw [chosen_of_unknown unknown, sameClaims]
    refine exists_congr fun call => and_congr_right fun isCall => and_congr_right fun _ => ?_
    rw [unknownAt_of_getElem? isCall, Option.isNone_iff_eq_none] at unknown
    exact byStart_eq_some_iff unknown
  | false =>
    have sameClaims : ClaimedAt headings calls position =
        (· ∈ claimedByTexts headings calls position) :=
      funext fun _ => propext (mem_claimedByTexts_iff unknown).symm
    rw [chosen_of_known unknown, sameClaims]
    refine exists_congr fun call => and_congr_right fun isCall => and_congr_right fun _ => ?_
    rw [unknownAt_of_getElem? isCall, Option.isNone_eq_false_iff] at unknown
    obtain ⟨text, whole⟩ := Option.isSome_iff_exists.mp unknown
    exact byText_eq_some_iff whole

/-- A heading that a call has is not claimed at the turn of the call. -/
theorem notClaimed_of_chosen (isChosen : chosen headings calls position = some index) :
    ¬ClaimedAt headings calls position index := by
  obtain ⟨call, -, -, evidence⟩ := chosen_eq_some_iff.mp isChosen
  exact evidence.notClaimed

/-- No two calls have the same heading. -/
theorem chosen_injective {other : Nat} (isChosen : chosen headings calls position = some index)
    (isOther : chosen headings calls other = some index) : other = position := by
  rcases lt_trichotomy (turn calls other) (turn calls position) with before | same | behind
  · exact absurd (.inr ⟨other, before, isOther⟩) (notClaimed_of_chosen isChosen)
  · exact turn_injective same
  · exact absurd (.inr ⟨position, behind, isChosen⟩) (notClaimed_of_chosen isOther)

/-- The calls of a code are assigned headings by evidence alone. A call has a heading exactly if it
has no id and there is evidence for the heading when its turn comes, among the headings that no id
and no call before it has claimed. So no heading is used twice, and none that an id has claimed. -/
theorem heading_iff_evidence (headings : List HeadingRecord) (code : Text) :
    (assign headings (locate code)).map Slot.call = locate code ∧
    ∀ (position : Nat) (slot : Slot),
      (assign headings (locate code))[position]? = some slot →
      ∀ index,
        (slot.heading = some index ↔
          slot.call.existingId = none ∧
            Evidence headings (ClaimedAt headings (locate code) position) slot.call index) ∧
        (slot.heading = some index →
          index ∉ claimedByIds headings (locate code) ∧
          ∀ (other : Nat) (otherSlot : Slot),
            (assign headings (locate code))[other]? = some otherSlot →
            otherSlot.heading = some index → other = position) := by
  refine ⟨map_call_assign _ _, fun position slot isSlot index => ?_⟩
  have chosenBy {other : Nat} {otherSlot : Slot}
      (isOther : (assign headings (locate code))[other]? = some otherSlot) :
      chosen headings (locate code) other = otherSlot.heading := by
    rw [chosen, isOther, Option.bind_some]
  have isCall : (locate code)[position]? = some slot.call := by
    rw [← map_call_assign headings (locate code), List.getElem?_map, isSlot, Option.map_some]
  constructor
  · rw [← chosenBy isSlot, chosen_eq_some_iff]
    simp only [isCall, Option.some.injEq, exists_eq_left']
  · intro has
    have isChosen := (chosenBy isSlot).trans has
    exact ⟨fun byId => notClaimed_of_chosen isChosen (.inl byId),
      fun other otherSlot isOther otherHas =>
        chosen_injective isChosen ((chosenBy isOther).trans otherHas)⟩

/-- A code with a heading that begins with a literal. -/
def Trial.opening : Text :=
  "_jsx(\"h2\",\x7bchildren:[\"The \",x]\x7d)".toList

/-- Two headings, of which the second one begins so. -/
def Trial.theories : List HeadingRecord :=
  [⟨2, "theory".toList, "Theory".toList⟩, ⟨2, "the-x".toList, "The x".toList⟩]

/-- The call has the second heading, since the first one does not begin with its literal. -/
theorem heading_of_trial :
    ∃ slot, (assign Trial.theories (locate Trial.opening))[0]? = some slot ∧
      slot.heading = some 1 ∧ slot.call.existingId = none ∧
      Evidence Trial.theories (ClaimedAt Trial.theories (locate Trial.opening) 0) slot.call 1 ∧
      1 ∉ claimedByIds Trial.theories (locate Trial.opening) := by
  have hasHeading : (assign Trial.theories (locate Trial.opening))[0]?.map Slot.heading =
      some (some 1) := by
    decide +kernel
  obtain ⟨slot, isSlot, has⟩ := Option.map_eq_some_iff.mp hasHeading
  obtain ⟨byEvidence, unique⟩ :=
    (heading_iff_evidence Trial.theories Trial.opening).2 0 slot isSlot 1
  exact ⟨slot, isSlot, has, (byEvidence.mp has).1, (byEvidence.mp has).2, (unique has).1⟩

end MdxBuild.Generated.Assignment

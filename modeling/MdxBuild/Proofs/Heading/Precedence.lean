import MdxBuild.Proofs.Heading.Evidence

/-!
# Headings that nothing is known of

A call of whose text nothing is known takes the only heading of its depth that is left when its turn
comes. Another call, of whose text something is known that fits this heading, had one itself by then
if its turn came before: calls whose whole text is known, and calls in front. Calls behind come too
late, since no heading of the depth is left for them.
-/

namespace MdxBuild.Generated.Assignment

open Text

variable {headings : List HeadingRecord} {calls : List HeadingCall} {call : HeadingCall}
  {slot : Slot} {index position other : Nat} {record : HeadingRecord} {isClaimed : Nat → Prop}

/-- What is known of the text of a call fits a heading. -/
inductive Fits (record : HeadingRecord) (call : HeadingCall) : Prop
  /-- The whole text of the call is known, and the heading has this text. -/
  | text {text : Text} (whole : call.text? = some text) (same : trim record.text = trim text)
  /-- A literal start is known, and the heading begins with it. -/
  | start {start : Text} (unknown : call.text? = none) (isStart : call.prefix? = some start)
      (notBlank : allBlank start = false) (begins : trimStart start <+: trimStart record.text)

/-! ## What is left at a turn -/

/-- Where an acceptable heading is unclaimed, there is a first one. -/
theorem exists_isFirst {accepts : HeadingRecord → Prop} (isRecord : headings[index]? = some record)
    (accepted : accepts record) (unclaimed : ¬isClaimed index) :
    ∃ first, IsFirst headings isClaimed accepts first := by
  induction index using Nat.strongRecOn generalizing record with
  | ind index ih =>
    by_cases isFirst : ∀ other record, headings[other]? = some record → accepts record →
        other < index → isClaimed other
    · exact ⟨index, ⟨record, isRecord, accepted⟩, unclaimed, isFirst⟩
    · push Not at isFirst
      obtain ⟨other, otherRecord, isOther, otherAccepted, less, otherUnclaimed⟩ := isFirst
      exact ih other less isOther otherAccepted otherUnclaimed

/-- Where a heading is unclaimed that fits a call, there is evidence for one. -/
theorem Fits.exists_evidence (fits : Fits record call) (isRecord : headings[index]? = some record)
    (sameDepth : record.depth = call.depth) (unclaimed : ¬isClaimed index) :
    ∃ first, Evidence headings isClaimed call first := by
  cases fits with
  | @text text whole same =>
    obtain ⟨first, isFirst⟩ : ∃ first, IsFirst headings isClaimed
        (fun record => record.depth = call.depth ∧ trim record.text = trim text) first :=
      exists_isFirst isRecord ⟨sameDepth, same⟩ unclaimed
    exact ⟨first, .text whole isFirst⟩
  | @start start unknown isStart notBlank begins =>
    obtain ⟨first, isFirst⟩ : ∃ first, IsFirst headings isClaimed
        (fun record => record.depth = call.depth ∧ trimStart start <+: trimStart record.text)
        first :=
      exists_isFirst isRecord ⟨sameDepth, begins⟩ unclaimed
    exact ⟨first, .start unknown isStart notBlank isFirst⟩

/-- The heading for which there is evidence has the depth of the call. -/
theorem Evidence.exists_depth (evidence : Evidence headings isClaimed call index) :
    ∃ record, headings[index]? = some record ∧ record.depth = call.depth := by
  cases evidence with
  | text _ first =>
    obtain ⟨record, isRecord, sameDepth, -⟩ := first.accepted
    exact ⟨record, isRecord, sameDepth⟩
  | start _ _ _ first =>
    obtain ⟨record, isRecord, sameDepth, -⟩ := first.accepted
    exact ⟨record, isRecord, sameDepth⟩
  | sole _ _ sole => exact sole.accepted

/-- A call without a heading found all headings claimed that fit it. -/
theorem claimedAt_of_chosen_eq_none (isNone : chosen headings calls position = none)
    (isCall : calls[position]? = some call) (noId : call.existingId = none)
    (fits : Fits record call) (isRecord : headings[index]? = some record)
    (sameDepth : record.depth = call.depth) : ClaimedAt headings calls position index := by
  by_contra unclaimed
  obtain ⟨first, evidence⟩ := fits.exists_evidence isRecord sameDepth unclaimed
  have isChosen := chosen_eq_some_iff.mpr ⟨call, isCall, noId, evidence⟩
  rw [isNone] at isChosen
  cases isChosen

/-- What is claimed stays claimed. -/
theorem ClaimedAt.mono (claimed : ClaimedAt headings calls position index)
    (before : turn calls position < turn calls other) : ClaimedAt headings calls other index := by
  rcases claimed with byId | ⟨earlier, less, isChosen⟩
  · exact .inl byId
  · exact .inr ⟨earlier, less.trans before, isChosen⟩

/-- Behind a call that took the only heading left of a depth, no call of this depth has one. -/
theorem chosen_eq_none_of_behind_sole (isChosen : chosen headings calls position = some index)
    (sole : IsSole headings (ClaimedAt headings calls position)
      (fun record => record.depth = call.depth) index)
    {otherCall : HeadingCall} (isOther : calls[other]? = some otherCall)
    (sameDepth : otherCall.depth = call.depth) (behind : turn calls position < turn calls other) :
    chosen headings calls other = none := by
  rw [Option.eq_none_iff_forall_ne_some]
  intro heading otherChosen
  obtain ⟨found, isFound, -, evidence⟩ := chosen_eq_some_iff.mp otherChosen
  obtain rfl : otherCall = found := Option.some.inj (isOther.symm.trans isFound)
  obtain ⟨record, isRecord, depth⟩ := evidence.exists_depth
  refine evidence.notClaimed ?_
  by_cases same : heading = index
  · exact .inr ⟨position, behind, same ▸ isChosen⟩
  · exact (sole.others heading record isRecord (depth.trans sameDepth) same).mono behind

/-- Calls of whose text nothing is known have their turn behind those whose whole text is known and
behind those in front of them. -/
theorem turn_lt_iff (unknown : unknownAt calls position = true) :
    turn calls position < turn calls other ↔
      unknownAt calls other = true ∧ position < other := by
  rw [turn, turn, Prod.Lex.toLex_lt_toLex, unknown]
  cases unknownAt calls other <;> simp

/-! ## The main statement -/

/-- Where a call of whose text nothing is known has a heading, it is the only one of its depth that
was left. Of the other calls of this depth that have no id of their own, those of whose text
something is known that fits this heading are left without one exactly if their text is not known as
a whole and they stand behind the call. -/
theorem unassigned_iff_behind_sole (headings : List HeadingRecord) (code : Text)
    (isSlot : (assign headings (locate code))[position]? = some slot)
    (has : slot.heading = some index) (unknown : slot.call.text? = none)
    (noStart : ∀ start, slot.call.prefix? = some start → allBlank start = true) :
    ∃ record, headings[index]? = some record ∧ record.depth = slot.call.depth ∧
      ∀ (other : Nat) (otherSlot : Slot),
        (assign headings (locate code))[other]? = some otherSlot →
        otherSlot.call.existingId = none → otherSlot.call.depth = slot.call.depth →
        Fits record otherSlot.call →
        (otherSlot.heading = none ↔ otherSlot.call.text? = none ∧ position < other) := by
  have chosenBy {other : Nat} {otherSlot : Slot}
      (isOther : (assign headings (locate code))[other]? = some otherSlot) :
      chosen headings (locate code) other = otherSlot.heading := by
    rw [chosen, isOther, Option.bind_some]
  have callAt {other : Nat} {otherSlot : Slot}
      (isOther : (assign headings (locate code))[other]? = some otherSlot) :
      (locate code)[other]? = some otherSlot.call := by
    rw [← map_call_assign headings (locate code), List.getElem?_map, isOther, Option.map_some]
  have unknownBy {other : Nat} {otherSlot : Slot}
      (isOther : (assign headings (locate code))[other]? = some otherSlot) :
      unknownAt (locate code) other = true ↔ otherSlot.call.text? = none := by
    rw [unknownAt_of_getElem? (callAt isOther), Option.isNone_iff_eq_none]
  have isChosen := (chosenBy isSlot).trans has
  obtain ⟨call, isCall, -, evidence⟩ := chosen_eq_some_iff.mp isChosen
  obtain rfl : slot.call = call := Option.some.inj ((callAt isSlot).symm.trans isCall)
  obtain ⟨record, isRecord, sameDepth⟩ := evidence.exists_depth
  have sole : IsSole headings (ClaimedAt headings (locate code) position)
      (fun record => record.depth = slot.call.depth) index := by
    cases evidence with
    | text whole =>
      rw [unknown] at whole
      cases whole
    | start _ isStart notBlank =>
      rw [noStart _ isStart] at notBlank
      cases notBlank
    | sole _ _ sole => exact sole
  refine ⟨record, isRecord, sameDepth, ?_⟩
  intro other otherSlot isOther noId otherDepth fits
  rw [← unknownBy isOther, ← turn_lt_iff ((unknownBy isSlot).mpr unknown), ← chosenBy isOther]
  constructor
  · intro isNone
    have claimed := claimedAt_of_chosen_eq_none isNone (callAt isOther) noId fits isRecord
      (sameDepth.trans otherDepth.symm)
    rcases lt_trichotomy (turn (locate code) other) (turn (locate code) position) with
      before | same | behind
    · exact absurd (claimed.mono before) evidence.notClaimed
    · rw [turn_injective same, isChosen] at isNone
      cases isNone
    · exact behind
  · exact chosen_eq_none_of_behind_sole isChosen sole (callAt isOther) otherDepth

/-- A slot, as far as it matters for the choice of headings. -/
structure Trial.Outline where
  heading : Option Nat
  existingId : Option Text
  depth : Nat
  text : Option Text
  start : Option Text
deriving DecidableEq

/-- The outline of a slot. -/
def Trial.outline (slot : Slot) : Trial.Outline where
  heading := slot.heading
  existingId := slot.call.existingId
  depth := slot.call.depth
  text := slot.call.text?
  start := slot.call.prefix?

/-- Of three headings, the first and the last begin in the same way, and nothing is known of the
one between them. -/
def Trial.between : Text :=
  ("_jsx(\"h2\",\x7bchildren:[\"The \",y]\x7d) _jsx(\"h2\",\x7bchildren:x\x7d) " ++
    "_jsx(\"h2\",\x7bchildren:[\"The \",z]\x7d)").toList

/-- Two headings that begin in this way. -/
def Trial.twoStarts : List HeadingRecord :=
  [⟨2, "the-y".toList, "The y".toList⟩, ⟨2, "the-z".toList, "The z".toList⟩]

/-- The unknown heading is given the second record. The first call fits it and has one, the last
call fits it and has none. -/
theorem last_unassigned_of_between :
    ∃ first sole last, assign Trial.twoStarts (locate Trial.between) = [first, sole, last] ∧
      sole.heading = some 1 ∧ sole.call.text? = none ∧ sole.call.prefix? = none ∧
      first.heading ≠ none ∧ last.heading = none := by
  have outlines : (assign Trial.twoStarts (locate Trial.between)).map Trial.outline =
      [⟨some 0, none, 2, none, some "The ".toList⟩, ⟨some 1, none, 2, none, none⟩,
        ⟨none, none, 2, none, some "The ".toList⟩] := by
    decide +kernel
  obtain ⟨first, _, isFirst, ofFirst, behindFirst⟩ := List.map_eq_cons_iff.mp outlines
  obtain ⟨sole, _, rfl, ofSole, behindSole⟩ := List.map_eq_cons_iff.mp behindFirst
  obtain ⟨last, _, rfl, ofLast, nothing⟩ := List.map_eq_cons_iff.mp behindSole
  obtain rfl := List.map_eq_nil_iff.mp nothing
  simp only [Trial.outline, Trial.Outline.mk.injEq] at ofFirst ofSole ofLast
  obtain ⟨-, firstNoId, firstDepth, firstUnknown, firstStart⟩ := ofFirst
  obtain ⟨soleHas, -, soleDepth, soleUnknown, soleNoStart⟩ := ofSole
  obtain ⟨-, lastNoId, lastDepth, lastUnknown, lastStart⟩ := ofLast
  have noStart : ∀ start, sole.call.prefix? = some start → allBlank start = true := by
    rw [soleNoStart]
    exact fun _ isStart => nomatch isStart
  have isSlot : (assign Trial.twoStarts (locate Trial.between))[1]? = some sole := by
    rw [isFirst, List.getElem?_cons_succ, List.getElem?_cons_zero]
  obtain ⟨record, isRecord, -, leftOut⟩ := unassigned_iff_behind_sole Trial.twoStarts
    Trial.between isSlot soleHas soleUnknown noStart
  obtain rfl := Option.some.inj isRecord
  have fits {slot : Slot} (unknown : slot.call.text? = none)
      (isStart : slot.call.prefix? = some "The ".toList) :
      Fits ⟨2, "the-z".toList, "The z".toList⟩ slot.call :=
    .start unknown isStart (by decide) (by decide)
  have firstLeftOut := leftOut 0 first (by rw [isFirst, List.getElem?_cons_zero]) firstNoId
    (firstDepth.trans soleDepth.symm) (fits firstUnknown firstStart)
  have lastLeftOut := leftOut 2 last
    (by rw [isFirst, List.getElem?_cons_succ, List.getElem?_cons_succ, List.getElem?_cons_zero])
    lastNoId (lastDepth.trans soleDepth.symm) (fits lastUnknown lastStart)
  refine ⟨first, sole, last, isFirst, soleHas, soleUnknown, soleNoStart, ?_, ?_⟩
  · rw [Ne, firstLeftOut]
    exact fun behind => absurd behind.2 (by decide)
  · exact lastLeftOut.mpr ⟨lastUnknown, by decide⟩

/-- Three headings, of which the first one is known, the second one is not and the last one begins
with a literal. -/
def Trial.tooLate : Text :=
  ("_jsx(\"h2\",\x7bchildren:\"The\"\x7d) _jsx(\"h2\",\x7bchildren:x\x7d) " ++
    "_jsx(\"h2\",\x7bchildren:[\"The \",y]\x7d)").toList

/-- The unknown heading is given the only record, although the text of this record begins with what
is known of either of the others, which have no id then. -/
theorem unknown_assigned_of_tooLate :
    ∃ known sole late, assign [⟨2, "the-y".toList, "The y".toList⟩] (locate Trial.tooLate) =
        [known, sole, late] ∧
      sole.heading = some 0 ∧ sole.call.text? = none ∧ sole.call.prefix? = none ∧
      ∀ slot ∈ [known, late], slot.heading = none ∧ slot.call.existingId = none ∧
        slot.call.depth = sole.call.depth ∧ ∃ start, slot.call.prefix? = some start ∧
          allBlank start = false ∧ start <+: "The y".toList := by
  have outlines : (assign [⟨2, "the-y".toList, "The y".toList⟩] (locate Trial.tooLate)).map
      Trial.outline = [⟨none, none, 2, some "The".toList, some "The".toList⟩,
        ⟨some 0, none, 2, none, none⟩, ⟨none, none, 2, none, some "The ".toList⟩] := by
    decide +kernel
  obtain ⟨known, _, isKnown, ofKnown, behindKnown⟩ := List.map_eq_cons_iff.mp outlines
  obtain ⟨sole, _, rfl, ofSole, behindSole⟩ := List.map_eq_cons_iff.mp behindKnown
  obtain ⟨late, _, rfl, ofLate, nothing⟩ := List.map_eq_cons_iff.mp behindSole
  obtain rfl := List.map_eq_nil_iff.mp nothing
  simp only [Trial.outline, Trial.Outline.mk.injEq] at ofKnown ofSole ofLate
  obtain ⟨knownLeft, knownNoId, knownDepth, -, knownStart⟩ := ofKnown
  obtain ⟨soleHas, -, soleDepth, soleUnknown, soleNoStart⟩ := ofSole
  obtain ⟨lateLeft, lateNoId, lateDepth, -, lateStart⟩ := ofLate
  refine ⟨known, sole, late, isKnown, soleHas, soleUnknown, soleNoStart, ?_⟩
  rw [List.forall_mem_cons, List.forall_mem_singleton]
  exact ⟨⟨knownLeft, knownNoId, knownDepth.trans soleDepth.symm, _, knownStart, by decide,
      by decide⟩,
    lateLeft, lateNoId, lateDepth.trans soleDepth.symm, _, lateStart, by decide, by decide⟩

end MdxBuild.Generated.Assignment

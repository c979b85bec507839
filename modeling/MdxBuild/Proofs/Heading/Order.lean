import MdxBuild.Proofs.Heading.Assignment

/-!
# Headings with the same text

Calls whose whole text is known get their headings in order: of the calls with one depth and one
text, the first gets the first heading with this depth and text that no id has claimed, the second
gets the second one, and so on, as long as there are any. Other calls and other headings do not come
into it. If the calls and the headings list the same depths and texts, then each call gets the
heading that stands where it stands itself.
-/

namespace MdxBuild.Generated

/-- The slug of the heading that a call was assigned. -/
def Slot.slug? (headings : List HeadingRecord) (slot : Slot) : Option Text :=
  (slot.heading.bind (headings[·]?)).map HeadingRecord.slug

namespace Assignment

variable {headings : List HeadingRecord} {claimed : List Nat} {calls : List HeadingCall}
  {call : HeadingCall} {slot : Slot} {slots : List Slot} {key : Nat × Text} {index : Nat}

/-- A call without an id asks for headings with a key. -/
def asks (key : Nat × Text) (call : HeadingCall) : Bool :=
  call.existingId.isNone && call.key? == some key

theorem asks_iff : asks key call = true ↔ call.existingId = none ∧ call.key? = some key := by
  simp [asks]

/-- The headings with a key that no call with an id has claimed, in order. -/
def waiting (headings : List HeadingRecord) (calls : List HeadingCall) (key : Nat × Text) :
    List HeadingRecord :=
  (headings.zipIdx.filter fun entry =>
    !(claimedByIds headings calls).contains entry.2 && entry.1.key == key).map Prod.fst

/-! ## Queues in order -/

theorem unclaimed_head?_of_pairwise {indices : List Nat} (sorted : indices.Pairwise (· < ·)) :
    unclaimed indices.head?.toList indices = indices.tail := by
  rw [unclaimed_head?]
  cases sorted with
  | nil => rfl
  | cons less _ =>
    refine List.filter_eq_self.mpr fun other member => ?_
    simpa using Nat.ne_of_gt (less other member)

/-- Claiming the first heading with a key leaves the others with this key. -/
theorem free_claim_key : free headings
    ((free headings claimed (·.key == key)).head?.toList ++ claimed) (·.key == key) =
      (free headings claimed (·.key == key)).tail := by
  rw [free_append, unclaimed_head?_of_pairwise pairwise_free]

/-- Claiming a heading with a key leaves all headings with another key. -/
theorem free_claim_of_ne {other : Nat × Text} (differs : other ≠ key) : free headings
    ((free headings claimed (·.key == other)).head?.toList ++ claimed) (·.key == key) =
      free headings claimed (·.key == key) := by
  rw [free_append]
  refine List.filter_eq_self.mpr fun index member => ?_
  obtain ⟨record, isRecord, hasKey, -⟩ := mem_free.mp member
  rw [Bool.not_eq_true', ← Bool.not_eq_true, List.contains_iff_mem]
  intro chosen
  obtain ⟨same, sameRecord, otherKey, -⟩ :=
    mem_free.mp (List.mem_of_mem_head? (Option.mem_toList.mp chosen))
  rw [isRecord, Option.some.injEq] at sameRecord
  rw [← sameRecord, beq_iff_eq] at otherKey
  exact differs (otherKey.symm.trans (beq_iff_eq.mp hasKey))

/-- In the first pass, calls that ask for a key get the free headings with this key in order. -/
theorem heading_of_asks (fresh : ∀ slot ∈ slots, slot.heading = none) :
    ((pass (claiming (byText headings)) claimed slots).1.filter fun slot => asks key slot.call).map
        Slot.heading =
      (List.range (slots.filter fun slot => asks key slot.call).length).map
        fun index => (free headings claimed (·.key == key))[index]? := by
  induction slots generalizing claimed with
  | nil => rfl
  | cons slot others ih =>
    rw [List.forall_mem_cons] at fresh
    obtain ⟨freshSlot, freshOthers⟩ := fresh
    by_cases isAsking : asks key slot.call = true
    · obtain ⟨noId, isKey⟩ := asks_iff.mp isAsking
      rw [pass_cons_of_isOpen ⟨noId, freshSlot⟩, List.filter_cons, List.filter_cons,
        if_pos isAsking, if_pos isAsking, List.map_cons, ih freshOthers, List.length_cons,
        List.range_succ_eq_map, List.map_cons, List.map_map]
      simp only [claiming, byText_of_key isKey, free_claim_key, List.getElem?_tail]
      rw [List.head?_eq_getElem?]
      rfl
    · by_cases isOpen : IsOpen slot
      · rw [pass_cons_of_isOpen isOpen, List.filter_cons, List.filter_cons, if_neg isAsking,
          if_neg isAsking, ih freshOthers]
        cases isKey : slot.call.key? with
        | none => simp only [claiming, byText_of_none isKey, Option.toList_none, List.nil_append]
        | some other =>
          have differs : other ≠ key := by
            rintro rfl
            exact isAsking (asks_iff.mpr ⟨isOpen.1, isKey⟩)
          simp only [claiming, byText_of_key isKey, free_claim_of_ne differs]
      · rw [pass_cons_of_not_isOpen isOpen, List.filter_cons, List.filter_cons, if_neg isAsking,
          if_neg isAsking, ih freshOthers]

/-- The second pass leaves calls alone whose whole text is known. -/
theorem filter_asks_pass_byStart :
    ((pass (claiming (byStart headings)) claimed slots).1.filter fun slot => asks key slot.call) =
      slots.filter fun slot => asks key slot.call := by
  induction slots generalizing claimed with
  | nil => rfl
  | cons slot others ih =>
    by_cases isOpen : IsOpen slot
    · rw [pass_cons_of_isOpen isOpen, List.filter_cons, List.filter_cons, ih]
      by_cases isAsking : asks key slot.call = true
      · have unchanged : (claiming (byStart headings) slot.call claimed).1 = slot.heading := by
          rw [isOpen.2]
          exact byStart_of_key (asks_iff.mp isAsking).2
        rw [unchanged]
      · rw [if_neg isAsking, if_neg isAsking]
    · rw [pass_cons_of_not_isOpen isOpen, List.filter_cons, List.filter_cons, ih]

/-- The free headings with a key, by index, are those that wait under it. -/
theorem getElem?_waiting (index : Nat) :
    (waiting headings calls key)[index]? =
      ((free headings (claimedByIds headings calls) (·.key == key))[index]?).bind
        (headings[·]?) := by
  rw [waiting, free, List.getElem?_map, List.getElem?_map, Option.bind_map]
  cases found : (headings.zipIdx.filter fun entry =>
      !(claimedByIds headings calls).contains entry.2 && entry.1.key == key)[index]? with
  | none => rfl
  | some entry =>
    have member := (List.mem_filter.mp (List.mem_of_getElem? found)).1
    exact (List.mem_zipIdx_iff_getElem?.mp member).symm

/-- The calls that ask for a key get the headings that wait under it, one after the other. -/
theorem map_slug?_asks (headings : List HeadingRecord) (calls : List HeadingCall)
    (key : Nat × Text) :
    ((assign headings calls).filter fun slot => asks key slot.call).map (Slot.slug? headings) =
      (List.range (calls.filter (asks key)).length).map
        fun index => (waiting headings calls key)[index]?.map HeadingRecord.slug := by
  have fresh : ∀ slot ∈ calls.map (⟨·, none⟩ : HeadingCall → Slot), slot.heading = none := by
    intro slot member
    obtain ⟨call, -, rfl⟩ := List.mem_map.mp member
    rfl
  have count : ((calls.map (⟨·, none⟩ : HeadingCall → Slot)).filter
      fun slot => asks key slot.call).length = (calls.filter (asks key)).length := by
    rw [List.filter_map, List.length_map]
    rfl
  have byHeading : Slot.slug? headings =
      (fun heading => (heading.bind (headings[·]?)).map HeadingRecord.slug) ∘ Slot.heading := rfl
  rw [assign_eq, filter_asks_pass_byStart, byHeading, ← List.map_map, textPass,
    heading_of_asks fresh, count, List.map_map]
  refine List.map_congr_left fun index _ => ?_
  rw [Function.comp_apply, getElem?_waiting]

/-! ## Headings in the order of their calls -/

/-- If calls without ids ask for headings in the order in which these stand behind those claimed
already, they get them in this order. -/
theorem heading_of_same_keys (before : List HeadingRecord) {rest : List HeadingRecord}
    (noIds : ∀ call ∈ calls, call.existingId = none)
    (sameKeys : calls.map HeadingCall.key? = rest.map fun record => some record.key)
    (claimedBefore : ∀ index, index ∈ claimed ↔ index < before.length) :
    (pass (claiming (byText (before ++ rest))) claimed (calls.map (⟨·, none⟩))).1.map
        Slot.heading =
      (List.range' before.length rest.length).map some := by
  induction calls generalizing before rest claimed with
  | nil =>
    obtain rfl : rest = [] := List.map_eq_nil_iff.mp sameKeys.symm
    rfl
  | cons call others ih =>
    cases rest with
    | nil => cases sameKeys
    | cons record rest =>
      rw [List.forall_mem_cons] at noIds
      rw [List.map_cons, List.map_cons, List.cons.injEq] at sameKeys
      obtain ⟨isKey, sameKeys⟩ := sameKeys
      have isNext : byText (before ++ record :: rest) call claimed = some before.length := by
        rw [byText_of_key isKey, head?_free]
        refine ⟨⟨record, ?_, beq_self_eq_true _⟩, ?_, ?_⟩
        · rw [List.getElem?_append_right (Nat.le_refl _), Nat.sub_self, List.getElem?_cons_zero]
        · rw [claimedBefore]
          exact Nat.lt_irrefl _
        · intro other _ _ _ less
          exact (claimedBefore other).mpr less
      have claimedNext : ∀ index, index ∈ [before.length] ++ claimed ↔
          index < (before ++ [record]).length := by
        intro index
        rw [List.mem_append, List.mem_singleton, claimedBefore, List.length_append,
          List.length_singleton]
        omega
      have later := ih (before ++ [record]) noIds.2 sameKeys claimedNext
      rw [List.append_assoc, List.singleton_append, List.length_append,
        List.length_singleton] at later
      rw [List.map_cons, pass_cons_of_isOpen ⟨noIds.1, rfl⟩, List.map_cons]
      simp only [claiming, isNext, Option.toList_some, later, List.length_cons,
        List.range'_succ, List.map_cons]

/-- Calls without an id do not change what is claimed by ids. -/
theorem claimedByIds_filter (headings : List HeadingRecord) (calls : List HeadingCall) :
    claimedByIds headings (calls.filter (·.existingId.isSome)) = claimedByIds headings calls := by
  rw [claimedByIds, List.foldl_filter, claimedByIds]
  congr 1
  funext claimed call
  cases call.existingId <;> rfl

/-- A pass in which no call takes part changes nothing. -/
theorem pass_of_closed {State : Type} {choose : HeadingCall → State → Option Nat × State}
    {state : State} (closed : ∀ slot ∈ slots, ¬IsOpen slot) :
    (pass choose state slots).1 = slots := by
  induction slots with
  | nil => rfl
  | cons slot others ih =>
    rw [List.forall_mem_cons] at closed
    rw [pass_cons_of_not_isOpen closed.1, ih closed.2]

/-- If calls without ids and headings list the same keys, then each call gets the heading at its own
place. -/
theorem slugs_of_same_keys (noIds : ∀ call ∈ calls, call.existingId = none)
    (sameKeys : calls.map HeadingCall.key? = headings.map fun record => some record.key) :
    (assign headings calls).map (Slot.slug? headings) =
      headings.map fun record => some record.slug := by
  have noneClaimed : claimedByIds headings calls = [] := by
    rw [← claimedByIds_filter, List.filter_eq_nil_iff.mpr fun call member => by
      simp [noIds call member]]
    rfl
  have inOrder : (textPass headings calls).1.map Slot.heading =
      (List.range' 0 headings.length).map some :=
    heading_of_same_keys [] noIds sameKeys (by simp [noneClaimed])
  have closed : ∀ slot ∈ (textPass headings calls).1, ¬IsOpen slot := by
    intro slot member isOpen
    have isHeading : slot.heading ∈ (textPass headings calls).1.map Slot.heading :=
      List.mem_map_of_mem member
    rw [inOrder, isOpen.2] at isHeading
    obtain ⟨_, _, isSome⟩ := List.mem_map.mp isHeading
    cases isSome
  have byHeading : Slot.slug? headings =
      (fun heading => (heading.bind (headings[·]?)).map HeadingRecord.slug) ∘ Slot.heading := rfl
  rw [assign_eq, pass_of_closed closed, byHeading, ← List.map_map, inOrder]
  refine List.ext_getElem? fun index => ?_
  rw [List.getElem?_map, List.getElem?_map, List.getElem?_map]
  by_cases inRange : index < headings.length
  · rw [List.getElem?_range' inRange, List.getElem?_eq_getElem inRange]
    simp [List.getElem?_eq_getElem inRange]
  · rw [List.getElem?_eq_none (by simpa using inRange),
      List.getElem?_eq_none (Nat.not_lt.mp inRange)]
    rfl

/-! ## The main statement -/

/-- What waits under a key depends on no call without an id. -/
theorem waiting_of_same_ids {otherCalls : List HeadingCall}
    (sameIds : otherCalls.filter (·.existingId.isSome) = calls.filter (·.existingId.isSome)) :
    waiting headings otherCalls key = waiting headings calls key := by
  rw [waiting, ← claimedByIds_filter, sameIds, claimedByIds_filter, waiting]

/-- Of the calls without an id that have one depth and one text, each gets the slug of the heading
that stands at the same place among those with this depth and text that no id has claimed, and none
if there are not as many. It does not matter what else is among the calls and the headings. If calls
without ids and headings list the same depths and texts, then the slugs are those of the headings,
in order. -/
theorem slugs_in_order (headings : List HeadingRecord) (calls : List HeadingCall) :
    (∀ key,
      ((assign headings calls).filter fun slot => asks key slot.call).map Slot.call =
        calls.filter (asks key) ∧
      ∀ (index : Nat) (slot : Slot),
        ((assign headings calls).filter fun slot => asks key slot.call)[index]? = some slot →
        slot.slug? headings = (waiting headings calls key)[index]?.map HeadingRecord.slug) ∧
    (∀ key otherHeadings otherCalls,
      otherCalls.filter (asks key) = calls.filter (asks key) →
      waiting otherHeadings otherCalls key = waiting headings calls key ∨
        otherHeadings = headings ∧
          otherCalls.filter (·.existingId.isSome) = calls.filter (·.existingId.isSome) →
      ((assign otherHeadings otherCalls).filter fun slot => asks key slot.call).map
          (Slot.slug? otherHeadings) =
        ((assign headings calls).filter fun slot => asks key slot.call).map
          (Slot.slug? headings)) ∧
    ((∀ call ∈ calls, call.existingId = none) →
      calls.map HeadingCall.key? = headings.map (fun record => some record.key) →
      (assign headings calls).map (Slot.slug? headings) =
        headings.map fun record => some record.slug) := by
  refine ⟨fun key => ⟨?_, fun index slot isSlot => ?_⟩,
    fun key otherHeadings otherCalls sameCalls same => ?_, slugs_of_same_keys⟩
  · have isComp : (fun slot : Slot => asks key slot.call) = asks key ∘ Slot.call := rfl
    rw [isComp, ← List.filter_map, map_call_assign]
  · have found := congrArg (·[index]?) (map_slug?_asks headings calls key)
    simp only [List.getElem?_map, isSlot, Option.map_some] at found
    obtain ⟨position, isPosition, slug⟩ := Option.map_eq_some_iff.mp found.symm
    obtain ⟨inRange, rfl⟩ := List.getElem?_eq_some_iff.mp isPosition
    rw [List.getElem_range] at slug
    exact slug.symm
  · have sameWaiting : waiting otherHeadings otherCalls key = waiting headings calls key := by
      rcases same with same | ⟨rfl, sameIds⟩
      · exact same
      · exact waiting_of_same_ids sameIds
    rw [map_slug?_asks, map_slug?_asks, sameCalls, sameWaiting]

/-- Three headings with one text, of which an id claims the second one. -/
def Trial.records : List HeadingRecord :=
  [⟨2, "setup".toList, "Setup".toList⟩, ⟨2, "custom".toList, "Setup".toList⟩,
    ⟨2, "setup-2".toList, " Setup ".toList⟩]

/-- A call that asks for this text, in two parts. -/
def Trial.inParts : HeadingCall :=
  ⟨39, 2, some (.array [.text " Set".toList, .text "up".toList]), none⟩

/-- Calls around it: one that asks before it, one of unknown text and one with the id. -/
def Trial.around : List HeadingCall :=
  [⟨9, 2, some (.text "Setup".toList), none⟩, ⟨19, 2, some .unknown, none⟩,
    ⟨29, 2, some (.text "Setup".toList), some "custom".toList⟩, Trial.inParts]

/-- Calls that list the same keys as the headings. -/
def Trial.alike : List HeadingCall :=
  [9, 19, 29].map fun offset => ⟨offset, 2, some (.text "Setup".toList), none⟩

/-- The call that asks second gets the second heading that is left, which is the third one. -/
theorem slugs_of_trial :
    ((assign Trial.records Trial.around).filter fun slot =>
      asks (2, "Setup".toList) slot.call)[1]? = some ⟨Trial.inParts, some 2⟩ ∧
    Slot.slug? Trial.records ⟨Trial.inParts, some 2⟩ = some "setup-2".toList ∧
    (∀ call ∈ Trial.alike, call.existingId = none) ∧
    Trial.alike.map HeadingCall.key? = Trial.records.map (fun record => some record.key) ∧
    (assign Trial.records Trial.alike).map (Slot.slug? Trial.records) =
      [some "setup".toList, some "custom".toList, some "setup-2".toList] := by
  have asksSecond : ((assign Trial.records Trial.around).filter fun slot =>
      asks (2, "Setup".toList) slot.call)[1]? = some ⟨Trial.inParts, some 2⟩ := rfl
  have slug := ((slugs_in_order Trial.records Trial.around).1 _).2 1 _ asksSecond
  have noIds : ∀ call ∈ Trial.alike, call.existingId = none := by decide
  have sameKeys : Trial.alike.map HeadingCall.key? =
      Trial.records.map fun record => some record.key := by decide
  exact ⟨asksSecond, slug, noIds, sameKeys, (slugs_in_order _ _).2.2 noIds sameKeys⟩

end Assignment

end MdxBuild.Generated

import MdxBuild.Proofs.Heading.Evidence
import MdxBuild.Proofs.Heading.Location
import MdxBuild.Proofs.Heading.Order

/-!
# Insertion of ids

The ids are inserted behind the braces of their calls, and nothing else changes. The same comes out
of the scan of the bytes, which is never at fault: no read and no cut is beyond the end or within a
character, and every loop ends. The headings that calls are assigned do not depend on where the
calls stand, so it does not matter in what their offsets are counted.
-/

namespace MdxBuild.Generated

open Text

variable {headings : List HeadingRecord} {code : Text}

/-! ## Offsets of another kind -/

/-- The call with its offset told in another way. -/
def HeadingCall.placeAt (place : Nat → Nat) (call : HeadingCall) : HeadingCall :=
  { call with offset := place call.offset }

/-- The slot with the offset of its call told in another way. -/
def Slot.placeAt (place : Nat → Nat) (slot : Slot) : Slot :=
  { slot with call := slot.call.placeAt place }

namespace Assignment

variable {place : Nat → Nat}

theorem claimedByIds_placeAt (calls : List HeadingCall) :
    claimedByIds headings (calls.map (·.placeAt place)) = claimedByIds headings calls := by
  rw [claimedByIds, List.foldl_map]
  rfl

theorem pass_placeAt {State : Type} {choose : HeadingCall → State → Option Nat × State}
    (same : ∀ call, choose (call.placeAt place) = choose call) (state : State) (slots : List Slot) :
    pass choose state (slots.map (·.placeAt place)) =
      ((pass choose state slots).1.map (·.placeAt place), (pass choose state slots).2) := by
  induction slots generalizing state with
  | nil => rfl
  | cons slot others ih =>
    by_cases isOpen : IsOpen slot
    · have isOpenThere : IsOpen (slot.placeAt place) := isOpen
      rw [List.map_cons, pass_cons_of_isOpen isOpenThere, pass_cons_of_isOpen isOpen, Slot.placeAt,
        same, ih]
      rfl
    · have closedThere : ¬IsOpen (slot.placeAt place) := isOpen
      rw [List.map_cons, pass_cons_of_not_isOpen closedThere, pass_cons_of_not_isOpen isOpen, ih]
      rfl

/-- The headings that calls are assigned do not depend on their offsets. -/
theorem assign_placeAt (calls : List HeadingCall) :
    assign headings (calls.map (·.placeAt place)) =
      (assign headings calls).map (·.placeAt place) := by
  have start : (calls.map (·.placeAt place)).map (⟨·, none⟩ : HeadingCall → Slot) =
      (calls.map (⟨·, none⟩ : HeadingCall → Slot)).map (·.placeAt place) := by
    rw [List.map_map, List.map_map]
    rfl
  simp only [assign, claimedByIds_placeAt, start]
  rw [pass_placeAt fun _ => rfl, pass_placeAt fun _ => rfl]

end Assignment

/-- An id is inserted for each call that was assigned a heading. -/
theorem insertions_eq (headings : List HeadingRecord) (slots : List Slot) :
    insertions headings slots = slots.filterMap fun slot =>
      (slot.slug? headings).map fun slug => (slot.call.offset, idProperty slug) := by
  rw [insertions]
  congr 1
  funext slot
  rw [Slot.slug?]
  cases slot.heading with
  | none => rfl
  | some index => cases found : headings[index]? <;> simp [found]

theorem insertions_placeAt (place : Nat → Nat) (slots : List Slot) :
    insertions headings (slots.map (·.placeAt place)) =
      (insertions headings slots).map fun entry => (place entry.1, entry.2) := by
  rw [insertions_eq, insertions_eq, List.filterMap_map, List.map_filterMap]
  congr 1
  funext slot
  rw [Option.map_map]
  rfl

/-- The number of bytes up to a character. -/
def bytesUpTo (code : Text) (position : Nat) : Nat :=
  utf8Length (code.take position)

theorem bytesUpTo_eq_add {start position : Nat} (ordered : start ≤ position) :
    bytesUpTo code position =
      bytesUpTo code start + utf8Length ((code.drop start).take (position - start)) := by
  obtain ⟨length, rfl⟩ := Nat.exists_eq_add_of_le ordered
  rw [bytesUpTo, List.take_add, utf8Length_append, Nat.add_sub_cancel_left, bytesUpTo]

theorem bytesUpTo_mono {start position : Nat} (ordered : start ≤ position) :
    bytesUpTo code start ≤ bytesUpTo code position :=
  bytesUpTo_eq_add ordered ▸ Nat.le_add_right _ _

/-- In the scan of the text the same calls are found, with offsets that count characters. -/
theorem located_eq (code : Text) :
    located code = (locate code).map (·.placeAt (bytesUpTo code)) := by
  rw [located, locate, List.map_filterMap]
  refine List.filterMap_congr fun found isHeader => ?_
  obtain ⟨depth, props⟩ := found
  obtain ⟨before, header, same, -⟩ := exists_of_mem_headers isHeader
  have position : bytesUpTo code (code.length - props.length) =
      utf8Length code - utf8Length props := by
    have split : code = (before ++ header ++ ['{']) ++ props := by
      rw [same, List.append_assoc _ ['{'], List.singleton_append]
    rw [bytesUpTo, split, List.length_append, Nat.add_sub_cancel, List.take_left,
      utf8Length_append _ props, Nat.add_sub_cancel]
  rw [Option.map_map]
  simp only [← position]
  rfl

/-! ## Insertion -/

/-- The result is the text with segments inserted at offsets, which count bytes from `start` on, and
nothing else. -/
inductive Inserted : (start : Nat) → List (Nat × Text) → (text result : Text) → Prop
  | none (start : Nat) (text : Text) : Inserted start [] text text
  | some (start : Nat) (piece segment : Text) (others : List (Nat × Text)) (text result : Text)
      (behind : Inserted (start + utf8Length piece) others text result) :
      Inserted start ((start + utf8Length piece, segment) :: others) (piece ++ text)
        (piece ++ segment ++ result)

theorem Inserted.eq_of_nil {start : Nat} {text result : Text}
    (inserted : Inserted start [] text result) : result = text := by
  cases inserted
  rfl

theorem inserted_insertAll (code : Text) {entries : List (Nat × Text)} {start : Nat}
    (ordered : (start :: entries.map Prod.fst).Pairwise (· ≤ ·)) :
    Inserted (bytesUpTo code start) (entries.map fun entry => (bytesUpTo code entry.1, entry.2))
      (code.drop start) (insertAll start entries (code.drop start)) := by
  induction entries generalizing start with
  | nil => exact .none _ _
  | cons entry others ih =>
    obtain ⟨first, ordered⟩ := List.pairwise_cons.mp ordered
    have atMost := first entry.1 List.mem_cons_self
    have behind := ih ordered
    have split : code.drop start =
        (code.drop start).take (entry.1 - start) ++ code.drop entry.1 := by
      conv_lhs => rw [← List.take_append_drop (entry.1 - start) (code.drop start)]
      rw [List.drop_drop, Nat.add_sub_cancel' atMost]
    rw [List.map_cons, insertAll, List.drop_drop, Nat.add_sub_cancel' atMost,
      bytesUpTo_eq_add atMost]
    rw [bytesUpTo_eq_add atMost] at behind
    have inserted := Inserted.some _ _ entry.2 _ _ _ behind
    rwa [← split] at inserted

theorem Bytewise.insertAll_eq {entries : List (Nat × Text)} {start : Nat} {text result : Text}
    (inserted : Inserted start entries text result) (stands : StandsAt code start text) :
    Bytewise.insertAll code start entries = .ok result := by
  induction inserted with
  | none start text => exact stands.cutFrom
  | some start piece segment others text result _ ih =>
    simp only [Bytewise.insertAll, stands.cut, ok_bind, ih (stands.append piece)]

/-- The offsets at which ids are inserted increase. -/
theorem pairwise_insertions (headings : List HeadingRecord) (code : Text) :
    (0 :: (insertions headings (Assignment.assign headings (locate code))).map Prod.fst).Pairwise
      (· ≤ ·) := by
  have increasing := pairwise_located code
  rw [located_eq, List.map_map, ← Assignment.map_call_assign headings (locate code), List.map_map,
    List.pairwise_map] at increasing
  refine .cons (fun _ _ => Nat.zero_le _) ?_
  rw [List.pairwise_map, insertions_eq, List.pairwise_filterMap]
  refine increasing.imp fun {first second} less entry isEntry other isOther => ?_
  obtain ⟨_, -, rfl⟩ := Option.map_eq_some_iff.mp isEntry
  obtain ⟨_, -, rfl⟩ := Option.map_eq_some_iff.mp isOther
  by_contra behind
  exact Nat.not_lt.mpr (bytesUpTo_mono (Nat.le_of_not_le behind)) less

/-- Ids are inserted behind the braces of calls, and nothing else changes. -/
theorem inserted_injectIds (headings : List HeadingRecord) (code : Text) :
    Inserted 0 (insertions headings (Assignment.assign headings (located code))) code
      (injectIds headings code) := by
  have inserted := inserted_insertAll code (pairwise_insertions headings code)
  rwa [← insertions_placeAt, ← Assignment.assign_placeAt, ← located_eq] at inserted

/-- The scan of the bytes is never at fault and gives what the scan of the text gives. -/
theorem Bytewise.injectIds_eq (headings : List HeadingRecord) {code : Text} {turns : Nat}
    (enough : 2 * utf8Length code + 5 ≤ turns) :
    Bytewise.injectIds code turns headings = .ok (Generated.injectIds headings code) := by
  have inserted := inserted_injectIds headings code
  have unchanged (nothing : insertions headings (Assignment.assign headings (located code)) = []) :
      Generated.injectIds headings code = code := by
    rw [nothing] at inserted
    exact inserted.eq_of_nil
  rw [Bytewise.injectIds]
  split
  next noHeadings =>
    rw [unchanged]
    rw [List.isEmpty_iff.mp noHeadings, insertions_eq]
    simp [Slot.slug?]
  next =>
    rw [locate_eq enough, ok_bind]
    split
    next noCalls =>
      rw [unchanged]
      rw [List.isEmpty_iff.mp noCalls]
      rfl
    next => exact insertAll_eq inserted (.start code)

/-! ## The main statement -/

/-- A call that has an id is assigned no heading. -/
theorem Assignment.slug?_of_existingId {calls : List HeadingCall} {slot : Slot}
    (member : slot ∈ assign headings calls) (hasId : slot.call.existingId ≠ none) :
    slot.slug? headings = none := by
  obtain ⟨position, isSlot⟩ := List.getElem?_of_mem member
  rw [getElem?_assign, Option.map_eq_some_iff] at isSlot
  obtain ⟨call, -, rfl⟩ := isSlot
  rw [Slot.slug?, if_neg hasId]
  rfl

/-- The insertion of ids is total and only inserts. On every code, the scan of the bytes ends
without a fault. The offsets of the calls increase, and each lies right behind the brace of the
props. The result is the code with an id property at the offset of each call that is assigned a
slug, and with no other change. No id is inserted into props that have an id themselves. -/
theorem injectIds_only_inserts (headings : List HeadingRecord) (code : Text) :
    (∀ turns, 2 * utf8Length code + 5 ≤ turns →
      Bytewise.locate code turns = .ok (located code) ∧
        Bytewise.injectIds code turns headings = .ok (injectIds headings code)) ∧
    ((located code).map HeadingCall.offset).Pairwise (· < ·) ∧
    (Assignment.assign headings (located code)).map Slot.call = located code ∧
    Inserted 0
      ((Assignment.assign headings (located code)).filterMap fun slot =>
        (slot.slug? headings).map fun slug =>
          (slot.call.offset, " id: ".toList ++ Json.quote slug ++ [',']))
      code (injectIds headings code) ∧
    ∀ slot ∈ Assignment.assign headings (located code), ∃ inside,
      IsBehindBrace code inside slot.call ∧
      (slot.call.existingId ≠ none ↔ HasProperty "id".toList inside) ∧
      (HasProperty "id".toList inside → slot.slug? headings = none) := by
  refine ⟨fun turns enough => ⟨Bytewise.locate_eq enough, Bytewise.injectIds_eq headings enough⟩,
    pairwise_located code, Assignment.map_call_assign _ _, ?_, fun slot member => ?_⟩
  · have inserted := inserted_injectIds headings code
    rwa [insertions_eq] at inserted
  · have isCall : slot.call ∈ located code := by
      rw [← Assignment.map_call_assign headings (located code)]
      exact List.mem_map_of_mem member
    obtain ⟨inside, isBehind⟩ := isBehindBrace_of_mem_located isCall
    have hasId := isBehind.existingId_ne_none_iff
    exact ⟨inside, isBehind, hasId, fun has =>
      Assignment.slug?_of_existingId member (hasId.mpr has)⟩

/-- A code with a heading, behind a character of two bytes, and with one that has an id. -/
def Trial.headingCode : Text :=
  ("é;_jsx(\"h2\",\x7bchildren:\"Hi\"\x7d);" ++
    "_jsx(\"h2\",\x7bid:\"x\",children:\"Hi\"\x7d)").toList

/-- A heading with their text. -/
def Trial.greeting : List HeadingRecord :=
  [⟨2, "hi".toList, "Hi".toList⟩]

/-- The code with the id of the first heading. -/
def Trial.headingResult : Text :=
  ("é;_jsx(\"h2\",\x7b id: \"hi\",children:\"Hi\"\x7d);" ++
    "_jsx(\"h2\",\x7bid:\"x\",children:\"Hi\"\x7d)").toList

/-- The id is inserted into the first call, behind 14 bytes, and the second call keeps its own. -/
theorem injectIds_of_trial :
    Bytewise.injectIds Trial.headingCode (2 * utf8Length Trial.headingCode + 5) Trial.greeting =
      .ok Trial.headingResult ∧
    (located Trial.headingCode).map HeadingCall.offset = [14, 41] ∧
    ∃ slot ∈ Assignment.assign Trial.greeting (located Trial.headingCode), ∃ inside,
      IsBehindBrace Trial.headingCode inside slot.call ∧ HasProperty "id".toList inside ∧
      slot.slug? Trial.greeting = none := by
  obtain ⟨total, -, -, -, places⟩ := injectIds_only_inserts Trial.greeting Trial.headingCode
  have result : injectIds Trial.greeting Trial.headingCode = Trial.headingResult := by
    decide +kernel
  have second : (Assignment.assign Trial.greeting (located Trial.headingCode))[1]?.map
      (fun slot => slot.call.existingId) = some (some ['x']) := by
    decide +kernel
  refine ⟨?_, by decide +kernel, ?_⟩
  · rw [(total _ (Nat.le_refl _)).2, result]
  · obtain ⟨slot, isSlot, hasId⟩ := Option.map_eq_some_iff.mp second
    have member := List.mem_of_getElem? isSlot
    obtain ⟨inside, isBehind, hasProperty, untouched⟩ := places slot member
    have has := hasProperty.mp (by rw [hasId]; exact Option.some_ne_none _)
    exact ⟨slot, member, inside, isBehind, has, untouched has⟩

end MdxBuild.Generated

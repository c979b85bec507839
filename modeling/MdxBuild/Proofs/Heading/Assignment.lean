import Mathlib.Data.List.Nodup
import MdxBuild.Heading.Assignment
import MdxBuild.Proofs.Dictionary

/-!
# The passes that assign headings

Queues are a way to find, for a call with a known text, the first heading of its depth and text that
is not claimed: what waits in a queue and is not claimed is what is free, whatever other calls have
done before. With this, both passes are of one kind, in which a call chooses by the headings that
are claimed when its turn comes. The choice of a call is then told from what is claimed at its turn,
and this from the choices of the calls before it.
-/

namespace MdxBuild.Generated.Assignment

open Text

variable {headings : List HeadingRecord} {claimed : List Nat} {accepts : HeadingRecord → Bool}
  {index : Nat} {call : HeadingCall} {slot : Slot} {slots : List Slot}

/-! ## Free headings -/

theorem mem_free : index ∈ free headings claimed accepts ↔
    ∃ record, headings[index]? = some record ∧ accepts record = true ∧ index ∉ claimed := by
  simp only [free, List.mem_map, List.mem_filter, Prod.exists, List.mem_zipIdx_iff_getElem?,
    Bool.and_eq_true, Bool.not_eq_true', List.contains_eq_mem, decide_eq_false_iff_not,
    exists_eq_right]
  exact exists_congr fun record => and_congr_right fun _ => and_comm

/-- Free headings are listed in order. -/
theorem pairwise_free : (free headings claimed accepts).Pairwise (· < ·) := by
  have all : (headings.zipIdx.map Prod.snd).Pairwise (· < ·) := by
    rw [List.zipIdx_map_snd]
    exact List.pairwise_lt_range'
  exact all.sublist (List.filter_sublist.map _)

/-- The indices that are not claimed. -/
def unclaimed (claimed : List Nat) (indices : List Nat) : List Nat :=
  indices.filter fun index => !claimed.contains index

theorem unclaimed_append (more indices : List Nat) :
    unclaimed (more ++ claimed) indices = unclaimed more (unclaimed claimed indices) := by
  rw [unclaimed, unclaimed, unclaimed, List.filter_filter]
  refine List.filter_congr fun index _ => ?_
  simp only [List.contains_eq_mem, List.mem_append, Bool.decide_or, Bool.not_or]

/-- What is free is what would be free if nothing were claimed, without what is claimed. -/
theorem free_eq_unclaimed :
    free headings claimed accepts = unclaimed claimed (free headings [] accepts) := by
  rw [unclaimed, free, free, List.filter_map, List.filter_filter]
  congr 1

/-- Claiming headings takes them out of the free ones. -/
theorem free_append (more : List Nat) :
    free headings (more ++ claimed) accepts = unclaimed more (free headings claimed accepts) := by
  rw [free_eq_unclaimed, unclaimed_append, ← free_eq_unclaimed]

/-- The first heading that is unclaimed and acceptable. -/
structure IsFirst (headings : List HeadingRecord) (isClaimed : Nat → Prop)
    (accepts : HeadingRecord → Prop) (index : Nat) : Prop where
  accepted : ∃ record, headings[index]? = some record ∧ accepts record
  unclaimed : ¬isClaimed index
  before : ∀ other record, headings[other]? = some record → accepts record → other < index →
    isClaimed other

/-- The only heading that is unclaimed and acceptable. -/
structure IsSole (headings : List HeadingRecord) (isClaimed : Nat → Prop)
    (accepts : HeadingRecord → Prop) (index : Nat) : Prop where
  accepted : ∃ record, headings[index]? = some record ∧ accepts record
  unclaimed : ¬isClaimed index
  others : ∀ other record, headings[other]? = some record → accepts record → other ≠ index →
    isClaimed other

/-- The head of a list in order is its least member. -/
theorem head?_eq_some_iff_of_pairwise {indices : List Nat} (sorted : indices.Pairwise (· < ·)) :
    indices.head? = some index ↔ index ∈ indices ∧ ∀ other ∈ indices, index ≤ other := by
  cases sorted with
  | nil => simp
  | @cons first others least sorted =>
    rw [List.head?_cons, Option.some.injEq]
    constructor
    · rintro rfl
      refine ⟨List.mem_cons_self, fun other member => ?_⟩
      rcases List.mem_cons.mp member with rfl | member
      · exact Nat.le_refl _
      · exact Nat.le_of_lt (least other member)
    · rintro ⟨member, smallest⟩
      rcases List.mem_cons.mp member with rfl | member
      · rfl
      · exact absurd (least index member) (Nat.not_lt.mpr (smallest first List.mem_cons_self))

theorem head?_free : (free headings claimed accepts).head? = some index ↔
    IsFirst headings (· ∈ claimed) (accepts · = true) index := by
  rw [head?_eq_some_iff_of_pairwise pairwise_free]
  constructor
  · rintro ⟨member, least⟩
    obtain ⟨record, isRecord, accepted, unclaimed⟩ := mem_free.mp member
    refine ⟨⟨record, isRecord, accepted⟩, unclaimed, ?_⟩
    intro other otherRecord isOther otherAccepted less
    by_contra otherUnclaimed
    exact absurd less
      (Nat.not_lt.mpr (least other (mem_free.mpr ⟨_, isOther, otherAccepted, otherUnclaimed⟩)))
  · rintro ⟨⟨record, isRecord, accepted⟩, unclaimed, before⟩
    refine ⟨mem_free.mpr ⟨record, isRecord, accepted, unclaimed⟩, ?_⟩
    intro other member
    obtain ⟨otherRecord, isOther, otherAccepted, otherUnclaimed⟩ := mem_free.mp member
    exact Nat.not_lt.mp fun less => otherUnclaimed (before other _ isOther otherAccepted less)

theorem free_eq_singleton : free headings claimed accepts = [index] ↔
    IsSole headings (· ∈ claimed) (accepts · = true) index := by
  constructor
  · intro sole
    have isMember {other : Nat} : other ∈ free headings claimed accepts ↔ other = index := by
      rw [sole, List.mem_singleton]
    obtain ⟨record, isRecord, accepted, unclaimed⟩ := mem_free.mp (isMember.mpr rfl)
    refine ⟨⟨record, isRecord, accepted⟩, unclaimed, ?_⟩
    intro other otherRecord isOther otherAccepted differs
    by_contra otherUnclaimed
    exact differs (isMember.mp (mem_free.mpr ⟨_, isOther, otherAccepted, otherUnclaimed⟩))
  · rintro ⟨⟨record, isRecord, accepted⟩, unclaimed, others⟩
    have isMember {other : Nat} : other ∈ free headings claimed accepts ↔ other ∈ [index] := by
      rw [List.mem_singleton]
      constructor
      · intro member
        obtain ⟨otherRecord, isOther, otherAccepted, otherUnclaimed⟩ := mem_free.mp member
        by_contra differs
        exact otherUnclaimed (others other _ isOther otherAccepted differs)
      · rintro rfl
        exact mem_free.mpr ⟨record, isRecord, accepted, unclaimed⟩
    have distinct : (free headings claimed accepts).Nodup := pairwise_free.imp Nat.ne_of_lt
    exact List.perm_singleton.mp
      ((List.perm_ext_iff_of_nodup distinct (List.nodup_singleton index)).mpr fun _ => isMember)

/-! ## Queues -/

/-- A depth and a text can be told from what they are matched by. -/
theorem matchKey_eq_iff {depth otherDepth : Nat} {text otherText : Text} :
    matchKey depth text = matchKey otherDepth otherText ↔
      depth = otherDepth ∧ trim text = trim otherText := by
  constructor
  · intro same
    -- The colon stands behind the digits, so they can be cut off.
    have digits (number : Nat) (rest : Text) :
        (Text.ofNat number ++ ':' :: rest).takeWhile Char.isDigit = Text.ofNat number := by
      have allDigits : ∀ char ∈ Text.ofNat number, char.isDigit = true := fun char member =>
        Nat.isDigit_of_mem_toDigits (by decide) (by decide) member
      rw [List.takeWhile_append_of_pos allDigits]
      exact List.append_nil _
    have sameDigits : Text.ofNat depth = Text.ofNat otherDepth := by
      rw [← digits depth (trim text), ← digits otherDepth (trim otherText)]
      exact congrArg (List.takeWhile Char.isDigit) same
    constructor
    · rw [← Nat.ofDigitChars_ten_toDigits (n := depth),
        ← Nat.ofDigitChars_ten_toDigits (n := otherDepth)]
      exact congrArg (Nat.ofDigitChars 10 · 0) sameDigits
    · rw [matchKey, matchKey, sameDigits] at same
      exact (List.cons.inj (List.append_cancel_left same)).2
  · rintro ⟨rfl, sameText⟩
    rw [matchKey, matchKey, sameText]

/-- A heading is matched by a key. -/
def hasKey (key : Text) (heading : HeadingRecord) : Bool :=
  matchKey heading.depth heading.text == key

/-- The queue of a key, empty if there is none. -/
def queueOf (queues : Queues) (key : Text) : List Nat :=
  (queues.find? key).getD []

theorem queueOf_insert (queues : Queues) (key other : Text) (queue : List Nat) :
    queueOf (queues.insert key queue) other =
      if other = key then queue else queueOf queues other := by
  rw [queueOf, Dictionary.find?_insert]
  split <;> rfl

theorem queueOf_enqueue (queues : Queues) (heading : HeadingRecord) (index : Nat) (key : Text) :
    queueOf (enqueue queues heading index) key =
      queueOf queues key ++ if hasKey key heading then [index] else [] := by
  rw [enqueue, queueOf_insert, hasKey]
  by_cases same : key = matchKey heading.depth heading.text
  · rw [if_pos same, same, beq_self_eq_true, if_pos rfl, queueOf]
  · have differs : (matchKey heading.depth heading.text == key) = false :=
      beq_eq_false_iff_ne.mpr (Ne.symm same)
    rw [if_neg same, differs]
    exact (List.append_nil _).symm

/-- All headings wait in the queues of their keys, in order. -/
theorem queueOf_queues (key : Text) :
    queueOf (queues headings) key = free headings [] (hasKey key) := by
  have onward (entries : List (HeadingRecord × Nat)) (before : Queues) :
      queueOf (entries.foldl (fun queues entry => enqueue queues entry.1 entry.2) before) key =
        queueOf before key ++ (entries.filter fun entry => hasKey key entry.1).map Prod.snd := by
    induction entries generalizing before with
    | nil => exact (List.append_nil _).symm
    | cons entry others ih =>
      rw [List.foldl_cons, ih, queueOf_enqueue, List.append_assoc, List.filter_cons]
      split <;> rfl
  rw [queues, onward]
  simp [queueOf, free]

/-- Taking from a queue gives the first heading that is not claimed and keeps those behind it. -/
theorem dequeue_eq (claimed queue : List Nat) :
    (dequeue claimed queue).1 = (unclaimed claimed queue).head? ∧
      unclaimed claimed (dequeue claimed queue).2 = (unclaimed claimed queue).tail := by
  induction queue with
  | nil => exact ⟨rfl, rfl⟩
  | cons index others ih =>
    rw [dequeue]
    by_cases isClaimed : claimed.contains index = true
    · rw [if_pos isClaimed, unclaimed, List.filter_cons_of_neg (by simpa using isClaimed)]
      exact ih
    · rw [if_neg isClaimed, unclaimed, List.filter_cons_of_pos (by simpa using isClaimed)]
      exact ⟨rfl, rfl⟩

/-- Claiming the first of some indices leaves what it leaves of the others. -/
theorem unclaimed_head? (indices : List Nat) :
    unclaimed indices.head?.toList indices = unclaimed indices.head?.toList indices.tail := by
  cases indices with
  | nil => rfl
  | cons first others =>
    rw [unclaimed, List.filter_cons_of_neg (by simp)]
    rfl

/-- What waits in the queues and is not claimed is what is free. -/
def InStep (headings : List HeadingRecord) (waiting : Waiting) : Prop :=
  ∀ key, free headings waiting.claimed (hasKey key) =
    unclaimed waiting.claimed (queueOf waiting.queues key)

theorem inStep_start (headings : List HeadingRecord) (claimed : List Nat) :
    InStep headings ⟨claimed, queues headings⟩ := by
  intro key
  rw [queueOf_queues]
  exact free_eq_unclaimed

theorem InStep.dequeue {waiting : Waiting} (inStep : InStep headings waiting) {key : Text}
    {queue : List Nat} (found : waiting.queues.find? key = some queue) :
    InStep headings ⟨(dequeue waiting.claimed queue).1.toList ++ waiting.claimed,
      waiting.queues.insert key (dequeue waiting.claimed queue).2⟩ := by
  intro other
  obtain ⟨first, left⟩ := dequeue_eq waiting.claimed queue
  rw [free_append, inStep other, queueOf_insert, unclaimed_append]
  by_cases same : other = key
  · have isQueue : queueOf waiting.queues other = queue := by
      rw [queueOf, same, found, Option.getD_some]
    rw [if_pos same, isQueue, left, first, unclaimed_head?]
  · rw [if_neg same]

/-- The first free heading of the depth and the text of a call whose whole text is known. -/
def byText (headings : List HeadingRecord) (call : HeadingCall) (claimed : List Nat) :
    Option Nat :=
  match call.text? with
  | none => none
  | some text => (free headings claimed (hasKey (matchKey call.depth text))).head?

/-- A call finds by the queues what is the first free heading for it. -/
theorem chooseByText_of_inStep {waiting : Waiting} (inStep : InStep headings waiting)
    (call : HeadingCall) :
    (chooseByText call waiting).1 = byText headings call waiting.claimed ∧
      (chooseByText call waiting).2.claimed =
        (byText headings call waiting.claimed).toList ++ waiting.claimed ∧
      InStep headings (chooseByText call waiting).2 := by
  cases whole : call.text? with
  | none =>
    simp only [chooseByText, byText, whole]
    exact ⟨trivial, rfl, inStep⟩
  | some text =>
    have waits := inStep (matchKey call.depth text)
    cases found : waiting.queues.find? (matchKey call.depth text) with
    | none =>
      have nothing : free headings waiting.claimed (hasKey (matchKey call.depth text)) = [] := by
        rw [waits, queueOf, found]
        rfl
      simp only [chooseByText, byText, whole, found, nothing]
      exact ⟨rfl, rfl, inStep⟩
    | some queue =>
      have first : (dequeue waiting.claimed queue).1 =
          (free headings waiting.claimed (hasKey (matchKey call.depth text))).head? := by
        rw [(dequeue_eq waiting.claimed queue).1, waits, queueOf, found, Option.getD_some]
      simp only [chooseByText, byText, whole, found]
      exact ⟨first, by rw [first], inStep.dequeue found⟩

/-! ## Passes -/

/-- A call takes part in a pass: it has neither an id nor a heading. -/
def IsOpen (slot : Slot) : Prop :=
  slot.call.existingId = none ∧ slot.heading = none

instance (slot : Slot) : Decidable (IsOpen slot) :=
  inferInstanceAs (Decidable (_ ∧ _))

section Steps

variable {State : Type} {choose : HeadingCall → State → Option Nat × State} {state : State}

theorem pass_cons_of_isOpen (isOpen : IsOpen slot) : pass choose state (slot :: slots) =
    ({ slot with heading := (choose slot.call state).1 } ::
        (pass choose (choose slot.call state).2 slots).1,
      (pass choose (choose slot.call state).2 slots).2) := by
  rw [pass, if_pos (by simp [isOpen.1, isOpen.2])]

theorem pass_cons_of_not_isOpen (closed : ¬IsOpen slot) : pass choose state (slot :: slots) =
    (slot :: (pass choose state slots).1, (pass choose state slots).2) := by
  rw [pass, if_neg (by simpa [IsOpen] using closed)]

/-- A pass leaves the calls as they are. -/
theorem map_call_pass : (pass choose state slots).1.map Slot.call = slots.map Slot.call := by
  induction slots generalizing state with
  | nil => rfl
  | cons slot others ih =>
    by_cases isOpen : IsOpen slot
    · rw [pass_cons_of_isOpen isOpen, List.map_cons, List.map_cons, ih]
    · rw [pass_cons_of_not_isOpen isOpen, List.map_cons, List.map_cons, ih]

end Steps

/-- With queues, calls choose as they would without. -/
theorem pass_chooseByText {waiting : Waiting} (inStep : InStep headings waiting)
    (slots : List Slot) :
    (pass chooseByText waiting slots).1 =
        (pass (claiming (byText headings)) waiting.claimed slots).1 ∧
      (pass chooseByText waiting slots).2.claimed =
        (pass (claiming (byText headings)) waiting.claimed slots).2 := by
  induction slots generalizing waiting with
  | nil => exact ⟨rfl, rfl⟩
  | cons slot others ih =>
    by_cases isOpen : IsOpen slot
    · obtain ⟨choice, claimed, stillInStep⟩ := chooseByText_of_inStep inStep slot.call
      obtain ⟨slots, final⟩ := ih stillInStep
      rw [claimed] at slots final
      rw [pass_cons_of_isOpen isOpen, pass_cons_of_isOpen isOpen, choice, slots, final]
      exact ⟨rfl, rfl⟩
    · obtain ⟨slots, final⟩ := ih inStep
      rw [pass_cons_of_not_isOpen isOpen, pass_cons_of_not_isOpen isOpen, slots, final]
      exact ⟨rfl, rfl⟩

/-- The first pass, as it is without queues. -/
def textPass (headings : List HeadingRecord) (calls : List HeadingCall) : List Slot × List Nat :=
  pass (claiming (byText headings)) (claimedByIds headings calls) (calls.map (⟨·, none⟩))

theorem assign_eq (headings : List HeadingRecord) (calls : List HeadingCall) :
    assign headings calls = (pass (claiming (byStart headings)) (textPass headings calls).2
      (textPass headings calls).1).1 := by
  obtain ⟨slots, claimed⟩ := pass_chooseByText
    (inStep_start headings (claimedByIds headings calls)) (calls.map (⟨·, none⟩))
  simp only [assign, slots, claimed, textPass]

@[simp]
theorem map_call_assign (headings : List HeadingRecord) (calls : List HeadingCall) :
    (assign headings calls).map Slot.call = calls := by
  rw [assign_eq, map_call_pass, textPass, map_call_pass, List.map_map]
  exact List.map_id _

end MdxBuild.Generated.Assignment

/-! ## Keys -/

namespace MdxBuild

open Text

/-- The depth and the text by which a heading is matched. -/
def HeadingRecord.key (record : HeadingRecord) : Nat × Text :=
  (record.depth, trim record.text)

namespace Generated

/-- The depth and the text by which a call is matched, if its whole text is known. -/
def HeadingCall.key? (call : HeadingCall) : Option (Nat × Text) :=
  call.text?.map fun text => (call.depth, trim text)

theorem HeadingCall.key?_eq_none {call : HeadingCall} : call.key? = none ↔ call.text? = none :=
  Option.map_eq_none_iff

namespace Assignment

variable {headings : List HeadingRecord} {claimed : List Nat} {call : HeadingCall}

theorem byText_of_key {key : Nat × Text} (isKey : call.key? = some key) :
    byText headings call claimed = (free headings claimed (·.key == key)).head? := by
  obtain ⟨text, whole, rfl⟩ := Option.map_eq_some_iff.mp isKey
  have sameTest : hasKey (matchKey call.depth text) = (·.key == (call.depth, trim text)) := by
    funext heading
    rw [hasKey, Bool.eq_iff_iff, beq_iff_eq, beq_iff_eq, matchKey_eq_iff, HeadingRecord.key,
      Prod.mk.injEq]
  simp only [byText, whole, sameTest]

theorem byText_of_none (unknown : call.key? = none) : byText headings call claimed = none := by
  rw [byText, HeadingCall.key?_eq_none.mp unknown]

/-- In the second pass, calls whose whole text is known choose nothing. -/
theorem byStart_of_key {key : Nat × Text} (isKey : call.key? = some key) :
    byStart headings call claimed = none := by
  obtain ⟨text, whole, -⟩ := Option.map_eq_some_iff.mp isKey
  simp only [byStart, whole, Option.isSome_some, if_true]

end Assignment

end Generated

end MdxBuild

import MdxBuild.Proofs.Heading.Bytewise
import MdxBuild.Proofs.Heading.Entry

/-!
# Where heading calls stand

The headers of heading calls are found one behind the other, so their offsets increase. Each offset
lies right behind the brace of the props, and what the call is read from is the balanced code inside
the braces. The scan of the bytes finds the same calls.
-/

namespace MdxBuild.Generated

open Text

variable {code text props : Text} {afterWord : Bool} {skip depth : Nat} {call : HeadingCall}

/-! ## Headers -/

/-- A header is found where it stands in the text, behind what belongs to the header before. -/
theorem exists_of_mem_headersFrom (member : (depth, props) ∈ headersFrom afterWord skip text) :
    ∃ before header, text = before ++ header ∧ skip ≤ before.length ∧
      headingHeader? header = some (depth, props) := by
  fun_induction headersFrom afterWord skip text with
  | case1 => cases member
  | case2 afterWord skip char rest ih =>
    obtain ⟨before, header, rfl, less, found⟩ := ih member
    exact ⟨char :: before, header, rfl, Nat.succ_le_succ less, found⟩
  | case3 afterWord char rest notHeader ih =>
    obtain ⟨before, header, rfl, -, found⟩ := ih member
    exact ⟨char :: before, header, rfl, Nat.zero_le _, found⟩
  | case4 afterWord char rest firstDepth firstProps isHeader ih =>
    rcases List.mem_cons.mp member with same | member
    · cases same
      cases afterWord with
      | true => cases isHeader
      | false => exact ⟨[], char :: rest, rfl, Nat.zero_le _, isHeader⟩
    · obtain ⟨before, header, rfl, -, found⟩ := ih member
      exact ⟨char :: before, header, rfl, Nat.zero_le _, found⟩

/-- The brace of each header stands behind the brace of the header before. -/
theorem pairwise_headersFrom (afterWord : Bool) (skip : Nat) (text : Text) :
    (headersFrom afterWord skip text).Pairwise fun first second => '{' :: second.2 <:+ first.2 := by
  fun_induction headersFrom afterWord skip text with
  | case1 => exact .nil
  | case2 _ _ _ _ ih => exact ih
  | case3 _ _ _ _ ih => exact ih
  | case4 afterWord char rest depth props isHeader ih =>
    refine .cons (fun (_, otherProps) member => ?_) ih
    have isSuffix : props <:+ rest := by
      cases afterWord with
      | true => cases isHeader
      | false =>
        obtain ⟨header, same, -⟩ := exists_headingHeader isHeader
        cases header with
        | nil => exact (List.cons.inj same).2 ▸ List.suffix_refl _
        | cons first header =>
          exact (List.cons.inj same).2 ▸ (List.suffix_cons _ _).trans (List.suffix_append _ _)
    obtain ⟨before, header, same, behind, found⟩ := exists_of_mem_headersFrom member
    obtain ⟨start, rfl, -⟩ := exists_headingHeader found
    have shorter : (start ++ '{' :: otherProps).length ≤ props.length := by
      have length := congrArg List.length same
      rw [List.length_append] at length
      have atMost := isSuffix.length_le
      omega
    have headerSuffix := List.suffix_of_suffix_length_le ⟨before, same.symm⟩ isSuffix shorter
    exact (List.suffix_append _ _).trans headerSuffix

/-! ## Calls -/

/-- A call is read from balanced code inside of braces, of which the opening one ends its header.
Its offset is the number of bytes up to and including this brace. -/
def IsBehindBrace (code inside : Text) (call : HeadingCall) : Prop :=
  ∃ before header closing after,
    code = before ++ header ++ '{' :: (inside ++ closing :: after) ∧
    headingHeader? (header ++ '{' :: (inside ++ closing :: after)) =
      some (call.depth, inside ++ closing :: after) ∧
    Balanced inside ∧ isClosing closing = true ∧
    call = .ofProps (utf8Length (before ++ header) + 1) call.depth inside

/-- A call has an id exactly if one of its props has this key. -/
theorem IsBehindBrace.existingId_ne_none_iff {inside : Text}
    (isBehind : IsBehindBrace code inside call) :
    call.existingId ≠ none ↔ HasProperty "id".toList inside := by
  obtain ⟨before, header, closing, after, -, -, balanced, -, isCall⟩ := isBehind
  rw [← isSome_property?_iff balanced, isCall, HeadingCall.ofProps, Option.ne_none_iff_isSome,
    Option.isSome_map]

/-- The heading calls of the code, with offsets that count bytes. -/
def located (code : Text) : List HeadingCall :=
  (headers code).filterMap fun (depth, props) =>
    (bracketed? props).map fun (inside, _) =>
      .ofProps (utf8Length code - utf8Length props) depth inside

theorem exists_of_mem_headers (member : (depth, props) ∈ headers code) :
    ∃ before header, code = before ++ header ++ '{' :: props ∧
      headingHeader? (header ++ '{' :: props) = some (depth, props) := by
  obtain ⟨before, text, rfl, -, isHeader⟩ := exists_of_mem_headersFrom member
  obtain ⟨header, rfl, -⟩ := exists_headingHeader isHeader
  exact ⟨before, header, (List.append_assoc _ _ _).symm, isHeader⟩

/-- Right behind a brace, the number of bytes is what the bytes of the rest leave. -/
theorem utf8Length_sub_props (text props : Text) :
    utf8Length (text ++ '{' :: props) - utf8Length props = utf8Length text + 1 := by
  have braceSize : ('{' : Char).utf8Size = 1 := rfl
  rw [utf8Length_append, utf8Length_cons, braceSize]
  omega

/-- A call that is located is read from balanced code behind the brace of a header. -/
theorem exists_of_mem_located (member : call ∈ located code) :
    ∃ text inside closing after, code = text ++ '{' :: (inside ++ closing :: after) ∧
      (call.depth, inside ++ closing :: after) ∈ headers code ∧ Balanced inside ∧
      isClosing closing = true ∧ call = .ofProps (utf8Length text + 1) call.depth inside := by
  obtain ⟨⟨depth, props⟩, isHeader, isCall⟩ := List.mem_filterMap.mp member
  obtain ⟨⟨inside, after⟩, isBracketed, rfl⟩ := Option.map_eq_some_iff.mp isCall
  obtain ⟨before, header, rfl, -⟩ := exists_of_mem_headers isHeader
  obtain ⟨balanced, closing, closes, rfl⟩ := bracketed?_eq_some_iff.mp isBracketed
  refine ⟨before ++ header, inside, closing, after, rfl, isHeader, balanced, closes, ?_⟩
  rw [utf8Length_sub_props]
  rfl

theorem isBehindBrace_of_mem_located (member : call ∈ located code) :
    ∃ inside, IsBehindBrace code inside call := by
  obtain ⟨text, inside, closing, after, rfl, isHeader, balanced, closes, isCall⟩ :=
    exists_of_mem_located member
  obtain ⟨before, header, same, found⟩ := exists_of_mem_headers isHeader
  obtain rfl := List.append_cancel_right same
  exact ⟨inside, before, header, closing, after, rfl, found, balanced, closes, isCall⟩

/-- The offsets of calls increase. -/
theorem pairwise_located (code : Text) :
    ((located code).map HeadingCall.offset).Pairwise (· < ·) := by
  rw [List.pairwise_map, located, List.pairwise_filterMap]
  have increasing := List.Pairwise.and_mem.mp (pairwise_headersFrom false 0 code)
  refine increasing.imp fun {first second} ⟨isFirst, _, suffix⟩ call isCall other isOther => ?_
  obtain ⟨_, -, rfl⟩ := Option.map_eq_some_iff.mp isCall
  obtain ⟨_, -, rfl⟩ := Option.map_eq_some_iff.mp isOther
  obtain ⟨before, header, same, -⟩ := exists_of_mem_headers isFirst
  obtain ⟨between, isBetween⟩ := suffix
  have size := congrArg utf8Length same
  have braceSize : ('{' : Char).utf8Size = 1 := rfl
  rw [← isBetween] at size ⊢
  simp only [utf8Length_append, utf8Length_cons, braceSize] at size ⊢
  change _ - _ < _ - _
  omega

/-! ## Calls at offsets -/

namespace Bytewise

theorem StandsAt.utf8Length_le {rest : Text} {offset : Nat} (stands : StandsAt code offset rest) :
    utf8Length rest ≤ utf8Length code :=
  stands.add_utf8Length ▸ Nat.le_add_left _ _

theorem headingAt_eq {before : Text} {turns : Nat} (same : code = before ++ '{' :: props)
    (depth : Nat) (enough : 2 * utf8Length code + 5 ≤ turns) :
    headingAt code turns depth (utf8Length code - utf8Length props) =
      .ok ((bracketed? props).map fun (inside, _) =>
        .ofProps (utf8Length code - utf8Length props) depth inside) := by
  have atBrace : StandsAt code (utf8Length before) ('{' :: props) := ⟨before, same, rfl⟩
  have headerEnd : utf8Length code - utf8Length props = utf8Length before + 1 := by
    rw [same, utf8Length_sub_props]
  have size := atBrace.utf8Length_le
  have fewer : utf8Length ('{' :: props) < turns := by omega
  rw [headerEnd]
  cases isBracketed : bracketed? props with
  | none =>
    simp only [headingAt, Nat.add_sub_cancel,
      closingAt_of_none (by decide) isBracketed atBrace fewer, ok_bind, Option.map_none]
  | some parts =>
    obtain ⟨inside, after⟩ := parts
    obtain ⟨balanced, closing, closes, rfl⟩ := bracketed?_eq_some_iff.mp isBracketed
    have insideStands := atBrace.cons (by decide)
    have atLimit := insideStands.append inside
    have foundClosing := closingAt_of_balanced (by decide) closes balanced atBrace fewer
    have insideSize := insideStands.utf8Length_le
    have enoughInside : 2 * utf8Length (inside ++ closing :: after) + 5 ≤ turns := by omega
    have property (key : Text) := propertyValueAt_eq
      (fun value => readsValues code (value.length + 1)) key closes atLimit balanced insideStands
      (fun _ _ => Nat.lt_succ_self _) enoughInside
    simp only [headingAt, Nat.add_sub_cancel, foundClosing, ok_bind, property, Option.map_some,
      HeadingCall.ofProps, Option.map_map]
    rfl

theorem headingsAt_eq {turns : Nat} (enough : 2 * utf8Length code + 5 ≤ turns)
    {found : List (Nat × Text)} (areHeaders : ∀ header ∈ found, header ∈ headers code) :
    headingsAt code turns found = .ok (found.filterMap fun (depth, props) =>
      (bracketed? props).map fun (inside, _) =>
        .ofProps (utf8Length code - utf8Length props) depth inside) := by
  induction found with
  | nil => rfl
  | cons header others ih =>
    rw [List.forall_mem_cons] at areHeaders
    obtain ⟨before, start, same, -⟩ := exists_of_mem_headers areHeaders.1
    simp only [headingsAt, headingAt_eq same header.1 enough, ok_bind, ih areHeaders.2,
      List.filterMap_cons]
    cases bracketed? header.2 <;> rfl

/-- The scan of the bytes finds the calls. -/
theorem locate_eq {turns : Nat} (enough : 2 * utf8Length code + 5 ≤ turns) :
    Bytewise.locate code turns = .ok (located code) :=
  headingsAt_eq enough fun _ member => member

end Bytewise

end MdxBuild.Generated

import MdxBuild.Proofs.Heading.Location

/-!
# Headings in texts that agree

The header of a heading call is told by its own characters, and it holds no brace but the one that
ends it. So texts that agree up to the brace of a header have the headers up to there in common,
whatever stands behind it. A call whose brackets are closed is therefore found again, as the same
call, in every text that goes on in another way behind the closing bracket.
-/

namespace MdxBuild.Generated

open Text

variable {text tag header props after inside : Text} {depth : Nat}

/-! ## Reading a header -/

theorem afterCallee?_of_mem_callees {callee : Text} (isCallee : callee ∈ callees)
    (arguments : Text) : afterCallee? (callee ++ '(' :: arguments) = some arguments := by
  simp only [callees, List.map_cons, List.map_nil, List.mem_cons, List.not_mem_nil,
    or_false] at isCallee
  rcases isCallee with rfl | rfl | rfl | rfl <;> rfl

/-- The spelling of a tag fixes the depth that is read. -/
theorem IsHeadingTag.exists_depth (isTag : IsHeadingTag tag) :
    ∃ depth, ∀ after, headingTag? (tag ++ after) = some (depth, after) := by
  cases isTag with
  | member digit isDepth =>
    obtain ⟨depth, isDepth⟩ := Option.isSome_iff_exists.mp isDepth
    refine ⟨depth, fun after => ?_⟩
    change (depthOf? digit).map (·, after) = some (depth, after)
    rw [isDepth, Option.map_some]
  | quoted digit isDepth =>
    obtain ⟨depth, isDepth⟩ := Option.isSome_iff_exists.mp isDepth
    refine ⟨depth, fun after => ?_⟩
    change (depthOf? digit).map (·, after) = some (depth, after)
    rw [isDepth, Option.map_some]

theorem IsHeadingTag.exists_cons (isTag : IsHeadingTag tag) :
    ∃ first rest, tag = first :: rest ∧ isBlank first = false := by
  cases isTag with
  | member => exact ⟨'_', _, rfl, by decide⟩
  | quoted => exact ⟨'"', _, rfl, by decide⟩

theorem afterPropsBrace?_of_allBlank {before behind : Text} (blankBefore : allBlank before = true)
    (blankBehind : allBlank behind = true) (props : Text) :
    afterPropsBrace? (before ++ ',' :: (behind ++ '{' :: props)) = some props := by
  rw [afterPropsBrace?,
    dropWhile_append_cons (List.all_eq_true.mp blankBefore) (by decide : isBlank ',' = false)]
  change after? ['{'] ((behind ++ '{' :: props).dropWhile isBlank) = some props
  rw [dropWhile_append_cons (List.all_eq_true.mp blankBehind) (by decide : isBlank '{' = false)]
  rfl

/-- The spelling of a header fixes the depth that is read, whatever the props are. -/
theorem IsHeadingHeader.exists_depth (isHeader : IsHeadingHeader header) :
    ∃ depth, ∀ props, headingHeader? (header ++ '{' :: props) = some (depth, props) := by
  obtain ⟨callee, blanks, tag, before, behind, isCallee, blank, isTag, blankBefore, blankBehind⟩ :=
    isHeader
  obtain ⟨depth, reads⟩ := isTag.exists_depth
  obtain ⟨first, rest, isCons, notBlank⟩ := isTag.exists_cons
  refine ⟨depth, fun props => ?_⟩
  have atTag : (blanks ++ (tag ++ (before ++ ',' :: (behind ++ '{' :: props)))).dropWhile isBlank =
      tag ++ (before ++ ',' :: (behind ++ '{' :: props)) := by
    rw [isCons]
    exact dropWhile_append_cons (List.all_eq_true.mp blank) notBlank _
  simp only [List.append_assoc, List.cons_append, headingHeader?,
    afterCallee?_of_mem_callees isCallee, Option.bind_eq_bind, Option.bind_some, atTag, reads,
    afterPropsBrace?_of_allBlank blankBefore blankBehind]

theorem brace_notMem_of_isHeadingTag (isTag : IsHeadingTag tag) : '{' ∉ tag := by
  have notDigit {digit : Char} (isDepth : (depthOf? digit).isSome = true) : '{' ≠ digit := by
    rintro rfl
    exact absurd isDepth (by decide)
  cases isTag with
  | member digit isDepth =>
    have notName : '{' ∉ "_components.h".toList := by decide
    simp only [List.mem_append, List.mem_singleton, notName, notDigit isDepth, or_self,
      not_false_eq_true]
  | quoted digit isDepth =>
    have notName : '{' ∉ "\"h".toList := by decide
    have notQuote : '{' ∉ ['"'] := by decide
    simp only [List.mem_append, List.mem_cons, notName, notDigit isDepth, false_or,
      List.not_mem_nil, or_false]
    decide

/-- A header holds no brace, since its own brace stands behind it. -/
theorem brace_notMem_of_isHeadingHeader (isHeader : IsHeadingHeader header) : '{' ∉ header := by
  obtain ⟨callee, blanks, tag, before, behind, isCallee, blank, isTag, blankBefore, blankBehind⟩ :=
    isHeader
  have notCallee : '{' ∉ callee := fun member =>
    absurd (isPlain_of_mem_callee isCallee _ member) (by decide)
  have notBlank {blanks : Text} (blank : allBlank blanks = true) : '{' ∉ blanks := fun member =>
    absurd (List.all_eq_true.mp blank _ member) (by decide)
  have notParenthesis : '{' ≠ '(' := by decide
  have notComma : '{' ≠ ',' := by decide
  simp only [List.mem_append, List.mem_cons, notCallee, notBlank blank, notBlank blankBefore,
    notBlank blankBehind, brace_notMem_of_isHeadingTag isTag, notParenthesis, notComma, or_self,
    not_false_eq_true]

/-! ## Headers in texts that agree -/

/-- A header that is found in front of some brace, or at it, is found there whatever stands behind
this brace. -/
theorem headingHeader?_agree
    (found : headingHeader? (text ++ '{' :: props) = some (depth, after)) (others : Text) :
    ∃ behind, '{' :: after = behind ++ '{' :: props ∧
      headingHeader? (text ++ '{' :: others) = some (depth, (behind ++ '{' :: others).tail) := by
  obtain ⟨header, same, isHeader⟩ := exists_headingHeader found
  obtain ⟨behind, rfl, isBehind⟩ :
      ∃ behind, text = header ++ behind ∧ '{' :: after = behind ++ '{' :: props := by
    rcases List.append_eq_append_iff.mp same with ⟨between, isText, isAfter⟩ | found
    · cases between with
      | nil => exact ⟨[], by simpa using isText.symm, isAfter.symm⟩
      | cons char between =>
        obtain rfl : '{' = char := (List.cons.inj isAfter).1
        exact absurd (isText ▸ List.mem_append_right _ List.mem_cons_self)
          (brace_notMem_of_isHeadingHeader isHeader)
    · exact found
  obtain ⟨ownDepth, reads⟩ := isHeader.exists_depth
  obtain rfl : ownDepth = depth := by
    rw [List.append_assoc, ← isBehind, reads after] at found
    exact (Prod.mk.inj (Option.some.inj found)).1
  obtain ⟨rest, isRest⟩ : ∃ rest, behind ++ '{' :: others = '{' :: rest := by
    cases behind with
    | nil => exact ⟨others, rfl⟩
    | cons char behind =>
      obtain rfl : '{' = char := (List.cons.inj isBehind).1
      exact ⟨behind ++ '{' :: others, rfl⟩
  refine ⟨behind, isBehind, ?_⟩
  rw [List.append_assoc, isRest, reads rest, List.tail_cons]

theorem length_lt_of_mem_headersFrom {afterWord : Bool} {skip : Nat}
    (member : (depth, props) ∈ headersFrom afterWord skip text) :
    props.length + 1 < text.length := by
  obtain ⟨before, start, rfl, -, found⟩ := exists_of_mem_headersFrom member
  obtain ⟨header, rfl, isHeader⟩ := exists_headingHeader found
  obtain ⟨callee, blanks, tag, first, second⟩ := isHeader
  simp only [List.length_append, List.length_cons]
  omega

/-- Texts that agree up to the brace of a header both have it. -/
theorem mem_headersFrom_agree {afterWord : Bool} {skip : Nat}
    (member : (depth, props) ∈ headersFrom afterWord skip (text ++ '{' :: props))
    (others : Text) : (depth, others) ∈ headersFrom afterWord skip (text ++ '{' :: others) := by
  induction text generalizing afterWord skip with
  | nil => exact absurd (length_lt_of_mem_headersFrom member) (by simp)
  | cons char rest ih =>
    rw [List.cons_append] at member ⊢
    cases skip with
    | succ skip => exact ih member
    | zero =>
      cases afterWord with
      | true => exact ih member
      | false =>
        simp only [headersFrom, Bool.false_eq_true, if_false] at member ⊢
        cases isHeader : headingHeader? (char :: (rest ++ '{' :: props)) with
        | none =>
          rw [isHeader] at member
          have noHeader : headingHeader? (char :: rest ++ '{' :: others) = none := by
            rw [Option.eq_none_iff_forall_ne_some]
            rintro ⟨otherDepth, otherAfter⟩ found
            obtain ⟨behind, -, found⟩ := headingHeader?_agree found props
            rw [← List.cons_append, found] at isHeader
            cases isHeader
          rw [List.cons_append] at noHeader
          rw [noHeader]
          exact ih member
        | some parts =>
          obtain ⟨firstDepth, firstAfter⟩ := parts
          rw [isHeader] at member
          rw [← List.cons_append] at isHeader
          obtain ⟨behind, isBehind, found⟩ := headingHeader?_agree isHeader others
          rw [List.cons_append] at found
          rw [found]
          rcases List.mem_cons.mp member with same | member
          · cases same
            obtain rfl : behind = [] := by simpa using isBehind
            exact List.mem_cons_self
          · refine List.mem_cons_of_mem _ ?_
            have sameSkip : (rest ++ '{' :: others).length - (behind ++ '{' :: others).tail.length =
                (rest ++ '{' :: props).length - firstAfter.length := by
              have size := congrArg List.length isBehind
              simp only [List.length_append, List.length_cons, List.length_tail] at size ⊢
              omega
            rw [sameSkip]
            exact ih member

theorem mem_headers_agree (member : (depth, props) ∈ headers (text ++ '{' :: props))
    (others : Text) : (depth, others) ∈ headers (text ++ '{' :: others) :=
  mem_headersFrom_agree member others

/-! ## Calls in texts that agree -/

/-- Texts that agree up to the bracket that closes the props of a call both have this call. -/
theorem mem_located_agree {closing : Char}
    (isHeader : (depth, inside ++ closing :: after) ∈
      headers (text ++ '{' :: (inside ++ closing :: after)))
    (balanced : Balanced inside) (closes : isClosing closing = true) (others : Text) :
    .ofProps (utf8Length text + 1) depth inside ∈
      located (text ++ '{' :: (inside ++ closing :: others)) := by
  have isBracketed : bracketed? (inside ++ closing :: others) = some (inside, others) :=
    bracketed?_eq_some_iff.mpr ⟨balanced, closing, closes, rfl⟩
  refine List.mem_filterMap.mpr
    ⟨(depth, inside ++ closing :: others), mem_headers_agree isHeader _, ?_⟩
  simp only [isBracketed, Option.map_some, utf8Length_sub_props]

end MdxBuild.Generated

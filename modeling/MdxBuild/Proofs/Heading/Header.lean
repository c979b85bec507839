import MdxBuild.Proofs.Heading.Balance
import MdxBuild.Proofs.Text.Part

/-!
# Call headers in balanced code

The header of a call is balanced up to its parenthesis, and from there up to the brace of its props.
It holds no closing bracket, so what is read as a header inside of brackets does not depend on
whether the text behind the brackets can be seen.
-/

namespace MdxBuild.Generated

open Text

variable {text rest after props arguments tag outer : Text} {closing : Char}

/-! ## Classes of plain characters -/

/-- The quotes and brackets. -/
def marks : List Char :=
  ['"', '\'', '`', '{', '[', '(', '}', ']', ')']

theorem isPlain_of_notMem_marks {char : Char} (noMark : char ∉ marks) : isPlain char = true := by
  simpa [marks, isPlain, isQuote, isOpening, isClosing, and_assoc] using noMark

/-- A class that no quote and no bracket belongs to holds plain characters only. -/
theorem isPlain_of_class {inClass : Char → Bool} (noMark : marks.any inClass = false)
    {char : Char} (member : inClass char = true) : isPlain char = true :=
  isPlain_of_notMem_marks fun isMark => List.any_eq_false.mp noMark char isMark member

theorem isPlain_of_isAsciiBlank {char : Char} : isAsciiBlank char = true → isPlain char = true :=
  isPlain_of_class (by decide)

theorem isPlain_of_isBlank {char : Char} : isBlank char = true → isPlain char = true :=
  isPlain_of_class (by decide)

theorem isPlain_of_isNameStart {char : Char} : isNameStart char = true → isPlain char = true :=
  isPlain_of_class (by decide)

theorem isPlain_of_isNamePart {char : Char} : isNamePart char = true → isPlain char = true :=
  isPlain_of_class (by decide)

theorem isPlain_of_isKeyPart {char : Char} : isKeyPart char = true → isPlain char = true :=
  isPlain_of_class (by decide)

/-- No closing bracket belongs to a class of plain characters. -/
theorem eq_false_of_isClosing {inClass : Char → Bool}
    (plain : ∀ char, inClass char = true → isPlain char = true)
    (closes : isClosing closing = true) : inClass closing = false := by
  by_contra member
  have isPlain := isPlain_iff.mp (plain closing (Bool.not_eq_false _ ▸ member))
  rw [closes] at isPlain
  cases isPlain.2.2

/-! ## What stands in a header -/

/-- A word and the parenthesis behind it. -/
theorem after?_parenthesis {name : Text} (found : after? (name ++ ['(']) text = some rest) :
    text = name ++ '(' :: rest := by
  rw [after?_eq_some_iff.mp found, List.append_assoc, List.singleton_append]

/-- Behind an underscore, if there is one, a callee is one of two names. -/
theorem after?_of_afterCallee? (found : afterCallee? text = some arguments) :
    after? "jsxs(".toList ((after? ['_'] text).getD text) = some arguments ∨
      after? "jsx(".toList ((after? ['_'] text).getD text) = some arguments := by
  rw [afterCallee?] at found
  split at found
  next rest isAfter => exact .inl (isAfter.trans found)
  next => exact .inr found

/-- The names of render functions. -/
def callees : List Text :=
  ["_jsxs", "_jsx", "jsxs", "jsx"].map String.toList

theorem exists_callee (found : afterCallee? text = some arguments) :
    ∃ callee ∈ callees, text = callee ++ '(' :: arguments := by
  obtain ⟨name, isName, same⟩ : ∃ name ∈ ["jsxs".toList, "jsx".toList],
      (after? ['_'] text).getD text = name ++ '(' :: arguments := by
    rcases after?_of_afterCallee? found with isAfter | isAfter
    · exact ⟨_, List.mem_cons_self, after?_parenthesis isAfter⟩
    · exact ⟨_, List.mem_cons_of_mem _ List.mem_cons_self, after?_parenthesis isAfter⟩
  cases underscore : after? ['_'] text with
  | none =>
    rw [underscore] at same
    exact ⟨name, List.mem_append_right ["_jsxs".toList, "_jsx".toList] isName, same⟩
  | some plain =>
    rw [underscore] at same
    refine ⟨'_' :: name, ?_, (after?_eq_some_iff.mp underscore).trans (congrArg ('_' :: ·) same)⟩
    exact List.mem_append_left _ (List.mem_map_of_mem (f := ('_' :: ·)) isName)

theorem isPlain_of_mem_callee {callee : Text} (isCallee : callee ∈ callees) :
    ∀ char ∈ callee, isPlain char = true := by
  have allPlain : callees.all (·.all isPlain) = true := by decide
  exact List.all_eq_true.mp (List.all_eq_true.mp allPlain callee isCallee)

theorem exists_beforeBrace (found : afterPropsBrace? text = some props) :
    ∃ before behind, text = before ++ ',' :: (behind ++ '{' :: props) ∧
      allBlank before = true ∧ allBlank behind = true := by
  obtain ⟨afterComma, isComma, isBrace⟩ := Option.bind_eq_some_iff.mp found
  have comma := after?_eq_some_iff.mp isComma
  have brace := after?_eq_some_iff.mp isBrace
  refine ⟨text.takeWhile isBlank, afterComma.takeWhile isBlank, ?_, List.all_takeWhile,
    List.all_takeWhile⟩
  calc text = text.takeWhile isBlank ++ text.dropWhile isBlank :=
        List.takeWhile_append_dropWhile.symm
    _ = text.takeWhile isBlank ++ ',' :: afterComma := by rw [comma, List.singleton_append]
    _ = text.takeWhile isBlank ++
          ',' :: (afterComma.takeWhile isBlank ++ afterComma.dropWhile isBlank) := by
      rw [List.takeWhile_append_dropWhile]
    _ = _ := by rw [brace, List.singleton_append]

theorem exists_dotted (steps : Nat) (text : Text) :
    ∃ names, text = names ++ dottedRest steps text ∧ ∀ char ∈ names, isPlain char = true := by
  fun_induction dottedRest steps text with
  | case1 => exact ⟨[], rfl, by simp⟩
  | case2 steps first rest isPart ih =>
    obtain ⟨names, same, plain⟩ := ih
    refine ⟨'.' :: first :: (rest.takeWhile isNamePart ++ names), ?_, ?_⟩
    · rw [List.cons_append, List.cons_append, List.append_assoc, ← same,
        List.takeWhile_append_dropWhile]
    · refine List.forall_mem_cons.mpr ⟨by decide, List.forall_mem_cons.mpr
        ⟨isPlain_of_isNamePart isPart, fun char member => ?_⟩⟩
      rcases List.mem_append.mp member with part | name
      · exact isPlain_of_isNamePart (List.mem_takeWhile_imp part)
      · exact plain char name
  | case3 => exact ⟨[], rfl, by simp⟩
  | case4 => exact ⟨[], rfl, by simp⟩

theorem literalBody_of_forall {quote : Char} {inner : Text}
    (others : ∀ char ∈ inner, char ≠ '\\' ∧ char ≠ quote) : LiteralBody quote inner := by
  induction inner with
  | nil => exact .nil
  | cons char rest ih =>
    rw [List.forall_mem_cons] at others
    exact .char char rest others.1.1 others.1.2 (ih others.2)

theorem exists_memberTag (found : memberTag? text = some (tag, after)) :
    ∃ spelled, text = spelled ++ after ∧ Balanced spelled := by
  rw [memberTag?] at found
  split at found
  next first rest isMember =>
    rw [Option.ite_none_right_eq_some] at found
    obtain ⟨isLetter, same⟩ := found
    cases same
    have same : text = "_components.".toList ++ first :: rest := after?_eq_some_iff.mp isMember
    refine ⟨"_components.".toList ++ first :: rest.takeWhile isWord, ?_, ?_⟩
    · rw [same, List.append_assoc, List.cons_append, List.takeWhile_append_dropWhile]
    · refine .of_all_isPlain fun char member => ?_
      rcases List.mem_append.mp member with before | member
      · have allPlain : "_components.".toList.all isPlain = true := by decide
        exact List.all_eq_true.mp allPlain char before
      · rcases List.mem_cons.mp member with rfl | part
        · exact isPlain_of_class (by decide) isLetter
        · exact isPlain_of_class (by decide) (List.mem_takeWhile_imp part)
  next => cases found

theorem exists_quotedTag (found : quotedTag? text = some (tag, after)) :
    ∃ spelled, text = spelled ++ after ∧ Balanced spelled := by
  unfold quotedTag? at found
  split at found
  next first rest =>
    split at found
    next behind isTag =>
      rw [Option.ite_none_right_eq_some] at found
      obtain ⟨isLetter, same⟩ := found
      cases same
      refine ⟨'"' :: (first :: rest.takeWhile isTagPart ++ ['"']), ?_, ?_⟩
      · have same : rest = rest.takeWhile isTagPart ++ '"' :: after :=
          List.takeWhile_append_dropWhile.symm.trans (congrArg _ isTag)
        simp [← same]
      · refine .literal '"' _ [] (by decide) (literalBody_of_forall fun char member => ?_) .nil
        have ofClass {inClass : Char → Bool} (noBackslash : inClass '\\' = false)
            (noQuote : inClass '"' = false) (isIn : inClass char = true) :
            char ≠ '\\' ∧ char ≠ '"' := by
          constructor
          · rintro rfl
            rw [noBackslash] at isIn
            cases isIn
          · rintro rfl
            rw [noQuote] at isIn
            cases isIn
        rcases List.mem_cons.mp member with rfl | part
        · exact ofClass (by decide) (by decide) isLetter
        · exact ofClass (by decide) (by decide) (List.mem_takeWhile_imp part)
    next => cases found
  next => cases found

theorem exists_namedTag (found : namedTag? text = some (tag, after)) :
    ∃ spelled, text = spelled ++ after ∧ Balanced spelled := by
  cases text with
  | nil => cases found
  | cons first rest =>
    rw [namedTag?, Option.ite_none_right_eq_some] at found
    obtain ⟨isStart, same⟩ := found
    cases same
    obtain ⟨names, same, plain⟩ := exists_dotted (first :: rest).length (rest.dropWhile isNamePart)
    refine ⟨first :: (rest.takeWhile isNamePart ++ names), ?_, ?_⟩
    · rw [List.cons_append, List.append_assoc, ← same, List.takeWhile_append_dropWhile]
    · refine .of_all_isPlain (List.forall_mem_cons.mpr
        ⟨isPlain_of_isNameStart isStart, fun char member => ?_⟩)
      rcases List.mem_append.mp member with part | name
      · exact isPlain_of_isNamePart (List.mem_takeWhile_imp part)
      · exact plain char name

theorem exists_tag (found : (tag, after) ∈ anyTag? text) :
    ∃ spelled, text = spelled ++ after ∧ Balanced spelled := by
  rw [anyTag?, List.mem_append, List.mem_append, Option.mem_toList, Option.mem_toList,
    Option.mem_toList] at found
  rcases found with (member | quoted) | named
  · exact exists_memberTag member
  · exact exists_quotedTag quoted
  · exact exists_namedTag named

theorem Balanced.of_allBlank (allBlank : allBlank text = true) : Balanced text :=
  .of_all_isPlain fun char member => isPlain_of_isBlank (List.all_eq_true.mp allBlank char member)

/-- A render call begins with plain characters and a parenthesis, and the arguments are balanced up
to the brace of the props. -/
theorem exists_renderHeader (found : renderHeader? text = some (tag, arguments, props)) :
    ∃ callee header, text = callee ++ '(' :: arguments ∧ (∀ char ∈ callee, isPlain char = true) ∧
      arguments = header ++ '{' :: props ∧ Balanced header := by
  obtain ⟨afterCallee, isCallee, isTag⟩ := Option.bind_eq_some_iff.mp found
  obtain ⟨⟨tag', afterTag⟩, member, isProps⟩ := List.exists_of_findSome?_eq_some isTag
  obtain ⟨props', isBrace, same⟩ := Option.map_eq_some_iff.mp isProps
  cases same
  obtain ⟨callee, memCallees, rfl⟩ := exists_callee isCallee
  obtain ⟨spelled, isSpelled, balanced⟩ := exists_tag member
  obtain ⟨before, behind, rfl, blankBefore, blankBehind⟩ := exists_beforeBrace isBrace
  refine ⟨callee, arguments.takeWhile isBlank ++ (spelled ++ (before ++ ',' :: behind)), rfl,
    isPlain_of_mem_callee memCallees, ?_, ?_⟩
  · rw [List.append_assoc, List.append_assoc, List.append_assoc, List.cons_append, ← isSpelled,
      List.takeWhile_append_dropWhile]
  · exact (Balanced.of_allBlank List.all_takeWhile).append (balanced.append
      ((Balanced.of_allBlank blankBefore).append
        (.plain ',' behind (by decide) (.of_allBlank blankBehind))))

/-- The spellings of the tag of a heading: a member of `_components`, or quoted. -/
inductive IsHeadingTag : Text → Prop
  | member (digit : Char) (isDepth : (depthOf? digit).isSome = true) :
      IsHeadingTag ("_components.h".toList ++ [digit])
  | quoted (digit : Char) (isDepth : (depthOf? digit).isSome = true) :
      IsHeadingTag ("\"h".toList ++ [digit, '"'])

/-- The spellings of the header of a heading call, up to the brace of its props. -/
inductive IsHeadingHeader : Text → Prop
  | intro (callee blanks tag before behind : Text) (isCallee : callee ∈ callees)
      (blank : allBlank blanks = true) (isTag : IsHeadingTag tag)
      (blankBefore : allBlank before = true) (blankBehind : allBlank behind = true) :
      IsHeadingHeader (callee ++ '(' :: (blanks ++ (tag ++ (before ++ ',' :: behind))))

theorem exists_headingTag {depth : Nat} (found : headingTag? text = some (depth, after)) :
    ∃ tag, text = tag ++ after ∧ IsHeadingTag tag := by
  rw [headingTag?] at found
  split at found
  next digit rest isMember =>
    obtain ⟨depth, isDepth, same⟩ := Option.map_eq_some_iff.mp found
    cases same
    refine ⟨_, ?_, .member digit (Option.isSome_of_eq_some isDepth)⟩
    rw [List.append_assoc]
    exact after?_eq_some_iff.mp isMember
  next => cases found
  next =>
    split at found
    next digit quote rest isQuoted =>
      rw [Option.ite_none_right_eq_some] at found
      obtain ⟨rfl, found⟩ := found
      obtain ⟨depth, isDepth, same⟩ := Option.map_eq_some_iff.mp found
      cases same
      refine ⟨_, ?_, .quoted digit (Option.isSome_of_eq_some isDepth)⟩
      rw [List.append_assoc]
      exact after?_eq_some_iff.mp isQuoted
    next => cases found

theorem exists_headingHeader {depth : Nat} (found : headingHeader? text = some (depth, props)) :
    ∃ header, text = header ++ '{' :: props ∧ IsHeadingHeader header := by
  obtain ⟨afterCallee, isCallee, found⟩ := Option.bind_eq_some_iff.mp found
  obtain ⟨⟨depth', afterTag⟩, isTag, found⟩ := Option.bind_eq_some_iff.mp found
  obtain ⟨props', isProps, same⟩ := Option.bind_eq_some_iff.mp found
  cases same
  obtain ⟨callee, memCallees, rfl⟩ := exists_callee isCallee
  obtain ⟨tag, isSpelled, isHeadingTag⟩ := exists_headingTag isTag
  obtain ⟨before, behind, rfl, blankBefore, blankBehind⟩ := exists_beforeBrace isProps
  refine ⟨_, ?_, .intro callee (afterCallee.takeWhile isBlank) tag before behind memCallees
    List.all_takeWhile isHeadingTag blankBefore blankBehind⟩
  simp only [List.append_assoc, List.cons_append]
  rw [← isSpelled, List.takeWhile_append_dropWhile]

/-! ## Headers in front of a closing bracket -/

section Closed

variable (closes : isClosing closing = true)

include closes

theorem after?_closed {part : Text} (noClosing : part.any isClosing = false) (text : Text) :
    after? part (text ++ closing :: outer) = (after? part text).map (· ++ closing :: outer) := by
  induction part generalizing text with
  | nil => rfl
  | cons char part ih =>
    rw [List.any_cons, Bool.or_eq_false_iff] at noClosing
    cases text with
    | nil =>
      have differs : char ≠ closing := by
        rintro rfl
        rw [noClosing.1] at closes
        cases closes
      simp [after?, List.isPrefixOf?, differs]
    | cons first rest =>
      have step := ih noClosing.2 rest
      simp only [after?, List.cons_append, List.isPrefixOf?] at step ⊢
      split
      · exact step
      · rfl

theorem dropWhile_closed {inClass : Char → Bool}
    (plain : ∀ char, inClass char = true → isPlain char = true) (text : Text) :
    (text ++ closing :: outer).dropWhile inClass = text.dropWhile inClass ++ closing :: outer := by
  have notIn := eq_false_of_isClosing plain closes
  induction text with
  | nil => rw [List.nil_append, List.dropWhile_cons_of_neg (by simp [notIn]), List.dropWhile_nil,
      List.nil_append]
  | cons char rest ih =>
    rw [List.cons_append, List.dropWhile_cons, List.dropWhile_cons]
    split
    · exact ih
    · rfl

theorem takeWhile_closed {inClass : Char → Bool}
    (plain : ∀ char, inClass char = true → isPlain char = true) (text : Text) :
    (text ++ closing :: outer).takeWhile inClass = text.takeWhile inClass := by
  have notIn := eq_false_of_isClosing plain closes
  induction text with
  | nil => rw [List.nil_append, List.takeWhile_cons_of_neg (by simp [notIn]), List.takeWhile_nil]
  | cons char rest ih =>
    rw [List.cons_append, List.takeWhile_cons, List.takeWhile_cons, ih]

theorem afterCallee?_closed (text : Text) : afterCallee? (text ++ closing :: outer) =
    (afterCallee? text).map (· ++ closing :: outer) := by
  have plain : (after? ['_'] (text ++ closing :: outer)).getD (text ++ closing :: outer) =
      (after? ['_'] text).getD text ++ closing :: outer := by
    rw [after?_closed closes (by decide)]
    cases after? ['_'] text <;> rfl
  rw [afterCallee?, afterCallee?, plain, after?_closed closes (by decide),
    after?_closed closes (by decide)]
  cases after? "jsxs(".toList ((after? ['_'] text).getD text) <;> rfl

theorem afterPropsBrace?_closed (text : Text) : afterPropsBrace? (text ++ closing :: outer) =
    (afterPropsBrace? text).map (· ++ closing :: outer) := by
  have blanks (text : Text) : (text ++ closing :: outer).dropWhile isBlank =
      text.dropWhile isBlank ++ closing :: outer :=
    dropWhile_closed closes (fun _ => isPlain_of_isBlank) text
  rw [afterPropsBrace?, afterPropsBrace?, blanks, after?_closed closes (by decide)]
  cases after? [','] (text.dropWhile isBlank) with
  | none => rfl
  | some afterComma =>
    simp only [Option.map_some, Option.bind_eq_bind, Option.bind_some, blanks]
    exact after?_closed closes (by decide) _

theorem dottedRest_closed {steps more : Nat} (text : Text) (enough : text.length ≤ steps)
    (moreEnough : text.length ≤ more) :
    dottedRest more (text ++ closing :: outer) = dottedRest steps text ++ closing :: outer := by
  have noPart : isNamePart closing = false :=
    eq_false_of_isClosing (fun _ => isPlain_of_isNamePart) closes
  have notDot : closing ≠ '.' := by
    rintro rfl
    cases closes
  fun_induction dottedRest steps text generalizing more with
  | case1 text =>
    obtain rfl : text = [] := List.length_eq_zero_iff.mp (Nat.le_zero.mp enough)
    cases more with
    | zero => rfl
    | succ more => simp [dottedRest, notDot]
  | case2 steps first rest isPart ih =>
    have shorter := (List.dropWhile_suffix (l := rest) isNamePart).length_le
    simp only [List.length_cons] at enough moreEnough
    obtain ⟨more, rfl⟩ := Nat.exists_eq_add_of_le' (Nat.le_of_add_left_le moreEnough)
    rw [List.cons_append, List.cons_append, dottedRest, if_pos isPart,
      dropWhile_closed closes fun _ => isPlain_of_isNamePart]
    exact ih (by omega) (by omega)
  | case3 steps first rest notPart =>
    cases more with
    | zero => cases moreEnough
    | succ more => rw [List.cons_append, List.cons_append, dottedRest, if_neg notPart]
  | case4 steps text notDotted =>
    cases more with
    | zero => rfl
    | succ more =>
      cases text with
      | nil => simp [dottedRest, notDot]
      | cons char others =>
        cases others with
        | nil =>
          by_cases isDot : char = '.'
          · subst isDot
            simp [dottedRest, noPart]
          · simp [dottedRest, isDot]
        | cons first rest =>
          have isOther : char ≠ '.' := by
            rintro rfl
            exact notDotted first rest rfl
          simp [dottedRest, isOther]

theorem memberTag?_closed (text : Text) : memberTag? (text ++ closing :: outer) =
    (memberTag? text).map (Prod.map id (· ++ closing :: outer)) := by
  have word : ∀ char, isWord char = true → isPlain char = true := fun _ =>
    isPlain_of_class (by decide)
  have notLetter : closing.isAlpha = false :=
    eq_false_of_isClosing (fun _ => isPlain_of_class (by decide)) closes
  rw [memberTag?, memberTag?, after?_closed closes (by decide)]
  cases after? "_components.".toList text with
  | none => rfl
  | some rest =>
    cases rest with
    | nil => simp [notLetter]
    | cons first rest =>
      simp only [Option.map_some, List.cons_append, takeWhile_closed closes word,
        dropWhile_closed closes word]
      split <;> rfl

theorem quotedTag?_closed (text : Text) : quotedTag? (text ++ closing :: outer) =
    (quotedTag? text).map (Prod.map id (· ++ closing :: outer)) := by
  have part : ∀ char, isTagPart char = true → isPlain char = true := fun _ =>
    isPlain_of_class (by decide)
  have notLetter : closing.isAlpha = false :=
    eq_false_of_isClosing (fun _ => isPlain_of_class (by decide)) closes
  have notQuote : closing ≠ '"' := by
    rintro rfl
    cases closes
  unfold quotedTag?
  cases text with
  | nil => simp [notQuote]
  | cons quote rest =>
    by_cases isQuote : quote = '"'
    · subst isQuote
      cases rest with
      | nil => simp only [List.cons_append, List.nil_append, notLetter]; split <;> simp
      | cons first rest =>
        simp only [List.cons_append, takeWhile_closed closes part, dropWhile_closed closes part]
        cases behind : rest.dropWhile isTagPart with
        | nil => simp [notQuote]
        | cons char after =>
          by_cases ends : char = '"'
          · subst ends
            simp only [List.cons_append]
            split <;> rfl
          · simp [ends]
    · simp [isQuote]

theorem namedTag?_closed (text : Text) : namedTag? (text ++ closing :: outer) =
    (namedTag? text).map (Prod.map id (· ++ closing :: outer)) := by
  have part : ∀ char, isNamePart char = true → isPlain char = true := fun _ =>
    isPlain_of_isNamePart
  have notStart : isNameStart closing = false :=
    eq_false_of_isClosing (fun _ => isPlain_of_isNameStart) closes
  cases text with
  | nil => simp [namedTag?, notStart]
  | cons first rest =>
    have shorter := (List.dropWhile_suffix (l := rest) isNamePart).length_le
    have dotted : dottedRest (first :: rest ++ closing :: outer).length
        ((rest ++ closing :: outer).dropWhile isNamePart) =
        dottedRest (first :: rest).length (rest.dropWhile isNamePart) ++ closing :: outer := by
      rw [dropWhile_closed closes part]
      apply dottedRest_closed closes
      · simp only [List.length_cons]
        omega
      · simp only [List.length_append, List.length_cons]
        omega
    rw [List.cons_append, namedTag?, namedTag?, ← List.cons_append, dotted]
    split
    · have sameLength : (first :: rest ++ closing :: outer).length -
          (dottedRest (first :: rest).length (rest.dropWhile isNamePart) ++
            closing :: outer).length =
          (first :: rest).length -
            (dottedRest (first :: rest).length (rest.dropWhile isNamePart)).length := by
        rw [List.length_append, List.length_append, Nat.add_sub_add_right]
      simp only [sameLength, List.take_append_of_le_length (Nat.sub_le _ _), Option.map_some,
        Prod.map_apply, id_eq]
    · rfl

theorem anyTag?_closed (text : Text) : anyTag? (text ++ closing :: outer) =
    (anyTag? text).map (Prod.map id (· ++ closing :: outer)) := by
  rw [anyTag?, anyTag?, memberTag?_closed closes, quotedTag?_closed closes,
    namedTag?_closed closes, List.map_append, List.map_append]
  cases memberTag? text <;> cases quotedTag? text <;> cases namedTag? text <;> rfl

/-- A header is read in the same way where only the text before a closing bracket can be seen. -/
theorem renderHeader?_closed (text : Text) : renderHeader? (text ++ closing :: outer) =
    (renderHeader? text).map fun (tag, arguments, props) =>
      (tag, arguments ++ closing :: outer, props ++ closing :: outer) := by
  rw [renderHeader?, renderHeader?, afterCallee?_closed closes]
  cases afterCallee? text with
  | none => rfl
  | some arguments =>
    simp only [Option.map_some, Option.bind_eq_bind, Option.bind_some,
      dropWhile_closed closes (fun _ => isPlain_of_isBlank), anyTag?_closed closes]
    induction anyTag? (arguments.dropWhile isBlank) with
    | nil => rfl
    | cons first others ih =>
      obtain ⟨tag, after⟩ := first
      simp only [List.map_cons, List.findSome?_cons, ih, Prod.map_apply, id_eq,
        afterPropsBrace?_closed closes]
      cases afterPropsBrace? after <;> rfl

end Closed

end MdxBuild.Generated

import MdxBuild.Proofs.Module.Declaration

/-!
# Where declarations stand

The declarations of a text are those of its parts as long as none goes on from one part into the
next. None does if the next part begins with no part of a name and the first word in it, behind
blanks, is the word `export`.
-/

namespace MdxBuild.Metadata

open Text

variable {text first second rest name : Text} {isStart : Bool}

/-! ## The words of a declaration -/

/-- One blank or more. -/
def IsGap (blanks : Text) : Prop :=
  blanks ≠ [] ∧ ∀ char ∈ blanks, isBlank char = true

/-- The words that declare a binding. -/
inductive IsDeclarator : Text → Prop
  | plain (keyword : Text)
      (isKeyword : keyword ∈ ["const", "let", "var", "function"].map String.toList) :
      IsDeclarator keyword
  | async (gap : Text) (isGap : IsGap gap) :
      IsDeclarator ("async".toList ++ (gap ++ "function".toList))

theorem IsDeclarator.isBlank_of_mem_head? {declarator : Text} (isDeclarator : IsDeclarator declarator)
    (rest : Text) : ∀ char ∈ (declarator ++ rest).head?, isBlank char = false := by
  cases isDeclarator with
  | plain _ isKeyword =>
    simp only [List.map_cons, List.map_nil, List.mem_cons, List.not_mem_nil, or_false]
      at isKeyword
    rcases isKeyword with rfl | rfl | rfl | rfl <;> (rintro char ⟨⟩; decide)
  | async gap isGap =>
    rintro char ⟨⟩
    decide

theorem afterDeclarator?_eq_some_iff : afterDeclarator? text = some rest ↔
    ∃ declarator, IsDeclarator declarator ∧ text = declarator ++ rest := by
  constructor
  · intro found
    have plain {keyword : String} (member : keyword ∈ ["const", "let", "var", "function"])
        (isText : after? keyword.toList text = some rest) :
        ∃ declarator, IsDeclarator declarator ∧ text = declarator ++ rest :=
      ⟨_, .plain _ (List.mem_map_of_mem member), after?_eq_some_iff.mp isText⟩
    unfold afterDeclarator? at found
    dsimp only at found
    split at found
    · next isConst => exact plain (by simp) (isConst.trans found)
    · split at found
      · next isLet => exact plain (by simp) (isLet.trans found)
      · split at found
        · next isVar => exact plain (by simp) (isVar.trans found)
        · split at found
          · next behind isAsync =>
            obtain ⟨atGap, isAsync, isGap⟩ := Option.bind_eq_some_iff.mp isAsync
            obtain ⟨gap, nonempty, areBlank, rfl, -⟩ :=
              DefaultExport.afterBlanks?_eq_some_iff.mp isGap
            obtain rfl := after?_eq_some_iff.mp isAsync
            obtain rfl := after?_eq_some_iff.mp found
            exact ⟨_, .async gap ⟨nonempty, areBlank⟩, by simp only [List.append_assoc]⟩
          · exact plain (by simp) found
  · rintro ⟨declarator, isDeclarator, rfl⟩
    cases isDeclarator with
    | plain _ isKeyword =>
      simp only [List.map_cons, List.map_nil, List.mem_cons, List.not_mem_nil, or_false]
        at isKeyword
      rcases isKeyword with rfl | rfl | rfl | rfl <;> rfl
    | async gap isGap =>
      have isAsync : (after? "async".toList ("async".toList ++ (gap ++ "function".toList) ++
          rest)).bind DefaultExport.afterBlanks? = some ("function".toList ++ rest) := by
        rw [List.append_assoc, after?_eq_some_iff.mpr rfl, Option.bind_some,
          DefaultExport.afterBlanks?_eq_some_iff]
        exact ⟨gap, isGap.1, isGap.2, List.append_assoc _ _ _, by rintro char ⟨⟩; decide⟩
      unfold afterDeclarator?
      dsimp only
      rw [isAsync]
      rfl

theorem atName?_eq_some_iff : atName? text = some rest ↔
    ∃ gap declarator space, IsGap gap ∧ IsDeclarator declarator ∧ IsGap space ∧
      text = "export".toList ++ (gap ++ (declarator ++ (space ++ rest))) ∧
      ∀ char ∈ rest.head?, isBlank char = false := by
  simp only [atName?, Option.bind_eq_bind, Option.bind_eq_some_iff, after?_eq_some_iff,
    afterDeclarator?_eq_some_iff]
  constructor
  · rintro ⟨behind, rfl, _, isGap, _, ⟨declarator, isDeclarator, rfl⟩, isSpace⟩
    obtain ⟨gap, nonempty, areBlank, rfl, -⟩ := DefaultExport.afterBlanks?_eq_some_iff.mp isGap
    obtain ⟨space, someSpace, areSpaces, rfl, stops⟩ :=
      DefaultExport.afterBlanks?_eq_some_iff.mp isSpace
    exact ⟨gap, declarator, space, ⟨nonempty, areBlank⟩, isDeclarator, ⟨someSpace, areSpaces⟩, rfl,
      stops⟩
  · rintro ⟨gap, declarator, space, isGap, isDeclarator, isSpace, rfl, stops⟩
    refine ⟨_, rfl, _, DefaultExport.afterBlanks?_eq_some_iff.mpr
      ⟨gap, isGap.1, isGap.2, rfl, isDeclarator.isBlank_of_mem_head? _⟩, _,
      ⟨declarator, isDeclarator, rfl⟩, DefaultExport.afterBlanks?_eq_some_iff.mpr
      ⟨space, isSpace.1, isSpace.2, rfl, stops⟩⟩

/-! ## Declarations of parts -/

/-- A name does not go on into a text that begins with no part of one. -/
theorem word_append (noWord : ∀ char ∈ second.head?, isNameChar char = false) (first : Text) :
    word (first ++ second) = word first := by
  induction first with
  | nil =>
    cases second with
    | nil => rfl
    | cons char second => exact List.takeWhile_cons_of_neg (by simp [noWord char rfl])
  | cons char first ih =>
    rw [word, word, List.cons_append, List.takeWhile_cons, List.takeWhile_cons]
    split
    · exact congrArg (char :: ·) ih
    · rfl

/-- No declaration that begins in front of the text goes on in it. -/
structure EndsDeclarations (second : Text) : Prop where
  isApart : ∀ char ∈ second.head?, isNameChar char = false
  next : word (trimStart second) = [] ∨ word (trimStart second) = "export".toList

theorem exists_of_append_eq_word {letters : Text}
    (isApart : ∀ char ∈ second.head?, isNameChar char = false)
    (isWord : letters.all isNameChar = true) (same : first ++ second = letters ++ rest) :
    ∃ middle, first = letters ++ middle ∧ rest = middle ++ second := by
  obtain ⟨middle, isLetters, rfl⟩ | ⟨middle, rfl, isRest⟩ := List.append_eq_append_iff.mp same
  · cases middle with
    | nil => exact ⟨[], by simpa using isLetters.symm, rfl⟩
    | cons char middle =>
      have noPart := isApart char rfl
      rw [List.all_eq_true.mp isWord char (by simp [isLetters])] at noPart
      cases noPart
  · exact ⟨middle, rfl, isRest⟩

theorem exists_of_append_eq_gap {blanks : Text} (areBlank : ∀ char ∈ blanks, isBlank char = true)
    (stops : ∀ char ∈ rest.head?, isBlank char = false) (same : first ++ second = blanks ++ rest) :
    (∃ middle, first = blanks ++ middle ∧ rest = middle ++ second) ∨ trimStart second = rest := by
  obtain ⟨middle, rfl, rfl⟩ | ⟨middle, rfl, isRest⟩ := List.append_eq_append_iff.mp same
  · right
    rw [trimStart, List.dropWhile_append_of_pos fun char member =>
      areBlank char (List.mem_append_right _ member)]
    cases rest with
    | nil => rfl
    | cons char rest => exact List.dropWhile_cons_of_neg (by simpa using stops)
  · exact .inl ⟨middle, rfl, isRest⟩

/-- The word behind the blanks of such a text declares nothing. -/
theorem EndsDeclarations.trimStart_ne (ends : EndsDeclarations second) {declarator : Text}
    (isDeclarator : IsDeclarator declarator) (rest : Text) :
    trimStart second ≠ declarator ++ rest := by
  intro isNext
  obtain ⟨letter, others, isWord, notReserved⟩ :
      ∃ letter others, word (declarator ++ rest) = letter :: others ∧ letter ≠ 'e' := by
    cases isDeclarator with
    | plain _ isKeyword =>
      simp only [List.map_cons, List.map_nil, List.mem_cons, List.not_mem_nil, or_false]
        at isKeyword
      rcases isKeyword with rfl | rfl | rfl | rfl <;> exact ⟨_, _, rfl, by decide⟩
    | async gap isGap => exact ⟨_, _, rfl, by decide⟩
  rcases ends.next with isEmpty | isExport
  · rw [isNext, isWord] at isEmpty
    cases isEmpty
  · rw [isNext, isWord] at isExport
    exact notReserved (List.cons.inj isExport).1

theorem EndsDeclarations.exists_of_append_eq_declarator (ends : EndsDeclarations second)
    {declarator : Text} (isDeclarator : IsDeclarator declarator)
    (same : first ++ second = declarator ++ rest) :
    ∃ middle, first = declarator ++ middle ∧ rest = middle ++ second := by
  cases isDeclarator with
  | plain _ isKeyword =>
    have isWord : declarator.all isNameChar = true := by
      simp only [List.map_cons, List.map_nil, List.mem_cons, List.not_mem_nil, or_false]
        at isKeyword
      rcases isKeyword with rfl | rfl | rfl | rfl <;> decide
    exact exists_of_append_eq_word ends.isApart isWord same
  | async gap isGap =>
    rw [List.append_assoc, List.append_assoc] at same
    obtain ⟨atGap, rfl, sameGap⟩ := exists_of_append_eq_word ends.isApart (by decide) same
    have stops : ∀ char ∈ ("function".toList ++ rest).head?, isBlank char = false := by
      rintro char ⟨⟩
      decide
    obtain ⟨atWord, rfl, sameWord⟩ | isNext :=
      exists_of_append_eq_gap isGap.2 stops sameGap.symm
    · obtain ⟨middle, rfl, isRest⟩ :=
        exists_of_append_eq_word ends.isApart (by decide) sameWord.symm
      exact ⟨middle, by simp only [List.append_assoc], isRest⟩
    · exact absurd isNext (ends.trimStart_ne (.plain _ (by decide)) rest)

/-- A declaration that is read whole is read whatever follows. -/
theorem declaredName?_append_eq_some (isApart : ∀ char ∈ second.head?, isNameChar char = false)
    (found : declaredName? first = some name) : declaredName? (first ++ second) = some name := by
  obtain ⟨atName, isAt, isName, nonempty, notReserved⟩ := declaredName?_eq_some_iff.mp found
  obtain ⟨gap, declarator, space, isGap, isDeclarator, isSpace, rfl, stops⟩ :=
    atName?_eq_some_iff.mp isAt
  refine declaredName?_eq_some_iff.mpr ⟨atName ++ second, ?_, ?_, nonempty, notReserved⟩
  · refine atName?_eq_some_iff.mpr ⟨gap, declarator, space, isGap, isDeclarator, isSpace, ?_, ?_⟩
    · simp only [List.append_assoc]
    · cases atName with
      | nil => exact absurd isName.symm nonempty
      | cons char atName => exact stops
  · rw [word_append isApart, isName]

/-- A declaration does not go on in a text that ends all of them. -/
theorem declaredName?_append (ends : EndsDeclarations second) (first : Text) :
    declaredName? (first ++ second) = declaredName? first := by
  apply Option.ext
  intro name
  constructor
  · intro found
    obtain ⟨atName, isAt, isName, nonempty, notReserved⟩ := declaredName?_eq_some_iff.mp found
    obtain ⟨gap, declarator, space, isGap, isDeclarator, isSpace, same, stops⟩ :=
      atName?_eq_some_iff.mp isAt
    obtain ⟨atGap, rfl, sameGap⟩ := exists_of_append_eq_word ends.isApart (by decide) same
    obtain ⟨atDeclarator, rfl, sameDeclarator⟩ | isNext := exists_of_append_eq_gap isGap.2
      (isDeclarator.isBlank_of_mem_head? _) sameGap.symm
    · obtain ⟨atSpace, rfl, sameSpace⟩ :=
        ends.exists_of_append_eq_declarator isDeclarator sameDeclarator.symm
      obtain ⟨middle, rfl, rfl⟩ | isNext := exists_of_append_eq_gap isSpace.2 stops sameSpace.symm
      · refine declaredName?_eq_some_iff.mpr ⟨middle, ?_, ?_, nonempty, notReserved⟩
        · refine atName?_eq_some_iff.mpr ⟨gap, declarator, space, isGap, isDeclarator, isSpace, rfl,
            fun char isHead => stops char ?_⟩
          cases middle with
          | nil => cases isHead
          | cons letter middle => exact isHead
        · rw [← isName, word_append ends.isApart]
      · have isNextWord := ends.next
        rw [isNext, isName] at isNextWord
        exact absurd isNextWord (not_or.mpr ⟨nonempty, notReserved⟩)
    · exact absurd isNext (ends.trimStart_ne isDeclarator _)
  · exact declaredName?_append_eq_some ends.isApart

/-! ## Declarations of a text -/

/-- The declarations of a text are those of its parts if none goes on from the first into the
second. -/
theorem declaredFrom_append (ends : EndsDeclarations second) (isStart : Bool) (first : Text) :
    declaredFrom isStart (first ++ second) =
      declaredFrom isStart first ++ declaredFrom (startsLine isStart first) second := by
  induction first generalizing isStart with
  | nil => rfl
  | cons char rest ih =>
    rw [List.cons_append, declaredFrom, declaredFrom, ih, ← List.cons_append,
      declaredName?_append ends, List.append_assoc, startsLine]

/-- The declarations of the parts of a text are declarations of the text. -/
theorem sublist_declaredFrom_append (isApart : ∀ char ∈ second.head?, isNameChar char = false)
    (isStart : Bool) (first : Text) :
    (declaredFrom isStart first ++ declaredFrom (startsLine isStart first) second).Sublist
      (declaredFrom isStart (first ++ second)) := by
  induction first generalizing isStart with
  | nil => exact List.Sublist.refl _
  | cons char rest ih =>
    rw [List.cons_append, declaredFrom, declaredFrom, List.append_assoc, startsLine]
    apply List.Sublist.append _ (ih _)
    cases isStart with
    | false => exact List.Sublist.refl _
    | true =>
      cases found : declaredName? (char :: rest) with
      | none => exact List.nil_sublist _
      | some name => rw [← List.cons_append, declaredName?_append_eq_some isApart found]

/-- A declaration begins with the first letter of `export`. -/
theorem declaredName?_of_head? (other : text.head? ≠ some 'e') : declaredName? text = none := by
  rw [Option.eq_none_iff_forall_ne_some]
  intro name found
  obtain ⟨atName, isAt, -⟩ := declaredName?_eq_some_iff.mp found
  obtain ⟨gap, declarator, space, -, -, -, rfl, -⟩ := atName?_eq_some_iff.mp isAt
  exact other rfl

theorem declaredFrom_newline_cons (isStart : Bool) (text : Text) :
    declaredFrom isStart ('\n' :: text) = declared text := by
  rw [declaredFrom, declaredName?_of_head? (by simp), declared]
  simp

theorem isNameChar_newline : ∀ char ∈ ('\n' :: text).head?, isNameChar char = false := by
  rintro char ⟨⟩
  exact isNameChar_of_isBlank rfl

/-- The declarations behind a line feed are added to those in front of it. -/
theorem declared_append_newline
    (next : word (trimStart second) = [] ∨ word (trimStart second) = "export".toList) :
    declared (first ++ '\n' :: second) = declared first ++ declared second := by
  have ends : EndsDeclarations ('\n' :: second) := by
    refine ⟨isNameChar_newline, ?_⟩
    rwa [trimStart, List.dropWhile_cons_of_pos rfl]
  rw [declared, declaredFrom_append ends, declaredFrom_newline_cons]
  rfl

theorem declared_concat_newline (text : Text) : declared (text ++ ['\n']) = declared text := by
  rw [declared_append_newline (.inl rfl)]
  exact List.append_nil _

/-- The declarations of lines and of what follows them. -/
theorem declared_append (complete : IsComplete first)
    (next : word (trimStart second) = [] ∨ word (trimStart second) = "export".toList) :
    declared (first ++ second) = declared first ++ declared second := by
  rcases complete with rfl | ended
  · rfl
  · obtain ⟨line, rfl⟩ := List.getLast?_eq_some_iff.mp ended
    rw [List.append_assoc, List.singleton_append, declared_append_newline next,
      declared_concat_newline]

theorem sublist_declared_append (complete : IsComplete first) (second : Text) :
    (declared first ++ declared second).Sublist (declared (first ++ second)) := by
  rcases complete with rfl | ended
  · exact List.Sublist.refl _
  · obtain ⟨line, rfl⟩ := List.getLast?_eq_some_iff.mp ended
    have isApart : ∀ char ∈ ('\n' :: second).head?, isNameChar char = false := isNameChar_newline
    have parts := sublist_declaredFrom_append isApart true line
    rw [declaredFrom_newline_cons] at parts
    rwa [declared_concat_newline, List.append_assoc, List.singleton_append]

/-- A text of which no line begins with the first letter of `export` declares nothing. -/
theorem declaredFrom_append_of_isInert (inert : DefaultExport.isInert isStart first = true)
    (second : Text) :
    declaredFrom isStart (first ++ second) = declaredFrom (startsLine isStart first) second := by
  induction first generalizing isStart with
  | nil => rfl
  | cons char rest ih =>
    rw [DefaultExport.isInert, Bool.and_eq_true] at inert
    rw [List.cons_append, declaredFrom, ih inert.2, startsLine]
    cases isStart with
    | false => rfl
    | true =>
      rw [declaredName?_of_head?]
      · rfl
      · simpa using inert.1

/-- Behind its first statement, a line declares nothing. -/
theorem declared_line {line : Text} (noBreak : '\n' ∉ line) (text : Text) :
    declared (line ++ '\n' :: text) =
      (declaredName? (line ++ '\n' :: text)).toList ++ declared text := by
  cases line with
  | nil =>
    rw [List.nil_append, declared, declaredFrom_newline_cons, declaredName?_of_head? (by simp)]
    rfl
  | cons char rest =>
    rw [List.mem_cons, not_or] at noBreak
    rw [declared, List.cons_append, declaredFrom, if_pos rfl, decide_eq_false (Ne.symm noBreak.1),
      declaredFrom_append_of_isInert (DefaultExport.isInert_of_notMem noBreak.2),
      declaredFrom_newline_cons]

end MdxBuild.Metadata

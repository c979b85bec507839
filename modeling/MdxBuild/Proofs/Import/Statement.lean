import MdxBuild.Import.Statement
import MdxBuild.Proofs.Text.Line
import MdxBuild.Proofs.Text.Part
import MdxBuild.Proofs.Text.Scan

/-!
# The grammar of import statements

An import statement is a lead and a quoted specifier. The lead is made of spaces and tabs, the word
`import`, a head and the opening quote; the head is blank, or a clause between blanks in front of
the word `from`. The reader of statements accepts what the grammar describes, and nothing else.
-/

namespace MdxBuild.Import

open Text

variable {text between before rest indent lead specifier after : Text} {char quote : Char}

/-! ## Heads -/

/-- The head of an import for its side effects. -/
def IsBareHead (between : Text) : Prop :=
  allBlank between = true

/-- A clause between blanks. It may extend over several lines. -/
def IsSpacedClause (before : Text) : Prop :=
  ∃ gap clause space, before = gap ++ (clause ++ space) ∧
    gap ≠ [] ∧ allBlank gap = true ∧
    clause ≠ [] ∧ clause.all isClauseChar = true ∧
    space ≠ [] ∧ allBlank space = true

/-- The head of an import for its bindings: a clause and the word `from`. -/
def IsClauseHead (between : Text) : Prop :=
  ∃ before last, between = before ++ ("from".toList ++ last) ∧ IsSpacedClause before ∧
    allBlank last = true

/-- The head of an import statement. -/
def IsHead (between : Text) : Prop :=
  IsClauseHead between ∨ IsBareHead between

theorem isClauseChar_of_isBlank (isBlank : isBlank char = true) : isClauseChar char = true := by
  rw [isClauseChar, isBlank, Bool.or_true]

theorem all_isClauseChar_of_allBlank (blank : allBlank text = true) :
    text.all isClauseChar = true := by
  rw [allBlank, List.all_eq_true] at blank
  exact List.all_eq_true.mpr fun char member => isClauseChar_of_isBlank (blank char member)

theorem not_isClauseChar_of_isQuote (isQuote : isQuote quote = true) :
    isClauseChar quote = false := by
  rw [Import.isQuote, Bool.or_eq_true, decide_eq_true_eq, decide_eq_true_eq] at isQuote
  rcases isQuote with rfl | rfl <;> decide

/-- A text without its blanks at the end ends with a word where the text has only blanks behind the
word. -/
theorem trimEnd_eq_append_from_iff : trimEnd text = before ++ "from".toList ↔
    ∃ last, text = before ++ ("from".toList ++ last) ∧ allBlank last = true := by
  constructor
  · intro isTrimmed
    refine ⟨tailBy isBlank text, ?_, ?_⟩
    · rw [← List.append_assoc, ← isTrimmed, trimEnd, trimEndBy_append_tailBy]
    · rw [allBlank, List.all_eq_true]
      intro char member
      rw [tailBy, List.mem_reverse] at member
      exact List.mem_takeWhile_imp member
  · rintro ⟨last, rfl, blank⟩
    have noBlank : isBlank 'm' = false := by decide
    have isWord : before ++ "from".toList = before ++ "fro".toList ++ ['m'] := by simp
    rw [trimEnd, ← List.append_assoc, trimEndBy_append (List.all_eq_true.mp blank), isWord,
      trimEndBy_concat_of_not noBlank]

theorem beforeFrom?_eq_some_iff : beforeFrom? between = some before ↔
    (∃ last, between = before ++ ("from".toList ++ last) ∧ allBlank last = true) ∧
      3 ≤ before.length ∧ before.head?.any isBlank = true ∧ before.getLast?.any isBlank = true := by
  have isSplit (reversed : Text) : after? "from".toList.reverse (trimEnd between).reverse =
      some reversed ↔ trimEnd between = reversed.reverse ++ "from".toList := by
    rw [after?_eq_some_iff, List.reverse_eq_iff, List.reverse_append, List.reverse_reverse]
  rw [← trimEnd_eq_append_from_iff]
  simp only [beforeFrom?, Option.bind_eq_bind, Option.bind_eq_some_iff, isSplit, Bool.and_eq_true,
    decide_eq_true_eq, Option.ite_none_right_eq_some, Option.some.injEq]
  constructor
  · rintro ⟨reversed, isTrimmed, ⟨⟨long, opens⟩, closes⟩, rfl⟩
    exact ⟨isTrimmed, long, opens, closes⟩
  · rintro ⟨isTrimmed, long, opens, closes⟩
    refine ⟨before.reverse, ?_⟩
    rw [List.reverse_reverse]
    exact ⟨isTrimmed, ⟨⟨long, opens⟩, closes⟩, rfl⟩

/-- A clause between blanks is told by its length and by the blanks at its ends. -/
theorem isSpacedClause_iff : IsSpacedClause before ↔ before.all isClauseChar = true ∧
    3 ≤ before.length ∧ before.head?.any isBlank = true ∧ before.getLast?.any isBlank = true := by
  constructor
  · rintro ⟨gap, clause, space, rfl, someGap, blankGap, someClause, isClause, someSpace, blankSpace⟩
    have hasGap := List.length_pos_iff.mpr someGap
    have hasClause := List.length_pos_iff.mpr someClause
    have hasSpace := List.length_pos_iff.mpr someSpace
    constructor
    · rw [List.all_append, List.all_append, isClause, all_isClauseChar_of_allBlank blankGap,
        all_isClauseChar_of_allBlank blankSpace]
      rfl
    rw [allBlank, List.all_eq_true] at blankGap blankSpace
    constructor
    · rw [List.length_append, List.length_append]
      omega
    constructor
    · rw [List.head?_append_of_ne_nil _ someGap, List.head?_eq_some_head someGap]
      exact blankGap _ (List.head_mem someGap)
    · rw [← List.append_assoc, List.getLast?_append_of_ne_nil _ someSpace,
        List.getLast?_eq_some_getLast someSpace]
      exact blankSpace _ (List.getLast_mem someSpace)
  · rintro ⟨isClause, long, opens, closes⟩
    cases before with
    | nil => cases opens
    | cons first rest =>
      cases rest using List.reverseRecOn with
      | nil => exact absurd long (by simp)
      | append_singleton clause last =>
        refine ⟨[first], clause, [last], rfl, List.cons_ne_nil _ _, ?_, ?_, ?_,
          List.cons_ne_nil _ _, ?_⟩
        · rwa [allBlank, List.all_cons, List.all_nil, Bool.and_true]
        · rintro rfl
          exact absurd long (by simp)
        · rw [List.all_cons, List.all_append, Bool.and_eq_true, Bool.and_eq_true] at isClause
          exact isClause.2.1
        · rw [← List.cons_append, List.getLast?_concat] at closes
          rwa [allBlank, List.all_cons, List.all_nil, Bool.and_true]

/-- The reader's test for the word `from` accepts the heads with a clause. -/
theorem isClauseHead_iff : IsClauseHead between ↔
    between.all isClauseChar = true ∧ (beforeFrom? between).isSome = true := by
  constructor
  · rintro ⟨before, last, rfl, spaced, blank⟩
    obtain ⟨isClause, ends⟩ := isSpacedClause_iff.mp spaced
    constructor
    · rw [List.all_append, List.all_append, isClause, all_isClauseChar_of_allBlank blank]
      decide
    · rw [beforeFrom?_eq_some_iff.mpr ⟨⟨last, rfl, blank⟩, ends⟩]
      rfl
  · rintro ⟨isClause, found⟩
    obtain ⟨before, isFound⟩ := Option.isSome_iff_exists.mp found
    obtain ⟨⟨last, rfl, blank⟩, ends⟩ := beforeFrom?_eq_some_iff.mp isFound
    rw [List.all_append, Bool.and_eq_true] at isClause
    exact ⟨before, last, rfl, isSpacedClause_iff.mpr ⟨isClause.1, ends⟩, blank⟩

/-- The reader's test for a head without a clause. -/
theorem isBareHead_iff : IsBareHead between ↔
    between.all isClauseChar = true ∧ allBlank between = true :=
  ⟨fun blank => ⟨all_isClauseChar_of_allBlank blank, blank⟩, And.right⟩

/-! ## Leads and specifiers -/

/-- What stands in front of a specifier: spaces and tabs, the word `import`, a head and a quote. -/
def IsLead (isHead : Text → Prop) (lead : Text) : Prop :=
  ∃ indent between quote, lead = indent ++ ("import".toList ++ (between ++ [quote])) ∧
    indent.all isSpaceOrTab = true ∧ isHead between ∧ isQuote quote = true

/-- A specifier is not empty and holds neither a quote nor a line feed. -/
def IsSpecifier (specifier : Text) : Prop :=
  specifier ≠ [] ∧ ∀ char ∈ specifier, isQuote char = false ∧ char ≠ '\n'

theorem head?_eq_some_iff : head? text = some (between, rest) ↔
    between.all isClauseChar = true ∧ ∃ indent quote,
      text = indent ++ ("import".toList ++ (between ++ quote :: rest)) ∧
      indent.all isSpaceOrTab = true ∧ isQuote quote = true := by
  simp only [head?, Option.bind_eq_bind, Option.bind_eq_some_iff, after?_eq_some_iff]
  constructor
  · rintro ⟨afterImport, isImport, found⟩
    split at found
    · cases found
    · next quote after isDropped =>
      rw [Option.ite_none_right_eq_some, Option.some.injEq, Prod.mk.injEq] at found
      obtain ⟨isQuote, rfl, rfl⟩ := found
      refine ⟨List.all_takeWhile, text.takeWhile isSpaceOrTab, quote, ?_, List.all_takeWhile,
        isQuote⟩
      rw [← isDropped, List.takeWhile_append_dropWhile, ← isImport,
        List.takeWhile_append_dropWhile]
  · rintro ⟨isClause, indent, quote, rfl, indented, isQuote⟩
    have stop : isSpaceOrTab 'i' = false := by decide
    rw [List.all_eq_true] at isClause indented
    refine ⟨between ++ quote :: rest, dropWhile_append_cons indented stop _, ?_⟩
    rw [dropWhile_append_cons isClause (not_isClauseChar_of_isQuote isQuote),
      takeWhile_append_cons isClause (not_isClauseChar_of_isQuote isQuote)]
    exact if_pos isQuote

theorem specifier?_eq_some_iff : specifier? text = some (specifier, rest) ↔
    IsSpecifier specifier ∧ ∃ quote, text = specifier ++ quote :: rest ∧ isQuote quote = true := by
  have inside_iff (char : Char) : (!isQuote char && char != '\n') = true ↔
      isQuote char = false ∧ char ≠ '\n' := by
    rw [Bool.and_eq_true, Bool.not_eq_true', bne_iff_ne]
  constructor
  · intro found
    rw [specifier?] at found
    split at found
    · cases found
    · cases found
    · next quote after isDropped nonempty =>
      rw [Option.ite_none_right_eq_some, Option.some.injEq, Prod.mk.injEq] at found
      obtain ⟨closes, rfl, rfl⟩ := found
      constructor
      · refine ⟨nonempty, fun char member => (inside_iff char).mp ?_⟩
        have inside := List.mem_takeWhile_imp member
        exact inside
      · refine ⟨quote, ?_, closes⟩
        rw [← isDropped, List.takeWhile_append_dropWhile]
  · rintro ⟨⟨nonempty, isInside⟩, quote, rfl, closes⟩
    have all : ∀ char ∈ specifier, (!isQuote char && char != '\n') = true :=
      fun char member => (inside_iff char).mpr (isInside char member)
    have stop : (!isQuote quote && quote != '\n') = false := by
      rw [closes]
      rfl
    simp only [specifier?, takeWhile_append_cons all stop, dropWhile_append_cons all stop]
    cases specifier with
    | nil => exact absurd rfl nonempty
    | cons => exact if_pos closes

end MdxBuild.Import

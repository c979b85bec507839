import MdxBuild.Proofs.Import.Statement

/-!
# Searching for import statements

A search for one form of statements, or for both, yields the specifier of every statement at a line
start. A statement may begin inside what the search has taken for an earlier one, whose head then
extends over several lines; both have their first quote in common, and so the specifier.
-/

namespace MdxBuild.Import

open Text

variable {text between rest specifier after : Text} {offset behind length : Nat}
  {isForm : Text → Bool} {isHead : Text → Prop}

/-- The specifier stands behind `offset` characters of the text, in an import statement that begins
at a line start and has a head of the given form. -/
inductive ImportsAt (isHead : Text → Prop) : Text → Text → Nat → Prop
  | intro {before lead specifier after : Text} {quote : Char} (complete : IsComplete before)
      (isLead : IsLead isHead lead) (isSpecifier : IsSpecifier specifier)
      (isClosed : isQuote quote = true) :
      ImportsAt isHead (before ++ (lead ++ (specifier ++ quote :: after))) specifier
        (before ++ lead).length

theorem ImportsAt.mono {other : Text → Prop} (imports : ImportsAt isHead text specifier offset)
    (implies : ∀ between, isHead between → other between) :
    ImportsAt other text specifier offset := by
  obtain ⟨complete, ⟨indent, between, quote, rfl, indented, form, opens⟩, isSpecifier, closes⟩ :=
    imports
  exact .intro complete ⟨indent, between, quote, rfl, indented, implies between form, opens⟩
    isSpecifier closes

theorem ImportsAt.offset_le (imports : ImportsAt isHead text specifier offset) :
    offset ≤ text.length := by
  cases imports
  simp only [List.length_append]
  omega

theorem ImportsAt.specifier?_eq (imports : ImportsAt isHead text specifier offset) :
    ∃ after, specifier? (text.drop offset) = some (specifier, after) := by
  cases imports with
  | @intro before lead specifier after quote complete isLead isSpecifier isClosed =>
    refine ⟨after, ?_⟩
    rw [← List.append_assoc, List.drop_left]
    exact specifier?_eq_some_iff.mpr ⟨isSpecifier, quote, rfl, isClosed⟩

/-- At one place stands one specifier. -/
theorem ImportsAt.specifier_eq {other : Text} (imports : ImportsAt isHead text specifier offset)
    (importsOther : ImportsAt isHead text other offset) : specifier = other := by
  obtain ⟨after, isSpecifier⟩ := imports.specifier?_eq
  obtain ⟨afterOther, isOther⟩ := importsOther.specifier?_eq
  rw [isSpecifier, Option.some.injEq, Prod.mk.injEq] at isOther
  exact isOther.1

/-! ## One statement -/

/-- A specifier with its place, the number of characters from its start to the end of the text. -/
@[ext]
structure Appearance where
  specifier : Text
  behind : Nat
deriving DecidableEq, Repr

/-- The specifier of the import statement at the start of a text whose head has a form, and the
length of the statement. -/
def appearance? (isForm : Text → Bool) (text : Text) : Option (Appearance × Nat) := do
  let (between, afterQuote) ← head? text
  if isForm between then
    let (specifier, rest) ← specifier? afterQuote
    some (⟨specifier, afterQuote.length⟩, text.length - rest.length)
  else none

variable {appearance : Appearance}

theorem appearance?_eq_some_iff : appearance? isForm text = some (appearance, length) ↔
    ∃ between rest after, head? text = some (between, rest) ∧ isForm between = true ∧
      specifier? rest = some (appearance.specifier, after) ∧ appearance.behind = rest.length ∧
      length = text.length - after.length := by
  simp only [appearance?, Option.bind_eq_bind, Option.bind_eq_some_iff, Prod.exists]
  constructor
  · rintro ⟨between, rest, isRead, found⟩
    split at found
    · next isForm =>
      obtain ⟨⟨specifier, after⟩, isSpecifier, isFound⟩ := Option.bind_eq_some_iff.mp found
      rw [Option.some.injEq, Prod.mk.injEq] at isFound
      obtain ⟨rfl, rfl⟩ := isFound
      exact ⟨between, rest, after, isRead, isForm, isSpecifier, rfl, rfl⟩
    · cases found
  · rintro ⟨between, rest, after, isRead, isForm, isSpecifier, isBehind, rfl⟩
    refine ⟨between, rest, isRead, ?_⟩
    rw [if_pos isForm, isSpecifier, Option.bind_some, ← isBehind]

/-- `isForm` tells the heads of a form, among the texts that the reader takes for heads. -/
def Decides (isForm : Text → Bool) (isHead : Text → Prop) : Prop :=
  ∀ between, isHead between ↔ between.all isClauseChar = true ∧ isForm between = true

/-- The reader passes over a lead. -/
theorem exists_head?_iff (decides : Decides isForm isHead) :
    (∃ between, head? text = some (between, rest) ∧ isForm between = true) ↔
      ∃ lead, text = lead ++ rest ∧ IsLead isHead lead := by
  simp only [head?_eq_some_iff, IsLead, decides _]
  constructor
  · rintro ⟨between, ⟨isClause, indent, quote, rfl, indented, opens⟩, isForm⟩
    refine ⟨_, ?_, indent, between, quote, rfl, indented, ⟨isClause, isForm⟩, opens⟩
    simp only [List.append_assoc, List.singleton_append]
  · rintro ⟨-, rfl, indent, between, quote, rfl, indented, ⟨isClause, isForm⟩, opens⟩
    refine ⟨between, ⟨isClause, indent, quote, ?_, indented, opens⟩, isForm⟩
    simp only [List.append_assoc, List.singleton_append]

/-- The statement at the start of a text, in the words of the grammar. -/
theorem appearance?_iff (decides : Decides isForm isHead) :
    appearance? isForm text = some (appearance, length) ↔
      ∃ lead quote after, text = lead ++ (appearance.specifier ++ quote :: after) ∧
        IsLead isHead lead ∧ IsSpecifier appearance.specifier ∧ isQuote quote = true ∧
        appearance.behind = (appearance.specifier ++ quote :: after).length ∧
        length = text.length - after.length := by
  rw [appearance?_eq_some_iff]
  constructor
  · rintro ⟨between, rest, after, isRead, isForm, found, isBehind, isLength⟩
    obtain ⟨lead, isText, isLead⟩ := (exists_head?_iff decides).mp ⟨between, isRead, isForm⟩
    obtain ⟨isSpecifier, quote, rfl, closes⟩ := specifier?_eq_some_iff.mp found
    exact ⟨lead, quote, after, isText, isLead, isSpecifier, closes, isBehind, isLength⟩
  · rintro ⟨lead, quote, after, isText, isLead, isSpecifier, closes, isBehind, isLength⟩
    obtain ⟨between, isRead, isForm⟩ := (exists_head?_iff decides).mpr ⟨lead, isText, isLead⟩
    exact ⟨between, _, after, isRead, isForm,
      specifier?_eq_some_iff.mpr ⟨isSpecifier, quote, rfl, closes⟩, isBehind, isLength⟩

theorem holdsPlace_appearance? (isForm : Text → Bool) :
    HoldsPlace (appearance? isForm) Appearance.behind := by
  intro text appearance length found
  obtain ⟨between, rest, after, isRead, -, isSpecifier, isBehind, rfl⟩ :=
    appearance?_eq_some_iff.mp found
  obtain ⟨-, indent, opening, rfl, -⟩ := head?_eq_some_iff.mp isRead
  obtain ⟨-, quote, rfl, -⟩ := specifier?_eq_some_iff.mp isSpecifier
  rw [isBehind]
  simp only [List.length_append, List.length_cons]
  omega

/-! ## Statements inside others -/

/-- No quote stands in the text. -/
def IsUnquoted (text : Text) : Prop :=
  ∀ char ∈ text, isQuote char = false

theorem IsUnquoted.append {first second : Text} (unquoted : IsUnquoted first)
    (unquotedSecond : IsUnquoted second) : IsUnquoted (first ++ second) := by
  intro char member
  rcases List.mem_append.mp member with inFirst | inSecond
  · exact unquoted char inFirst
  · exact unquotedSecond char inSecond

theorem isUnquoted_of_isClauseChar (isClause : text.all isClauseChar = true) : IsUnquoted text := by
  intro char member
  by_contra isQuote
  rw [Bool.not_eq_false] at isQuote
  exact absurd (List.all_eq_true.mp isClause char member)
    (Bool.eq_false_iff.mp (not_isClauseChar_of_isQuote isQuote))

theorem isUnquoted_of_isSpaceOrTab (indented : text.all isSpaceOrTab = true) :
    IsUnquoted text := by
  intro char member
  have indents := List.all_eq_true.mp indented char member
  rw [isSpaceOrTab, Bool.or_eq_true, decide_eq_true_eq, decide_eq_true_eq] at indents
  rcases indents with rfl | rfl <;> decide

/-- The first quote of a statement stands in front of its specifier. -/
theorem exists_quote_of_head? (isRead : head? text = some (between, rest)) :
    ∃ front quote, text = front ++ quote :: rest ∧ IsUnquoted front ∧ isQuote quote = true := by
  obtain ⟨isClause, indent, quote, rfl, indented, opens⟩ := head?_eq_some_iff.mp isRead
  have isWord : IsUnquoted "import".toList := isUnquoted_of_isClauseChar (by decide)
  exact ⟨indent ++ ("import".toList ++ between), quote, by simp only [List.append_assoc],
    (isUnquoted_of_isSpaceOrTab indented).append
      (isWord.append (isUnquoted_of_isClauseChar isClause)), opens⟩

/-- Behind the first quote, a text goes on in one way. -/
theorem eq_of_append_quote {front other after afterOther : Text} {quote quoteOther : Char}
    (same : front ++ quote :: after = other ++ quoteOther :: afterOther)
    (unquoted : IsUnquoted front) (opens : isQuote quote = true)
    (unquotedOther : IsUnquoted other) (opensOther : isQuote quoteOther = true) :
    after = afterOther := by
  have outside {text : Text} (unquoted : IsUnquoted text) :
      ∀ char ∈ text, (!isQuote char) = true :=
    fun char member => by rw [unquoted char member, Bool.not_false]
  have stop {char : Char} (isQuote : Import.isQuote char = true) :
      (!Import.isQuote char) = false := by
    rw [isQuote, Bool.not_true]
  have dropped := congrArg (List.dropWhile (!isQuote ·)) same
  rw [dropWhile_append_cons (outside unquoted) (stop opens),
    dropWhile_append_cons (outside unquotedOther) (stop opensOther)] at dropped
  exact (List.cons.inj dropped).2

/-- A line that begins inside a statement begins in front of its first quote: no line feed stands
between the quotes. -/
theorem isUnquoted_of_isComplete {front between : Text} {opening closing : Char}
    (isSplit : between ++ rest = front ++ opening :: (specifier ++ closing :: after))
    (unquoted : IsUnquoted front) (opens : isQuote opening = true)
    (isSpecifier : IsSpecifier specifier) (complete : IsComplete between)
    (isInside : between.length < front.length + 1 + specifier.length + 1) :
    IsUnquoted between := by
  rcases List.append_eq_append_iff.mp isSplit with ⟨others, rfl, -⟩ | ⟨quoted, rfl, isQuoted⟩
  · exact fun char member => unquoted char (List.mem_append_left others member)
  · cases quoted using List.reverseRecOn with
    | nil => rwa [List.append_nil]
    | append_singleton quoted last =>
      exfalso
      have isBreak : last = '\n' := by
        rcases complete with isNil | endsLine
        · exact absurd isNil (by simp)
        · rw [← List.append_assoc, List.getLast?_concat] at endsLine
          exact Option.some.inj endsLine
      have isPrefix : quoted ++ [last] <+: opening :: specifier := by
        refine List.prefix_of_prefix_length_le ⟨rest, isQuoted.symm⟩ ⟨closing :: after, rfl⟩ ?_
        rw [List.length_append] at isInside
        rw [List.length_cons]
        omega
      have member : last ∈ opening :: specifier := isPrefix.subset (by simp)
      rcases List.mem_cons.mp member with isOpening | inSpecifier
      · rw [← isOpening, isBreak] at opens
        cases opens
      · exact (isSpecifier.2 last inSpecifier).2 isBreak

/-- A statement that begins inside another one has the same specifier at the same place. -/
theorem agreesInside_appearance? (isForm : Text → Bool) : AgreesInside (appearance? isForm) := by
  intro between rest outer inner length size isInside _ complete isOuter isInner
  obtain ⟨head, tail, after, isHead, -, isSpecifier, isBehind, rfl⟩ :=
    appearance?_eq_some_iff.mp isOuter
  obtain ⟨headInner, tailInner, afterInner, isHeadInner, -, isSpecifierInner, isBehindInner, -⟩ :=
    appearance?_eq_some_iff.mp isInner
  obtain ⟨front, quote, isText, unquoted, opens⟩ := exists_quote_of_head? isHead
  obtain ⟨frontInner, quoteInner, rfl, unquotedInner, opensInner⟩ :=
    exists_quote_of_head? isHeadInner
  obtain ⟨spelled, closing, rfl, -⟩ := specifier?_eq_some_iff.mp isSpecifier
  have unquotedBetween : IsUnquoted between := by
    apply isUnquoted_of_isComplete isText unquoted opens spelled complete
    rw [isText] at isInside
    simp only [List.length_append, List.length_cons] at isInside
    omega
  have sameTail : tailInner = outer.specifier ++ closing :: after :=
    eq_of_append_quote ((List.append_assoc _ _ _).trans isText)
      (unquotedBetween.append unquotedInner) opensInner unquoted opens
  rw [sameTail] at isSpecifierInner isBehindInner
  rw [isSpecifier, Option.some.injEq, Prod.mk.injEq] at isSpecifierInner
  apply Appearance.ext
  · exact isSpecifierInner.1.symm
  · rw [isBehind, isBehindInner]

/-! ## Whole texts -/

/-- The specifiers of the import statements of a form, in order, each as often as it appears. -/
def appearances (isForm : Text → Bool) (text : Text) : List Appearance :=
  atLineStarts (appearance? isForm) text

theorem pairwise_appearances (isForm : Text → Bool) (text : Text) :
    (appearances isForm text).Pairwise (·.behind > ·.behind) :=
  pairwise_atLineStarts (holdsPlace_appearance? isForm) text

/-- A search misses no statement of its form. -/
theorem mem_appearances_iff (decides : Decides isForm isHead) :
    appearance ∈ appearances isForm text ↔
      ∃ offset, ImportsAt isHead text appearance.specifier offset ∧
        offset + appearance.behind = text.length := by
  have notAtEnd : appearance? isForm [] = none := rfl
  rw [appearances, mem_atLineStarts_iff (agreesInside_appearance? isForm) notAtEnd]
  constructor
  · rintro ⟨rest, ⟨before, rfl, complete⟩, length, isFound⟩
    obtain ⟨lead, quote, after, rfl, isLead, isSpecifier, closes, isBehind, -⟩ :=
      (appearance?_iff decides).mp isFound
    refine ⟨(before ++ lead).length, .intro complete isLead isSpecifier closes, ?_⟩
    rw [isBehind, ← List.append_assoc before, ← List.length_append]
  · rintro ⟨offset, imports, isPlace⟩
    generalize isSpecifier : appearance.specifier = specifier at imports
    cases imports with
    | @intro before lead specifier after quote complete isLead isRead closes =>
      refine ⟨lead ++ (specifier ++ quote :: after), ⟨before, rfl, complete⟩, _,
        (appearance?_iff decides).mpr ⟨lead, quote, after, ?_, isLead, ?_, closes, ?_, rfl⟩⟩
      · rw [isSpecifier]
      · rwa [isSpecifier]
      · rw [isSpecifier]
        simp only [List.length_append] at isPlace ⊢
        omega

/-- A text in which a search finds nothing has no statement of its form. -/
theorem not_importsAt_of_appearances (decides : Decides isForm isHead)
    (noneFound : appearances isForm text = []) (specifier : Text) (offset : Nat) :
    ¬ImportsAt isHead text specifier offset := by
  intro imports
  have member : (⟨specifier, text.length - offset⟩ : Appearance) ∈ appearances isForm text :=
    (mem_appearances_iff decides).mpr ⟨offset, imports, Nat.add_sub_cancel' imports.offset_le⟩
  rw [noneFound] at member
  cases member

/-! ## The forms -/

/-- The reader's test for the heads of both forms. -/
def isStatementHead (between : Text) : Bool :=
  (beforeFrom? between).isSome || allBlank between

/-- The reader's test for the heads with a clause. -/
def isFromHead (between : Text) : Bool :=
  (beforeFrom? between).isSome

theorem decides_isFromHead : Decides isFromHead IsClauseHead :=
  fun _ => isClauseHead_iff

theorem decides_allBlank : Decides allBlank IsBareHead :=
  fun _ => isBareHead_iff

theorem decides_isStatementHead : Decides isStatementHead IsHead := by
  intro between
  rw [IsHead, isClauseHead_iff, isBareHead_iff, isStatementHead, Bool.or_eq_true, and_or_left]

theorem statement?_eq (text : Text) :
    statement? text = (appearance? isStatementHead text).map (Prod.map Appearance.specifier id) := by
  rw [statement?, appearance?]
  cases head? text with
  | none => rfl
  | some head =>
    simp only [Option.bind_eq_bind, Option.bind_some]
    by_cases accepts : ((beforeFrom? head.1).isSome || allBlank head.1) = true
    · have isForm : isStatementHead head.1 = true := accepts
      rw [if_pos accepts, if_pos isForm, Option.map_bind]
      rfl
    · have notForm : ¬isStatementHead head.1 = true := accepts
      rw [if_neg accepts, if_neg notForm]
      rfl

/-- The search for both forms at once. -/
theorem specifiers_eq (text : Text) :
    specifiers text = ((appearances isStatementHead text).map Appearance.specifier).eraseDups := by
  rw [specifiers, appearances, ← atLineStarts_map]
  congr
  funext rest
  exact statement?_eq rest

end MdxBuild.Import

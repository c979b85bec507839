import MdxBuild.Module.DefaultExport
import MdxBuild.Proofs.Text.Part
import MdxBuild.Proofs.Text.Scan

/-!
# Where default exports begin

A default export begins at a line start, with its two words. The places of a text are those of its
parts as long as no part can complete what another one begins, and a text of which no line begins
with the first letter of `export` has none. A search for forms of default exports finds what begins
at the only place, or nothing.
-/

namespace MdxBuild.DefaultExport

open Text

variable {text first second front rest before : Text} {isStart : Bool}

/-! ## The two words -/

/-- The text begins with the words `export` and `default`. -/
def BeginsDefault (text : Text) : Prop :=
  ∃ gap rest : Text, gap ≠ [] ∧ (∀ char ∈ gap, isBlank char = true) ∧
    text = "export".toList ++ (gap ++ ("default".toList ++ rest)) ∧
    ∀ char ∈ rest.head?, isNamePart char = false

theorem afterBlanks?_eq_some_iff :
    afterBlanks? text = some rest ↔
      ∃ blanks : Text, blanks ≠ [] ∧ (∀ char ∈ blanks, isBlank char = true) ∧
        text = blanks ++ rest ∧ ∀ char ∈ rest.head?, isBlank char = false := by
  constructor
  · intro found
    cases text with
    | nil => cases found
    | cons char others =>
      rw [afterBlanks?] at found
      split at found
      · next blank =>
        refine ⟨char :: others.takeWhile isBlank, List.cons_ne_nil _ _, ?_, ?_, ?_⟩
        · exact List.forall_mem_cons.mpr ⟨blank, fun _ => List.mem_takeWhile_imp⟩
        · rw [← Option.some.inj found, List.cons_append, List.takeWhile_append_dropWhile]
        · rw [← Option.some.inj found]
          intro next isHead
          have stops := List.head?_dropWhile_not isBlank others
          rw [Option.mem_def.mp isHead] at stops
          simpa using stops
      · cases found
  · rintro ⟨blanks, nonempty, areBlank, rfl, stops⟩
    cases blanks with
    | nil => exact absurd rfl nonempty
    | cons char blanks =>
      rw [List.forall_mem_cons] at areBlank
      rw [List.cons_append, afterBlanks?, if_pos areBlank.1, Option.some.injEq,
        List.dropWhile_append_of_pos areBlank.2]
      cases rest with
      | nil => rfl
      | cons next rest => exact List.dropWhile_cons_of_neg (by simpa using stops)

theorem afterExportDefault?_eq_some_iff :
    afterExportDefault? text = some rest ↔
      ∃ gap space : Text, (gap ≠ [] ∧ ∀ char ∈ gap, isBlank char = true) ∧
        (space ≠ [] ∧ ∀ char ∈ space, isBlank char = true) ∧
        text = "export".toList ++ (gap ++ ("default".toList ++ (space ++ rest))) ∧
        ∀ char ∈ rest.head?, isBlank char = false := by
  simp only [afterExportDefault?, Option.bind_eq_bind, Option.bind_eq_some_iff, after?_eq_some_iff]
  constructor
  · rintro ⟨behindExport, rfl, atDefault, blanks, behindDefault, rfl, blanksAgain⟩
    obtain ⟨gap, gapNonempty, gapBlank, rfl, -⟩ := afterBlanks?_eq_some_iff.mp blanks
    obtain ⟨space, spaceNonempty, spaceBlank, rfl, stops⟩ :=
      afterBlanks?_eq_some_iff.mp blanksAgain
    exact ⟨gap, space, ⟨gapNonempty, gapBlank⟩, ⟨spaceNonempty, spaceBlank⟩, rfl, stops⟩
  · rintro ⟨gap, space, ⟨gapNonempty, gapBlank⟩, ⟨spaceNonempty, spaceBlank⟩, rfl, stops⟩
    refine ⟨_, rfl, _, afterBlanks?_eq_some_iff.mpr ⟨gap, gapNonempty, gapBlank, rfl, ?_⟩, _, rfl,
      afterBlanks?_eq_some_iff.mpr ⟨space, spaceNonempty, spaceBlank, rfl, stops⟩⟩
    rintro char ⟨⟩
    decide

/-- The codes of the blank characters. -/
def blankCodes : List Nat :=
  List.range' 9 5 ++ List.range' 0x2000 11 ++
    [0x20, 0x85, 0xA0, 0x1680, 0x2028, 0x2029, 0x202F, 0x205F, 0x3000]

theorem toNat_mem_blankCodes {char : Char} (blank : isBlank char = true) :
    char.toNat ∈ blankCodes := by
  simp only [isBlank, Bool.or_eq_true, Bool.and_eq_true, decide_eq_true_eq] at blank
  simp only [blankCodes, List.mem_append, List.mem_range'_1, List.mem_cons, List.not_mem_nil,
    or_false]
  omega

/-- Whether a class has no blanks can be told from their codes. -/
theorem not_inClass_of_isBlank {inClass : Char → Bool} {char : Char}
    (noCode : ∀ code ∈ blankCodes, inClass (Char.ofNat code) = false)
    (blank : isBlank char = true) : inClass char = false := by
  rw [← Char.ofNat_toNat char]
  exact noCode char.toNat (toNat_mem_blankCodes blank)

theorem isNamePart_of_isBlank {char : Char} (blank : isBlank char = true) :
    isNamePart char = false :=
  not_inClass_of_isBlank (by decide +kernel) blank

/-- No name goes on in blanks, nor behind them. -/
theorem isNamePart_of_mem_head?_append {blanks : Text}
    (blank : ∀ char ∈ blanks, isBlank char = true)
    (others : blanks = [] → ∀ char ∈ rest.head?, isNamePart char = false) :
    ∀ char ∈ (blanks ++ rest).head?, isNamePart char = false := by
  cases blanks with
  | nil => exact others rfl
  | cons first blanks =>
    rintro char ⟨⟩
    exact isNamePart_of_isBlank (blank first List.mem_cons_self)

theorem BeginsDefault.of_afterExportDefault? (found : afterExportDefault? text = some rest) :
    BeginsDefault text := by
  obtain ⟨gap, space, ⟨gapNonempty, gapBlank⟩, ⟨spaceNonempty, spaceBlank⟩, rfl, -⟩ :=
    afterExportDefault?_eq_some_iff.mp found
  exact ⟨gap, space ++ rest, gapNonempty, gapBlank, rfl,
    isNamePart_of_mem_head?_append spaceBlank fun isNil => absurd isNil spaceNonempty⟩

theorem BeginsDefault.head? (begins : BeginsDefault text) : text.head? = some 'e' := by
  obtain ⟨gap, rest, _, _, rfl, _⟩ := begins
  rfl

/-- The first letter of the word behind `export` is enough to tell. -/
theorem not_beginsDefault_export {char : Char} (notBlank : isBlank char = false)
    (other : char ≠ 'd') : ¬BeginsDefault ("export ".toList ++ char :: rest) := by
  rintro ⟨gap, behind, -, blank, same, -⟩
  have sameGap : ' ' :: char :: rest = gap ++ ("default".toList ++ behind) :=
    (List.append_right_inj "export".toList).mp same
  have dropped := congrArg (List.dropWhile isBlank) sameGap
  rw [List.dropWhile_append_of_pos blank, List.dropWhile_cons_of_pos (by decide),
    List.dropWhile_cons_of_neg (by rw [notBlank]; decide)] at dropped
  exact other (List.cons.inj dropped).1

/-- The second text cannot go on with what stands at the end of another one as the two words do. -/
structure IsApart (second : Text) : Prop where
  word : ∀ char ∈ second.head?, isNamePart char = false
  default : "default".toList.isPrefixOf (second.dropWhile isBlank) = false

/-- A word of names is not cut by a text that stands apart. -/
theorem IsApart.exists_eq_append {word : Text} (apart : IsApart second)
    (isWord : word.all isNamePart = true) (same : first ++ second = word ++ rest) :
    ∃ middle, first = word ++ middle ∧ rest = middle ++ second := by
  obtain ⟨middle, isWordEnd, rfl⟩ | ⟨middle, rfl, isRest⟩ := List.append_eq_append_iff.mp same
  · cases middle with
    | nil => exact ⟨[], by simpa using isWordEnd.symm, rfl⟩
    | cons char middle =>
      have noPart := apart.word char rfl
      rw [List.all_eq_true.mp isWord char (by simp [isWordEnd])] at noPart
      cases noPart
  · exact ⟨middle, rfl, isRest⟩

theorem IsApart.beginsDefault_append_iff (apart : IsApart second) :
    BeginsDefault (first ++ second) ↔ BeginsDefault first := by
  constructor
  · rintro ⟨gap, rest, nonempty, blank, same, stops⟩
    obtain ⟨behind, rfl, sameBehind⟩ := apart.exists_eq_append (by decide) same
    obtain ⟨middle, rfl, sameWord⟩ | ⟨middle, rfl, isSecond⟩ :=
      List.append_eq_append_iff.mp sameBehind
    · obtain ⟨last, rfl, rfl⟩ := apart.exists_eq_append (by decide) sameWord.symm
      refine ⟨gap, last, nonempty, blank, rfl, ?_⟩
      intro char isHead
      exact stops char (by simp_all)
    · have noDefault := apart.default
      rw [isSecond, List.dropWhile_append_of_pos fun char member =>
        blank char (List.mem_append_right _ member)] at noDefault
      cases noDefault
  · rintro ⟨gap, rest, nonempty, blank, rfl, stops⟩
    refine ⟨gap, rest ++ second, nonempty, blank, by simp only [List.append_assoc], ?_⟩
    cases rest with
    | nil => exact apart.word
    | cons char rest => exact stops

/-! ## Places -/

/-- A default export begins behind `before`, at a line start; `isStart` tells whether the text
begins with one. -/
def IsPlaceFrom (isStart : Bool) (text before : Text) : Prop :=
  ∃ rest, text = before ++ rest ∧ startsLine isStart before = true ∧ BeginsDefault rest

/-- A default export begins behind `before`, at a line start. -/
def IsPlace (text before : Text) : Prop :=
  IsPlaceFrom true text before

theorem not_isPlaceFrom_nil : ¬IsPlaceFrom isStart [] before := by
  rintro ⟨rest, parts, -, begins⟩
  obtain ⟨-, rfl⟩ := List.append_eq_nil_iff.mp parts.symm
  cases begins.head?

theorem isPlaceFrom_cons {char : Char} :
    IsPlaceFrom isStart (char :: text) before ↔
      (before = [] ∧ isStart = true ∧ BeginsDefault (char :: text)) ∨
        ∃ later, before = char :: later ∧ IsPlaceFrom (char = '\n') text later := by
  constructor
  · rintro ⟨rest, parts, starts, begins⟩
    cases before with
    | nil => exact .inl ⟨rfl, starts, by rwa [parts]⟩
    | cons first later =>
      obtain ⟨rfl, rfl⟩ := List.cons.inj parts
      exact .inr ⟨later, rfl, rest, rfl, starts, begins⟩
  · rintro (⟨rfl, starts, begins⟩ | ⟨later, rfl, rest, rfl, starts, begins⟩)
    · exact ⟨char :: text, rfl, starts, begins⟩
    · exact ⟨rest, rfl, starts, begins⟩

/-- What stands in front of a text moves its places. -/
theorem IsPlaceFrom.append_left (isPlace : IsPlaceFrom (startsLine isStart first) second before) :
    IsPlaceFrom isStart (first ++ second) (first ++ before) := by
  obtain ⟨rest, rfl, starts, begins⟩ := isPlace
  exact ⟨rest, (List.append_assoc _ _ _).symm, by rwa [startsLine_append], begins⟩

/-- The places of a text are those of its parts if the second one stands apart. -/
theorem isPlaceFrom_append_iff (apart : IsApart second) :
    IsPlaceFrom isStart (first ++ second) before ↔ IsPlaceFrom isStart first before ∨
      ∃ later, before = first ++ later ∧
        IsPlaceFrom (startsLine isStart first) second later := by
  constructor
  · rintro ⟨rest, parts, starts, begins⟩
    obtain ⟨middle, rfl, rfl⟩ | ⟨middle, rfl, rfl⟩ := List.append_eq_append_iff.mp parts
    · rw [startsLine_append] at starts
      exact .inr ⟨middle, rfl, rest, rfl, starts, begins⟩
    · exact .inl ⟨middle, rfl, starts, apart.beginsDefault_append_iff.mp begins⟩
  · rintro (⟨rest, rfl, starts, begins⟩ | ⟨later, rfl, isLater⟩)
    · exact ⟨rest ++ second, List.append_assoc _ _ _, starts,
        apart.beginsDefault_append_iff.mpr begins⟩
    · exact isLater.append_left

theorem isPlaceFrom_newline_cons : IsPlaceFrom isStart ('\n' :: text) before ↔
    ∃ later, before = '\n' :: later ∧ IsPlace text later := by
  rw [isPlaceFrom_cons, or_iff_right]
  · rfl
  · rintro ⟨-, -, begins⟩
    cases begins.head?

/-- The places behind a line feed are added to those in front of it. -/
theorem isPlace_append_newline_iff
    (other : "default".toList.isPrefixOf (second.dropWhile isBlank) = false) :
    IsPlace (first ++ '\n' :: second) before ↔
      IsPlace first before ∨ ∃ later, before = first ++ '\n' :: later ∧ IsPlace second later := by
  have apart : IsApart ('\n' :: second) := ⟨by rintro char ⟨⟩; decide, other⟩
  rw [IsPlace, isPlaceFrom_append_iff apart]
  simp only [isPlaceFrom_newline_cons]
  constructor
  · rintro (isPlace | ⟨_, rfl, later, rfl, isLater⟩)
    · exact .inl isPlace
    · exact .inr ⟨later, rfl, isLater⟩
  · rintro (isPlace | ⟨later, rfl, isLater⟩)
    · exact .inl isPlace
    · exact .inr ⟨_, rfl, later, rfl, isLater⟩

/-- The places of lines are those of their parts, also if the second one begins with `export`. -/
theorem isPlace_append_iff_of_starts (starts : startsLine true first = true)
    (other : "default".toList.isPrefixOf (second.dropWhile isBlank) = false) :
    IsPlace (first ++ second) before ↔
      IsPlace first before ∨ ∃ later, before = first ++ later ∧ IsPlace second later := by
  rcases startsLine_iff.mp starts with rfl | ended
  · simp [IsPlace, not_isPlaceFrom_nil]
  · obtain ⟨line, rfl⟩ := List.getLast?_eq_some_iff.mp ended
    have alone : IsPlace (line ++ ['\n']) before ↔ IsPlace line before := by
      refine (isPlace_append_newline_iff rfl).trans (or_iff_left ?_)
      rintro ⟨later, -, isLater⟩
      exact not_isPlaceFrom_nil isLater
    rw [alone, List.append_assoc]
    simp only [List.append_assoc]
    exact isPlace_append_newline_iff other

/-! ### Parts without places -/

/-- No line of the text begins with the first letter of `export`. -/
def isInert : (isStart : Bool) → Text → Bool
  | _, [] => true
  | isStart, char :: rest => !(isStart && char = 'e') && isInert (char = '\n') rest

theorem isInert_append : isInert isStart (first ++ second) =
    (isInert isStart first && isInert (startsLine isStart first) second) := by
  induction first generalizing isStart with
  | nil => rfl
  | cons char rest ih => rw [List.cons_append, isInert, isInert, startsLine, ih, Bool.and_assoc]

theorem isInert_of_notMem (noBreak : '\n' ∉ text) : isInert false text = true := by
  induction text with
  | nil => rfl
  | cons char rest ih =>
    rw [List.mem_cons, not_or] at noBreak
    rw [isInert, decide_eq_false (Ne.symm noBreak.1), ih noBreak.2]
    rfl

theorem isInert_of_letter_notMem (noLetter : 'e' ∉ text) : isInert isStart text = true := by
  induction text generalizing isStart with
  | nil => rfl
  | cons char rest ih =>
    rw [List.mem_cons, not_or] at noLetter
    rw [isInert, decide_eq_false (Ne.symm noLetter.1), ih noLetter.2, Bool.and_false]
    rfl

/-- Behind an inert text there are the places of what follows. -/
theorem isPlaceFrom_append_of_isInert (inert : isInert isStart first = true) :
    IsPlaceFrom isStart (first ++ second) before ↔
      ∃ later, before = first ++ later ∧
        IsPlaceFrom (startsLine isStart first) second later := by
  induction first generalizing isStart before with
  | nil => simp [startsLine]
  | cons char rest ih =>
    rw [isInert, Bool.and_eq_true] at inert
    rw [List.cons_append, isPlaceFrom_cons, startsLine]
    constructor
    · rintro (⟨-, rfl, begins⟩ | ⟨later, rfl, isLater⟩)
      · obtain rfl : char = 'e' := by simpa using begins.head?
        cases inert.1
      · obtain ⟨last, rfl, isLast⟩ := (ih inert.2).mp isLater
        exact ⟨last, rfl, isLast⟩
    · rintro ⟨last, rfl, isLast⟩
      exact .inr ⟨rest ++ last, rfl, (ih inert.2).mpr ⟨last, rfl, isLast⟩⟩

theorem not_isPlaceFrom_of_isInert (inert : isInert isStart text = true) :
    ¬IsPlaceFrom isStart text before := by
  rw [← List.append_nil text, isPlaceFrom_append_of_isInert inert]
  rintro ⟨later, -, isPlace⟩
  exact not_isPlaceFrom_nil isPlace

/-- The only place of a line is its start. -/
theorem IsPlace.eq_nil_of_line (isPlace : IsPlace (text ++ ['\n']) before)
    (noBreak : '\n' ∉ text) : before = [] := by
  cases text with
  | nil => exact absurd isPlace (not_isPlaceFrom_of_isInert rfl)
  | cons char rest =>
    rw [List.mem_cons, not_or] at noBreak
    have inert : isInert false (rest ++ ['\n']) = true := by
      rw [isInert_append, isInert_of_notMem noBreak.2, Bool.true_and]
      exact isInert_of_letter_notMem (by decide)
    obtain ⟨rfl, -⟩ | ⟨later, -, isLater⟩ := isPlaceFrom_cons.mp isPlace
    · rfl
    · rw [decide_eq_false (Ne.symm noBreak.1)] at isLater
      exact absurd isLater (not_isPlaceFrom_of_isInert inert)

/-! ## Searching -/

section Searching

variable {α : Type} {find : Text → Option α}

/-- What begins with the two words is found at places only. -/
theorem firstAtLineStartFrom?_eq_none
    (finds : ∀ text found, find text = some found → BeginsDefault text)
    (noPlace : ∀ before, ¬IsPlaceFrom isStart text before) :
    firstAtLineStartFrom? find isStart text = none := by
  induction text generalizing isStart with
  | nil => rfl
  | cons char rest ih =>
    have notHere : (if isStart then find (char :: rest) else none) = none := by
      refine Option.eq_none_iff_forall_ne_some.mpr fun found isFound => ?_
      rw [Option.ite_none_right_eq_some] at isFound
      exact noPlace [] (isPlaceFrom_cons.mpr (.inl ⟨rfl, isFound.1, finds _ found isFound.2⟩))
    rw [firstAtLineStartFrom?, notHere, ih]
    · rfl
    · exact fun later isLater => noPlace _ (isPlaceFrom_cons.mpr (.inr ⟨later, rfl, isLater⟩))

theorem firstAtLineStartFrom?_eq
    (finds : ∀ text found, find text = some found → BeginsDefault text) (nonempty : rest ≠ [])
    (starts : startsLine isStart front = true)
    (only : ∀ before, IsPlaceFrom isStart (front ++ rest) before → before = front) :
    firstAtLineStartFrom? find isStart (front ++ rest) =
      (find rest).map fun found => (front, found) := by
  induction front generalizing isStart with
  | nil =>
    obtain rfl : isStart = true := starts
    cases rest with
    | nil => exact absurd rfl nonempty
    | cons char rest =>
      rw [List.nil_append, firstAtLineStartFrom?, if_pos rfl]
      cases found : find (char :: rest) with
      | some form => rfl
      | none =>
        rw [firstAtLineStartFrom?_eq_none finds]
        · rfl
        · intro later isLater
          cases only _ (isPlaceFrom_cons.mpr (.inr ⟨later, rfl, isLater⟩))
  | cons char front ih =>
    have notHere : (if isStart then find (char :: (front ++ rest)) else none) = none := by
      refine Option.eq_none_iff_forall_ne_some.mpr fun found isFound => ?_
      rw [Option.ite_none_right_eq_some] at isFound
      cases only _ (isPlaceFrom_cons.mpr (.inl ⟨rfl, isFound.1, finds _ found isFound.2⟩))
    rw [List.cons_append, firstAtLineStartFrom?, notHere, ih starts, Option.map_map]
    · rfl
    · intro later isLater
      exact (List.cons.inj (only _ (isPlaceFrom_cons.mpr (.inr ⟨later, rfl, isLater⟩)))).2

/-- A search finds what begins at the only place. -/
theorem firstAtLineStart?_eq
    (finds : ∀ text found, find text = some found → BeginsDefault text) (nonempty : rest ≠ [])
    (starts : startsLine true front = true)
    (only : ∀ before, IsPlace (front ++ rest) before → before = front) :
    firstAtLineStart? find (front ++ rest) = (find rest).map fun found => (front, found) :=
  firstAtLineStartFrom?_eq finds nonempty starts only

end Searching

end MdxBuild.DefaultExport

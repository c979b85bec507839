import MdxBuild.Module.Metadata
import MdxBuild.Proofs.Module.DefaultPlace
import MdxBuild.Text.Identifier

/-!
# Exported declarations

A module exports a name by a declaration at a line start. The names that are declared so are read
here whole. The search for a single name reads them only up to the first character that is no word
character, so it takes a declared name for each of its beginnings that ends there.
-/

namespace MdxBuild.Metadata

open Text

variable {text name other code : Text}

/-! ## Names of declarations -/

/-- A character that goes on with a name. No other word character can follow a name either. -/
def isNameChar (char : Char) : Bool :=
  isIdentifierPart char || isWord char || char = '$'

/-- The name that a text begins with. -/
def word (text : Text) : Text :=
  text.takeWhile isNameChar

/-- The text behind the words and blanks that begin an exported declaration. -/
def atName? (text : Text) : Option Text := do
  let afterExport ← DefaultExport.afterBlanks? (← after? "export".toList text)
  DefaultExport.afterBlanks? (← afterDeclarator? afterExport)

/-- The name that a statement at the start of a text declares and exports. The word `export` is no
name. -/
def declaredName? (text : Text) : Option Text :=
  match atName? text with
  | none => none
  | some atName =>
    if word atName = [] ∨ word atName = "export".toList then none else some (word atName)

/-- The names that statements at line starts declare and export; `isStart` tells whether the text
begins with a line start. -/
def declaredFrom : (isStart : Bool) → Text → List Text
  | _, [] => []
  | isStart, char :: rest =>
    (if isStart then (declaredName? (char :: rest)).toList else []) ++
      declaredFrom (char = '\n') rest

/-- The names that the statements at the line starts of a text declare and export, in order. -/
def declared (code : Text) : List Text :=
  declaredFrom true code

theorem declaredName?_eq_some_iff : declaredName? text = some name ↔
    ∃ atName, atName? text = some atName ∧ word atName = name ∧ name ≠ [] ∧
      name ≠ "export".toList := by
  rw [declaredName?]
  cases atName? text with
  | none => simp
  | some atName =>
    dsimp only
    rw [Option.ite_none_left_eq_some, not_or, Option.some.injEq]
    constructor
    · rintro ⟨⟨nonempty, notReserved⟩, rfl⟩
      exact ⟨atName, rfl, rfl, nonempty, notReserved⟩
    · rintro ⟨_, ⟨⟩, rfl, nonempty, notReserved⟩
      exact ⟨⟨nonempty, notReserved⟩, rfl⟩

theorem isNameChar_of_isWord {char : Char} (isWord : isWord char = true) :
    isNameChar char = true := by
  rw [isNameChar, isWord, Bool.or_true, Bool.true_or]

theorem isNameChar_of_isBlank {char : Char} (blank : isBlank char = true) :
    isNameChar char = false :=
  DefaultExport.not_inClass_of_isBlank (by decide +kernel) blank

/-- No word character follows a name that is read whole. -/
theorem wordEnds_dropWhile (text : Text) : wordEnds (text.dropWhile isNameChar) = true := by
  have stops := List.head?_dropWhile_not isNameChar text
  cases isRest : text.dropWhile isNameChar with
  | nil => rfl
  | cons char rest =>
    rw [isRest] at stops
    rw [wordEnds, Bool.not_eq_true', ← Bool.not_eq_true]
    intro isWord
    exact Bool.false_ne_true (stops.symm.trans (isNameChar_of_isWord isWord))

/-! ## Names that count as others -/

/-- The name begins another one, and no word character follows there. -/
def CountsAs (name other : Text) : Prop :=
  ∃ rest, other = name ++ rest ∧ wordEnds rest = true

theorem countsAs_iff : CountsAs name other ↔ (after? name other).any wordEnds = true := by
  cases found : after? name other with
  | none =>
    have notFound : ∀ rest, other ≠ name ++ rest := fun rest isOther => by
      rw [after?_eq_some_iff.mpr isOther] at found
      cases found
    simp [CountsAs, notFound]
  | some rest =>
    obtain rfl := after?_eq_some_iff.mp found
    simp [CountsAs]

instance : Decidable (CountsAs name other) :=
  decidable_of_iff _ countsAs_iff.symm

/-- A name of word characters stands at the start of a text as far as of the whole name there. -/
theorem countsAs_word_iff (isName : ∀ char ∈ name, isWord char = true) :
    CountsAs name (word text) ↔ CountsAs name text := by
  constructor
  · rintro ⟨rest, isWord, ends⟩
    have isText : text = word text ++ text.dropWhile isNameChar :=
      List.takeWhile_append_dropWhile.symm
    refine ⟨rest ++ text.dropWhile isNameChar, ?_, ?_⟩
    · rw [← List.append_assoc, ← isWord, ← isText]
    · cases rest with
      | cons char rest => exact ends
      | nil => exact wordEnds_dropWhile text
  · rintro ⟨rest, rfl, ends⟩
    refine ⟨word rest, ?_, ?_⟩
    · exact List.takeWhile_append_of_pos fun char member => isNameChar_of_isWord (isName char member)
    · cases rest with
      | nil => rfl
      | cons char rest =>
        rw [word, List.takeWhile_cons]
        split
        · exact ends
        · rfl

theorem declares_iff_atName? :
    declares name text = true ↔ ∃ atName, atName? text = some atName ∧ CountsAs name atName := by
  have isRead : declares name text = ((atName? text).bind (after? name)).any wordEnds := by
    simp only [declares, atName?, Option.bind_eq_bind, Option.bind_assoc]
  rw [isRead]
  cases atName? text with
  | none => simp
  | some atName => simp [countsAs_iff]

/-- Whether a name is found to be declared depends on the name that is declared. -/
theorem declares_iff (isName : ∀ char ∈ name, isWord char = true)
    (nonempty : name ≠ []) (notReserved : name ≠ "export".toList) :
    declares name text = true ↔ ∃ other, declaredName? text = some other ∧ CountsAs name other := by
  have isOther {other : Text} (counts : CountsAs name other) :
      other ≠ [] ∧ other ≠ "export".toList := by
    obtain ⟨rest, rfl, ends⟩ := counts
    refine ⟨List.append_ne_nil_of_left_ne_nil nonempty rest, fun isReserved => ?_⟩
    cases rest with
    | nil => exact notReserved (by rwa [List.append_nil] at isReserved)
    | cons char rest =>
      have isLetter : char ∈ "export".toList := by simp [← isReserved]
      have areWord : ∀ letter ∈ "export".toList, isWord letter = true :=
        List.all_eq_true.mp (by decide)
      rw [wordEnds, areWord char isLetter] at ends
      cases ends
  simp only [declares_iff_atName?, declaredName?_eq_some_iff]
  constructor
  · rintro ⟨atName, isAt, countsAt⟩
    have counts := (countsAs_word_iff isName).mpr countsAt
    exact ⟨word atName, ⟨atName, isAt, rfl, isOther counts⟩, counts⟩
  · rintro ⟨_, ⟨atName, isAt, rfl, -⟩, counts⟩
    exact ⟨atName, isAt, (countsAs_word_iff isName).mp counts⟩

theorem isSome_firstAtLineStartFrom?_iff (isName : ∀ char ∈ name, isWord char = true)
    (nonempty : name ≠ []) (notReserved : name ≠ "export".toList) (isStart : Bool) (code : Text) :
    (firstAtLineStartFrom? (fun text => if declares name text then some () else none) isStart
      code).isSome = true ↔ ∃ other ∈ declaredFrom isStart code, CountsAs name other := by
  induction code generalizing isStart with
  | nil => simp [firstAtLineStartFrom?, declaredFrom]
  | cons char rest ih =>
    have isHere : (if isStart then if declares name (char :: rest) then some () else none
        else none).isSome = true ↔
        ∃ other ∈ (if isStart then (declaredName? (char :: rest)).toList else []),
          CountsAs name other := by
      cases isStart with
      | false => simp
      | true => simp [← declares_iff isName nonempty notReserved]
    rw [firstAtLineStartFrom?, declaredFrom]
    simp only [List.mem_append, or_and_right, exists_or]
    rw [← isHere, ← ih]
    split
    · next isFound => simp [isFound]
    · next notFound => simp [notFound]

/-- A module is found to export a name if it declares one that counts as it. -/
theorem exported_iff (isName : ∀ char ∈ name, isWord char = true)
    (nonempty : name ≠ []) (notReserved : name ≠ "export".toList) :
    exported name code = true ↔ ∃ other ∈ declared code, CountsAs name other :=
  isSome_firstAtLineStartFrom?_iff isName nonempty notReserved true code

end MdxBuild.Metadata

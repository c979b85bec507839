import Mathlib.Data.List.Sort
import MdxBuild.Proofs.Import.Search

/-!
# Inventories of imports

An inventory of a text lists the specifiers that its import statements name, each once, in order of
first appearance. A text has one inventory. One search for statements of both forms finds it, and so
do two searches, one for each form, whose finds are merged by their places.
-/

namespace MdxBuild.Import

open Text

variable {α β : Type} {text specifier : Text} {listed others : List Text} {offset : Nat}
  {found : List Appearance} {isHead : Text → Prop}

/-! ## First appearances -/

section FirstAppearances

variable [BEq β] [LawfulBEq β] {key : α → β} {relation : α → α → Prop}

theorem nodup_eraseDups (all : List β) : all.eraseDups.Nodup := by
  match all with
  | [] => exact List.nodup_nil
  | first :: rest =>
    rw [List.eraseDups_cons, List.nodup_cons, List.mem_eraseDups, List.mem_filter]
    exact ⟨fun ⟨_, isOther⟩ => by simp at isOther,
      nodup_eraseDups (rest.filter fun other => !other == first)⟩
termination_by all.length
decreasing_by exact Nat.lt_succ_of_le (List.length_filter_le _ _)

/-- The keys other than the first one are those of a part of the list. -/
theorem exists_filter_map_eq (key : α → β) (first : α) (rest : List α) :
    ∃ remaining : List α, (rest.map key).filter (fun other => !other == key first) = remaining.map key ∧
      remaining.Sublist rest ∧ ∀ value, value ∈ remaining ↔ value ∈ rest ∧ key value ≠ key first := by
  refine ⟨_, List.filter_map, List.filter_sublist, fun value => ?_⟩
  rw [List.mem_filter, Function.comp_apply, Bool.not_eq_true', beq_eq_false_iff_ne]

/-- Without its duplicates, a list of keys keeps the order in which they first appear. -/
theorem pairwise_eraseDups_map (all : List α) (ordered : all.Pairwise relation) :
    (all.map key).eraseDups.Pairwise fun first second =>
      ∀ later ∈ all, key later = second → ∃ earlier ∈ all, key earlier = first ∧
        relation earlier later := by
  match all with
  | [] => exact .nil
  | first :: rest =>
    obtain ⟨isFirst, ordered⟩ := List.pairwise_cons.mp ordered
    obtain ⟨remaining, isRemaining, isSublist, mem_remaining⟩ := exists_filter_map_eq key first rest
    have shorter : remaining.length < (first :: rest).length :=
      Nat.lt_succ_of_le isSublist.length_le
    have isOther {value : β} (member : value ∈ (remaining.map key).eraseDups) :
        value ≠ key first := by
      obtain ⟨other, inRemaining, rfl⟩ := List.mem_map.mp (List.mem_eraseDups.mp member)
      exact ((mem_remaining other).mp inRemaining).2
    rw [List.map_cons, List.eraseDups_cons, isRemaining]
    constructor
    · intro second member later isLater isSecond
      rcases List.mem_cons.mp isLater with rfl | inRest
      · exact absurd isSecond.symm (isOther member)
      · exact ⟨first, List.mem_cons_self, rfl, isFirst later inRest⟩
    · apply (pairwise_eraseDups_map remaining (ordered.sublist isSublist)).imp_of_mem
      intro one second _ member precedes later isLater isSecond
      have differs : key later ≠ key first := isSecond ▸ isOther member
      have inRest : later ∈ rest := by
        rcases List.mem_cons.mp isLater with rfl | inRest
        · exact absurd rfl differs
        · exact inRest
      obtain ⟨earlier, isEarlier, isOne, inOrder⟩ :=
        precedes later ((mem_remaining later).mpr ⟨inRest, differs⟩) isSecond
      exact ⟨earlier, List.mem_cons_of_mem first (isSublist.subset isEarlier), isOne, inOrder⟩
termination_by all.length
decreasing_by exact shorter

end FirstAppearances

/-! ## Inventories -/

/-- In front of each import of the second specifier stands one of the first. -/
def Precedes (text first second : Text) : Prop :=
  ∀ offset, ImportsAt IsHead text second offset →
    ∃ earlier, ImportsAt IsHead text first earlier ∧ earlier < offset

/-- The specifiers that a text imports, each once, in order of first appearance. -/
structure IsInventory (text : Text) (listed : List Text) : Prop where
  nodup : listed.Nodup
  mem_iff : ∀ specifier, specifier ∈ listed ↔ ∃ offset, ImportsAt IsHead text specifier offset
  ordered : listed.Pairwise (Precedes text)

/-! ## Listings by form

An inventory goes by the heads of import statements; listings go by heads of any form.
-/

/-- In front of each import of the second specifier, with a head of the form, stands one of the
first. -/
def PrecedesBy (isHead : Text → Prop) (text first second : Text) : Prop :=
  ∀ offset, ImportsAt isHead text second offset →
    ∃ earlier, ImportsAt isHead text first earlier ∧ earlier < offset

/-- The specifiers of the imports with a head of the form, each once, in order of first
appearance. -/
structure IsListing (isHead : Text → Prop) (text : Text) (listed : List Text) : Prop where
  nodup : listed.Nodup
  mem_iff : ∀ specifier, specifier ∈ listed ↔ ∃ offset, ImportsAt isHead text specifier offset
  ordered : listed.Pairwise (PrecedesBy isHead text)

theorem isInventory_iff : IsInventory text listed ↔ IsListing IsHead text listed := by
  constructor
  · exact fun isInventory => ⟨isInventory.nodup, isInventory.mem_iff, isInventory.ordered⟩
  · exact fun isListing => ⟨isListing.nodup, isListing.mem_iff, isListing.ordered⟩

/-- Two specifiers do not precede each other: of two imports of theirs there would always be an
earlier one. -/
theorem not_precedesBy {first second : Text}
    (precedes : PrecedesBy isHead text first second)
    (other : PrecedesBy isHead text second first) (offset : Nat) :
    ¬ImportsAt isHead text first offset := by
  induction offset using Nat.strongRecOn with
  | ind offset ih =>
    intro imports
    obtain ⟨earlier, importsSecond, isEarlier⟩ := other offset imports
    obtain ⟨earliest, importsFirst, isEarliest⟩ := precedes earlier importsSecond
    exact ih earliest (isEarliest.trans isEarlier) importsFirst

/-- A list without duplicates is determined by its members, if each is imported, and by the order of
first appearance. -/
theorem eq_of_precedesBy (nodup : listed.Nodup) (nodupOthers : others.Nodup)
    (mem_iff : ∀ specifier, specifier ∈ listed ↔ specifier ∈ others)
    (imported : ∀ specifier ∈ listed, ∃ offset, ImportsAt isHead text specifier offset)
    (ordered : listed.Pairwise (PrecedesBy isHead text))
    (orderedOthers : others.Pairwise (PrecedesBy isHead text)) : listed = others := by
  have isPerm : listed.Perm others := (List.perm_ext_iff_of_nodup nodup nodupOthers).mpr mem_iff
  apply List.Perm.eq_of_pairwise _ ordered orderedOthers isPerm
  intro first second member _ precedes precedesOther
  obtain ⟨offset, imports⟩ := imported first member
  exact absurd imports (not_precedesBy precedes precedesOther offset)

theorem IsInventory.unique (isInventory : IsInventory text listed)
    (isOther : IsInventory text others) : listed = others := by
  apply eq_of_precedesBy isInventory.nodup isOther.nodup _ _ isInventory.ordered isOther.ordered
  · intro specifier
    rw [isInventory.mem_iff, isOther.mem_iff]
  · exact fun specifier member => (isInventory.mem_iff specifier).mp member

/-- The specifiers of finds that hold every import of a form, in order of place, are a listing. -/
theorem isListing_of_pairwise (ordered : found.Pairwise (·.behind ≥ ·.behind))
    (mem_iff : ∀ appearance, appearance ∈ found ↔ ∃ offset,
      ImportsAt isHead text appearance.specifier offset ∧
        offset + appearance.behind = text.length) :
    IsListing isHead text (found.map Appearance.specifier).eraseDups := by
  constructor
  · exact nodup_eraseDups _
  · intro specifier
    rw [List.mem_eraseDups, List.mem_map]
    constructor
    · rintro ⟨appearance, member, rfl⟩
      obtain ⟨offset, imports, -⟩ := (mem_iff appearance).mp member
      exact ⟨offset, imports⟩
    · rintro ⟨offset, imports⟩
      exact ⟨⟨specifier, text.length - offset⟩, (mem_iff _).mpr
        ⟨offset, imports, Nat.add_sub_cancel' imports.offset_le⟩, rfl⟩
  · have isDistinct : (found.map Appearance.specifier).eraseDups.Pairwise (· ≠ ·) :=
      nodup_eraseDups _
    apply ((pairwise_eraseDups_map found ordered).and isDistinct).imp
    rintro first second ⟨precedes, differs⟩ offset imports
    obtain ⟨earlier, isEarlier, rfl, inOrder⟩ := precedes ⟨second, text.length - offset⟩
      ((mem_iff _).mpr ⟨offset, imports, Nat.add_sub_cancel' imports.offset_le⟩) rfl
    obtain ⟨place, importsFirst, isPlace⟩ := (mem_iff earlier).mp isEarlier
    refine ⟨place, importsFirst, Nat.lt_of_le_of_ne ?_ ?_⟩
    · have inText := imports.offset_le
      change earlier.behind ≥ text.length - offset at inOrder
      omega
    · rintro rfl
      exact differs (importsFirst.specifier_eq imports)

theorem isInventory_of_pairwise (ordered : found.Pairwise (·.behind ≥ ·.behind))
    (mem_iff : ∀ appearance, appearance ∈ found ↔ ∃ offset,
      ImportsAt IsHead text appearance.specifier offset ∧
        offset + appearance.behind = text.length) :
    IsInventory text (found.map Appearance.specifier).eraseDups :=
  isInventory_iff.mpr (isListing_of_pairwise ordered mem_iff)

/-! ## Searches -/

/-- A search for statements with heads of a form finds their listing. -/
theorem isListing_appearances {isForm : Text → Bool}
    (decides : Decides isForm isHead) (text : Text) :
    IsListing isHead text ((appearances isForm text).map Appearance.specifier).eraseDups := by
  apply isListing_of_pairwise
  · exact (pairwise_appearances isForm text).imp Nat.le_of_lt
  · exact fun appearance => mem_appearances_iff decides

/-- The search for statements of both forms at once finds the inventory. -/
theorem isInventory_specifiers (text : Text) : IsInventory text (specifiers text) := by
  rw [specifiers_eq]
  exact isInventory_iff.mpr (isListing_appearances decides_isStatementHead text)

/-- An unfinished line in front of a statement does not hide it. -/
example : specifiers "import a\nimport b from 'x'\nimport 'y'\nimport 'x'\n".toList =
    ["x".toList, "y".toList] := by
  decide +kernel

/-- The finds of two searches, one for imports with a clause and one for imports without, in the
order of their places. -/
def mergedAppearances (text : Text) : List Appearance :=
  (appearances isFromHead text ++ appearances allBlank text).mergeSort fun first second =>
    second.behind ≤ first.behind

/-- The specifiers that two searches find, one for each form, each once. -/
def mergedSpecifiers (text : Text) : List Text :=
  ((mergedAppearances text).map Appearance.specifier).eraseDups

theorem importsAt_or_iff {isOther : Text → Prop} :
    ImportsAt (fun between => isHead between ∨ isOther between) text specifier offset ↔
      ImportsAt isHead text specifier offset ∨ ImportsAt isOther text specifier offset := by
  constructor
  · rintro ⟨complete, ⟨indent, between, quote, rfl, indented, isOne | isOther, opens⟩,
      isSpecifier, closes⟩
    · exact .inl (.intro complete ⟨indent, between, quote, rfl, indented, isOne, opens⟩
        isSpecifier closes)
    · exact .inr (.intro complete ⟨indent, between, quote, rfl, indented, isOther, opens⟩
        isSpecifier closes)
  · rintro (imports | imports)
    · exact imports.mono fun _ isOne => .inl isOne
    · exact imports.mono fun _ isOther => .inr isOther

theorem importsAt_isHead_iff : ImportsAt IsHead text specifier offset ↔
    ImportsAt IsClauseHead text specifier offset ∨ ImportsAt IsBareHead text specifier offset :=
  importsAt_or_iff

/-- Two searches find the inventory as well. -/
theorem isInventory_mergedSpecifiers (text : Text) : IsInventory text (mergedSpecifiers text) := by
  apply isInventory_of_pairwise
  · have inOrder : (mergedAppearances text).Pairwise fun first second =>
        decide (second.behind ≤ first.behind) = true := by
      apply List.pairwise_mergeSort
      · intro first second third
        rw [decide_eq_true_eq, decide_eq_true_eq, decide_eq_true_eq]
        exact fun one other => other.trans one
      · intro first second
        rw [Bool.or_eq_true, decide_eq_true_eq, decide_eq_true_eq]
        exact Nat.le_total _ _
    exact inOrder.imp of_decide_eq_true
  · intro appearance
    rw [mergedAppearances, List.mem_mergeSort, List.mem_append,
      mem_appearances_iff decides_isFromHead, mem_appearances_iff decides_allBlank]
    simp only [importsAt_isHead_iff, or_and_right, exists_or]

/-- One search or two find the same specifiers, in the same order. -/
theorem specifiers_eq_mergedSpecifiers (text : Text) : specifiers text = mergedSpecifiers text :=
  (isInventory_specifiers text).unique (isInventory_mergedSpecifiers text)

end MdxBuild.Import

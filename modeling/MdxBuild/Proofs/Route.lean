import MdxBuild.Route
import MdxBuild.Proofs.Import.Inventory

/-!
# Routing by imports

A document takes the fast path exactly if its body imports allowed modules only. Otherwise its route
lists the modules that are not allowed, each once, in order of first import.
-/

namespace MdxBuild.Route

open Text Import

variable {allowed : AllowList} {text : Text} {specifiers : List Text}

/-- An allow list without patterns allows nothing. -/
theorem allows_eq_false (unconfigured : allowed.isConfigured = false) (specifier : Text) :
    allowed.allows specifier = false := by
  rw [AllowList.isConfigured, Bool.not_eq_false', List.isEmpty_iff] at unconfigured
  rw [AllowList.allows, unconfigured, List.any_nil]

/-- The specifiers that keep a document off the fast path are those that are not allowed. -/
theorem disallowed_ofSpecifiers (allowed : AllowList) (specifiers : List Text) :
    (ofSpecifiers allowed specifiers).disallowed = specifiers.filter (!allowed.allows ·) := by
  rw [ofSpecifiers]
  split
  · next isEmpty =>
    rw [List.isEmpty_iff.mp isEmpty]
    rfl
  split
  · next unconfigured =>
    rw [Bool.not_eq_true'] at unconfigured
    refine (List.filter_eq_self.mpr fun specifier _ => ?_).symm
    rw [allows_eq_false unconfigured, Bool.not_false]
  split
  · next isNil =>
    rw [isNil]
    rfl
  · rfl

/-- A route is made of the specifiers that are not allowed. -/
theorem ofSpecifiers_eq (allowed : AllowList) (specifiers : List Text) :
    ofSpecifiers allowed specifiers =
      if specifiers.filter (!allowed.allows ·) = [] then .fast
      else .fallback (if allowed.isConfigured then .notAllowed else .noAllowList)
        (specifiers.filter (!allowed.allows ·)) := by
  have isDisallowed := disallowed_ofSpecifiers allowed specifiers
  rw [← isDisallowed, ofSpecifiers]
  split
  · rfl
  · next nonempty =>
    rw [List.isEmpty_iff] at nonempty
    split
    · next unconfigured =>
      rw [Bool.not_eq_true'] at unconfigured
      rw [disallowed, if_neg nonempty, unconfigured]
      rfl
    · next configured =>
      rw [Bool.not_eq_true', Bool.not_eq_false] at configured
      split
      · rfl
      · next refused some =>
        rw [disallowed, if_neg some, configured]
        rfl

theorem ofSpecifiers_eq_iff {listed others : List Text} :
    ofSpecifiers allowed listed = ofSpecifiers allowed others ↔
      listed.filter (!allowed.allows ·) = others.filter (!allowed.allows ·) := by
  constructor
  · intro same
    rw [← disallowed_ofSpecifiers, same, disallowed_ofSpecifiers]
  · intro same
    rw [ofSpecifiers_eq, same, ← ofSpecifiers_eq]

/-- The fast path is for documents without a specifier that keeps them off it. -/
theorem isFast_ofSpecifiers (allowed : AllowList) (specifiers : List Text) :
    (ofSpecifiers allowed specifiers).isFast =
      (ofSpecifiers allowed specifiers).disallowed.isEmpty := by
  rw [ofSpecifiers]
  split
  · rfl
  · next nonempty =>
    rw [Bool.not_eq_true] at nonempty
    split
    · exact nonempty.symm
    split
    · rfl
    · next refused nonempty => exact (List.isEmpty_eq_false_iff.mpr nonempty).symm

/-- A route by an inventory of the imports is exact. -/
theorem disallowed_of_isInventory (allowed : AllowList) (isInventory : IsInventory text specifiers) :
    let disallowed := (ofSpecifiers allowed specifiers).disallowed
    (∀ specifier, specifier ∈ disallowed ↔
      (∃ offset, ImportsAt IsHead text specifier offset) ∧ allowed.allows specifier = false) ∧
    disallowed.Nodup ∧ disallowed.Pairwise (Precedes text) := by
  intro disallowed
  have isFiltered : disallowed = specifiers.filter (!allowed.allows ·) :=
    disallowed_ofSpecifiers allowed specifiers
  constructor
  · intro specifier
    rw [isFiltered, List.mem_filter, isInventory.mem_iff, Bool.not_eq_true']
  · rw [isFiltered]
    exact ⟨isInventory.nodup.filter _, isInventory.ordered.filter _⟩

/-- The fast path is taken if and only if every import statement in the scanned text, which is the
body without the frontmatter and, on request, without fenced lines, has an allowed specifier. The
route lists the specifiers of the others, each once, in order of first appearance; these are all
specifiers if there is no allow list. Two searches for statements, one for each form, lead to the
same route. -/
theorem isFast_classify_iff (allowed : AllowList) (ignoreFences : Bool) (source : Text) :
    let text := scanned ignoreFences source
    let route := classify allowed ignoreFences source
    (route.isFast = true ↔ ∀ specifier offset, ImportsAt IsHead text specifier offset →
      allowed.allows specifier = true) ∧
    (∀ specifier, specifier ∈ route.disallowed ↔
      (∃ offset, ImportsAt IsHead text specifier offset) ∧ allowed.allows specifier = false) ∧
    route.disallowed.Nodup ∧
    route.disallowed.Pairwise (Precedes text) ∧
    (allowed.isConfigured = false → ∀ specifier offset, ImportsAt IsHead text specifier offset →
      specifier ∈ route.disallowed) ∧
    route = ofSpecifiers allowed (mergedSpecifiers text) := by
  intro text route
  obtain ⟨mem_iff, nodup, ordered⟩ :=
    disallowed_of_isInventory allowed (isInventory_specifiers text)
  refine ⟨?_, mem_iff, nodup, ordered, ?_, ?_⟩
  · have isFast : route.isFast = route.disallowed.isEmpty := isFast_ofSpecifiers allowed _
    rw [isFast, List.isEmpty_iff, List.eq_nil_iff_forall_not_mem]
    constructor
    · intro noneRefused specifier offset imports
      by_contra refused
      exact noneRefused specifier
        ((mem_iff specifier).mpr ⟨⟨offset, imports⟩, Bool.eq_false_iff.mpr refused⟩)
    · intro allAllowed specifier member
      obtain ⟨⟨offset, imports⟩, refused⟩ := (mem_iff specifier).mp member
      rw [allAllowed specifier offset imports] at refused
      cases refused
  · intro unconfigured specifier offset imports
    exact (mem_iff specifier).mpr ⟨⟨offset, imports⟩, allows_eq_false unconfigured specifier⟩
  · exact congrArg (ofSpecifiers allowed) (specifiers_eq_mergedSpecifiers text)

end MdxBuild.Route

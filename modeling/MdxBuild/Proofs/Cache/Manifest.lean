import MdxBuild.Cache.Manifest
import MdxBuild.Proofs.Dictionary

/-!
# Digests in the manifest

The manifest is seen through `digest?`: what recording a digest and forgetting a document change in
it, and which digests it refers to.
-/

namespace MdxBuild

theorem Stage.name_injective {stage other : Stage} (same : stage.name = other.name) :
    stage = other := by
  cases stage <;> cases other <;> first | rfl | exact absurd same (by decide)

namespace Manifest

@[simp]
theorem digest?_empty (stage : Stage) (id : Text) : empty.digest? stage id = none :=
  rfl

/-- A manifest of another format is not loaded. -/
theorem version_load (disk : Disk) : (load disk).version = formatVersion := by
  rw [load]
  split
  · next text _ =>
    rw [ofText]
    split
    · split
      · assumption
      · rfl
    · rfl
  · rfl

/-- The manifest refers to a digest exactly if some document has it. -/
theorem references_iff {manifest : Manifest} {stage : Stage} {digest : Text} :
    manifest.references stage digest = true ↔ ∃ id, manifest.digest? stage id = some digest := by
  rw [references, List.contains_iff_mem, Dictionary.mem_values]
  rfl

theorem exists_of_references {manifest : Manifest} {stage : Stage} {digest : Text}
    (referenced : manifest.references stage digest ≠ false) :
    ∃ id, manifest.digest? stage id = some digest :=
  references_iff.mp (Bool.ne_false_iff.mp referenced)

theorem digest?_record (manifest : Manifest) (stage other : Stage) (id document digest : Text) :
    (manifest.record stage id digest).digest? other document =
      if other = stage ∧ document = id then some digest else manifest.digest? other document := by
  by_cases sameStage : other = stage
  · subst sameStage
    simp [digest?, documents, record, Dictionary.find?_insert]
  · have differs : other.name ≠ stage.name := fun same => sameStage (Stage.name_injective same)
    simp [digest?, documents, record, differs, sameStage]

@[simp]
theorem digest?_record_self (manifest : Manifest) (stage : Stage) (id digest : Text) :
    (manifest.record stage id digest).digest? stage id = some digest := by
  simp [digest?_record]

theorem digest?_record_of_ne (manifest : Manifest) {stage other : Stage} {id document : Text}
    (digest : Text) (different : ¬(other = stage ∧ document = id)) :
    (manifest.record stage id digest).digest? other document = manifest.digest? other document := by
  rw [digest?_record, if_neg different]

theorem digest?_remove (manifest : Manifest) (stage : Stage) (id document : Text) :
    (manifest.remove id).digest? stage document =
      if document = id then none else manifest.digest? stage document := by
  have erased : (manifest.remove id).documents stage = (manifest.documents stage).erase id := by
    simp only [documents, remove, Dictionary.find?_map]
    cases manifest.namespaces.find? stage.name <;> rfl
  rw [digest?, erased, Dictionary.find?_erase]
  rfl

/-! ## Digests that go out of use -/

/-- The digest that a document had in a stage before another one is recorded, with the stage, unless
the digest is still in use then. -/
def superseded (manifest : Manifest) (stage : Stage) (id digest : Text) : List (Stage × Text) :=
  match manifest.digest? stage id with
  | none => []
  | some previous =>
    if previous = digest || (manifest.record stage id digest).references stage previous then []
    else [(stage, previous)]

/-- The digests that only a document refers to, with their stages. -/
def stale (manifest : Manifest) (id : Text) : List (Stage × Text) :=
  Stage.all.filterMap fun stage =>
    (manifest.digest? stage id).bind fun digest =>
      if (manifest.remove id).references stage digest then none else some (stage, digest)

section OutOfUse

variable {manifest : Manifest} {stage other : Stage} {id digest key : Text}

theorem mem_superseded :
    (other, key) ∈ manifest.superseded stage id digest ↔
      other = stage ∧ manifest.digest? stage id = some key ∧
        (manifest.record stage id digest).references stage key = false := by
  rw [superseded]
  cases previously : manifest.digest? stage id with
  | none => simp
  | some previous =>
    simp only [Option.some.injEq]
    have recorded : (manifest.record stage id digest).references stage digest = true :=
      references_iff.mpr ⟨id, digest?_record_self ..⟩
    split
    · next kept =>
      have referenced : (manifest.record stage id digest).references stage previous = true := by
        rcases Bool.or_eq_true_iff.mp kept with same | referenced
        · rwa [of_decide_eq_true same]
        · exact referenced
      simp only [List.not_mem_nil, false_iff]
      rintro ⟨-, rfl, unreferenced⟩
      rw [referenced] at unreferenced
      cases unreferenced
    · next dropped =>
      simp only [Bool.or_eq_true, not_or, Bool.not_eq_true] at dropped
      rw [List.mem_singleton, Prod.mk.injEq]
      constructor
      · rintro ⟨rfl, rfl⟩
        exact ⟨rfl, rfl, dropped.2⟩
      · rintro ⟨rfl, rfl, -⟩
        exact ⟨rfl, rfl⟩

theorem mem_stale :
    (stage, digest) ∈ manifest.stale id ↔ manifest.digest? stage id = some digest ∧
      (manifest.remove id).references stage digest = false := by
  have listed : stage ∈ Stage.all := by cases stage <;> decide
  simp only [stale, List.mem_filterMap, Option.bind_eq_some_iff]
  constructor
  · rintro ⟨found, -, previous, had, kept⟩
    split at kept
    · cases kept
    · next unreferenced =>
      obtain ⟨rfl, rfl⟩ : found = stage ∧ previous = digest := by simpa using kept
      exact ⟨had, Bool.not_eq_true _ ▸ unreferenced⟩
  · rintro ⟨had, unreferenced⟩
    exact ⟨stage, listed, digest, had, by simp [unreferenced]⟩

end OutOfUse

end Manifest

end MdxBuild

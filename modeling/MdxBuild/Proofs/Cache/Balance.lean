import MdxBuild.Proofs.Cache.Step

/-!
# Balance of memory and manifest

In a cache without a directory, memory holds an artifact under a digest exactly if the manifest
says of some document that it has this digest. Each operation of a build keeps this balance, though
not each operation of the cache: keeping an artifact upsets it until the digest is recorded.
-/

namespace MdxBuild.BuildCache

/-- A digest is held in memory exactly if some document has it. -/
structure Balanced (cache : BuildCache) : Prop where
  memoryOnly : cache.disk = none
  held_iff : ∀ (stage : Stage) (digest : Text),
    (cache.held stage digest).isSome ↔ ∃ id, cache.manifest.digest? stage id = some digest

namespace Balanced

variable {cache after : BuildCache} {stage : Stage} {id digest : Text}

theorem start : (ofDisk none).Balanced where
  memoryOnly := rfl
  held_iff stage digest := by
    rw [held_ofDisk]
    simp [ofDisk]

theorem get (balanced : cache.Balanced) : (cache.get stage digest).2.Balanced where
  memoryOnly := disk_get_of_memoryOnly balanced.memoryOnly
  held_iff other key := by
    rw [held_get_of_memoryOnly balanced.memoryOnly, manifest_get]
    exact balanced.held_iff other key

/-- Recording a digest restores the balance of a cache that holds this digest beyond those that
documents have. -/
theorem of_record (memoryOnly : cache.disk = none)
    (held_iff : ∀ (other : Stage) (key : Text), (cache.held other key).isSome ↔
      (∃ document, cache.manifest.digest? other document = some key) ∨
        other = stage ∧ key = digest) :
    (cache.record stage id digest).Balanced where
  memoryOnly := disk_record_of_memoryOnly memoryOnly
  held_iff other key := by
    rw [held_record, manifest_record]
    by_cases dropped : other = stage ∧ cache.manifest.digest? stage id = some key ∧
        (cache.manifest.record stage id digest).references stage key = false
    · -- The digest that the document had before, which no document has now.
      rw [if_pos dropped]
      obtain ⟨rfl, -, unreferenced⟩ := dropped
      rw [← Manifest.references_iff, unreferenced]
      simp
    · rw [if_neg dropped, held_iff]
      constructor
      · rintro (⟨document, had⟩ | ⟨rfl, rfl⟩)
        · by_cases moved : other = stage ∧ document = id
          · obtain ⟨rfl, rfl⟩ := moved
            apply Manifest.exists_of_references
            intro unreferenced
            exact dropped ⟨rfl, had, unreferenced⟩
          · exact ⟨document, by rw [Manifest.digest?_record_of_ne _ _ moved, had]⟩
        · exact ⟨id, Manifest.digest?_record_self ..⟩
      · rintro ⟨document, has⟩
        rw [Manifest.digest?_record] at has
        split at has
        · next moved => exact .inr ⟨moved.1, (Option.some.inj has).symm⟩
        · exact .inl ⟨document, has⟩

/-- Recording a digest that memory holds keeps the balance. -/
theorem record (balanced : cache.Balanced) {artifact : stage.Artifact}
    (inMemory : cache.held stage digest = some artifact) :
    (cache.record stage id digest).Balanced := by
  apply of_record balanced.memoryOnly
  intro other key
  rw [balanced.held_iff]
  constructor
  · exact .inl
  · rintro (had | ⟨rfl, rfl⟩)
    · exact had
    · exact (balanced.held_iff other key).mp (by rw [inMemory]; rfl)

/-- Keeping an artifact and recording its digest keeps the balance. -/
theorem put_record (balanced : cache.Balanced) (artifact : stage.Artifact) :
    ((cache.put stage digest artifact).2.record stage id digest).Balanced := by
  apply of_record (disk_put_of_memoryOnly balanced.memoryOnly artifact)
  intro other key
  rw [manifest_put, ← balanced.held_iff]
  by_cases same : other = stage ∧ key = digest
  · obtain ⟨rfl, rfl⟩ := same
    simp [held_put_of_memoryOnly balanced.memoryOnly]
  · rw [held_put_of_ne artifact same]
    simp [same]

theorem step {permit : Permit} (balanced : cache.Balanced) (step : Step permit cache after) :
    after.Balanced := by
  cases step with
  | looked stage names => exact balanced.get
  | found names records inMemory => exact balanced.record inMemory
  | kept names records keeps absent => exact balanced.put_record _

theorem steps {permit : Permit} (balanced : cache.Balanced) (steps : Steps permit cache after) :
    after.Balanced :=
  steps.preserve Balanced (fun step balanced => balanced.step step) balanced

/-- Forgetting a document drops exactly the digests that only it had. -/
theorem invalidate (balanced : cache.Balanced) : (cache.invalidate id).Balanced where
  memoryOnly := disk_invalidate_of_memoryOnly balanced.memoryOnly
  held_iff stage digest := by
    rw [held_invalidate, manifest_invalidate]
    by_cases dropped : cache.manifest.digest? stage id = some digest ∧
        (cache.manifest.remove id).references stage digest = false
    · rw [if_pos dropped, ← Manifest.references_iff, dropped.2]
      simp
    · rw [if_neg dropped, balanced.held_iff]
      constructor
      · rintro ⟨document, had⟩
        by_cases forgotten : document = id
        · subst forgotten
          apply Manifest.exists_of_references
          intro unreferenced
          exact dropped ⟨had, unreferenced⟩
        · exact ⟨document, by rw [Manifest.digest?_remove, if_neg forgotten, had]⟩
      · rintro ⟨document, has⟩
        rw [Manifest.digest?_remove] at has
        split at has
        · cases has
        · exact ⟨document, has⟩

theorem clear (balanced : cache.Balanced) : cache.clear.Balanced where
  memoryOnly := balanced.memoryOnly
  held_iff stage digest := by simp

end Balanced

end MdxBuild.BuildCache

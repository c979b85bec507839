import MdxBuild.Proofs.Cache.Step

/-!
# What documents have in the cache

A document has an artifact in a stage if its digest is recorded there and memory holds the artifact
under this digest. Steps that record digests of other documents, or in other stages, take nothing
from it: what some document has is never evicted.
-/

namespace MdxBuild.BuildCache

/-- The document has the artifact, under the digest, in the stage. -/
structure Has (cache : BuildCache) (stage : Stage) (id digest : Text)
    (artifact : stage.Artifact) : Prop where
  recorded : cache.manifest.digest? stage id = some digest
  held : cache.held stage digest = some artifact

namespace Has

variable {cache after : BuildCache} {stage other : Stage} {id document digest key : Text}
  {artifact : stage.Artifact}

theorem get (has : cache.Has stage id digest artifact) :
    (cache.get other key).2.Has stage id digest artifact where
  recorded := has.recorded
  held := held_get_of_held has.held

/-- A document has the artifact whose digest has just been recorded for it. -/
theorem of_record (inMemory : cache.held stage digest = some artifact) :
    (cache.record stage id digest).Has stage id digest artifact where
  recorded := by rw [manifest_record, Manifest.digest?_record_self]
  held := by
    have referenced : (cache.manifest.record stage id digest).references stage digest = true :=
      Manifest.references_iff.mpr ⟨id, Manifest.digest?_record_self ..⟩
    rw [held_record, if_neg]
    · exact inMemory
    · rintro ⟨-, -, unreferenced⟩
      rw [referenced] at unreferenced
      cases unreferenced

/-- Recording a digest takes nothing from other documents and in other stages. -/
theorem record (has : cache.Has stage id digest artifact)
    (different : ¬(stage = other ∧ id = document)) :
    (cache.record other document key).Has stage id digest artifact where
  recorded := by rw [manifest_record, Manifest.digest?_record_of_ne _ _ different, has.recorded]
  held := by
    rw [held_record, if_neg]
    · exact has.held
    · rintro ⟨rfl, -, unreferenced⟩
      have referenced : (cache.manifest.record stage document key).references stage digest = true :=
        Manifest.references_iff.mpr
          ⟨id, by rw [Manifest.digest?_record_of_ne _ _ different, has.recorded]⟩
      rw [referenced] at unreferenced
      cases unreferenced

/-- Keeping an artifact takes nothing from other digests and in other stages. -/
theorem put_of_ne (has : cache.Has stage id digest artifact) (kept : other.Artifact)
    (different : ¬(stage = other ∧ digest = key)) :
    (cache.put other key kept).2.Has stage id digest artifact where
  recorded := has.recorded
  held := by rw [held_put_of_ne kept different, has.held]

/-- Keeping an artifact under a digest that memory lacks takes nothing from any document. -/
theorem put_of_absent (has : cache.Has stage id digest artifact) (kept : other.Artifact)
    (absent : cache.held other key = none) :
    (cache.put other key kept).2.Has stage id digest artifact := by
  apply has.put_of_ne kept
  rintro ⟨rfl, rfl⟩
  rw [has.held] at absent
  cases absent

/-- Keeping an artifact leaves every document some artifact. -/
theorem put (has : cache.Has stage id digest artifact) (kept : other.Artifact) :
    ∃ artifact, (cache.put other key kept).2.Has stage id digest artifact := by
  by_cases same : stage = other ∧ digest = key
  · obtain ⟨rfl, rfl⟩ := same
    by_cases succeeds : (cache.put stage digest kept).1.toBool = true
    · exact ⟨kept, has.recorded, by rw [held_put_self, if_pos succeeds]⟩
    · exact ⟨artifact, has.recorded, by rw [held_put_self, if_neg succeeds, has.held]⟩
  · exact ⟨artifact, has.put_of_ne kept same⟩

variable {permit : Permit}

/-- A step that records nothing for the document in the stage leaves it the artifact that it has,
except that in the last stage the artifact may be another one. -/
theorem step (has : cache.Has stage id digest artifact) (step : Step permit cache after)
    (unrecorded : ¬permit.records stage id) :
    ∃ kept, after.Has stage id digest kept ∧ (stage ≠ .lowering → kept = artifact) := by
  have unaffected {other : Stage} {document : Text} (records : permit.records other document) :
      ¬(stage = other ∧ id = document) := by
    rintro ⟨rfl, rfl⟩
    exact unrecorded records
  cases step with
  | looked other names => exact ⟨artifact, has.get, fun _ => rfl⟩
  | found names records inMemory => exact ⟨artifact, has.record (unaffected records), fun _ => rfl⟩
  | @kept other document key kept names records keeps absent =>
    rcases absent with rfl | absent
    · by_cases last : stage = .lowering
      · obtain ⟨remaining, has⟩ := has.put kept
        exact ⟨remaining, has.record (unaffected records), fun earlier => absurd last earlier⟩
      · have different : ¬(stage = .lowering ∧ digest = key) := fun same => last same.1
        have remains := has.put_of_ne kept different
        exact ⟨artifact, remains.record (unaffected records), fun _ => rfl⟩
    · have remains := has.put_of_absent kept (held_of_missing absent)
      exact ⟨artifact, remains.record (unaffected records), fun _ => rfl⟩

/-- Steps that record nothing for the document in a stage before the last one leave it the artifact
that it has. -/
theorem steps (has : cache.Has stage id digest artifact) (steps : Steps permit cache after)
    (unrecorded : ¬permit.records stage id) (earlier : stage ≠ .lowering) :
    after.Has stage id digest artifact := by
  apply steps.preserve (fun cache => cache.Has stage id digest artifact) _ has
  intro before next step has
  obtain ⟨kept, has, same⟩ := has.step step unrecorded
  rwa [same earlier] at has

/-- Steps that record nothing for the document in a stage leave it some artifact under its
digest. -/
theorem exists_steps (has : cache.Has stage id digest artifact) (steps : Steps permit cache after)
    (unrecorded : ¬permit.records stage id) : ∃ kept, after.Has stage id digest kept := by
  apply steps.preserve (fun cache => ∃ kept, cache.Has stage id digest kept) _ ⟨artifact, has⟩
  rintro before next step ⟨kept, has⟩
  obtain ⟨remaining, has, -⟩ := has.step step unrecorded
  exact ⟨remaining, has⟩

end Has

end MdxBuild.BuildCache

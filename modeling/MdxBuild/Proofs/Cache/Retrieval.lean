import MdxBuild.Proofs.Cache.Frame
import MdxBuild.Proofs.Cache.Retention
import MdxBuild.Proofs.Storage.Writing

/-!
# What documents can retrieve

A document retrieves an artifact if its digest is recorded and a look-up finds the artifact, be it in
memory or in its file. Steps that record digests of other documents, or in other stages, leave it
the artifact. For one that is in memory that needs nothing; for one that is only on disk, digests
must not spell paths, since a digest that spells a path can name the file of another one.
-/

namespace MdxBuild.BuildCache

variable {cache after : BuildCache} {stage other : Stage} {id document digest key : Text}
  {artifact : stage.Artifact} {names : Text → Prop}

instance (manifest : Manifest) : Decidable manifest.IsFlat :=
  decidable_of_iff
    (∀ stage ∈ Stage.all, ∀ digest ∈ (manifest.documents stage).values, '/' ∉ digest) <| by
    constructor
    · intro flat stage id digest recorded
      exact flat stage (by cases stage <;> decide) digest (Dictionary.mem_values.mpr ⟨id, recorded⟩)
    · intro flat stage _ digest listed
      obtain ⟨id, recorded⟩ := Dictionary.mem_values.mp listed
      exact flat stage id digest recorded

/-! ## Files after look-ups and writes -/

/-- A look-up of another digest leaves the file of an artifact as it is. -/
theorem fileText?_get_of_ne (noSlash : '/' ∉ digest) (noSlashKey : '/' ∉ key)
    (different : ¬(stage = other ∧ digest = key)) :
    Store.fileText? stage (cache.get other key).2.disk digest =
      Store.fileText? stage cache.disk digest := by
  rcases disk_get cache other key with same | removed
  · rw [same]
  · rw [removed, ← disk_evict, fileText?_evict noSlashKey noSlash, if_neg different]

/-- What is read from the file of an artifact is still read after a write under another digest. -/
theorem fileText?_put_of_ne {text : Text} (kept : other.Artifact) (noSlash : '/' ∉ digest)
    (noSlashKey : '/' ∉ key) (different : ¬(stage = other ∧ digest = key))
    (reads : Store.fileText? stage cache.disk digest = some text) :
    Store.fileText? stage (cache.put other key kept).2.disk digest = some text := by
  rw [disk_put]
  cases isDisk : cache.disk with
  | none => simp [Store.fileText?, isDisk] at reads
  | some tree =>
    rw [isDisk, Store.fileText?, Option.bind_some] at reads
    rw [Store.fileText?, Option.map_some, Option.bind_some]
    have differs : (stage.path digest).toText ≠ (other.path key).toText :=
      fun same => different (Stage.path_injective noSlashKey noSlash same)
    exact Disk.read?_put_of_ne (Stage.isDirect_path other noSlashKey)
      (Stage.isDirect_path stage noSlash) differs reads

/-! ## Artifacts that are only on disk -/

/-- The document has the artifact, under the digest, in its file only, and none of the digests that
are recorded or in use spells a path. -/
structure Filed (cache : BuildCache) (names : Text → Prop) (stage : Stage) (id digest : Text)
    (artifact : stage.Artifact) : Prop where
  recorded : cache.manifest.digest? stage id = some digest
  absent : cache.held stage digest = none
  file : ∃ text, Store.fileText? stage cache.disk digest = some text ∧
    stage.decode text = .ok artifact
  flat : cache.manifest.IsFlat
  noSlash : ∀ {key}, names key → '/' ∉ key

/-- The document's digest is recorded, and a look-up finds the artifact under it. -/
def Retrieves (cache : BuildCache) (names : Text → Prop) (stage : Stage) (id digest : Text)
    (artifact : stage.Artifact) : Prop :=
  cache.Has stage id digest artifact ∨ cache.Filed names stage id digest artifact

namespace Filed

theorem found (filed : cache.Filed names stage id digest artifact) :
    (cache.get stage digest).1 = some artifact := by
  obtain ⟨text, reads, decodes⟩ := filed.file
  rw [found_get, filed.absent, reads, Option.none_or, Option.bind_some, decodes]
  rfl

/-- A look-up brings the artifact into memory or leaves it in its file. -/
theorem get (filed : cache.Filed names stage id digest artifact) (named : names key) :
    (cache.get other key).2.Retrieves names stage id digest artifact := by
  by_cases same : stage = other ∧ digest = key
  · obtain ⟨rfl, rfl⟩ := same
    exact .inl ⟨filed.recorded, held_get_self.trans filed.found⟩
  · have noSlash := filed.flat stage id digest filed.recorded
    right
    constructor
    · exact filed.recorded
    · rw [held_get_of_ne same, filed.absent]
    · rw [fileText?_get_of_ne noSlash (filed.noSlash named) same]
      exact filed.file
    · exact filed.flat
    · exact filed.noSlash

/-- Recording a digest leaves other documents and other stages their files. -/
theorem record (filed : cache.Filed names stage id digest artifact) (named : names key)
    (different : ¬(stage = other ∧ id = document)) :
    (cache.record other document key).Filed names stage id digest artifact where
  recorded := by rw [manifest_record, Manifest.digest?_record_of_ne _ _ different, filed.recorded]
  absent := by
    rw [held_record, filed.absent]
    exact ite_self _
  file := by
    have flatSuperseded : ∀ entry ∈ cache.manifest.superseded other document key, '/' ∉ entry.2 :=
      fun entry member => filed.flat _ _ _ (mem_superseded_iff.mp member).1
    have spared : (stage, digest) ∉ cache.manifest.superseded other document key := by
      rw [mem_superseded_iff]
      rintro ⟨-, unreferenced⟩
      have referenced : (cache.manifest.record other document key).references stage digest = true :=
        Manifest.references_iff.mpr
          ⟨id, by rw [Manifest.digest?_record_of_ne _ _ different, filed.recorded]⟩
      rw [referenced] at unreferenced
      cases unreferenced
    rw [record_eq, fileText?_evictAll flatSuperseded (filed.flat _ _ _ filed.recorded),
      if_neg spared]
    exact filed.file
  flat := by
    intro space owner noted isNoted
    rw [manifest_record, Manifest.digest?_record] at isNoted
    split at isNoted
    · cases isNoted
      exact filed.noSlash named
    · exact filed.flat space owner noted isNoted
  noSlash := filed.noSlash

/-- Keeping an artifact leaves other digests and other stages their files. -/
theorem put_of_ne (filed : cache.Filed names stage id digest artifact) (kept : other.Artifact)
    (named : names key) (different : ¬(stage = other ∧ digest = key)) :
    (cache.put other key kept).2.Filed names stage id digest artifact where
  recorded := filed.recorded
  absent := by rw [held_put_of_ne kept different, filed.absent]
  file := by
    obtain ⟨text, reads, decodes⟩ := filed.file
    have noSlash := filed.flat stage id digest filed.recorded
    exact ⟨text, fileText?_put_of_ne kept noSlash (filed.noSlash named) different reads, decodes⟩
  flat := filed.flat
  noSlash := filed.noSlash

end Filed

/-! ## Artifacts in memory or on disk -/

/-- The document's digest is recorded, and a look-up finds the artifact under it. If the artifact is
on disk only, no recorded digest spells a path. -/
structure Recalls (cache : BuildCache) (stage : Stage) (id digest : Text)
    (artifact : stage.Artifact) : Prop where
  recorded : cache.manifest.digest? stage id = some digest
  found : (cache.get stage digest).1 = some artifact
  flat : cache.held stage digest = none → cache.manifest.IsFlat

namespace Retrieves

theorem of_recalls (recalls : cache.Recalls stage id digest artifact)
    (noSlash : cache.disk.isSome → ∀ {key}, names key → '/' ∉ key) :
    cache.Retrieves names stage id digest artifact := by
  obtain ⟨recorded, found, flat⟩ := recalls
  cases inMemory : cache.held stage digest with
  | some existing =>
    rw [found_get_of_held inMemory] at found
    obtain rfl := Option.some.inj found
    exact .inl ⟨recorded, inMemory⟩
  | none =>
    rcases held_of_held_get (held_get_self.trans found) with before | ⟨-, text, reads, decodes⟩
    · rw [inMemory] at before
      cases before
    · have durable : cache.disk.isSome := by
        obtain ⟨tree, isDisk, -⟩ := Option.bind_eq_some_iff.mp reads
        exact Option.isSome_of_eq_some isDisk
      exact .inr ⟨recorded, inMemory, ⟨text, reads, decodes⟩, flat inMemory, noSlash durable⟩

theorem recorded (retrieves : cache.Retrieves names stage id digest artifact) :
    cache.manifest.digest? stage id = some digest := by
  rcases retrieves with has | filed
  · exact has.recorded
  · exact filed.recorded

theorem found (retrieves : cache.Retrieves names stage id digest artifact) :
    (cache.get stage digest).1 = some artifact := by
  rcases retrieves with has | filed
  · exact found_get_of_held has.held
  · exact filed.found

theorem get (retrieves : cache.Retrieves names stage id digest artifact) (named : names key) :
    (cache.get other key).2.Retrieves names stage id digest artifact := by
  rcases retrieves with has | filed
  · exact .inl has.get
  · exact filed.get named

theorem record (retrieves : cache.Retrieves names stage id digest artifact) (named : names key)
    (different : ¬(stage = other ∧ id = document)) :
    (cache.record other document key).Retrieves names stage id digest artifact := by
  rcases retrieves with has | filed
  · exact .inl (has.record different)
  · exact .inr (filed.record named different)

theorem put_of_ne (retrieves : cache.Retrieves names stage id digest artifact)
    (kept : other.Artifact) (named : names key) (different : ¬(stage = other ∧ digest = key)) :
    (cache.put other key kept).2.Retrieves names stage id digest artifact := by
  rcases retrieves with has | filed
  · exact .inl (has.put_of_ne kept different)
  · exact .inr (filed.put_of_ne kept named different)

variable {permit : Permit}

/-- A step that records nothing for the document in the stage leaves it what it retrieves, unless it
keeps another artifact over this one, which only happens in the last stage. -/
theorem step (retrieves : cache.Retrieves permit.names stage id digest artifact)
    (step : Step permit cache after) (unrecorded : ¬permit.records stage id)
    (unkept : stage = .lowering → ∀ kept, ¬permit.keeps stage digest kept) :
    after.Retrieves permit.names stage id digest artifact := by
  have unaffected {other : Stage} {document : Text} (records : permit.records other document) :
      ¬(stage = other ∧ id = document) := by
    rintro ⟨rfl, rfl⟩
    exact unrecorded records
  cases step with
  | looked other named => exact retrieves.get named
  | found named records inMemory => exact retrieves.record named (unaffected records)
  | @kept other document key kept named records keeps absent =>
    have different : ¬(stage = other ∧ digest = key) := by
      rintro ⟨rfl, rfl⟩
      rcases absent with last | missing
      · exact unkept last kept keeps
      · rw [retrieves.found] at missing
        cases missing
    exact (retrieves.put_of_ne kept named different).record named (unaffected records)

theorem steps (retrieves : cache.Retrieves permit.names stage id digest artifact)
    (steps : Steps permit cache after) (unrecorded : ¬permit.records stage id)
    (unkept : stage = .lowering → ∀ kept, ¬permit.keeps stage digest kept) :
    after.Retrieves permit.names stage id digest artifact :=
  steps.preserve (fun cache => cache.Retrieves permit.names stage id digest artifact)
    (fun step retrieves => retrieves.step step unrecorded unkept) retrieves

end Retrieves

/-- Steps that record nothing for the document in a stage leave it the digest that it has there. -/
theorem digest?_steps {permit : Permit} (steps : Steps permit cache after)
    (unrecorded : ¬permit.records stage id) :
    after.manifest.digest? stage id = cache.manifest.digest? stage id := by
  have unaffected {other : Stage} {document : Text} (records : permit.records other document) :
      ¬(stage = other ∧ id = document) := by
    rintro ⟨rfl, rfl⟩
    exact unrecorded records
  refine steps.preserve
    (fun next => next.manifest.digest? stage id = cache.manifest.digest? stage id) ?_ rfl
  intro before next step same
  cases step with
  | looked => exact same
  | found _ records =>
    rw [manifest_record, Manifest.digest?_record_of_ne _ _ (unaffected records), same]
  | kept _ records =>
    rw [manifest_record, manifest_put, Manifest.digest?_record_of_ne _ _ (unaffected records), same]

end MdxBuild.BuildCache

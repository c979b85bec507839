import MdxBuild.Proofs.Cache.Build
import MdxBuild.Proofs.Cache.Directory

/-!
# Operations about one document

Recording a digest and forgetting a document change the entries of this document in the manifest,
and drop the artifacts that no document refers to any more because of that. Everything else stays as
it was, in memory and on disk, whatever state the cache and its directory are in: other documents
keep what they refer to, also where they share it with the document.
-/

namespace MdxBuild

namespace Manifest

variable {manifest : Manifest}

/-- The digest of a document under a name, which need not be the name of a stage. -/
def listed? (manifest : Manifest) (space id : Text) : Option Text :=
  (manifest.namespaces.find? space).bind (·.find? id)

theorem digest?_eq_listed? (stage : Stage) (id : Text) :
    manifest.digest? stage id = manifest.listed? stage.name id := by
  rw [digest?, documents, listed?]
  cases manifest.namespaces.find? stage.name <;> rfl

theorem listed?_record (stage : Stage) (id digest space document : Text) :
    (manifest.record stage id digest).listed? space document =
      if space = stage.name ∧ document = id then some digest
      else manifest.listed? space document := by
  by_cases own : space = stage.name
  · subst own
    rw [← digest?_eq_listed?, ← digest?_eq_listed?, digest?_record]
    simp only [true_and]
  · rw [listed?, record, Dictionary.find?_insert, if_neg own, if_neg fun both => own both.1,
      listed?]

theorem listed?_remove (id space document : Text) :
    (manifest.remove id).listed? space document =
      if document = id then none else manifest.listed? space document := by
  rw [listed?, listed?, remove, Dictionary.find?_map]
  cases manifest.namespaces.find? space with
  | none => simp
  | some documents => exact Dictionary.find?_erase documents id document

/-- No digest of a document spells a path, as hexadecimal digests do not. -/
def IsFlat (manifest : Manifest) : Prop :=
  ∀ (stage : Stage) (id digest : Text), manifest.digest? stage id = some digest → '/' ∉ digest

end Manifest

namespace BuildCache

variable {cache before after : BuildCache} {stage other : Stage} {digest key id : Text}

/-! ## Files after evictions -/

/-- The text in the file of an artifact after an eviction. -/
theorem fileText?_evict (noSlash : '/' ∉ digest) (noSlashKey : '/' ∉ key) :
    Store.fileText? other (cache.evict stage digest).disk key =
      if other = stage ∧ key = digest then none else Store.fileText? other cache.disk key := by
  rw [disk_evict]
  cases cache.disk with
  | none => exact (ite_self _).symm
  | some tree =>
    simp only [Store.fileText?, Option.map_some, Option.bind_some]
    split
    · next same =>
      obtain ⟨rfl, rfl⟩ := same
      exact Disk.read?_remove_self tree _
    · next different => exact Disk.read?_remove_path_of_ne noSlash noSlashKey different

theorem fileText?_evictAll {entries : List (Stage × Text)}
    (noSlashes : ∀ entry ∈ entries, '/' ∉ entry.2) (noSlash : '/' ∉ digest) :
    Store.fileText? stage (cache.evictAll entries).disk digest =
      if (stage, digest) ∈ entries then none else Store.fileText? stage cache.disk digest := by
  induction entries generalizing cache with
  | nil => rfl
  | cons entry others ih =>
    rw [List.forall_mem_cons] at noSlashes
    rw [evictAll_cons, ih noSlashes.2, fileText?_evict noSlashes.1 noSlash]
    by_cases isFirst : stage = entry.1 ∧ digest = entry.2
    · obtain ⟨rfl, rfl⟩ := isFirst
      simp
    · have differs : (stage, digest) ≠ entry := by
        rintro rfl
        exact isFirst ⟨rfl, rfl⟩
      simp [isFirst, differs]

/-! ## What is left alone -/

/-- What memory and the directory hold for a digest is as it was, and so is what a look-up finds. -/
structure Untouched (before after : BuildCache) (stage : Stage) (digest : Text) : Prop where
  held : after.held stage digest = before.held stage digest
  file : Store.fileText? stage after.disk digest = Store.fileText? stage before.disk digest
  found : (after.get stage digest).1 = (before.get stage digest).1

/-- Neither memory nor the directory holds anything for a digest, and a look-up finds nothing. -/
structure Absent (cache : BuildCache) (stage : Stage) (digest : Text) : Prop where
  held : cache.held stage digest = none
  file : Store.fileText? stage cache.disk digest = none
  found : (cache.get stage digest).1 = none

theorem Untouched.of_parts (held : after.held stage digest = before.held stage digest)
    (file : Store.fileText? stage after.disk digest = Store.fileText? stage before.disk digest) :
    Untouched before after stage digest :=
  ⟨held, file, by rw [found_get, found_get, held, file]⟩

theorem Absent.of_parts (held : cache.held stage digest = none)
    (file : Store.fileText? stage cache.disk digest = none) : cache.Absent stage digest :=
  ⟨held, file, by rw [found_get, held, file]; rfl⟩

/-- An operation about one document: artifacts that some document refers to afterwards are as they
were, and so are all artifacts of stages in which the document's entry is as it was; the document's
former artifacts that nothing refers to any more are gone. -/
structure Concerns (before after : BuildCache) (id : Text) : Prop where
  referenced : ∀ (stage : Stage) {digest : Text}, '/' ∉ digest →
    after.manifest.references stage digest = true → Untouched before after stage digest
  elsewhere : ∀ (stage : Stage) {digest : Text}, '/' ∉ digest →
    after.manifest.digest? stage id = before.manifest.digest? stage id →
      Untouched before after stage digest
  unreferenced : ∀ (stage : Stage) {digest : Text},
    before.manifest.digest? stage id = some digest →
      after.manifest.references stage digest = false → after.Absent stage digest

/-- Evicting what the document had and no document has any more concerns the document alone. -/
theorem concerns_evictAll {manifest : Manifest} {dropped : List (Stage × Text)}
    (flat : cache.manifest.IsFlat)
    (dropped_iff : ∀ {stage : Stage} {digest : Text}, (stage, digest) ∈ dropped ↔
      cache.manifest.digest? stage id = some digest ∧
        manifest.references stage digest = false) :
    cache.Concerns (evictAll { cache with manifest := manifest } dropped) id := by
  have noSlashes : ∀ entry ∈ dropped, '/' ∉ entry.2 := fun entry member =>
    flat entry.1 id entry.2 (dropped_iff.mp member).1
  have untouched {stage : Stage} {digest : Text} (noSlash : '/' ∉ digest)
      (kept : (stage, digest) ∉ dropped) :
      cache.Untouched (evictAll { cache with manifest := manifest } dropped) stage digest := by
    apply Untouched.of_parts
    · rw [held_evictAll, if_neg kept]
      rfl
    · rw [fileText?_evictAll noSlashes noSlash, if_neg kept]
  constructor
  · intro stage digest noSlash referenced
    rw [manifest_evictAll] at referenced
    apply untouched noSlash
    intro member
    rw [(dropped_iff.mp member).2] at referenced
    cases referenced
  · intro stage digest noSlash same
    rw [manifest_evictAll] at same
    apply untouched noSlash
    intro member
    obtain ⟨had, unreferenced⟩ := dropped_iff.mp member
    have referenced : manifest.references stage digest = true :=
      Manifest.references_iff.mpr ⟨id, same.trans had⟩
    rw [referenced] at unreferenced
    cases unreferenced
  · intro stage digest had unreferenced
    rw [manifest_evictAll] at unreferenced
    have member : (stage, digest) ∈ dropped := dropped_iff.mpr ⟨had, unreferenced⟩
    apply Absent.of_parts
    · rw [held_evictAll, if_pos member]
    · rw [fileText?_evictAll noSlashes (noSlashes _ member), if_pos member]

/-- What recording a digest drops is what the document had and no document has any more, in any
stage: in the other stages the document has what it had. -/
theorem mem_superseded_iff :
    (other, key) ∈ cache.manifest.superseded stage id digest ↔
      cache.manifest.digest? other id = some key ∧
        (cache.manifest.record stage id digest).references other key = false := by
  rw [Manifest.mem_superseded]
  constructor
  · rintro ⟨rfl, had, unreferenced⟩
    exact ⟨had, unreferenced⟩
  · rintro ⟨had, unreferenced⟩
    by_cases same : other = stage
    · subst same
      exact ⟨rfl, had, unreferenced⟩
    · have referenced : (cache.manifest.record stage id digest).references other key = true := by
        refine Manifest.references_iff.mpr ⟨id, ?_⟩
        rw [Manifest.digest?_record_of_ne _ _ fun both => same both.1, had]
      rw [referenced] at unreferenced
      cases unreferenced

/-- Recording a digest changes the manifest for one document in one stage, forgetting a document
takes its entries out of the manifest, and both concern the artifacts of this document alone. -/
theorem record_invalidate_concern_one (flat : cache.manifest.IsFlat) (id : Text) :
    (∀ (stage : Stage) (digest : Text),
      (cache.record stage id digest).manifest.version = cache.manifest.version ∧
      (∀ space document, (cache.record stage id digest).manifest.listed? space document =
        if space = stage.name ∧ document = id then some digest
        else cache.manifest.listed? space document) ∧
      cache.Concerns (cache.record stage id digest) id) ∧
    (cache.invalidate id).manifest.version = cache.manifest.version ∧
    (∀ space document, (cache.invalidate id).manifest.listed? space document =
      if document = id then none else cache.manifest.listed? space document) ∧
    cache.Concerns (cache.invalidate id) id := by
  constructor
  · intro stage digest
    rw [manifest_record]
    refine ⟨rfl, fun space document => Manifest.listed?_record .., ?_⟩
    rw [record_eq]
    exact concerns_evictAll flat mem_superseded_iff
  · rw [manifest_invalidate]
    refine ⟨rfl, fun space document => Manifest.listed?_remove .., ?_⟩
    rw [invalidate_eq]
    exact concerns_evictAll flat Manifest.mem_stale

/-- A cache in which two documents share a compiled module. -/
def sharing : BuildCache :=
  (((ofDisk (some {})).put .compile ['d'] ⟨['c'], []⟩).2.record .compile ['a'] ['d']).record
    .compile ['b'] ['d']

/-- Of two documents that share a module, one can be forgotten without the other one losing it. -/
theorem record_invalidate_of_sharing :
    sharing.manifest.IsFlat ∧
      (sharing.invalidate ['a']).manifest.references .compile ['d'] = true ∧
      sharing.Untouched (sharing.invalidate ['a']) .compile ['d'] := by
  have digests (stage : Stage) (id : Text) : sharing.manifest.digest? stage id =
      if stage = .compile ∧ id = ['b'] then some ['d']
      else if stage = .compile ∧ id = ['a'] then some ['d'] else none := by
    rw [sharing, manifest_record, manifest_record, manifest_put, Manifest.digest?_record,
      Manifest.digest?_record]
    rfl
  have flat : sharing.manifest.IsFlat := by
    intro stage id digest has
    rw [digests] at has
    split at has
    · cases has
      decide
    · split at has
      · cases has
        decide
      · cases has
  have referenced : (sharing.invalidate ['a']).manifest.references .compile ['d'] = true := by
    rw [manifest_invalidate]
    refine Manifest.references_iff.mpr ⟨['b'], ?_⟩
    rw [Manifest.digest?_remove, if_neg (by decide), digests]
    rfl
  have concerns := (record_invalidate_concern_one flat ['a']).2.2.2
  exact ⟨flat, referenced, concerns.referenced .compile (by decide) referenced⟩

end BuildCache

end MdxBuild

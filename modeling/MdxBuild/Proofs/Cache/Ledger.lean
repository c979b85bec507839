import MdxBuild.Proofs.Cache.Operation
import MdxBuild.Proofs.Cache.Tidy

/-!
# The cache as a ledger

A durable cache in a directory of its own shows its host nothing but a ledger: the manifest, and an
artifact for some of the digests. What is in memory and what is in files cannot be told apart, as
long as every artifact that is kept can be read back from its file. Each operation answers what the
ledger says and changes the cache as it changes the ledger.
-/

namespace MdxBuild

open Digest

/-- The manifest, and the artifact of each digest of a stage that has one. -/
structure Ledger where
  manifest : Manifest
  artifact : (stage : Stage) → Text → Option stage.Artifact

namespace Ledger

variable {ε : Type} {ledger : Ledger} {stage other : Stage} {digest key : Text}

/-- The ledger with an artifact for a digest. -/
def keep (ledger : Ledger) (stage : Stage) (digest : Text) (artifact : stage.Artifact) : Ledger :=
  { ledger with
    artifact := fun other key =>
      if same : stage = other then
        if key = digest then some (same ▸ artifact) else ledger.artifact other key
      else ledger.artifact other key }

/-- The ledger without the artifact of a digest. -/
def drop (ledger : Ledger) (stage : Stage) (digest : Text) : Ledger :=
  { ledger with
    artifact := fun other key =>
      if other = stage ∧ key = digest then none else ledger.artifact other key }

/-- The ledger without the artifacts of digests. -/
def dropAll (ledger : Ledger) (entries : List (Stage × Text)) : Ledger :=
  entries.foldl (fun left entry => left.drop entry.1 entry.2) ledger

@[simp]
theorem artifact_keep_self (artifact : stage.Artifact) :
    (ledger.keep stage digest artifact).artifact stage digest = some artifact := by
  simp [keep]

theorem artifact_keep_of_ne (artifact : stage.Artifact)
    (different : ¬(other = stage ∧ key = digest)) :
    (ledger.keep stage digest artifact).artifact other key = ledger.artifact other key := by
  simp only [keep]
  split
  · next same =>
    rw [if_neg fun sameKey => different ⟨same.symm, sameKey⟩]
  · rfl

/-- What the ledger answers to an operation. -/
def answer (ledger : Ledger) : Operation ε → Answer ε
  | .put .. | .save => .written (.ok ())
  | .get stage digest => .found stage (ledger.artifact stage digest)
  | .getOrCompute stage digest computation =>
    .computed stage
      (match ledger.artifact stage digest with
      | some artifact => .ok artifact
      | none => computation)
      (ledger.artifact stage digest).isNone
  | .freshness stage id digest =>
    .compared (match ledger.manifest.digest? stage id with
      | none => .new
      | some previous => if previous = digest then .unchanged else .changed)
  | .manifest => .noted ledger.manifest
  | .evict .. | .clearStage _ | .record .. | .invalidate _ | .clear => .done

/-- The ledger after an operation. Clearing drops nothing but the manifest. -/
def operate (ledger : Ledger) : Operation ε → Ledger
  | .put stage digest artifact => ledger.keep stage digest artifact
  | .getOrCompute stage digest computation =>
    match ledger.artifact stage digest, computation with
    | none, .ok artifact => ledger.keep stage digest artifact
    | _, _ => ledger
  | .evict stage digest => ledger.drop stage digest
  | .record stage id digest =>
    dropAll { ledger with manifest := ledger.manifest.record stage id digest }
      (ledger.manifest.superseded stage id digest)
  | .invalidate id =>
    dropAll { ledger with manifest := ledger.manifest.remove id } (ledger.manifest.stale id)
  | .clear => { ledger with manifest := .empty }
  | .get .. | .clearStage _ | .freshness .. | .manifest | .save => ledger

/-- The answers to operations one after the other. -/
def answers (ledger : Ledger) : List (Operation ε) → List (Answer ε)
  | [] => []
  | operation :: others => ledger.answer operation :: answers (ledger.operate operation) others

/-- The digests of documents can stand in file names, and the format is the present one. -/
structure IsSound (ledger : Ledger) : Prop where
  current : ledger.manifest.version = Manifest.formatVersion
  digests : ∀ {stage : Stage} {id digest : Text},
    ledger.manifest.digest? stage id = some digest → NamesFile digest

end Ledger

namespace BuildCache

variable {ε : Type} {cache : BuildCache} {ledger : Ledger} {stage other : Stage}
  {digest key id : Text} {artifact : stage.Artifact}

/-- The artifact that can be read from the file of a digest. -/
def readArtifact (tree : Disk) (stage : Stage) (digest : Text) : Option stage.Artifact :=
  (tree.read? (stage.path digest)).bind fun text => (stage.decode text).toOption

/-- The cache is one in a directory of its own that shows a ledger: the files hold its artifacts,
and what is in memory is in a file as well. -/
structure Shows (cache : BuildCache) (ledger : Ledger) : Prop where
  sound : ledger.IsSound
  manifest : cache.manifest = ledger.manifest
  directory : ∃ tree, cache.disk = some tree ∧ tree.Tidy ∧
    ∀ (stage : Stage) {digest : Text}, NamesFile digest →
      readArtifact tree stage digest = ledger.artifact stage digest
  inMemory : ∀ {stage : Stage} {digest : Text} {artifact : stage.Artifact}, NamesFile digest →
    cache.held stage digest = some artifact → ledger.artifact stage digest = some artifact

/-! ## Files -/

section Files

variable {tree : Disk}

/-- Without the file of a digest, nothing is read for it; nothing changes for the others. -/
theorem readArtifact_remove (names : NamesFile digest) (namesKey : NamesFile key) :
    readArtifact (tree.remove (stage.path digest)) other key =
      if other = stage ∧ key = digest then none else readArtifact tree other key := by
  split
  · next same =>
    obtain ⟨rfl, rfl⟩ := same
    rw [readArtifact, Disk.read?_remove_self, Option.bind_none]
  · next different =>
    rw [readArtifact, Disk.read?_remove_path_of_ne names.noSlash namesKey.noSlash different,
      readArtifact]

/-- An artifact that survives being written is read from its file. -/
theorem readArtifact_put_self (tidy : tree.Tidy) (names : NamesFile digest)
    (survives : stage.decode (stage.encode artifact).render = .ok artifact) :
    readArtifact (tree.put (stage.path digest) (stage.encode artifact).render).2 stage digest =
      some artifact := by
  rw [readArtifact, tidy.read?_put_self names, Option.bind_some, survives]
  rfl

theorem readArtifact_put_of_ne (tidy : tree.Tidy) (names : NamesFile digest)
    (namesKey : NamesFile key) (different : ¬(other = stage ∧ key = digest)) {text : Text} :
    readArtifact (tree.put (stage.path digest) text).2 other key = readArtifact tree other key := by
  rw [readArtifact, tidy.read?_put_of_ne names namesKey different, readArtifact]

end Files

namespace Shows

/-! ## Look-ups -/

/-- A look-up finds what the ledger says. -/
theorem found_get (shows : cache.Shows ledger) (names : NamesFile digest) :
    (cache.get stage digest).1 = ledger.artifact stage digest := by
  obtain ⟨tree, isDisk, -, reads⟩ := shows.directory
  rw [BuildCache.found_get, isDisk]
  cases inMemory : cache.held stage digest with
  | some artifact => rw [Option.some_or, shows.inMemory names inMemory]
  | none => exact Option.none_or.trans (reads stage names)

theorem computes_eq (shows : cache.Shows ledger) (names : NamesFile digest) :
    cache.computes stage digest = (ledger.artifact stage digest).isNone := by
  rw [computes, shows.found_get names]

/-- A look-up changes nothing that the ledger says. -/
theorem get (shows : cache.Shows ledger) (names : NamesFile digest) :
    (cache.get stage digest).2.Shows ledger where
  sound := shows.sound
  manifest := shows.manifest
  directory := by
    obtain ⟨tree, isDisk, tidy, reads⟩ := shows.directory
    have found : (cache.get stage digest).1 = ledger.artifact stage digest := shows.found_get names
    cases inLedger : ledger.artifact stage digest with
    | some artifact =>
      rw [disk_get_of_found (found.trans inLedger)]
      exact ⟨tree, isDisk, tidy, reads⟩
    | none =>
      -- What is removed is the file of a digest that has no artifact.
      rcases disk_get cache stage digest with same | removed
      · exact ⟨tree, same.trans isDisk, tidy, reads⟩
      · rw [isDisk] at removed
        refine ⟨_, removed, tidy.remove_artifact names, ?_⟩
        intro other key namesKey
        rw [readArtifact_remove names namesKey, reads other namesKey]
        split
        · next same =>
          obtain ⟨rfl, rfl⟩ := same
          exact inLedger.symm
        · rfl
  inMemory {other key artifact} namesKey inMemory := by
    by_cases same : other = stage ∧ key = digest
    · obtain ⟨rfl, rfl⟩ := same
      rw [held_get_self, shows.found_get names] at inMemory
      exact inMemory
    · rw [held_get_of_ne same] at inMemory
      exact shows.inMemory namesKey inMemory

/-! ## Writes -/

/-- An artifact that survives being written is written and kept. -/
theorem put (shows : cache.Shows ledger) (names : NamesFile digest)
    (survives : stage.decode (stage.encode artifact).render = .ok artifact) :
    (cache.put stage digest artifact).1 = .ok () ∧
      (cache.put stage digest artifact).2.Shows (ledger.keep stage digest artifact) := by
  obtain ⟨tree, isDisk, tidy, reads⟩ := shows.directory
  have succeeds : (cache.put stage digest artifact).1.toBool = true := by
    rw [toBool_put, isDisk, Option.all_some, tidy.put_artifact_ok names]
    rfl
  constructor
  · cases outcome : (cache.put stage digest artifact).1 with
    | ok _ => rfl
    | error failure =>
      rw [outcome] at succeeds
      cases succeeds
  · constructor
    · exact ⟨shows.sound.current, shows.sound.digests⟩
    · exact shows.manifest
    · refine ⟨_, by rw [disk_put, isDisk, Option.map_some], tidy.put_artifact names, ?_⟩
      intro other key namesKey
      by_cases same : other = stage ∧ key = digest
      · obtain ⟨rfl, rfl⟩ := same
        rw [readArtifact_put_self tidy names survives, Ledger.artifact_keep_self]
      · rw [readArtifact_put_of_ne tidy names namesKey same, Ledger.artifact_keep_of_ne _ same,
          reads other namesKey]
    · intro other key found namesKey inMemory
      by_cases same : other = stage ∧ key = digest
      · obtain ⟨rfl, rfl⟩ := same
        rw [held_put_self, if_pos succeeds] at inMemory
        rwa [Ledger.artifact_keep_self]
      · rw [held_put_of_ne _ same] at inMemory
        rw [Ledger.artifact_keep_of_ne _ same]
        exact shows.inMemory namesKey inMemory

/-! ## Evictions -/

theorem evict (shows : cache.Shows ledger) (names : NamesFile digest) :
    (cache.evict stage digest).Shows (ledger.drop stage digest) where
  sound := ⟨shows.sound.current, shows.sound.digests⟩
  manifest := shows.manifest
  directory := by
    obtain ⟨tree, isDisk, tidy, reads⟩ := shows.directory
    refine ⟨_, by rw [disk_evict, isDisk, Option.map_some], tidy.remove_artifact names, ?_⟩
    intro other key namesKey
    rw [readArtifact_remove names namesKey, reads other namesKey]
    rfl
  inMemory {other key artifact} namesKey inMemory := by
    rw [held_evict] at inMemory
    split at inMemory
    · cases inMemory
    · next different =>
      simp only [Ledger.drop, if_neg different]
      exact shows.inMemory namesKey inMemory

theorem evictAll (shows : cache.Shows ledger) {entries : List (Stage × Text)}
    (names : ∀ entry ∈ entries, NamesFile entry.2) :
    (cache.evictAll entries).Shows (ledger.dropAll entries) := by
  induction entries generalizing cache ledger with
  | nil => exact shows
  | cons entry others ih =>
    exact ih (shows.evict (names entry List.mem_cons_self))
      fun other member => names other (List.mem_cons_of_mem _ member)

/-- The cache with another manifest whose digests can stand in file names. -/
theorem withManifest (shows : cache.Shows ledger) {manifest : Manifest}
    (sound : Ledger.IsSound { ledger with manifest }) :
    Shows { cache with manifest } { ledger with manifest } where
  sound := sound
  manifest := rfl
  directory := shows.directory
  inMemory := shows.inMemory

theorem record (shows : cache.Shows ledger) (names : NamesFile digest) :
    (cache.record stage id digest).Shows
      (Ledger.dropAll { ledger with manifest := ledger.manifest.record stage id digest }
        (ledger.manifest.superseded stage id digest)) := by
  rw [record_eq, shows.manifest]
  have sound : Ledger.IsSound
      { ledger with manifest := ledger.manifest.record stage id digest } := by
    refine ⟨shows.sound.current, ?_⟩
    intro other document key has
    rw [Manifest.digest?_record] at has
    split at has
    · rwa [← Option.some.inj has]
    · exact shows.sound.digests has
  refine (shows.withManifest sound).evictAll ?_
  rintro ⟨other, key⟩ member
  exact shows.sound.digests (Manifest.mem_superseded.mp member).2.1

theorem invalidate (shows : cache.Shows ledger) :
    (cache.invalidate id).Shows
      (Ledger.dropAll { ledger with manifest := ledger.manifest.remove id }
        (ledger.manifest.stale id)) := by
  rw [invalidate_eq, shows.manifest]
  have sound : Ledger.IsSound { ledger with manifest := ledger.manifest.remove id } := by
    refine ⟨shows.sound.current, ?_⟩
    intro other document key has
    rw [Manifest.digest?_remove] at has
    split at has
    · cases has
    · exact shows.sound.digests has
  refine (shows.withManifest sound).evictAll ?_
  rintro ⟨other, key⟩ member
  exact shows.sound.digests (Manifest.mem_stale.mp member).1

/-! ## Clearing, saving and opening again -/

/-- Forgetting what is in memory changes nothing that the ledger says: files stay. -/
theorem clearStage (shows : cache.Shows ledger) : (cache.clearStage stage).Shows ledger where
  sound := shows.sound
  manifest := shows.manifest
  directory := shows.directory
  inMemory names inMemory := by
    rw [held_clearStage] at inMemory
    split at inMemory
    · cases inMemory
    · exact shows.inMemory names inMemory

theorem clear (shows : cache.Shows ledger) :
    cache.clear.Shows { ledger with manifest := .empty } where
  sound := ⟨rfl, fun has => by simp at has⟩
  manifest := manifest_clear
  directory := by simpa only [disk_clear] using shows.directory
  inMemory _ inMemory := by simp at inMemory

/-- The manifest is written, and opening the cache again changes nothing that the ledger says. -/
theorem save (shows : cache.Shows ledger) :
    cache.save.1 = .ok () ∧ cache.save.2.Shows ledger ∧ cache.save.2.reopen.Shows ledger := by
  obtain ⟨tree, isDisk, tidy, reads⟩ := shows.directory
  have written : cache.save.2.disk = some
      (tree.put [Manifest.fileName] cache.manifest.toJson.renderPretty).2 := by
    rw [disk_save, isDisk, Option.map_some]
  have directory : ∃ tree, cache.save.2.disk = some tree ∧ tree.Tidy ∧
      ∀ (stage : Stage) {digest : Text}, NamesFile digest →
        readArtifact tree stage digest = ledger.artifact stage digest := by
    refine ⟨_, written, tidy.put_manifest, ?_⟩
    intro stage digest names
    rw [readArtifact, tidy.read?_put_manifest_of_artifact names, ← readArtifact, reads stage names]
  refine ⟨?_, ?_, ?_⟩
  · simp only [BuildCache.save, isDisk, Manifest.save, tidy.put_manifest_ok, Except.mapError]
  · constructor
    · exact shows.sound
    · rw [manifest_save, shows.manifest]
    · exact directory
    · intro stage digest artifact names inMemory
      rw [held_save] at inMemory
      exact shows.inMemory names inMemory
  · constructor
    · exact shows.sound
    · rw [reopen, written, ofDisk]
      simp only [Option.elim_some, Manifest.load, tidy.read?_put_manifest]
      rw [shows.manifest, Manifest.ofText_renderPretty shows.sound.current]
    · exact directory
    · intro stage digest artifact names inMemory
      cases inMemory

end Shows

end BuildCache

end MdxBuild

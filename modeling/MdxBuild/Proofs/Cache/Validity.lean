import MdxBuild.Proofs.Cache.Directory
import MdxBuild.Proofs.Cache.Step

/-!
# What the cache holds

A cache is valid for a property of artifacts if every artifact that it holds, in memory or in the
file of a hexadecimal digest, has the property for its digest. Reading a file back must not lose the
property; then steps that keep only artifacts with the property leave a valid cache valid, and so do
forgetting, clearing, saving and opening again.

A cache is writable if it keeps whatever it is given. A cache without a directory is; one with a
directory is as long as the directory takes the files of all artifacts.
-/

namespace MdxBuild.BuildCache

open Digest

variable {names : Text → Prop} {made : (stage : Stage) → Text → stage.Artifact → Prop}
  {permit : Permit} {cache after : BuildCache} {stage : Stage} {digest id : Text}

/-- The digests in use can stand in file names, if there are files. -/
def Spells (names : Text → Prop) (cache : BuildCache) : Prop :=
  cache.disk.isSome → ∀ {digest}, names digest → isHex digest = true

/-- Whatever is in the directory afterwards was there before, as far as artifacts are concerned. -/
def Reduces (cache after : BuildCache) : Prop :=
  ∀ {disk}, after.disk = some disk → ∃ earlier, cache.disk = some earlier ∧
    ∀ {stage digest content}, isHex digest = true → disk.Stores stage digest content →
      earlier.Stores stage digest content

namespace Reduces

theorem of_eq (same : after.disk = cache.disk) : cache.Reduces after :=
  fun isDisk => ⟨_, same ▸ isDisk, fun _ stores => stores⟩

theorem of_remove {path : Path} (removed : after.disk = cache.disk.map (·.remove path)) :
    cache.Reduces after := by
  intro disk isDisk
  obtain ⟨earlier, wasDisk, rfl⟩ := Option.map_eq_some_iff.mp (removed ▸ isDisk)
  exact ⟨earlier, wasDisk, fun _ stores => Disk.stores_of_stores_remove stores⟩

theorem get : cache.Reduces (cache.get stage digest).2 := by
  rcases disk_get cache stage digest with same | removed
  · exact of_eq same
  · exact of_remove removed

theorem record : cache.Reduces (cache.record stage id digest) := by
  rcases disk_record cache stage id digest with same | ⟨previous, -, removed⟩
  · exact of_eq same
  · exact of_remove removed

theorem invalidate : cache.Reduces (cache.invalidate id) := by
  intro disk isDisk
  rw [invalidate_eq, disk_evictAll] at isDisk
  obtain ⟨earlier, wasDisk, rfl⟩ := Option.map_eq_some_iff.mp isDisk
  refine ⟨earlier, wasDisk, fun {stage digest content} _ => ?_⟩
  exact Disk.preserved_of_removes
    (fun left => left.Stores stage digest content → earlier.Stores stage digest content)
    (fun kept stores => kept (Disk.stores_of_stores_remove stores)) (cache.manifest.stale id)
    fun stores => stores

theorem save : cache.Reduces cache.save.2 := by
  intro disk isDisk
  rw [disk_save] at isDisk
  obtain ⟨earlier, wasDisk, rfl⟩ := Option.map_eq_some_iff.mp isDisk
  exact ⟨earlier, wasDisk, fun hex stores =>
    Disk.stores_of_stores_putManifest (namesFile_of_isHex hex) stores⟩

end Reduces

/-- Everything that the cache holds, in memory or on disk, has the property for its digest. -/
structure Valid (names : Text → Prop) (made : (stage : Stage) → Text → stage.Artifact → Prop)
    (cache : BuildCache) : Prop where
  spells : cache.Spells names
  inMemory : ∀ {stage : Stage} {digest : Text} {artifact : stage.Artifact},
    cache.held stage digest = some artifact → made stage digest artifact
  onDisk : ∀ {disk : Disk}, cache.disk = some disk →
    ∀ {stage : Stage} {digest : Text} {content : Option Text}, isHex digest = true →
      disk.Stores stage digest content →
        ∃ artifact, content = some (stage.encode artifact).render ∧ made stage digest artifact

/-- A property of artifacts that is not lost when an artifact is written to disk and read back. -/
def Rereads (made : (stage : Stage) → Text → stage.Artifact → Prop) : Prop :=
  ∀ {stage : Stage} {digest : Text} {artifact found : stage.Artifact},
    made stage digest artifact → stage.decode (stage.encode artifact).render = .ok found →
      made stage digest found

namespace Valid

/-- A cache opened in memory only, or in a directory without files, holds nothing. -/
theorem start {directory : Option Disk} (blank : ∀ disk ∈ directory, disk.IsBlank)
    (spells : directory.isSome → ∀ {digest}, names digest → isHex digest = true) :
    (ofDisk directory).Valid names made where
  spells := spells
  inMemory held := by simp at held
  onDisk {disk} isDisk {stage digest content} hex stores :=
    absurd stores ((blank disk isDisk).find?_eq_none content)

/-- Operations that only drop artifacts leave a valid cache valid. -/
theorem of_reduces (valid : cache.Valid names made)
    (inMemory : ∀ {stage : Stage} {digest : Text} {artifact : stage.Artifact},
      after.held stage digest = some artifact → made stage digest artifact)
    (reduces : cache.Reduces after) : after.Valid names made where
  spells durable := by
    obtain ⟨disk, isDisk⟩ := Option.isSome_iff_exists.mp durable
    obtain ⟨earlier, wasDisk, -⟩ := reduces isDisk
    exact valid.spells (by rw [wasDisk]; rfl)
  inMemory := inMemory
  onDisk isDisk _ _ _ hex stores := by
    obtain ⟨earlier, wasDisk, stored⟩ := reduces isDisk
    exact valid.onDisk wasDisk hex (stored hex stores)

theorem weaken {other : (stage : Stage) → Text → stage.Artifact → Prop}
    (valid : cache.Valid names made)
    (weaker : ∀ {stage digest artifact}, made stage digest artifact → other stage digest artifact) :
    cache.Valid names other where
  spells := valid.spells
  inMemory held := weaker (valid.inMemory held)
  onDisk isDisk _ _ _ hex stores := by
    obtain ⟨artifact, isContent, isMade⟩ := valid.onDisk isDisk hex stores
    exact ⟨artifact, isContent, weaker isMade⟩

theorem get (valid : cache.Valid names made) (rereads : Rereads made) (named : names digest) :
    (cache.get stage digest).2.Valid names made := by
  apply valid.of_reduces _ Reduces.get
  intro other key artifact held
  rcases held_of_held_get held with inMemory | ⟨rfl, text, readsFile, decoded⟩
  · exact valid.inMemory inMemory
  · obtain ⟨disk, isDisk, read⟩ := Option.bind_eq_some_iff.mp readsFile
    have hex := valid.spells (by rw [isDisk]; rfl) named
    obtain ⟨written, same, isMade⟩ := valid.onDisk isDisk hex
      (Disk.stores_of_read? (namesFile_of_isHex hex) read)
    obtain rfl := Option.some.inj same
    exact rereads isMade decoded

theorem record (valid : cache.Valid names made) :
    (cache.record stage id digest).Valid names made := by
  apply valid.of_reduces _ Reduces.record
  intro other key artifact held
  rw [held_record] at held
  split at held
  · cases held
  · exact valid.inMemory held

theorem put (valid : cache.Valid names made) {artifact : stage.Artifact} (named : names digest)
    (isMade : made stage digest artifact) :
    (cache.put stage digest artifact).2.Valid names made where
  spells durable := valid.spells (by rw [disk_put, Option.isSome_map] at durable; exact durable)
  inMemory {other key found} held := by
    by_cases same : other = stage ∧ key = digest
    · obtain ⟨rfl, rfl⟩ := same
      rw [held_put_self] at held
      split at held
      · rwa [← Option.some.inj held]
      · exact valid.inMemory held
    · rw [held_put_of_ne artifact same] at held
      exact valid.inMemory held
  onDisk {disk} isDisk {other key content} hexKey stores := by
    rw [disk_put] at isDisk
    obtain ⟨earlier, wasDisk, rfl⟩ := Option.map_eq_some_iff.mp isDisk
    have hex := valid.spells (by rw [wasDisk]; rfl) named
    rcases Disk.stores_of_stores_put (namesFile_of_isHex hex) (namesFile_of_isHex hexKey)
      stores with stored | ⟨rfl, rfl, isContent⟩
    · exact valid.onDisk wasDisk hexKey stored
    · exact ⟨artifact, isContent, isMade⟩

theorem step (valid : cache.Valid permit.names made) (rereads : Rereads made)
    (keeps : ∀ {stage digest artifact}, permit.keeps stage digest artifact →
      made stage digest artifact)
    (step : Step permit cache after) : after.Valid permit.names made := by
  cases step with
  | looked stage named => exact valid.get rereads named
  | found named records inMemory => exact valid.record
  | kept named records kept absent => exact (valid.put named (keeps kept)).record

theorem steps (valid : cache.Valid permit.names made) (rereads : Rereads made)
    (keeps : ∀ {stage digest artifact}, permit.keeps stage digest artifact →
      made stage digest artifact)
    (steps : Steps permit cache after) : after.Valid permit.names made :=
  steps.preserve (Valid permit.names made) (fun step valid => valid.step rereads keeps step) valid

theorem invalidate (valid : cache.Valid names made) : (cache.invalidate id).Valid names made := by
  apply valid.of_reduces _ Reduces.invalidate
  intro other key artifact held
  rw [held_invalidate] at held
  split at held
  · cases held
  · exact valid.inMemory held

theorem clear (valid : cache.Valid names made) : cache.clear.Valid names made :=
  valid.of_reduces (fun held => by simp at held) (Reduces.of_eq disk_clear)

theorem save (valid : cache.Valid names made) : cache.save.2.Valid names made :=
  valid.of_reduces (fun held => valid.inMemory (by rwa [held_save] at held)) Reduces.save

theorem reopen (valid : cache.Valid names made) : cache.reopen.Valid names made :=
  valid.of_reduces (fun held => by simp [BuildCache.reopen] at held) (Reduces.of_eq rfl)

end Valid

/-! ## Writable caches -/

/-- The cache keeps whatever it is given under a digest in use. -/
structure Writable (names : Text → Prop) (cache : BuildCache) : Prop where
  spells : cache.Spells names
  ready : ∀ {disk : Disk}, cache.disk = some disk → disk.Ready

namespace Writable

theorem start {directory : Option Disk} (ready : ∀ disk ∈ directory, disk.Ready)
    (spells : directory.isSome → ∀ {digest}, names digest → isHex digest = true) :
    (ofDisk directory).Writable names where
  spells := spells
  ready isDisk := ready _ isDisk

theorem of_memoryOnly (memoryOnly : cache.disk = none) : cache.Writable names where
  spells durable := by rw [memoryOnly] at durable; cases durable
  ready isDisk := by rw [memoryOnly] at isDisk; cases isDisk

theorem of_spells {other : Text → Prop} (writable : cache.Writable names)
    (spells : cache.Spells other) : cache.Writable other :=
  ⟨spells, writable.ready⟩

/-- Artifacts that are kept are found in memory. -/
theorem held_put (writable : cache.Writable names) (named : names digest) (stage : Stage)
    (artifact : stage.Artifact) :
    (cache.put stage digest artifact).2.held stage digest = some artifact := by
  have succeeds : (cache.put stage digest artifact).1.toBool = true := by
    rw [toBool_put]
    cases isDisk : cache.disk with
    | none => rfl
    | some disk =>
      have hex := writable.spells (by rw [isDisk]; rfl) named
      rw [Option.all_some, (writable.ready isDisk).put_ok hex]
      rfl
  rw [held_put_self, if_pos succeeds]

/-- Operations that change the directory in a way that keeps it ready leave the cache writable. -/
theorem of_map (writable : cache.Writable names) {change : Disk → Disk}
    (changed : after.disk = cache.disk.map change)
    (ready : ∀ {disk : Disk}, cache.disk = some disk → disk.Ready → (change disk).Ready) :
    after.Writable names where
  spells durable := writable.spells (by rw [changed, Option.isSome_map] at durable; exact durable)
  ready isDisk := by
    rw [changed] at isDisk
    obtain ⟨earlier, wasDisk, rfl⟩ := Option.map_eq_some_iff.mp isDisk
    exact ready wasDisk (writable.ready wasDisk)

theorem of_eq (writable : cache.Writable names) (same : after.disk = cache.disk) :
    after.Writable names :=
  writable.of_map (same.trans (congrFun Option.map_id cache.disk).symm) fun _ ready => ready

theorem of_remove (writable : cache.Writable names) {path : Path}
    (removed : after.disk = cache.disk.map (·.remove path)) : after.Writable names :=
  writable.of_map removed fun _ ready => ready.remove path

theorem get (writable : cache.Writable names) : (cache.get stage digest).2.Writable names := by
  rcases disk_get cache stage digest with same | removed
  · exact writable.of_eq same
  · exact writable.of_remove removed

theorem record (writable : cache.Writable names) :
    (cache.record stage id digest).Writable names := by
  rcases disk_record cache stage id digest with same | ⟨previous, -, removed⟩
  · exact writable.of_eq same
  · exact writable.of_remove removed

theorem put (writable : cache.Writable names) (named : names digest) (artifact : stage.Artifact) :
    (cache.put stage digest artifact).2.Writable names :=
  writable.of_map (disk_put artifact) fun isDisk ready =>
    ready.put (namesFile_of_isHex (writable.spells (by rw [isDisk]; rfl) named))

theorem step (writable : cache.Writable permit.names) (step : Step permit cache after) :
    after.Writable permit.names := by
  cases step with
  | looked stage named => exact writable.get
  | found named records inMemory => exact writable.record
  | kept named records kept absent => exact (writable.put named _).record

theorem steps (writable : cache.Writable permit.names) (steps : Steps permit cache after) :
    after.Writable permit.names :=
  steps.preserve (Writable permit.names) (fun step writable => writable.step step) writable

theorem invalidate (writable : cache.Writable names) : (cache.invalidate id).Writable names := by
  refine writable.of_map (disk_evictAll _ _) fun {disk} _ ready => ?_
  exact Disk.preserved_of_removes Disk.Ready (fun ready => ready.remove _) _ ready

theorem clear (writable : cache.Writable names) : cache.clear.Writable names :=
  writable.of_eq disk_clear

theorem save (writable : cache.Writable names) : cache.save.2.Writable names :=
  writable.of_map disk_save fun _ ready => ready.putManifest

theorem reopen (writable : cache.Writable names) : cache.reopen.Writable names :=
  writable.of_eq rfl

end Writable

/-- An artifact that is kept takes the place of the one under its digest, in memory and on disk. So
it is enough that what is under other digests has the property afterwards. -/
theorem Valid.put_over {other : (stage : Stage) → Text → stage.Artifact → Prop}
    (valid : cache.Valid names made) (writable : cache.Writable names) (named : names digest)
    {artifact : stage.Artifact} (isMade : other stage digest artifact)
    (remains : ∀ {later : Stage} {key : Text} {found : later.Artifact},
      ¬(later = stage ∧ key = digest) → made later key found → other later key found) :
    (cache.put stage digest artifact).2.Valid names other where
  spells := (writable.put named artifact).spells
  inMemory {later key found} held := by
    by_cases same : later = stage ∧ key = digest
    · obtain ⟨rfl, rfl⟩ := same
      rw [writable.held_put named] at held
      rwa [← Option.some.inj held]
    · rw [held_put_of_ne artifact same] at held
      exact remains same (valid.inMemory held)
  onDisk {disk} isDisk {later key content} hexKey stores := by
    rw [disk_put] at isDisk
    obtain ⟨earlier, wasDisk, rfl⟩ := Option.map_eq_some_iff.mp isDisk
    have hex := writable.spells (by rw [wasDisk]; rfl) named
    by_cases same : later = stage ∧ key = digest
    · obtain ⟨rfl, rfl⟩ := same
      exact ⟨artifact, (writable.ready wasDisk).eq_of_stores_put hex stores, isMade⟩
    · rcases Disk.stores_of_stores_put (namesFile_of_isHex hex) (namesFile_of_isHex hexKey)
        stores with stored | ⟨sameStage, sameKey, -⟩
      · obtain ⟨found, isContent, wasMade⟩ := valid.onDisk wasDisk hexKey stored
        exact ⟨found, isContent, remains same wasMade⟩
      · exact absurd ⟨sameStage, sameKey⟩ same

end MdxBuild.BuildCache

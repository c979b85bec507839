import MdxBuild.Cache.Store

/-!
# The build cache

The build cache holds the stores of the three stages, the manifest and, if it is durable, the
directory. Digests that no document has any more take their artifacts with them: when a document
gets another digest and when a document is forgotten, what only it referred to is evicted.
-/

namespace MdxBuild

/-- The cache of a build. -/
structure BuildCache where
  manifest : Manifest
  store : (stage : Stage) → Store stage.Artifact
  /-- The directory of a durable cache. -/
  disk : Option Disk

namespace BuildCache

/-- Opens the cache kept in a directory, or an empty one that is kept in memory only. -/
def ofDisk (disk : Option Disk) : BuildCache where
  manifest := disk.elim .empty Manifest.load
  store _ := {}
  disk := disk

/-- The stores with another one for a stage. -/
def replace (stores : (stage : Stage) → Store stage.Artifact) (stage : Stage)
    (store : Store stage.Artifact) : (other : Stage) → Store other.Artifact :=
  fun other => if same : stage = other then same ▸ store else stores other

@[simp]
theorem replace_self (stores : (stage : Stage) → Store stage.Artifact) (stage : Stage)
    (store : Store stage.Artifact) : replace stores stage store stage = store := by
  simp [replace]

@[simp]
theorem replace_of_ne (stores : (stage : Stage) → Store stage.Artifact) {stage other : Stage}
    (store : Store stage.Artifact) (different : stage ≠ other) :
    replace stores stage store other = stores other := by
  simp [replace, different]

/-- The cache with another store for a stage and another state of the directory. -/
def withStore (cache : BuildCache) (stage : Stage) (store : Store stage.Artifact)
    (disk : Option Disk) : BuildCache :=
  { cache with store := replace cache.store stage store, disk := disk }

/-- The artifact of a digest. -/
def get (cache : BuildCache) (stage : Stage) (digest : Text) :
    Option stage.Artifact × BuildCache :=
  let (found, store, disk) := (cache.store stage).get cache.disk digest
  (found, cache.withStore stage store disk)

/-- Keeps an artifact under a digest. -/
def put (cache : BuildCache) (stage : Stage) (digest : Text) (artifact : stage.Artifact) :
    Except CacheError Unit × BuildCache :=
  let (result, store, disk) := (cache.store stage).put cache.disk digest artifact
  (result, cache.withStore stage store disk)

/-- The artifact of a digest, made and kept if there is none. A failure to keep it does not show. -/
def getOrCompute {ε : Type} (cache : BuildCache) (stage : Stage) (digest : Text)
    (compute : Unit → Except ε stage.Artifact) : Except ε stage.Artifact × BuildCache :=
  match cache.get stage digest with
  | (some artifact, after) => (.ok artifact, after)
  | (none, after) =>
    match compute () with
    | .error failure => (.error failure, after)
    | .ok artifact => (.ok artifact, (after.put stage digest artifact).2)

/-- Forgets the artifact of a digest. -/
def evict (cache : BuildCache) (stage : Stage) (digest : Text) : BuildCache :=
  let (store, disk) := (cache.store stage).evict cache.disk digest
  cache.withStore stage store disk

/-- Forgets what a stage has in memory, with its figures. Files stay. -/
def clearStage (cache : BuildCache) (stage : Stage) : BuildCache :=
  cache.withStore stage {} cache.disk

/-- Compares the digest of a document with the one it had last. -/
def freshness (cache : BuildCache) (stage : Stage) (id digest : Text) : Freshness :=
  match cache.manifest.digest? stage id with
  | none => .new
  | some previous => if previous = digest then .unchanged else .changed

/-- Notes the digest that a document has now. A digest that it had before and that no document has
any more takes its artifact with it. -/
def record (cache : BuildCache) (stage : Stage) (id digest : Text) : BuildCache :=
  let noted := { cache with manifest := cache.manifest.record stage id digest }
  match cache.manifest.digest? stage id with
  | none => noted
  | some previous =>
    if previous = digest || noted.manifest.references stage previous then noted
    else noted.evict stage previous

/-- Forgets a document in every stage, with the artifacts that only it referred to. -/
def invalidate (cache : BuildCache) (id : Text) : BuildCache :=
  let manifest := cache.manifest.remove id
  let stale := Stage.all.filterMap fun stage =>
    (cache.manifest.digest? stage id).bind fun digest =>
      if manifest.references stage digest then none else some (stage, digest)
  stale.foldl (fun forgotten (stage, digest) => forgotten.evict stage digest)
    { cache with manifest }

/-- Forgets everything in memory and in the manifest. Files stay. -/
def clear (cache : BuildCache) : BuildCache :=
  Stage.all.foldl clearStage { cache with manifest := .empty }

/-- Writes the manifest to the directory, if there is one. -/
def save (cache : BuildCache) : Except CacheError Unit × BuildCache :=
  match cache.disk with
  | none => (.ok (), cache)
  | some tree =>
    let (result, disk) := cache.manifest.save tree
    (result, { cache with disk := some disk })

/-- Closes the cache without saving it and opens it again. -/
def reopen (cache : BuildCache) : BuildCache :=
  ofDisk cache.disk

/-- The figures of a stage. -/
def stats (cache : BuildCache) (stage : Stage) : StoreStats :=
  (cache.store stage).stats

end BuildCache

end MdxBuild

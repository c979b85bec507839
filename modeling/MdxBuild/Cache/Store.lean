import MdxBuild.Cache.Manifest

/-!
# The store of a stage

A stage keeps its artifacts in memory under their digests and, if the cache has a directory, in one
file each as well. Reading never fails: a file that is missing or holds no artifact of the stage is
a miss, and the latter is removed. Writing may fail; the artifact is then kept nowhere.
-/

namespace MdxBuild

/-- The artifacts of a stage that are in memory, and how often look-ups found one. -/
structure Store (α : Type) where
  memory : Dictionary α := .empty
  hits : Nat := 0
  misses : Nat := 0

/-- The look-ups of a stage that found an artifact and that did not, and the number of artifacts in
memory. -/
structure StoreStats where
  hits : Nat
  misses : Nat
  entries : Nat
deriving DecidableEq, Repr

/-- Whether the digest of a document is the one it had last. -/
inductive Freshness where
  | new
  | changed
  | unchanged
deriving DecidableEq, Repr

/-- The file of an artifact. A digest that spells a path leads to other directories. -/
def Stage.path (stage : Stage) (digest : Text) : Path :=
  Path.ofText (stage.name ++ ['/'] ++ digest ++ ".json".toList)

namespace Store

variable {stage : Stage}

/-- The artifact of a digest, with what the look-up changes: an artifact found on disk is kept in
memory, and a file that holds none is removed. -/
def lookup (store : Store stage.Artifact) (disk : Option Disk) (digest : Text) :
    Option stage.Artifact × Store stage.Artifact × Option Disk :=
  match store.memory.find? digest with
  | some artifact => (some artifact, store, disk)
  | none =>
    match disk with
    | none => (none, store, none)
    | some tree =>
      match tree.read? (stage.path digest) with
      | none => (none, store, some tree)
      | some text =>
        match stage.decode text with
        | .ok artifact =>
          (some artifact, { store with memory := store.memory.insert digest artifact }, some tree)
        | .error _ => (none, store, some (tree.remove (stage.path digest)))

/-- The artifact of a digest, with the look-up counted. -/
def get (store : Store stage.Artifact) (disk : Option Disk) (digest : Text) :
    Option stage.Artifact × Store stage.Artifact × Option Disk :=
  let (found, after, tree) := store.lookup disk digest
  (found,
    if found.isSome then { after with hits := after.hits + 1 }
    else { after with misses := after.misses + 1 },
    tree)

/-- Writes the file of an artifact. A failed write may leave directories behind. -/
def persist (stage : Stage) (tree : Disk) (digest : Text) (artifact : stage.Artifact) :
    Except CacheError Unit × Disk :=
  let (result, written) := tree.put (stage.path digest) (stage.encode artifact).render
  (result.mapError CacheError.mk, written)

/-- Keeps an artifact under a digest, on disk first; nothing is kept in memory if that fails. -/
def put (store : Store stage.Artifact) (disk : Option Disk) (digest : Text)
    (artifact : stage.Artifact) :
    Except CacheError Unit × Store stage.Artifact × Option Disk :=
  let kept := { store with memory := store.memory.insert digest artifact }
  match disk with
  | none => (.ok (), kept, none)
  | some tree =>
    match persist stage tree digest artifact with
    | (.ok (), written) => (.ok (), kept, some written)
    | (.error failure, made) => (.error failure, store, some made)

/-- Forgets the artifact of a digest, in memory and on disk. -/
def evict (store : Store stage.Artifact) (disk : Option Disk) (digest : Text) :
    Store stage.Artifact × Option Disk :=
  ({ store with memory := store.memory.erase digest },
    disk.map fun tree => tree.remove (stage.path digest))

/-- The figures of a store. -/
def stats {α : Type} (store : Store α) : StoreStats :=
  ⟨store.hits, store.misses, store.memory.entries.length⟩

end Store

end MdxBuild

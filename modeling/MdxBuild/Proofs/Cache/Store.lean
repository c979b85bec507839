import MdxBuild.Cache.Store
import MdxBuild.Proofs.Dictionary

/-!
# What the operations of a store do

A look-up, a write and an eviction touch one digest. For each of them it is stated what is in memory
under every digest afterwards and what has become of the directory.
-/

namespace MdxBuild.Store

variable {stage : Stage} {store : Store stage.Artifact} {disk : Option Disk} {digest key : Text}

/-- The text in the file of an artifact, if there is one that can be read. -/
def fileText? (stage : Stage) (disk : Option Disk) (digest : Text) : Option Text :=
  disk.bind (·.read? (stage.path digest))

/-! ## Look-ups -/

/-- A look-up finds what is in memory and otherwise what can be read from disk. -/
theorem found_lookup :
    (store.lookup disk digest).1 = (store.memory.find? digest).or
      ((fileText? stage disk digest).bind fun text => (stage.decode text).toOption) := by
  unfold lookup
  cases store.memory.find? digest with
  | some artifact => rfl
  | none =>
    cases disk with
    | none => rfl
    | some tree =>
      simp only [fileText?, Option.bind_some, Option.none_or]
      cases tree.read? (stage.path digest) with
      | none => rfl
      | some text =>
        simp only [Option.bind_some]
        cases stage.decode text <;> rfl

/-- After a look-up, memory holds what was found under the digest and what it held under others. -/
theorem find?_lookup :
    (store.lookup disk digest).2.1.memory.find? key =
      if key = digest then (store.lookup disk digest).1 else store.memory.find? key := by
  unfold lookup
  cases inMemory : store.memory.find? digest with
  | some artifact =>
    by_cases same : key = digest
    · simp [same, inMemory]
    · simp [same]
  | none =>
    have unchanged : store.memory.find? key = if key = digest then none
        else store.memory.find? key := by
      split
      · next same => rw [same, inMemory]
      · rfl
    cases disk with
    | none => exact unchanged
    | some tree =>
      cases readsFile : tree.read? (stage.path digest) with
      | none => simpa only [readsFile] using unchanged
      | some text =>
        cases decoded : stage.decode text with
        | error fault => simpa only [readsFile, decoded] using unchanged
        | ok artifact => simp only [readsFile, decoded, Dictionary.find?_insert]

/-- A look-up leaves the directory as it is or removes the file of the digest. -/
theorem disk_lookup :
    (store.lookup disk digest).2.2 = disk ∨
      (store.lookup disk digest).2.2 = disk.map (·.remove (stage.path digest)) := by
  unfold lookup
  cases store.memory.find? digest with
  | some artifact => exact .inl rfl
  | none =>
    cases disk with
    | none => exact .inl rfl
    | some tree =>
      cases readsFile : tree.read? (stage.path digest) with
      | none => exact .inl (by simp only [readsFile])
      | some text =>
        cases decoded : stage.decode text with
        | error fault => exact .inr (by simp only [readsFile, decoded, Option.map_some])
        | ok artifact => exact .inl (by simp only [readsFile, decoded])

theorem found_get :
    (store.get disk digest).1 = (store.memory.find? digest).or
      ((fileText? stage disk digest).bind fun text => (stage.decode text).toOption) :=
  found_lookup

theorem memory_get :
    (store.get disk digest).2.1.memory = (store.lookup disk digest).2.1.memory := by
  simp only [get]
  split <;> rfl

theorem find?_get :
    (store.get disk digest).2.1.memory.find? key =
      if key = digest then (store.get disk digest).1 else store.memory.find? key := by
  rw [memory_get, find?_lookup]
  rfl

theorem disk_get :
    (store.get disk digest).2.2 = disk ∨
      (store.get disk digest).2.2 = disk.map (·.remove (stage.path digest)) :=
  disk_lookup

/-- A look-up that finds an artifact leaves the directory as it is. -/
theorem disk_get_of_found {artifact : stage.Artifact}
    (found : (store.get disk digest).1 = some artifact) : (store.get disk digest).2.2 = disk := by
  replace found : (store.lookup disk digest).1 = some artifact := found
  change (store.lookup disk digest).2.2 = disk
  unfold lookup at found ⊢
  cases inMemory : store.memory.find? digest with
  | some existing => rfl
  | none =>
    cases disk with
    | none => rfl
    | some tree =>
      simp only [inMemory] at found ⊢
      cases readsFile : tree.read? (stage.path digest) with
      | none => rfl
      | some text =>
        cases decoded : stage.decode text with
        | error fault => simp [readsFile, decoded] at found
        | ok existing => simp only [decoded]

/-! ## Writes and evictions -/

/-- A write that succeeds changes what is in memory under the digest, one that fails nothing. -/
theorem find?_put (artifact : stage.Artifact) :
    (store.put disk digest artifact).2.1.memory.find? key =
      if key = digest ∧ (store.put disk digest artifact).1.toBool then some artifact
      else store.memory.find? key := by
  cases disk with
  | none => simp [put, Dictionary.find?_insert, Except.toBool]
  | some tree =>
    unfold put
    rcases persisted : persist stage tree digest artifact with ⟨_ | _, written⟩
    · simp [persisted, Except.toBool]
    · simp [persisted, Except.toBool, Dictionary.find?_insert]

/-- A write is a write of the artifact's file, if there is a directory. -/
theorem disk_put (artifact : stage.Artifact) :
    (store.put disk digest artifact).2.2 =
      disk.map fun tree => (tree.put (stage.path digest) (stage.encode artifact).render).2 := by
  cases disk with
  | none => rfl
  | some tree =>
    have written : (persist stage tree digest artifact).2 =
        (tree.put (stage.path digest) (stage.encode artifact).render).2 := rfl
    rw [Option.map_some, ← written]
    unfold put
    rcases persisted : persist stage tree digest artifact with ⟨_ | _, _⟩ <;>
      simp only [persisted]

/-- A write fails only if the artifact's file cannot be written. -/
theorem toBool_put (artifact : stage.Artifact) :
    (store.put disk digest artifact).1.toBool =
      disk.all fun tree =>
        (tree.put (stage.path digest) (stage.encode artifact).render).1.toBool := by
  cases disk with
  | none => rfl
  | some tree =>
    have succeeds : (persist stage tree digest artifact).1.toBool =
        (tree.put (stage.path digest) (stage.encode artifact).render).1.toBool := by
      simp only [persist]
      cases (tree.put (stage.path digest) (stage.encode artifact).render).1 <;> rfl
    rw [Option.all_some, ← succeeds]
    unfold put
    rcases persisted : persist stage tree digest artifact with ⟨_ | _, _⟩ <;>
      simp only [persisted]

theorem find?_evict :
    (store.evict disk digest).1.memory.find? key =
      if key = digest then none else store.memory.find? key :=
  Dictionary.find?_erase store.memory digest key

end MdxBuild.Store

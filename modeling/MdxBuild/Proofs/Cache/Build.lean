import MdxBuild.Cache.Build
import MdxBuild.Proofs.Cache.Manifest
import MdxBuild.Proofs.Cache.Store
import MdxBuild.Proofs.Storage.Disk

/-!
# What the operations of the build cache do

The cache is seen through what its stages have in memory, what its manifest says and the files of
its directory. For each operation it is stated which of these it changes; nothing behind this module
opens the operations again.
-/

namespace MdxBuild.BuildCache

variable {cache : BuildCache} {stage other : Stage} {digest key id document : Text}

/-- The artifact that a stage has in memory under a digest. -/
def held (cache : BuildCache) (stage : Stage) (digest : Text) : Option stage.Artifact :=
  (cache.store stage).memory.find? digest

@[simp]
theorem held_withStore_self (store : Store stage.Artifact) (disk : Option Disk) :
    (cache.withStore stage store disk).held stage digest = store.memory.find? digest := by
  simp [held, withStore]

theorem held_withStore_of_ne (store : Store stage.Artifact) (disk : Option Disk)
    (different : other ≠ stage) :
    (cache.withStore stage store disk).held other digest = cache.held other digest := by
  simp [held, withStore, Ne.symm different]

@[simp]
theorem held_ofDisk (disk : Option Disk) : (ofDisk disk).held stage digest = none :=
  rfl

/-! ## Look-ups -/

@[simp]
theorem manifest_get : (cache.get stage digest).2.manifest = cache.manifest :=
  rfl

/-- A look-up finds what is in memory and otherwise what can be read from disk. -/
theorem found_get :
    (cache.get stage digest).1 = (cache.held stage digest).or
      ((Store.fileText? stage cache.disk digest).bind fun text => (stage.decode text).toOption) :=
  Store.found_get

theorem found_get_of_held {artifact : stage.Artifact}
    (inMemory : cache.held stage digest = some artifact) :
    (cache.get stage digest).1 = some artifact := by
  rw [found_get, inMemory, Option.some_or]

/-- What a look-up finds is in memory afterwards. -/
@[simp]
theorem held_get_self :
    (cache.get stage digest).2.held stage digest = (cache.get stage digest).1 := by
  rw [get, held_withStore_self, Store.find?_get, if_pos rfl]

theorem held_get_of_ne (different : ¬(other = stage ∧ key = digest)) :
    (cache.get stage digest).2.held other key = cache.held other key := by
  by_cases sameStage : other = stage
  · subst sameStage
    have otherKey : key ≠ digest := fun same => different ⟨rfl, same⟩
    rw [get, held_withStore_self, Store.find?_get, if_neg otherKey, held]
  · rw [get, held_withStore_of_ne _ _ sameStage]

/-- A look-up drops nothing from memory. -/
theorem held_get_of_held {artifact : other.Artifact}
    (inMemory : cache.held other key = some artifact) :
    (cache.get stage digest).2.held other key = some artifact := by
  by_cases same : other = stage ∧ key = digest
  · obtain ⟨rfl, rfl⟩ := same
    rw [held_get_self, found_get_of_held inMemory]
  · rw [held_get_of_ne same, inMemory]

/-- What a look-up brings into memory is what the file of the digest says. -/
theorem held_of_held_get {artifact : other.Artifact}
    (inMemory : (cache.get stage digest).2.held other key = some artifact) :
    cache.held other key = some artifact ∨
      key = digest ∧ ∃ text, Store.fileText? other cache.disk key = some text ∧
        other.decode text = .ok artifact := by
  by_cases same : other = stage ∧ key = digest
  · obtain ⟨rfl, rfl⟩ := same
    rw [held_get_self, found_get, Option.or_eq_some_iff] at inMemory
    rcases inMemory with found | ⟨-, read⟩
    · exact .inl found
    · obtain ⟨text, readsFile, decoded⟩ := Option.bind_eq_some_iff.mp read
      right
      refine ⟨rfl, text, readsFile, ?_⟩
      cases outcome : other.decode text with
      | error fault => simp [outcome, Except.toOption] at decoded
      | ok found => simpa [outcome, Except.toOption] using decoded
  · rw [held_get_of_ne same] at inMemory
    exact .inl inMemory

/-- A look-up leaves the directory as it is or removes the file of the digest. -/
theorem disk_get (cache : BuildCache) (stage : Stage) (digest : Text) :
    (cache.get stage digest).2.disk = cache.disk ∨
      (cache.get stage digest).2.disk = cache.disk.map (·.remove (stage.path digest)) :=
  Store.disk_get

/-- What a look-up does not find is not in memory. -/
theorem held_of_missing (missing : (cache.get stage digest).1 = none) :
    cache.held stage digest = none := by
  rw [found_get, Option.or_eq_none_iff] at missing
  exact missing.1

/-- A second look-up finds what the first one found. -/
theorem found_get_get :
    ((cache.get stage digest).2.get stage digest).1 = (cache.get stage digest).1 := by
  cases found : (cache.get stage digest).1 with
  | some artifact => exact found_get_of_held (held_get_self.trans found)
  | none =>
    rw [found_get, held_get_self, found, Option.none_or]
    rcases disk_get cache stage digest with same | removed
    · have absent := held_of_missing found
      rw [found_get, absent, Option.none_or] at found
      rw [same, found]
    · have unreadable : Store.fileText? stage (cache.get stage digest).2.disk digest = none := by
        rw [removed]
        cases cache.disk with
        | none => rfl
        | some tree => exact Disk.read?_remove_self tree _
      rw [unreadable, Option.bind_none]

/-- A look-up that finds an artifact leaves the directory as it is. -/
theorem disk_get_of_found {artifact : stage.Artifact}
    (found : (cache.get stage digest).1 = some artifact) :
    (cache.get stage digest).2.disk = cache.disk :=
  Store.disk_get_of_found found

/-! ## Writes -/

@[simp]
theorem manifest_put (artifact : stage.Artifact) :
    (cache.put stage digest artifact).2.manifest = cache.manifest :=
  rfl

/-- A write that succeeds is seen in memory, and one that fails leaves memory as it was. -/
theorem held_put_self (artifact : stage.Artifact) :
    (cache.put stage digest artifact).2.held stage digest =
      if (cache.put stage digest artifact).1.toBool then some artifact
      else cache.held stage digest := by
  rw [put, held_withStore_self, Store.find?_put, held]
  simp only [true_and]

theorem held_put_of_ne (artifact : stage.Artifact) (different : ¬(other = stage ∧ key = digest)) :
    (cache.put stage digest artifact).2.held other key = cache.held other key := by
  by_cases sameStage : other = stage
  · subst sameStage
    have otherKey : key ≠ digest := fun same => different ⟨rfl, same⟩
    rw [put, held_withStore_self, Store.find?_put, if_neg (fun both => otherKey both.1), held]
  · rw [put, held_withStore_of_ne _ _ sameStage]

theorem disk_put (artifact : stage.Artifact) :
    (cache.put stage digest artifact).2.disk = cache.disk.map fun tree =>
      (tree.put (stage.path digest) (stage.encode artifact).render).2 :=
  Store.disk_put artifact

theorem toBool_put (artifact : stage.Artifact) :
    (cache.put stage digest artifact).1.toBool = cache.disk.all fun tree =>
      (tree.put (stage.path digest) (stage.encode artifact).render).1.toBool :=
  Store.toBool_put artifact

/-! ## Artifacts made on demand -/

section Demand

variable {ε : Type} {compute : Unit → Except ε stage.Artifact}

/-- An artifact that a look-up finds is the answer, whatever would be made in its place. -/
theorem getOrCompute_of_found {artifact : stage.Artifact}
    (found : (cache.get stage digest).1 = some artifact) :
    cache.getOrCompute stage digest compute = (.ok artifact, (cache.get stage digest).2) := by
  rcases lookup : cache.get stage digest with ⟨result, after⟩
  rw [lookup] at found
  obtain rfl : result = some artifact := found
  simp only [getOrCompute, lookup]

/-- If a look-up finds nothing, the answer is what is made, and that is kept. -/
theorem getOrCompute_of_missing (missing : (cache.get stage digest).1 = none) :
    cache.getOrCompute stage digest compute = (compute (),
      match compute () with
      | .error _ => (cache.get stage digest).2
      | .ok artifact => ((cache.get stage digest).2.put stage digest artifact).2) := by
  rcases lookup : cache.get stage digest with ⟨result, after⟩
  rw [lookup] at missing
  obtain rfl : result = none := missing
  simp only [getOrCompute, lookup]
  cases compute () <;> rfl

/-- Nothing in memory is dropped when an artifact is made on demand. -/
theorem held_getOrCompute_of_held {artifact : other.Artifact}
    (inMemory : cache.held other key = some artifact) :
    (cache.getOrCompute stage digest compute).2.held other key = some artifact := by
  have kept : (cache.get stage digest).2.held other key = some artifact := held_get_of_held inMemory
  cases found : (cache.get stage digest).1 with
  | some existing => rwa [getOrCompute_of_found found]
  | none =>
    rw [getOrCompute_of_missing found]
    cases compute () with
    | error failure => exact kept
    | ok made =>
      have differs : ¬(other = stage ∧ key = digest) := by
        rintro ⟨rfl, rfl⟩
        rw [found_get_of_held inMemory] at found
        cases found
      exact (held_put_of_ne made differs).trans kept

@[simp]
theorem manifest_getOrCompute :
    (cache.getOrCompute stage digest compute).2.manifest = cache.manifest := by
  cases found : (cache.get stage digest).1 with
  | some existing => rw [getOrCompute_of_found found, manifest_get]
  | none =>
    rw [getOrCompute_of_missing found]
    cases compute () <;> rfl

end Demand

/-! ## Evictions -/

@[simp]
theorem manifest_evict : (cache.evict stage digest).manifest = cache.manifest :=
  rfl

theorem held_evict :
    (cache.evict stage digest).held other key =
      if other = stage ∧ key = digest then none else cache.held other key := by
  by_cases sameStage : other = stage
  · subst sameStage
    rw [evict, held_withStore_self, Store.find?_evict, held]
    simp only [true_and]
  · rw [evict, held_withStore_of_ne _ _ sameStage, if_neg (fun both => sameStage both.1)]

theorem disk_evict :
    (cache.evict stage digest).disk = cache.disk.map (·.remove (stage.path digest)) :=
  rfl

/-- Evicts digests of stages one after the other. -/
def evictAll (cache : BuildCache) (entries : List (Stage × Text)) : BuildCache :=
  entries.foldl (fun forgotten (stage, digest) => forgotten.evict stage digest) cache

@[simp]
theorem evictAll_nil : cache.evictAll [] = cache :=
  rfl

@[simp]
theorem evictAll_cons (entry : Stage × Text) (entries : List (Stage × Text)) :
    cache.evictAll (entry :: entries) = (cache.evict entry.1 entry.2).evictAll entries :=
  rfl

theorem manifest_evictAll (entries : List (Stage × Text)) :
    (cache.evictAll entries).manifest = cache.manifest := by
  induction entries generalizing cache with
  | nil => rfl
  | cons entry others ih => exact ih

theorem held_evictAll (cache : BuildCache) (entries : List (Stage × Text)) :
    (cache.evictAll entries).held stage digest =
      if (stage, digest) ∈ entries then none else cache.held stage digest := by
  induction entries generalizing cache with
  | nil => rfl
  | cons entry others ih =>
    have first := ih (cache.evict entry.1 entry.2)
    rw [held_evict] at first
    rw [evictAll_cons, first]
    by_cases isFirst : stage = entry.1 ∧ digest = entry.2
    · obtain ⟨rfl, rfl⟩ := isFirst
      simp
    · have differs : (stage, digest) ≠ entry := by
        rintro rfl
        exact isFirst ⟨rfl, rfl⟩
      simp [isFirst, differs]

theorem disk_evictAll (cache : BuildCache) (entries : List (Stage × Text)) :
    (cache.evictAll entries).disk = cache.disk.map fun tree =>
      entries.foldl (fun left entry => left.remove (entry.1.path entry.2)) tree := by
  induction entries generalizing cache with
  | nil => simp
  | cons entry others ih =>
    have first := ih (cache.evict entry.1 entry.2)
    rw [disk_evict, Option.map_map] at first
    exact first

/-! ## The manifest -/

/-- Recording a digest evicts the digest that it takes out of use. -/
theorem record_eq :
    cache.record stage id digest =
      evictAll { cache with manifest := cache.manifest.record stage id digest }
        (cache.manifest.superseded stage id digest) := by
  rw [record, Manifest.superseded]
  cases cache.manifest.digest? stage id with
  | none => rfl
  | some previous =>
    simp only
    split <;> rfl

@[simp]
theorem manifest_record :
    (cache.record stage id digest).manifest = cache.manifest.record stage id digest := by
  rw [record_eq, manifest_evictAll]

/-- Recording a digest drops the digest that the document had before, if no document has it any
more. -/
theorem held_record :
    (cache.record stage id digest).held other key =
      if other = stage ∧ cache.manifest.digest? stage id = some key ∧
          (cache.manifest.record stage id digest).references stage key = false then none
      else cache.held other key := by
  rw [record_eq, held_evictAll]
  simp only [Manifest.mem_superseded]
  rfl

/-- Recording a digest leaves the directory as it is or removes the file of the digest that the
document had before. -/
theorem disk_record (cache : BuildCache) (stage : Stage) (id digest : Text) :
    (cache.record stage id digest).disk = cache.disk ∨
      ∃ previous, cache.manifest.digest? stage id = some previous ∧
        (cache.record stage id digest).disk = cache.disk.map (·.remove (stage.path previous)) := by
  rw [record_eq, Manifest.superseded]
  cases previously : cache.manifest.digest? stage id with
  | none => exact .inl rfl
  | some previous =>
    simp only
    split
    · exact .inl rfl
    · exact .inr ⟨previous, rfl, rfl⟩

theorem invalidate_eq :
    cache.invalidate id =
      evictAll { cache with manifest := cache.manifest.remove id } (cache.manifest.stale id) :=
  rfl

@[simp]
theorem manifest_invalidate : (cache.invalidate id).manifest = cache.manifest.remove id := by
  rw [invalidate_eq, manifest_evictAll]

theorem held_invalidate :
    (cache.invalidate id).held stage digest =
      if cache.manifest.digest? stage id = some digest ∧
          (cache.manifest.remove id).references stage digest = false then none
      else cache.held stage digest := by
  rw [invalidate_eq, held_evictAll]
  simp only [Manifest.mem_stale]
  rfl

@[simp]
theorem manifest_clear : cache.clear.manifest = .empty :=
  rfl

@[simp]
theorem held_clear : cache.clear.held stage digest = none := by
  cases stage <;> rfl

@[simp]
theorem disk_clear : cache.clear.disk = cache.disk :=
  rfl

theorem held_clearStage :
    (cache.clearStage stage).held other key =
      if other = stage then none else cache.held other key := by
  by_cases sameStage : other = stage
  · subst sameStage
    rw [clearStage, held_withStore_self, if_pos rfl]
    rfl
  · rw [clearStage, held_withStore_of_ne _ _ sameStage, if_neg sameStage]

theorem held_save : cache.save.2.held stage digest = cache.held stage digest := by
  rw [save]
  cases cache.disk <;> rfl

theorem manifest_save : cache.save.2.manifest = cache.manifest := by
  rw [save]
  cases cache.disk <;> rfl

theorem disk_save :
    cache.save.2.disk = cache.disk.map fun tree =>
      (tree.put [Manifest.fileName] cache.manifest.toJson.renderPretty).2 := by
  rw [save]
  cases onDisk : cache.disk with
  | none => exact onDisk
  | some tree => rfl

/-! ## Caches without a directory -/

section MemoryOnly

variable (memoryOnly : cache.disk = none)

include memoryOnly

/-- In a cache without a directory a look-up finds what is in memory. -/
theorem held_get_of_memoryOnly :
    (cache.get stage digest).2.held other key = cache.held other key := by
  by_cases same : other = stage ∧ key = digest
  · obtain ⟨rfl, rfl⟩ := same
    rw [held_get_self, found_get, memoryOnly]
    exact Option.or_none
  · exact held_get_of_ne same

/-- In a cache without a directory writes succeed. -/
theorem held_put_of_memoryOnly (artifact : stage.Artifact) :
    (cache.put stage digest artifact).2.held stage digest = some artifact := by
  rw [held_put_self, toBool_put, memoryOnly]
  rfl

theorem disk_get_of_memoryOnly : (cache.get stage digest).2.disk = none := by
  rcases disk_get cache stage digest with same | removed
  · rw [same, memoryOnly]
  · rw [removed, memoryOnly, Option.map_none]

theorem disk_put_of_memoryOnly (artifact : stage.Artifact) :
    (cache.put stage digest artifact).2.disk = none := by
  rw [disk_put, memoryOnly, Option.map_none]

theorem disk_record_of_memoryOnly : (cache.record stage id digest).disk = none := by
  rcases disk_record cache stage id digest with same | ⟨previous, -, removed⟩
  · rw [same, memoryOnly]
  · rw [removed, memoryOnly, Option.map_none]

theorem disk_invalidate_of_memoryOnly : (cache.invalidate id).disk = none := by
  rw [invalidate_eq, disk_evictAll]
  simp only [memoryOnly, Option.map_none]

theorem save_of_memoryOnly : cache.save.2 = cache := by
  rw [save, memoryOnly]

end MemoryOnly

end MdxBuild.BuildCache

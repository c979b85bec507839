import MdxBuild.Proofs.Cache.Reopening
import MdxBuild.Proofs.Storage.Writing

/-!
# Files that hold no artifact

An artifact that is asked for and not in memory is read from its file. Where the file is missing or
holds no artifact, the artifact is made, and what was made takes the place of the file. It is found
from then on as long as the cache is open, and after opening the cache again exactly if it is read
back from what was written. Where it cannot be made, nothing is found.
-/

namespace MdxBuild.BuildCache

variable {ε : Type} {cache : BuildCache} {tree : Disk} {stage : Stage} {digest : Text}
  {compute : Unit → Except ε stage.Artifact} {artifact : stage.Artifact}

/-! ## Look-ups in the directory -/

/-- What is not in memory is found exactly if it can be read from its file. -/
theorem found_get_of_absent (durable : cache.disk = some tree)
    (absent : cache.held stage digest = none) :
    (cache.get stage digest).1 = readArtifact tree stage digest := by
  rw [found_get, absent, durable, Option.none_or]
  rfl

theorem found_get_reopen (durable : cache.disk = some tree) :
    (cache.reopen.get stage digest).1 = readArtifact tree stage digest :=
  found_get_of_absent durable (held_ofDisk _)

/-- A look-up leaves a directory in which the file can be written. -/
theorem exists_disk_get (durable : cache.disk = some tree)
    (writable : tree.IsWritable (stage.path digest)) :
    ∃ looked, (cache.get stage digest).2.disk = some looked ∧
      looked.IsWritable (stage.path digest) := by
  rcases disk_get cache stage digest with same | removed
  · exact ⟨tree, same.trans durable, writable⟩
  · rw [durable] at removed
    exact ⟨_, removed, writable.remove _⟩

/-- What is not found by a look-up is not found by another one, nor after opening again. -/
theorem readArtifact_get_of_missing (durable : cache.disk = some tree)
    (missing : readArtifact tree stage digest = none) {looked : Disk}
    (isLooked : (cache.get stage digest).2.disk = some looked) :
    readArtifact looked stage digest = none := by
  rcases disk_get cache stage digest with same | removed
  · rw [same, durable, Option.some.injEq] at isLooked
    rwa [← isLooked]
  · rw [removed, durable, Option.map_some, Option.some.injEq] at isLooked
    rw [← isLooked, readArtifact, Disk.read?_remove_self, Option.bind_none]

/-- An artifact that was written is read if it survives that. -/
theorem readArtifact_put_iff (writable : tree.IsWritable (stage.path digest)) :
    readArtifact (tree.put (stage.path digest) (stage.encode artifact).render).2 stage digest =
      some artifact ↔ stage.Survives artifact := by
  rw [readArtifact, Disk.read?_put_of_ok (writable _), Option.bind_some, Stage.Survives]
  cases stage.decode (stage.encode artifact).render <;> simp [Except.toOption]

/-- What was made and kept is in memory, and its file is written. -/
theorem held_put_of_isWritable (durable : cache.disk = some tree)
    (writable : tree.IsWritable (stage.path digest)) :
    (cache.put stage digest artifact).2.held stage digest = some artifact ∧
      (cache.put stage digest artifact).2.disk =
        some (tree.put (stage.path digest) (stage.encode artifact).render).2 := by
  have written : (cache.put stage digest artifact).1.toBool = true := by
    rw [toBool_put, durable, Option.all_some, writable]
    rfl
  rw [held_put_self, if_pos written, disk_put, durable]
  exact ⟨rfl, rfl⟩

/-! ## The main statement -/

/-- What an artifact that was asked for on demand leaves behind: what was made is found, in memory
and, if it was read from there or survives being written, in its file; and nothing is found where it
could not be made. -/
structure Leaves (tree : Disk) (stage : Stage) (digest : Text)
    (result : Except ε stage.Artifact) (after : BuildCache) (left : Disk) : Prop where
  disk : after.disk = some left
  found : ∀ artifact, result = .ok artifact → (after.get stage digest).1 = some artifact
  file : ∀ artifact, result = .ok artifact → (readArtifact left stage digest = some artifact ↔
    readArtifact tree stage digest = some artifact ∨ stage.Survives artifact)
  nothing : ∀ failure, result = .error failure →
    (after.get stage digest).1 = none ∧ readArtifact left stage digest = none

theorem leaves_of_read (durable : cache.disk = some tree)
    (absent : cache.held stage digest = none)
    (reads : readArtifact tree stage digest = some artifact) :
    Leaves tree stage digest (.ok artifact : Except ε stage.Artifact) (cache.get stage digest).2
      tree := by
  have found := (found_get_of_absent durable absent).trans reads
  refine ⟨(disk_get_of_found found).trans durable, ?_, ?_, ?_⟩
  · rintro _ ⟨⟩
    exact found_get_of_held (held_get_self.trans found)
  · rintro _ ⟨⟩
    exact iff_of_true reads (.inl reads)
  · rintro _ ⟨⟩

theorem exists_leaves_of_missing (durable : cache.disk = some tree)
    (writable : tree.IsWritable (stage.path digest)) (absent : cache.held stage digest = none)
    (missing : readArtifact tree stage digest = none) :
    ∃ left, Leaves tree stage digest (compute ()) (cache.getOrCompute stage digest compute).2
      left := by
  have notFound := (found_get_of_absent durable absent).trans missing
  obtain ⟨looked, isLooked, stillWritable⟩ := exists_disk_get durable writable
  have stillMissing := readArtifact_get_of_missing durable missing isLooked
  rw [getOrCompute_of_missing notFound]
  cases computed : compute () with
  | error failure =>
    refine ⟨looked, isLooked, ?_, ?_, ?_⟩
    · rintro _ ⟨⟩
    · rintro _ ⟨⟩
    · intro _ _
      exact ⟨(found_get_of_absent isLooked (held_get_self.trans notFound)).trans stillMissing,
        stillMissing⟩
  | ok artifact =>
    obtain ⟨inMemory, written⟩ := held_put_of_isWritable isLooked stillWritable
    refine ⟨_, written, ?_, ?_, ?_⟩
    · rintro _ ⟨⟩
      exact found_get_of_held inMemory
    · rintro _ ⟨⟩
      rw [readArtifact_put_iff stillWritable, missing]
      simp
    · rintro _ ⟨⟩

/-- In a directory where its file can be written, an artifact that is not in memory is read from its
file, and not made, if the file holds one; otherwise the answer is what is made of it. If there is
an artifact, the next look-up finds it, and its file holds it, for a cache that is opened again as
well, exactly if it did so before or the artifact is read back from what is written. If there is
none, neither look-up finds one. -/
theorem getOrCompute_heals_iff (durable : cache.disk = some tree)
    (writable : tree.IsWritable (stage.path digest)) (absent : cache.held stage digest = none) :
    (∀ artifact, readArtifact tree stage digest = some artifact →
      cache.computes stage digest = false ∧ ∀ compute : Unit → Except ε stage.Artifact,
        (cache.getOrCompute stage digest compute).1 = .ok artifact) ∧
    (readArtifact tree stage digest = none →
      cache.computes stage digest = true ∧ ∀ compute : Unit → Except ε stage.Artifact,
        (cache.getOrCompute stage digest compute).1 = compute ()) ∧
    ∀ compute : Unit → Except ε stage.Artifact, ∃ left,
      Leaves tree stage digest (cache.getOrCompute stage digest compute).1
        (cache.getOrCompute stage digest compute).2 left ∧
      ((cache.getOrCompute stage digest compute).2.reopen.get stage digest).1 =
        readArtifact left stage digest := by
  have found := found_get_of_absent durable absent
  refine ⟨?_, ?_, ?_⟩
  · intro artifact reads
    rw [reads] at found
    refine ⟨by rw [computes, found]; rfl, fun compute => ?_⟩
    rw [getOrCompute_of_found found]
  · intro missing
    rw [missing] at found
    refine ⟨by rw [computes, found]; rfl, fun compute => ?_⟩
    rw [getOrCompute_of_missing found]
  · intro compute
    suffices ∃ left, Leaves tree stage digest (cache.getOrCompute stage digest compute).1
        (cache.getOrCompute stage digest compute).2 left by
      obtain ⟨left, leaves⟩ := this
      exact ⟨left, leaves, found_get_reopen leaves.disk⟩
    cases reads : readArtifact tree stage digest with
    | some artifact =>
      rw [getOrCompute_of_found (found.trans reads)]
      exact ⟨tree, leaves_of_read durable absent reads⟩
    | none =>
      have isMade : (cache.getOrCompute stage digest compute).1 = compute () := by
        rw [getOrCompute_of_missing (found.trans reads)]
      rw [isMade]
      exact exists_leaves_of_missing durable writable absent reads

/-- A directory with a lowered module whose file was cut short. -/
def Trial.truncated : Disk :=
  ((Disk.set {} [] .directory).set ["lowering".toList] .directory).set
    ["lowering".toList, "d.json".toList] (.file (some "\x7b\"code\":".toList))

/-- The file that was cut short is replaced by the module that is made. -/
theorem truncated_healed :
    ∃ after, (ofDisk (some Trial.truncated)).getOrCompute .lowering ['d'] (fun _ =>
        (.ok ⟨['c'], none⟩ : Except Empty LoweredModule)) = (.ok ⟨['c'], none⟩, after) ∧
      (after.get .lowering ['d']).1 = some ⟨['c'], none⟩ ∧
      (after.reopen.get .lowering ['d']).1 = some ⟨['c'], none⟩ := by
  have writable : Trial.truncated.IsWritable (Stage.lowering.path ['d']) := by
    have writes : (Trial.truncated.put (Stage.lowering.path ['d']) []).1 = .ok () := by
      decide +kernel
    exact Disk.isWritable_of_put writes
  have unreadable : readArtifact Trial.truncated .lowering ['d'] = none := by decide +kernel
  have survives : Stage.lowering.Survives ⟨['c'], none⟩ := by
    have integral : Stage.lowering.IsIntegral ⟨['c'], none⟩ := trivial
    exact (Stage.survives_iff integral).mpr (by decide)
  let compute : Unit → Except Empty LoweredModule := fun _ => .ok ⟨['c'], none⟩
  obtain ⟨-, makes, leavesBehind⟩ :=
    @getOrCompute_heals_iff Empty _ _ .lowering ['d'] rfl writable (held_ofDisk _)
  have isMade := (makes unreadable).2 compute
  obtain ⟨left, leaves, reopened⟩ := leavesBehind compute
  let made := (ofDisk (some Trial.truncated)).getOrCompute .lowering ['d'] compute
  have isReread : (made.2.reopen.get .lowering ['d']).1 = some ⟨['c'], none⟩ :=
    reopened.trans ((leaves.file _ isMade).mpr (.inr survives))
  exact ⟨made.2, Prod.ext isMade rfl, leaves.found _ isMade, isReread⟩

/-- A huge number that is made on demand is not what is found once the cache is opened again. -/
theorem found_reopened_ne_of_hugeNumber :
    ∃ artifact : FrontmatterArtifact, Json.parse hugeNumber = .ok artifact.data ∧
      ((ofDisk (some {})).getOrCompute .frontmatter "ab".toList fun _ =>
        (.ok artifact : Except Empty FrontmatterArtifact)).1 = .ok artifact ∧
      (((ofDisk (some {})).getOrCompute .frontmatter "ab".toList fun _ =>
        (.ok artifact : Except Empty FrontmatterArtifact)).2.reopen.get .frontmatter
          "ab".toList).1 ≠ some artifact := by
  obtain ⟨artifact, parsed, changes⟩ := not_survives_hugeNumber
  have writable : Disk.IsWritable {} (Stage.frontmatter.path "ab".toList) := by
    have writes : (Disk.put {} (Stage.frontmatter.path "ab".toList) []).1 = .ok () := by
      decide +kernel
    exact Disk.isWritable_of_put writes
  have missing : readArtifact {} .frontmatter "ab".toList = none := rfl
  let compute : Unit → Except Empty FrontmatterArtifact := fun _ => .ok artifact
  obtain ⟨left, leaves⟩ : ∃ left, Leaves {} .frontmatter "ab".toList (compute ())
      ((ofDisk (some {})).getOrCompute .frontmatter "ab".toList compute).2 left :=
    exists_leaves_of_missing rfl writable (held_ofDisk _) missing
  refine ⟨artifact, parsed, rfl, ?_⟩
  rw [found_get_reopen leaves.disk]
  intro reads
  rcases (leaves.file artifact rfl).mp reads with before | survives
  · rw [missing] at before
    cases before
  · exact changes survives

end MdxBuild.BuildCache

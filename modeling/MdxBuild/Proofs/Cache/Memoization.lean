import MdxBuild.Proofs.Cache.Directory
import MdxBuild.Proofs.Cache.Operation

/-!
# Computing a digest once

An artifact that was made on demand is in memory afterwards if it was found or its file could be
written, and what is in memory stays there until it is forgotten, whatever becomes of the directory.
A write that fails leaves the artifact neither in memory nor on disk, so the next demand makes it
again.
-/

namespace MdxBuild

/-- An event that does not forget what the cache has in memory under a digest, nor put anything else
in its place. -/
def Event.Spares {ε : Type} (cache : BuildCache) (stage : Stage) (digest : Text) : Event ε → Prop
  | .operation (.put other key _) => ¬(stage = other ∧ digest = key)
  | .operation (.evict other key) => ¬(stage = other ∧ digest = key)
  | .operation (.clearStage other) => stage ≠ other
  | .operation (.record other id key) =>
    ¬(stage = other ∧ cache.manifest.digest? other id = some digest ∧
      (cache.manifest.record other id key).references other digest = false)
  | .operation (.invalidate id) =>
    ¬(cache.manifest.digest? stage id = some digest ∧
      (cache.manifest.remove id).references stage digest = false)
  | .operation .clear => False
  | .operation (.get ..) | .operation (.getOrCompute ..) | .operation (.freshness ..)
  | .operation .manifest | .operation .save => True
  | .reopened => False
  | .disturbed _ => True

namespace BuildCache

variable {ε : Type} {cache : BuildCache} {stage : Stage} {digest : Text} {artifact : stage.Artifact}

/-- A history of events none of which forgets what the cache has under a digest. -/
def Spares (stage : Stage) (digest : Text) : BuildCache → List (Event ε) → Prop
  | _, [] => True
  | cache, event :: history =>
    event.Spares cache stage digest ∧ Spares stage digest (cache.undergo event) history

/-- Until the digest is forgotten, its artifact is returned on demand and never made again. -/
def Memoizes (cache : BuildCache) (stage : Stage) (digest : Text) (artifact : stage.Artifact) :
    Prop :=
  ∀ (ε : Type) (history : List (Event ε)), cache.Spares stage digest history →
    ∀ compute : Unit → Except ε stage.Artifact,
      ((cache.undergoAll history).getOrCompute stage digest compute).1 = .ok artifact ∧
        (cache.undergoAll history).computes stage digest = false

/-! ## What stays in memory -/

/-- What the cache has in memory is still there after an event that spares it. -/
theorem held_undergo {event : Event ε} (spares : event.Spares cache stage digest)
    (inMemory : cache.held stage digest = some artifact) :
    (cache.undergo event).held stage digest = some artifact := by
  cases event with
  | reopened => cases spares
  | disturbed change => exact inMemory
  | operation operation =>
    cases operation with
    | put other key kept => exact (held_put_of_ne kept spares).trans inMemory
    | get other key => exact held_get_of_held inMemory
    | getOrCompute other key computation => exact held_getOrCompute_of_held inMemory
    | evict other key => rwa [undergo, operate, held_evict, if_neg spares]
    | clearStage other => rwa [undergo, operate, held_clearStage, if_neg spares]
    | record other id key => rwa [undergo, operate, held_record, if_neg spares]
    | invalidate id => rwa [undergo, operate, held_invalidate, if_neg spares]
    | clear => cases spares
    | save => rwa [undergo, operate, held_save]
    | freshness other id key => exact inMemory
    | manifest => exact inMemory

/-- What the cache has in memory is still there after a history that spares it. -/
theorem held_undergoAll {history : List (Event ε)} (spares : cache.Spares stage digest history)
    (inMemory : cache.held stage digest = some artifact) :
    (cache.undergoAll history).held stage digest = some artifact := by
  induction history generalizing cache with
  | nil => exact inMemory
  | cons event others ih => exact ih spares.2 (held_undergo spares.1 inMemory)

theorem memoizes_of_held (inMemory : cache.held stage digest = some artifact) :
    cache.Memoizes stage digest artifact := by
  intro ε history spares compute
  have found := found_get_of_held (held_undergoAll spares inMemory)
  rw [getOrCompute_of_found found, computes, found]
  exact ⟨rfl, rfl⟩

/-! ## What gets into memory -/

theorem proper_get (proper : ∀ tree ∈ cache.disk, tree.IsProper) :
    ∀ tree ∈ (cache.get stage digest).2.disk, tree.IsProper := by
  intro tree isDisk
  rcases disk_get cache stage digest with same | removed
  · exact proper tree (same ▸ isDisk)
  · obtain ⟨earlier, wasDisk, rfl⟩ := Option.map_eq_some_iff.mp (removed ▸ isDisk)
    exact Disk.IsProper.remove (proper earlier wasDisk) _

/-- After a write that fails, a look-up finds what was in memory before, and nothing on disk. -/
theorem found_get_put_of_error (proper : ∀ tree ∈ cache.disk, tree.IsProper)
    (fails : (cache.put stage digest artifact).1.toBool = false) :
    ((cache.put stage digest artifact).2.get stage digest).1 = cache.held stage digest := by
  have unreadable : Store.fileText? stage (cache.put stage digest artifact).2.disk digest =
      none := by
    rw [toBool_put] at fails
    rw [disk_put]
    cases isDisk : cache.disk with
    | none => rfl
    | some tree =>
      rw [isDisk, Option.all_some] at fails
      have failed : (tree.put (stage.path digest) (stage.encode artifact).render).1 ≠ .ok () := by
        intro succeeds
        rw [succeeds] at fails
        cases fails
      exact Disk.read?_put_of_error (proper tree isDisk) (Stage.path_ne_nil stage digest) failed
  rw [found_get, unreadable, Option.bind_none, Option.or_none, held_put_self, fails]
  rfl

/-- An artifact that was made on demand is never made again until it is forgotten exactly if it was
found, or there is no directory, or its file could be written. -/
theorem memoizes_iff {compute : Unit → Except ε stage.Artifact}
    (proper : ∀ tree ∈ cache.disk, tree.IsProper)
    (returns : (cache.getOrCompute stage digest compute).1 = .ok artifact) :
    (cache.getOrCompute stage digest compute).2.Memoizes stage digest artifact ↔
      cache.computes stage digest = false ∨
        ∀ tree, (cache.get stage digest).2.disk = some tree →
          (tree.put (stage.path digest) (stage.encode artifact).render).1 = .ok () := by
  have writes : ((cache.get stage digest).2.put stage digest artifact).1.toBool = true ↔
      ∀ tree, (cache.get stage digest).2.disk = some tree →
        (tree.put (stage.path digest) (stage.encode artifact).render).1 = .ok () := by
    rw [toBool_put, Option.all_eq_true]
    refine forall_congr' fun tree => forall_congr' fun _ => ?_
    cases (tree.put (stage.path digest) (stage.encode artifact).render).1 <;>
      simp [Except.toBool]
  rw [← writes]
  cases found : (cache.get stage digest).1 with
  | some existing =>
    rw [getOrCompute_of_found found] at returns ⊢
    obtain rfl : existing = artifact := Except.ok.inj returns
    simp only [computes, found, Option.isNone_some, true_or, iff_true]
    exact memoizes_of_held (held_get_self.trans found)
  | none =>
    rw [getOrCompute_of_missing found] at returns ⊢
    replace returns : compute () = .ok artifact := returns
    simp only [computes, found, Option.isNone_none, returns, Bool.true_eq_false, false_or]
    constructor
    · intro memoizes
      by_contra fails
      have again := (memoizes Empty [] trivial fun _ => .ok artifact).2
      rw [undergoAll_nil, computes,
        found_get_put_of_error (proper_get proper) (Bool.eq_false_iff.mpr fails), held_get_self,
        found] at again
      cases again
    · intro written
      apply memoizes_of_held
      rw [held_put_self, if_pos written]

/-- In a new directory an artifact is made once. -/
theorem memoizes_of_new :
    ((ofDisk (some {})).getOrCompute .lowering ['d'] fun _ =>
      (.ok ⟨['c'], none⟩ : Except Empty LoweredModule)).2.Memoizes .lowering ['d']
        ⟨['c'], none⟩ := by
  have proper : ∀ tree ∈ (ofDisk (some {})).disk, tree.IsProper := by
    rintro _ ⟨⟩ place content found
    rw [ Disk.entry?] at found
    split at found <;> cases found
  refine (memoizes_iff proper rfl).mpr (.inr ?_)
  rintro _ ⟨⟩
  decide +kernel

/-- A directory in which a file stands where the frontmatter goes. -/
def obstructed : Disk :=
  ((Disk.set {} [] .directory).set ["frontmatter".toList] (.file (some ['x'])))

/-- In an obstructed directory, frontmatter that was made on demand is made again on the next
demand. -/
theorem not_memoizes_of_obstructed :
    ∃ artifact : FrontmatterArtifact,
      ((ofDisk (some obstructed)).getOrCompute .frontmatter ['d'] fun _ =>
        (.ok artifact : Except Empty FrontmatterArtifact)).1 = .ok artifact ∧
      ¬((ofDisk (some obstructed)).getOrCompute .frontmatter ['d'] fun _ =>
        (.ok artifact : Except Empty FrontmatterArtifact)).2.Memoizes .frontmatter ['d']
          artifact := by
  refine ⟨⟨.ofNat 1⟩, rfl, ?_⟩
  intro memoizes
  have again := (memoizes Empty [] trivial fun _ => .ok ⟨.ofNat 1⟩).2
  exact absurd again (by decide +kernel)

end BuildCache

end MdxBuild

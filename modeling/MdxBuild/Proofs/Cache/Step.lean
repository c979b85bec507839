import Mathlib.Logic.Relation
import MdxBuild.Proofs.Cache.Build

/-!
# Steps of a build pass on the cache

All that a build pass does to the cache is made of three steps: it looks a digest up, it records the
digest of an artifact that is in memory, and it keeps a new artifact and records its digest. What
holds throughout a pass is stated as a property that each step preserves; the passes themselves are
taken apart into steps once.
-/

namespace MdxBuild.BuildCache

/-- Which digests are in use, which documents may get a new digest in which stage, and which
artifacts may be kept under which digests. -/
structure Permit where
  names : Text → Prop
  records : Stage → Text → Prop
  keeps : (stage : Stage) → Text → stage.Artifact → Prop

/-- A permit that allows at least as much. -/
structure Permit.Within (narrow wide : Permit) : Prop where
  names : ∀ {digest}, narrow.names digest → wide.names digest
  records : ∀ {stage id}, narrow.records stage id → wide.records stage id
  keeps : ∀ {stage digest artifact}, narrow.keeps stage digest artifact →
    wide.keeps stage digest artifact

/-- One step on the cache. An artifact is kept where a look-up finds one only in the last stage. -/
inductive Step (permit : Permit) : BuildCache → BuildCache → Prop
  | looked (cache : BuildCache) (stage : Stage) {digest : Text} (names : permit.names digest) :
      Step permit cache (cache.get stage digest).2
  | found {cache : BuildCache} {stage : Stage} {id digest : Text} {artifact : stage.Artifact}
      (names : permit.names digest) (records : permit.records stage id)
      (inMemory : cache.held stage digest = some artifact) :
      Step permit cache (cache.record stage id digest)
  | kept {cache : BuildCache} {stage : Stage} {id digest : Text} {artifact : stage.Artifact}
      (names : permit.names digest) (records : permit.records stage id)
      (keeps : permit.keeps stage digest artifact)
      (absent : stage = .lowering ∨ (cache.get stage digest).1 = none) :
      Step permit cache ((cache.put stage digest artifact).2.record stage id digest)

/-- Any number of steps on the cache. -/
def Steps (permit : Permit) : BuildCache → BuildCache → Prop :=
  Relation.ReflTransGen (Step permit)

namespace Steps

variable {permit narrow wide : Permit} {cache middle after : BuildCache}

theorem refl (cache : BuildCache) : Steps permit cache cache :=
  Relation.ReflTransGen.refl

theorem trans (first : Steps permit cache middle) (second : Steps permit middle after) :
    Steps permit cache after :=
  Relation.ReflTransGen.trans first second

theorem single (step : Step permit cache after) : Steps permit cache after :=
  Relation.ReflTransGen.single step

/-- What each step preserves is preserved by steps. -/
theorem preserve (holds : BuildCache → Prop)
    (preserves : ∀ {before next : BuildCache}, Step permit before next → holds before → holds next)
    (steps : Steps permit cache after) (start : holds cache) : holds after := by
  induction steps with
  | refl => exact start
  | tail _ step ih => exact preserves step ih

theorem widen (within : narrow.Within wide) (steps : Steps narrow cache after) :
    Steps wide cache after := by
  induction steps with
  | refl => exact refl _
  | tail _ step ih =>
    refine Relation.ReflTransGen.tail ih ?_
    cases step with
    | looked stage names => exact .looked _ stage (within.names names)
    | found names records inMemory =>
      exact .found (within.names names) (within.records records) inMemory
    | kept names records keeps absent =>
      exact .kept (within.names names) (within.records records) (within.keeps keeps) absent

end Steps

end MdxBuild.BuildCache

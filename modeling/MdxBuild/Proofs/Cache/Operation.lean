import MdxBuild.Proofs.Cache.Build

/-!
# Operations on the cache and what else befalls it

A host puts questions to the cache one after the other; between them it may close the cache and open
it again, and others may change the directory. The answers to a history of such events are what a
host can see of the cache, apart from its figures.
-/

namespace MdxBuild

/-- An operation on the cache. A computation is what it would return; it may fail. -/
inductive Operation (ε : Type) where
  | put (stage : Stage) (digest : Text) (artifact : stage.Artifact)
  | get (stage : Stage) (digest : Text)
  | getOrCompute (stage : Stage) (digest : Text) (computation : Except ε stage.Artifact)
  | evict (stage : Stage) (digest : Text)
  | clearStage (stage : Stage)
  | record (stage : Stage) (id digest : Text)
  | freshness (stage : Stage) (id digest : Text)
  | invalidate (id : Text)
  | clear
  | manifest
  | save

/-- What an operation answers. -/
inductive Answer (ε : Type) where
  | done
  | written (result : Except CacheError Unit)
  | found (stage : Stage) (artifact : Option stage.Artifact)
  /-- The artifact, and whether the computation was run for it. -/
  | computed (stage : Stage) (result : Except ε stage.Artifact) (ran : Bool)
  | compared (freshness : Freshness)
  | noted (manifest : Manifest)

/-- What befalls a cache. -/
inductive Event (ε : Type) where
  | operation (operation : Operation ε)
  /-- The cache is saved, closed and opened again. -/
  | reopened
  /-- Others change the directory, if there is one. -/
  | disturbed (change : Disk → Disk)

namespace BuildCache

variable {ε : Type}

/-- A digest has to be computed: a look-up does not find its artifact. -/
def computes (cache : BuildCache) (stage : Stage) (digest : Text) : Bool :=
  (cache.get stage digest).1.isNone

/-- The answer to an operation. -/
def answer (cache : BuildCache) : Operation ε → Answer ε
  | .put stage digest artifact => .written (cache.put stage digest artifact).1
  | .get stage digest => .found stage (cache.get stage digest).1
  | .getOrCompute stage digest computation =>
    .computed stage (cache.getOrCompute stage digest fun _ => computation).1
      (cache.computes stage digest)
  | .freshness stage id digest => .compared (cache.freshness stage id digest)
  | .manifest => .noted cache.manifest
  | .save => .written cache.save.1
  | .evict .. | .clearStage _ | .record .. | .invalidate _ | .clear => .done

/-- The cache after an operation. -/
def operate (cache : BuildCache) : Operation ε → BuildCache
  | .put stage digest artifact => (cache.put stage digest artifact).2
  | .get stage digest => (cache.get stage digest).2
  | .getOrCompute stage digest computation =>
    (cache.getOrCompute stage digest fun _ => computation).2
  | .evict stage digest => cache.evict stage digest
  | .clearStage stage => cache.clearStage stage
  | .record stage id digest => cache.record stage id digest
  | .invalidate id => cache.invalidate id
  | .clear => cache.clear
  | .save => cache.save.2
  | .freshness .. | .manifest => cache

/-- The cache after an event. -/
def undergo (cache : BuildCache) : Event ε → BuildCache
  | .operation operation => cache.operate operation
  | .reopened => cache.save.2.reopen
  | .disturbed change => { cache with disk := cache.disk.map change }

/-- The cache after a history of events. -/
def undergoAll (cache : BuildCache) (history : List (Event ε)) : BuildCache :=
  history.foldl undergo cache

@[simp]
theorem undergoAll_nil (cache : BuildCache) : cache.undergoAll ([] : List (Event ε)) = cache :=
  rfl

@[simp]
theorem undergoAll_cons (cache : BuildCache) (event : Event ε) (history : List (Event ε)) :
    cache.undergoAll (event :: history) = (cache.undergo event).undergoAll history :=
  rfl

/-- The answers to the operations of a history. -/
def answers (cache : BuildCache) : List (Event ε) → List (Answer ε)
  | [] => []
  | .operation operation :: history =>
    cache.answer operation :: answers (cache.operate operation) history
  | event :: history => answers (cache.undergo event) history

end BuildCache

end MdxBuild

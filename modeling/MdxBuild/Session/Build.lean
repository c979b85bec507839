import MdxBuild.Session.Preparation

/-!
# Build passes

A build pass takes a list of documents: every document is prepared, the code that is to be lowered
goes into one batch, and the modules that come back are kept in the cache. A document whose module
does not come back is left with the code that it has. The state between passes is the cache.
-/

namespace MdxBuild.Session

variable (session : Session)

/-- The lowering jobs of prepared documents. -/
def jobs (prepared : List Prepared) : List LoweringJob :=
  prepared.filterMap fun item =>
    match item with
    | .done _ => none
    | .lower output _ => some ⟨output.id, output.code⟩

/-- What becomes of the jobs of prepared documents. -/
def lowerAll (prepared : List Prepared) : Batch.Outcomes :=
  Batch.lower session.options.lowering session.workers session.routine session.fate (jobs prepared)

/-- The outcome of a prepared document, given what becomes of the jobs. An outcome of a job goes to
the first document that asks for it. -/
def settle (cache : BuildCache) (outcomes : Batch.Outcomes) :
    Prepared → DocumentOutput × BuildCache × Batch.Outcomes
  | .done output => (output, cache, outcomes)
  | .lower output digest =>
    let left := outcomes.erase output.id
    match outcomes.find? output.id with
    | some (.ok lowered) =>
      let kept := (cache.put .lowering digest lowered).2.record .lowering output.id digest
      (output.withModule lowered, kept, left)
    | some (.error failure) =>
      (output.degrade ("left unlowered: ".toList ++ failure.message), cache, left)
    | none => (output.degrade "left unlowered: no lowering result".toList, cache, left)

/-- The outcomes of prepared documents, in order. -/
def settleAll (cache : BuildCache) (outcomes : Batch.Outcomes) :
    List Prepared → List DocumentOutput × BuildCache
  | [] => ([], cache)
  | prepared :: others =>
    let (output, after, left) := settle cache outcomes prepared
    let (outputs, last) := settleAll after left others
    (output :: outputs, last)

/-- A build pass over documents. A failure of the native compiler on the fast path ends the pass;
what the documents before it left in the cache stays. -/
def build (cache : BuildCache) (documents : List SourceDocument) :
    Worked (Except CompilerFailure BuildReport) :=
  let prepared := session.prepareAll cache documents
  match prepared.result with
  | .error failure => { prepared with result := .error failure }
  | .ok items =>
    let (outputs, after) := settleAll prepared.cache (session.lowerAll items) items
    { prepared with result := .ok ⟨outputs, after.stats⟩, cache := after }

/-- The cache with which a session starts: the one kept in the directory, if there is one. -/
def start (directory : Option Disk) : BuildCache :=
  BuildCache.ofDisk directory

end MdxBuild.Session

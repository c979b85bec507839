import MdxBuild.Batch.Partition
import MdxBuild.Cache.Artifact
import MdxBuild.Config.Options

/-!
# Lowering batches

A batch of jobs is split over workers, one for each group. A worker lowers its jobs one after the
other and then sends a single report. If its report does not come in time, or not at all, every job
of its group has failed; the other groups are not affected.
-/

namespace MdxBuild

/-- A module to be lowered. -/
structure LoweringJob where
  jobId : Text
  markup : Text
deriving DecidableEq, Repr

/-- Why a module was not lowered. -/
inductive LoweringError where
  /-- The markup is no module. -/
  | parse (diagnostics : Text)
  /-- The markup was rejected. -/
  | transform (message : Text)
  /-- The worker of the group failed. -/
  | groupFailed (group : Nat) (reason : Text)
deriving DecidableEq, Repr

/-- Why there is no lowered module, in words. -/
def LoweringError.message : LoweringError → Text
  | .parse diagnostics => "failed to parse generated markup: ".toList ++ diagnostics
  | .transform message => "lowering failed: ".toList ++ message
  | .groupFailed group reason =>
    "worker chunk ".toList ++ Text.ofNat group ++ " failed: ".toList ++ reason

/-- What becomes of a job. -/
abbrev LoweringOutcome : Type :=
  Except LoweringError LoweredModule

/-- The routine that a worker runs for each job. -/
abbrev LoweringRoutine : Type :=
  LoweringOptions → LoweringJob → LoweringOutcome

/-- What becomes of a worker: it reports in time, its report is too late, it ends without one, or it
is not started in the first place. -/
inductive WorkerFate where
  | reported
  | late
  | died
  | refused (error : Text)
deriving DecidableEq, Repr

namespace Batch

/-- The outcomes of jobs, by job. -/
abbrev Outcomes : Type :=
  Dictionary LoweringOutcome

/-- The reason that the jobs of a worker without a report are given. -/
def failureReason (options : LoweringOptions) : WorkerFate → Option Text
  | .reported => none
  | .late => some ("timed out after ".toList ++ Text.ofNat options.timeoutMs ++ "ms".toList)
  | .died => some "worker exited abnormally".toList
  | .refused error => some ("failed to spawn worker: ".toList ++ error)

/-- What a worker sends: the modules that it has made, and the failures. -/
structure WorkerReport where
  results : List (Text × LoweredModule) := []
  errors : List (Text × LoweringError) := []

namespace WorkerReport

/-- The report with what becomes of one more job. -/
def add (report : WorkerReport) (id : Text) : LoweringOutcome → WorkerReport
  | .ok lowered => { report with results := report.results ++ [(id, lowered)] }
  | .error error => { report with errors := report.errors ++ [(id, error)] }

/-- A report, as it is taken into the outcomes: first the modules, then the failures. -/
def entries (report : WorkerReport) : List (Text × LoweringOutcome) :=
  report.results.map (fun (id, lowered) => (id, .ok lowered)) ++
    report.errors.map fun (id, error) => (id, .error error)

end WorkerReport

/-- The report of a worker that has lowered jobs one after the other. -/
def report (options : LoweringOptions) (routine : LoweringRoutine) (jobs : List LoweringJob) :
    WorkerReport :=
  jobs.foldl (fun report job => report.add job.jobId (routine options job)) {}

/-- A failure for each job of a group. -/
def failures (group : Nat) (reason : Text) (jobs : List LoweringJob) :
    List (Text × LoweringOutcome) :=
  jobs.map fun job => (job.jobId, .error (.groupFailed group reason))

/-- The outcomes, completed by a failure for each job of a group that has none. -/
def complete (group : Nat) (jobs : List LoweringJob) (outcomes : Outcomes) : Outcomes :=
  jobs.foldl (fun all job =>
    if (all.find? job.jobId).isSome then all
    else all.insert job.jobId (.error (.groupFailed group "worker reported no result".toList)))
    outcomes

/-- Takes what is received of the worker of a group into the outcomes: its report, or the reason
that there is none. -/
def receive (group : Nat) (jobs : List LoweringJob) (received : Except Text WorkerReport)
    (outcomes : Outcomes) : Outcomes :=
  match received with
  | .ok report => complete group jobs (outcomes.insertAll report.entries)
  | .error reason => outcomes.insertAll (failures group reason jobs)

/-- What is received of a worker. -/
def received (options : LoweringOptions) (routine : LoweringRoutine) (fate : WorkerFate)
    (jobs : List LoweringJob) : Except Text WorkerReport :=
  match failureReason options fate with
  | none => .ok (report options routine jobs)
  | some reason => .error reason

/-- The outcomes of groups, of which the first one has the number `group`. -/
def collect (options : LoweringOptions) (routine : LoweringRoutine)
    (fate : Nat → List LoweringJob → WorkerFate) : (group : Nat) → Outcomes →
    List (List LoweringJob) → Outcomes
  | _, outcomes, [] => outcomes
  | group, outcomes, jobs :: others =>
    collect options routine fate (group + 1)
      (receive group jobs (received options routine (fate group jobs) jobs) outcomes) others

/-- Lowers a batch of jobs with up to `workers` workers, of which `fate` tells what becomes. -/
def lower (options : LoweringOptions) (workers : Nat) (routine : LoweringRoutine)
    (fate : Nat → List LoweringJob → WorkerFate) (jobs : List LoweringJob) : Outcomes :=
  collect options routine fate 0 .empty (partition jobs (max workers 1))

end Batch

end MdxBuild

import MdxBuild.Batch.Lowering

/-!
# Trial lowering

A lowering routine that batches can be tried out with. Words in the markup tell what it does: lower
the module by putting its import source in front, reject it, or take its worker down.
-/

namespace MdxBuild.Trial

/-- The word in the markup of a job that takes longer than a batch waits. -/
def hangWord : Text :=
  "HANG".toList

/-- The word in the markup of a job that ends its worker. -/
def panicWord : Text :=
  "PANIC".toList

/-- The word in the markup of a job that is rejected. -/
def rejectWord : Text :=
  "REJECT".toList

/-- The trial routine, for jobs that neither hang nor end their worker. -/
def routine : LoweringRoutine := fun options job =>
  if Text.occursIn rejectWord job.markup then .error (.transform ("rejected ".toList ++ job.jobId))
  else
    .ok {
      code := "/* ".toList ++ options.jsxImportSource ++ " */\n".toList ++ job.markup
      map := if options.sourceMaps then some ("map of ".toList ++ job.jobId) else none }

/-- What becomes of the worker of a group: the first job that hangs or ends it decides, and a job
with both words hangs. -/
def fate (_ : Nat) : List LoweringJob → WorkerFate
  | [] => .reported
  | job :: others =>
    if Text.occursIn hangWord job.markup then .late
    else if Text.occursIn panicWord job.markup then .died
    else fate 0 others

end MdxBuild.Trial

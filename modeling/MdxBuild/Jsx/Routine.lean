import MdxBuild.Batch.Lowering
import MdxBuild.Jsx.Annotated
import MdxBuild.Json.Printer
import MdxBuild.Script.Printer

/-!
# The lowering routine

How a worker lowers a job: with annotations where that is possible, else in the plain way. Code that
cannot be read is final.
-/

namespace MdxBuild.Jsx

open Script

/-- The failure of a job whose code cannot be read. -/
def malformed : LoweringError :=
  .parse "unexpected token".toList

/-- The lowered code of a module. -/
def lowerCode (package code : Text) : Except LoweringError Text :=
  match Module.ofText? code with
  | none => .error malformed
  | some statements =>
    match (lowerAnnotated? package statements).orElse fun _ => lowerPlainly? package statements with
    | some lowered => .ok lowered.print
    | none => .error malformed

/-- The source map of a job, without its table of positions. -/
def sourceMap (job : LoweringJob) : Text :=
  (Json.object [
    ("version".toList, .ofNat 3),
    ("sources".toList, .array [.string job.jobId]),
    ("sourcesContent".toList, .array [.string job.markup])]).render

/-- Lowers a job. -/
def routine : LoweringRoutine := fun options job => do
  let code ← lowerCode options.jsxImportSource job.markup
  .ok ⟨code, if options.sourceMaps then some (sourceMap job) else none⟩

end MdxBuild.Jsx

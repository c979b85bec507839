import MdxBuild.Cache.Store
import MdxBuild.Route

/-!
# Build reports

What a build pass says about every document, in the order of the documents, and the figures of the
pass.
-/

namespace MdxBuild

/-- What became of a document. -/
inductive DocumentStatus where
  | compiled
  /-- There is an output, but it lacks something. -/
  | degraded
  /-- There is no output. -/
  | failed
deriving DecidableEq, Repr

/-- The outcome of a document. -/
structure DocumentOutput where
  id : Text
  route : Route
  status : DocumentStatus := .compiled
  code : Text := []
  map : Option Text := none
  frontmatter : Json := .null
  headings : List HeadingRecord := []
  /-- How the document compares with the pass before; only documents that go to the fallback
  compiler are compared. -/
  freshness : Option Freshness := none
  diagnostics : List Text := []

namespace DocumentOutput

/-- The outcome of a document that failed. -/
def fail (output : DocumentOutput) (diagnostic : Text) : DocumentOutput :=
  { output with status := .failed, diagnostics := output.diagnostics ++ [diagnostic] }

/-- The outcome of a document that lacks something; one that failed has failed still. -/
def degrade (output : DocumentOutput) (diagnostic : Text) : DocumentOutput :=
  { output with
    status := if output.status = .compiled then .degraded else output.status
    diagnostics := output.diagnostics ++ [diagnostic] }

/-- The outcome with the lowered module of the document. -/
def withModule (output : DocumentOutput) (lowered : LoweredModule) : DocumentOutput :=
  { output with code := lowered.code, map := lowered.map }

end DocumentOutput

/-- The report of a build pass. -/
structure BuildReport where
  documents : List DocumentOutput
  /-- The figures of the cache after the pass. -/
  cache : Stage → StoreStats

namespace BuildReport

/-- The outcome of the first document with an id. -/
def document? (report : BuildReport) (id : Text) : Option DocumentOutput :=
  report.documents.find? fun output => output.id = id

/-- The number of documents on the fast path. -/
def fastCount (report : BuildReport) : Nat :=
  report.documents.countP fun output => output.route.isFast

/-- The number of documents on the fallback path. -/
def fallbackCount (report : BuildReport) : Nat :=
  report.documents.countP fun output => !output.route.isFast

/-- The number of documents that failed. -/
def failedCount (report : BuildReport) : Nat :=
  report.documents.countP fun output => output.status = .failed

end BuildReport

end MdxBuild

import MdxBuild.Batch.Lowering
import MdxBuild.Cache.Build
import MdxBuild.Config.Fingerprint
import MdxBuild.Directive.Expansion
import MdxBuild.Document
import MdxBuild.Heading.Assignment
import MdxBuild.Hook
import MdxBuild.Import.Injection
import MdxBuild.Module.Metadata
import MdxBuild.Session.Compiler
import MdxBuild.Session.Report

/-!
# Preparing documents

What a build pass does with one document before the batch of lowering jobs: hooks, routing, and the
compiler of its route. The fallback path looks into the cache before each of its stages. Its
compiled modules do not depend on the id of the document, so documents of the same content share
them; what is particular to the document is added behind the cache.
-/

namespace MdxBuild

/-- What a build session is set up with. -/
structure Session where
  hash : Hash
  options : BuildOptions
  native : NativeCompiler
  fallback : FallbackCompiler
  /-- The hooks in the order in which they run. -/
  hooks : List Hook
  /-- The number of workers for a batch of lowering jobs. -/
  workers : Nat
  routine : LoweringRoutine
  /-- What becomes of the worker of each group. -/
  fate : (group : Nat) → List LoweringJob → WorkerFate

/-- A document before the batch of lowering jobs. -/
inductive Prepared where
  | done (output : DocumentOutput)
  /-- The code of the output is to be lowered; the digest names the result. -/
  | lower (output : DocumentOutput) (digest : Text)

/-- A result, with what it leaves in the cache and the calls of outside compilers that it took. -/
structure Worked (α : Type) where
  result : α
  cache : BuildCache
  calls : List CompilerCall

namespace Session

variable (session : Session)

/-- The route of a source. -/
def route (source : Text) : Route :=
  Route.classify session.options.allowList session.options.ignoreCodeFences source

/-- The fingerprint of the frontmatter stage, which no option changes. -/
def frontmatterFingerprint : Text :=
  "frontmatter".toList

/-- The document that digests are made for. The digest of the host is that of the source before the
hooks, so it does not count for another source. -/
def keyed (document : SourceDocument) (source : Text) : SourceDocument :=
  if source = document.source then document else ⟨document.id, source, none⟩

/-- Compiles a document on the fast path. -/
def compileFast (id source : Text) (route : Route) : Except CompilerFailure DocumentOutput := do
  let native ← session.native.compile source id ⟨some id, none⟩
  .ok {
    id, route
    code := native.code
    frontmatter := native.frontmatter
    headings := native.headings
    diagnostics := native.diagnostics }

/-- The text that the fallback compiler is given for a source. -/
def fallbackSource (source : Text) : Text :=
  let registry := session.options.registry
  let expansion := expandDirectives registry session.options.defaultDirectives source
  if expansion.changed then
    Import.inject registry registry.builtinActive session.options.componentExtension
      expansion.usedComponents expansion.code
  else expansion.code

/-- Compiles a source with the fallback compiler and gives its headings their ids. -/
def compileAsFallback (id source : Text) : Except CompilerFailure CompiledArtifact := do
  let compiled ← session.fallback (session.fallbackSource source) id FallbackPlugin.all
  let headings := match session.native.extractHeadings source id with
    | .ok headings => headings
    | .error _ => compiled.headings
  .ok ⟨Generated.injectIds headings compiled.code, headings⟩

/-- The calls that compiling a source with the fallback compiler takes. -/
def fallbackCalls (id source : Text) : List CompilerCall :=
  let given := session.fallbackSource source
  .compileAsFallback id given FallbackPlugin.all ::
    match session.fallback given id FallbackPlugin.all with
    | .ok _ => [.extractHeadings id]
    | .error _ => []

/-- The artifact of a digest from the cache, or made by calls of outside compilers. -/
def cached {ε : Type} (cache : BuildCache) (stage : Stage) (digest : Text)
    (compute : Unit → Except ε stage.Artifact) (calls : List CompilerCall) :
    Worked (Except ε stage.Artifact) :=
  let (result, after) := cache.getOrCompute stage digest compute
  ⟨result, after, if (cache.get stage digest).1.isSome then [] else calls⟩

/-- The frontmatter of a document; a document whose frontmatter cannot be read lacks it. -/
def withFrontmatter (cache : BuildCache) (document : SourceDocument) (source : Text)
    (output : DocumentOutput) : Worked DocumentOutput :=
  let digest := (keyed document source).digestWith session.hash frontmatterFingerprint
  let compute := fun (_ : Unit) =>
    (session.native.parseFrontmatter source document.id).map FrontmatterArtifact.mk
  let worked := cached cache .frontmatter digest compute [.parseFrontmatter document.id]
  match worked.result with
  | .ok artifact =>
    { worked with
      result := { output with frontmatter := artifact.data }
      cache := worked.cache.record .frontmatter document.id digest }
  | .error failure => { worked with result := output.degrade failure.render }

/-- What is known about a document on the fallback path, for its metadata exports. -/
def metadata (output : DocumentOutput) (compiled : CompiledArtifact) : Metadata :=
  ⟨output.frontmatter, compiled.headings, output.id, none⟩

/-- The outcome of a compiled document: its module is taken from the cache or has to be lowered. -/
def withCompiled (cache : BuildCache) (output : DocumentOutput) (compiled : CompiledArtifact) :
    Prepared × BuildCache :=
  let code := (metadata output compiled).postProcess compiled.code
  let output := { output with code, headings := compiled.headings }
  let digest :=
    Digest.compute session.hash code (session.options.loweringFingerprint session.hash)
  match cache.get .lowering digest with
  | (some lowered, after) =>
    (.done (output.withModule lowered), after.record .lowering output.id digest)
  | (none, after) => (.lower output digest, after)

/-- Takes a document through the fallback path, up to lowering. -/
def prepareFallback (cache : BuildCache) (document : SourceDocument) (source : Text)
    (route : Route) : Worked Prepared :=
  let id := document.id
  let first := session.withFrontmatter cache document source { id, route }
  let digest := (keyed document source).digestWith session.hash
    (session.options.compileFingerprint session.hash)
  let output :=
    { first.result with freshness := some (first.cache.freshness .compile id digest) }
  let second := cached first.cache .compile digest
    (fun _ => session.compileAsFallback id source) (session.fallbackCalls id source)
  let calls := first.calls ++ second.calls
  match second.result with
  | .error failure => ⟨.done (output.fail failure.render), second.cache, calls⟩
  | .ok compiled =>
    let (prepared, after) :=
      session.withCompiled (second.cache.record .compile id digest) output compiled
    ⟨prepared, after, calls⟩

/-- Takes a document up to lowering. Only a failure of the native compiler on the fast path is not a
matter of the document alone. -/
def prepare (cache : BuildCache) (document : SourceDocument) :
    Worked (Except CompilerFailure Prepared) :=
  let id := document.id
  match Hook.run session.hooks id document.source with
  | .error failure =>
    let output : DocumentOutput := { id, route := session.route document.source }
    ⟨.ok (.done (output.fail failure.render)), cache, []⟩
  | .ok source =>
    let route := session.route source
    if route.isFast then
      ⟨(session.compileFast id source route).map .done, cache,
        [.compileNatively id source ⟨some id, none⟩]⟩
    else
      let worked := session.prepareFallback cache document source route
      { worked with result := .ok worked.result }

/-- Takes documents up to lowering, one after the other, unless the native compiler fails. -/
def prepareAll (cache : BuildCache) :
    List SourceDocument → Worked (Except CompilerFailure (List Prepared))
  | [] => ⟨.ok [], cache, []⟩
  | document :: others =>
    let first := session.prepare cache document
    match first.result with
    | .error failure => { first with result := .error failure }
    | .ok prepared =>
      let rest := prepareAll first.cache others
      { rest with result := rest.result.map (prepared :: ·), calls := first.calls ++ rest.calls }

end Session

end MdxBuild

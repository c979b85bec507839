import MdxBuild.Proofs.Cache.Validity
import MdxBuild.Session.Preparation

/-!
# Preparing documents as steps on the cache

What preparing a document does to the cache is a sequence of steps that record digests of this
document only and keep, if anything, an artifact that an outside compiler makes of it. The artifacts
of each stage are found or made in the same way, so that is stated once.
-/

namespace MdxBuild

open BuildCache

namespace Session

variable {session : Session} {cache : BuildCache}

/-! ## Digests -/

/-- The digests that a session uses. -/
def Names (session : Session) (digest : Text) : Prop :=
  ∃ bytes, session.hash bytes = digest

/-- The digest under which the frontmatter of a document is kept. -/
def frontmatterDigest (session : Session) (document : SourceDocument) (source : Text) : Text :=
  (keyed document source).digestWith session.hash frontmatterFingerprint

/-- The digest under which the compiled module of a document is kept. -/
def compileDigest (session : Session) (document : SourceDocument) (source : Text) : Text :=
  (keyed document source).digestWith session.hash
    (session.options.compileFingerprint session.hash)

/-- The digest under which the lowered form of a module is kept. -/
def loweringDigest (session : Session) (code : Text) : Text :=
  Digest.compute session.hash code (session.options.loweringFingerprint session.hash)

theorem names_frontmatterDigest (document : SourceDocument) (source : Text) :
    session.Names (session.frontmatterDigest document source) :=
  ⟨_, rfl⟩

theorem names_compileDigest (document : SourceDocument) (source : Text) :
    session.Names (session.compileDigest document source) :=
  ⟨_, rfl⟩

theorem names_loweringDigest (code : Text) : session.Names (session.loweringDigest code) :=
  ⟨_, rfl⟩

/-! ## Artifacts from the cache or made anew -/

section Cached

variable {ε : Type} {stage : Stage} {digest id : Text}
  {compute : Unit → Except ε stage.Artifact} {calls : List CompilerCall}

/-- An artifact is found, or making it fails, or it is made and kept. -/
theorem cached_cases (cache : BuildCache) (stage : Stage) (digest : Text)
    (compute : Unit → Except ε stage.Artifact) (calls : List CompilerCall) :
    (∃ artifact, (cache.get stage digest).1 = some artifact ∧
      cached cache stage digest compute calls = ⟨.ok artifact, (cache.get stage digest).2, []⟩) ∨
    ((cache.get stage digest).1 = none ∧ ∃ failure, compute () = .error failure ∧
      cached cache stage digest compute calls =
        ⟨.error failure, (cache.get stage digest).2, calls⟩) ∨
    ((cache.get stage digest).1 = none ∧ ∃ artifact, compute () = .ok artifact ∧
      cached cache stage digest compute calls =
        ⟨.ok artifact, ((cache.get stage digest).2.put stage digest artifact).2, calls⟩) := by
  rcases lookup : cache.get stage digest with ⟨found, after⟩
  cases found with
  | some artifact => exact .inl ⟨artifact, rfl, by simp [cached, getOrCompute, lookup]⟩
  | none =>
    right
    cases computed : compute () with
    | error failure =>
      exact .inl ⟨rfl, failure, rfl, by simp [cached, getOrCompute, lookup, computed]⟩
    | ok artifact =>
      exact .inr ⟨rfl, artifact, rfl, by simp [cached, getOrCompute, lookup, computed]⟩

/-- An artifact that a look-up finds takes no call. -/
theorem cached_of_found {artifact : stage.Artifact}
    (hit : (cache.get stage digest).1 = some artifact) :
    cached cache stage digest compute calls =
      ⟨.ok artifact, (cache.get stage digest).2, []⟩ := by
  rcases cached_cases cache stage digest compute calls with
    ⟨found, lookup, worked⟩ | ⟨miss, -⟩ | ⟨miss, -⟩
  · rw [hit] at lookup
    cases lookup
    exact worked
  · rw [hit] at miss
    cases miss
  · rw [hit] at miss
    cases miss

/-- An artifact in memory is found without a call. -/
theorem cached_of_held {artifact : stage.Artifact}
    (inMemory : cache.held stage digest = some artifact) :
    cached cache stage digest compute calls =
      ⟨.ok artifact, (cache.get stage digest).2, []⟩ :=
  cached_of_found (found_get_of_held inMemory)

/-- No call is made but those that making the artifact takes. -/
theorem calls_cached_subset :
    (cached cache stage digest compute calls).calls ⊆ calls := by
  rcases cached_cases cache stage digest compute calls with
    ⟨_, _, worked⟩ | ⟨_, _, _, worked⟩ | ⟨_, _, _, worked⟩ <;> simp [worked]

variable {permit : Permit}

/-- An artifact that is looked up or made, and whose digest is then recorded. -/
theorem steps_cached_record (permit : Permit) (id : Text) (names : permit.names digest)
    (records : permit.records stage id)
    (keeps : ∀ artifact, compute () = .ok artifact → permit.keeps stage digest artifact)
    {artifact : stage.Artifact}
    (succeeds : (cached cache stage digest compute calls).result = .ok artifact) :
    Steps permit cache
      ((cached cache stage digest compute calls).cache.record stage id digest) := by
  rcases cached_cases cache stage digest compute calls with
    ⟨found, hit, worked⟩ | ⟨miss, failure, computed, worked⟩ | ⟨miss, made, computed, worked⟩
  · have inMemory : (cache.get stage digest).2.held stage digest = some found := by
      rw [held_get_self, hit]
    rw [worked]
    exact (Steps.single (.looked cache stage names)).trans
      (.single (.found names records inMemory))
  · rw [worked] at succeeds
    cases succeeds
  · rw [worked]
    have absent := found_get_get.trans miss
    exact (Steps.single (.looked cache stage names)).trans
      (.single (.kept names records (keeps made computed) (.inr absent)))

/-- Making an artifact that fails is a look-up only. -/
theorem steps_cached_of_error (names : permit.names digest) {failure : ε}
    (fails : (cached cache stage digest compute calls).result = .error failure) :
    Steps permit cache (cached cache stage digest compute calls).cache := by
  rcases cached_cases cache stage digest compute calls with
    ⟨found, hit, worked⟩ | ⟨miss, other, computed, worked⟩ | ⟨miss, made, computed, worked⟩
  · rw [worked] at fails
    cases fails
  · rw [worked]
    exact .single (.looked cache stage names)
  · rw [worked] at fails
    cases fails

end Cached

/-! ## Preparing documents -/

/-- The hooks make the source of the document, and it takes the fallback path. -/
structure FallsBack (session : Session) (document : SourceDocument) (source : Text) : Prop where
  hooked : Hook.run session.hooks document.id document.source = .ok source
  notFast : (session.route source).isFast = false

/-- An artifact that an outside compiler makes for a document. -/
def Compiles (session : Session) (document : SourceDocument) :
    (stage : Stage) → Text → stage.Artifact → Prop
  | .frontmatter, digest, artifact =>
    ∃ source, session.FallsBack document source ∧
      session.frontmatterDigest document source = digest ∧
      session.native.parseFrontmatter source document.id = .ok artifact.data
  | .compile, digest, artifact =>
    ∃ source, session.FallsBack document source ∧
      session.compileDigest document source = digest ∧
      session.compileAsFallback document.id source = .ok artifact
  | .lowering, _, _ => False

/-- Steps that record digests of a document in one stage. -/
def stagePermit (session : Session) (document : SourceDocument) (stage : Stage) : Permit where
  names := session.Names
  records other id := other = stage ∧ id = document.id
  keeps := session.Compiles document

/-- Steps that record digests of documents before the lowering batch. -/
def preparePermit (session : Session) (documents : List SourceDocument) : Permit where
  names := session.Names
  records _ id := ∃ document ∈ documents, id = document.id
  keeps stage digest artifact :=
    ∃ document ∈ documents, session.Compiles document stage digest artifact

theorem stagePermit_within (session : Session) {document : SourceDocument}
    {documents : List SourceDocument} (member : document ∈ documents) (stage : Stage) :
    (session.stagePermit document stage).Within (session.preparePermit documents) where
  names named := named
  records recorded := ⟨document, member, recorded.2⟩
  keeps kept := ⟨document, member, kept⟩

theorem preparePermit_within {documents more : List SourceDocument} (subset : documents ⊆ more) :
    (session.preparePermit documents).Within (session.preparePermit more) where
  names named := named
  records := fun ⟨document, member, same⟩ => ⟨document, subset member, same⟩
  keeps := fun ⟨document, member, kept⟩ => ⟨document, subset member, kept⟩

variable {document : SourceDocument} {documents : List SourceDocument} {source : Text}
  {output : DocumentOutput}

theorem steps_withFrontmatter (cache : BuildCache) (output : DocumentOutput)
    (falls : session.FallsBack document source) :
    Steps (session.stagePermit document .frontmatter) cache
      (session.withFrontmatter cache document source output).cache := by
  have names : (session.stagePermit document .frontmatter).names
      (session.frontmatterDigest document source) := names_frontmatterDigest document source
  have keeps : ∀ artifact, (session.native.parseFrontmatter source document.id).map
      FrontmatterArtifact.mk = .ok artifact →
      session.Compiles document .frontmatter (session.frontmatterDigest document source)
        artifact := by
    intro artifact computed
    refine ⟨source, falls, rfl, ?_⟩
    cases parsed : session.native.parseFrontmatter source document.id with
    | error failure => rw [parsed] at computed; cases computed
    | ok data => rw [parsed] at computed; cases computed; rfl
  simp only [withFrontmatter]
  split
  · next artifact succeeds => exact steps_cached_record _ _ names ⟨rfl, rfl⟩ keeps succeeds
  · next failure fails => exact steps_cached_of_error names fails

/-- A document with the code that is to be lowered. -/
def withCode (output : DocumentOutput) (compiled : CompiledArtifact) : DocumentOutput :=
  { output with
    code := (metadata output compiled).postProcess compiled.code
    headings := compiled.headings }

/-- A compiled document whose code has been lowered before is done. -/
theorem withCompiled_of_some {compiled : CompiledArtifact} {lowered : LoweredModule}
    (found : (cache.get .lowering (session.loweringDigest (withCode output compiled).code)).1 =
      some lowered) :
    session.withCompiled cache output compiled =
      (.done ((withCode output compiled).withModule lowered),
        (cache.get .lowering (session.loweringDigest (withCode output compiled).code)).2.record
          .lowering output.id (session.loweringDigest (withCode output compiled).code)) := by
  rcases lookup : cache.get .lowering (session.loweringDigest (withCode output compiled).code) with
    ⟨first, after⟩
  rw [lookup] at found
  subst found
  unfold loweringDigest at lookup
  simp only [withCompiled, withCode] at lookup ⊢
  rw [lookup]
  rfl

/-- A compiled document whose code has not been lowered before is to be lowered. -/
theorem withCompiled_of_none {compiled : CompiledArtifact}
    (missed : (cache.get .lowering (session.loweringDigest (withCode output compiled).code)).1 =
      none) :
    session.withCompiled cache output compiled =
      (.lower (withCode output compiled) (session.loweringDigest (withCode output compiled).code),
        (cache.get .lowering (session.loweringDigest (withCode output compiled).code)).2) := by
  rcases lookup : cache.get .lowering (session.loweringDigest (withCode output compiled).code) with
    ⟨first, after⟩
  rw [lookup] at missed
  subst missed
  unfold loweringDigest at lookup
  simp only [withCompiled, withCode] at lookup ⊢
  rw [lookup]
  rfl

/-- The code of a compiled document has been lowered before or is to be lowered. -/
theorem withCompiled_cases (session : Session) (cache : BuildCache) (output : DocumentOutput)
    (compiled : CompiledArtifact) :
    let coded := withCode output compiled
    let digest := session.loweringDigest coded.code
    (∃ lowered, (cache.get .lowering digest).1 = some lowered ∧
      session.withCompiled cache output compiled =
        (.done (coded.withModule lowered),
          (cache.get .lowering digest).2.record .lowering output.id digest)) ∨
    ((cache.get .lowering digest).1 = none ∧
      session.withCompiled cache output compiled =
        (.lower coded digest, (cache.get .lowering digest).2)) := by
  intro coded digest
  cases lookup : (cache.get .lowering digest).1 with
  | some lowered => exact .inl ⟨lowered, rfl, withCompiled_of_some lookup⟩
  | none => exact .inr ⟨rfl, withCompiled_of_none lookup⟩

theorem steps_withCompiled (session : Session) (cache : BuildCache) (compiled : CompiledArtifact)
    (isFor : output.id = document.id) :
    Steps (session.stagePermit document .lowering) cache
      (session.withCompiled cache output compiled).2 := by
  have names : (session.stagePermit document .lowering).names
      (session.loweringDigest (withCode output compiled).code) := names_loweringDigest _
  have looked := Steps.single (.looked cache .lowering names)
  rcases withCompiled_cases session cache output compiled with
    ⟨lowered, lookup, worked⟩ | ⟨lookup, worked⟩
  · rw [worked]
    exact looked.trans (.single (.found names ⟨rfl, isFor⟩ (held_get_self.trans lookup)))
  · rw [worked]
    exact looked

theorem id_withFrontmatter :
    (session.withFrontmatter cache document source output).result.id = output.id := by
  simp only [withFrontmatter]
  split <;> rfl

/-- The compiled module of a document, from the cache or made anew. -/
def compiledOf (session : Session) (cache : BuildCache) (document : SourceDocument)
    (source : Text) : Worked (Except CompilerFailure CompiledArtifact) :=
  cached cache .compile (session.compileDigest document source)
    (fun _ => session.compileAsFallback document.id source)
    (session.fallbackCalls document.id source)

theorem steps_compiledOf {compiled : CompiledArtifact} (falls : session.FallsBack document source)
    (succeeds : (session.compiledOf cache document source).result = .ok compiled) :
    Steps (session.stagePermit document .compile) cache
      ((session.compiledOf cache document source).cache.record .compile document.id
        (session.compileDigest document source)) :=
  steps_cached_record _ _ (names_compileDigest document source) ⟨rfl, rfl⟩
    (fun _ computed => ⟨source, falls, rfl, computed⟩) succeeds

/-- A document with its frontmatter, compared with the pass before. -/
def compared (session : Session) (first : Worked DocumentOutput) (document : SourceDocument)
    (source : Text) : DocumentOutput :=
  { first.result with
    freshness := some
      (first.cache.freshness .compile document.id (session.compileDigest document source)) }

section Fallback

variable {route : Route} {first : Worked DocumentOutput}
  (isFirst : session.withFrontmatter cache document source { id := document.id, route } = first)

include isFirst

theorem id_compared : (session.compared first document source).id = document.id := by
  rw [compared, ← isFirst]
  exact id_withFrontmatter

/-- A document that the fallback compiler fails on has failed. -/
theorem prepareFallback_of_error {failure : CompilerFailure}
    (fails : (session.compiledOf first.cache document source).result = .error failure) :
    session.prepareFallback cache document source route =
      ⟨.done ((session.compared first document source).fail failure.render),
        (session.compiledOf first.cache document source).cache,
        first.calls ++ (session.compiledOf first.cache document source).calls⟩ := by
  subst isFirst
  unfold compiledOf compileDigest at fails
  simp only [prepareFallback, fails]
  rfl

/-- A document that the fallback compiler compiled goes on to lowering. -/
theorem prepareFallback_of_ok {compiled : CompiledArtifact}
    (succeeds : (session.compiledOf first.cache document source).result = .ok compiled) :
    session.prepareFallback cache document source route =
      let second := session.compiledOf first.cache document source
      let last := session.withCompiled
        (second.cache.record .compile document.id (session.compileDigest document source))
        (session.compared first document source) compiled
      ⟨last.1, last.2, first.calls ++ second.calls⟩ := by
  subst isFirst
  unfold compiledOf compileDigest at succeeds
  simp only [prepareFallback, succeeds]
  rfl

/-- The calls for a document on the fallback path are those for its frontmatter and those for its
compiled module. -/
theorem calls_prepareFallback :
    (session.prepareFallback cache document source route).calls =
      first.calls ++ (session.compiledOf first.cache document source).calls := by
  cases result : (session.compiledOf first.cache document source).result with
  | error failure =>
    rw [prepareFallback_of_error isFirst result]
  | ok compiled =>
    rw [prepareFallback_of_ok isFirst result]

end Fallback

theorem steps_prepareFallback (route : Route)
    (falls : session.FallsBack document source) :
    Steps (session.preparePermit [document]) cache
      (session.prepareFallback cache document source route).cache := by
  have within := stagePermit_within session (List.mem_singleton_self document)
  generalize isFirst : session.withFrontmatter cache document source { id := document.id, route } =
    first
  have isFor := id_compared isFirst
  have read : Steps (session.preparePermit [document]) cache first.cache := by
    rw [← isFirst]
    exact (steps_withFrontmatter _ _ falls).widen (within .frontmatter)
  have names : (session.stagePermit document .compile).names
      (session.compileDigest document source) := names_compileDigest document source
  cases result : (session.compiledOf first.cache document source).result with
  | error failure =>
    rw [prepareFallback_of_error isFirst result]
    exact read.trans ((steps_cached_of_error names result).widen (within .compile))
  | ok compiled =>
    rw [prepareFallback_of_ok isFirst result]
    have recorded := steps_compiledOf falls result
    exact (read.trans (recorded.widen (within .compile))).trans
      ((steps_withCompiled _ _ compiled isFor).widen (within .lowering))

/-- A hook fails on the document, or it takes the fast path, or it takes the fallback path. -/
theorem prepare_cases (session : Session) (cache : BuildCache) (document : SourceDocument) :
    (∃ output, session.prepare cache document = ⟨.ok (.done output), cache, []⟩ ∧
      output.id = document.id ∧ output.status = .failed) ∨
    (∃ source, (session.route source).isFast = true ∧ session.prepare cache document =
      ⟨(session.compileFast document.id source (session.route source)).map .done, cache,
        [.compileNatively document.id source ⟨some document.id, none⟩]⟩) ∨
    (∃ source, session.FallsBack document source ∧
      let worked := session.prepareFallback cache document source (session.route source)
      session.prepare cache document = ⟨.ok worked.result, worked.cache, worked.calls⟩) := by
  cases hooked : Hook.run session.hooks document.id document.source with
  | error failure =>
    left
    simp only [prepare, hooked]
    exact ⟨_, rfl, rfl, rfl⟩
  | ok source =>
    right
    simp only [prepare, hooked]
    cases isFast : (session.route source).isFast with
    | true =>
      left
      exact ⟨source, isFast, by simp only [if_true]⟩
    | false =>
      right
      exact ⟨source, ⟨hooked, isFast⟩, by simp only [Bool.false_eq_true, if_false]⟩

theorem steps_prepare (session : Session) (cache : BuildCache) (document : SourceDocument) :
    Steps (session.preparePermit [document]) cache (session.prepare cache document).cache := by
  rcases prepare_cases session cache document with
    ⟨output, prepared, -⟩ | ⟨source, -, prepared⟩ | ⟨source, falls, prepared⟩ <;> rw [prepared]
  · exact .refl cache
  · exact .refl cache
  · exact steps_prepareFallback _ falls

theorem prepareAll_cons (others : List SourceDocument) :
    session.prepareAll cache (document :: others) =
      let first := session.prepare cache document
      match first.result with
      | .error failure => { first with result := .error failure }
      | .ok prepared =>
        let rest := session.prepareAll first.cache others
        { rest with
          result := rest.result.map (prepared :: ·)
          calls := first.calls ++ rest.calls } :=
  rfl

theorem steps_prepareAll (session : Session) (cache : BuildCache)
    (documents : List SourceDocument) :
    Steps (session.preparePermit documents) cache (session.prepareAll cache documents).cache := by
  induction documents generalizing cache with
  | nil => exact .refl cache
  | cons document others ih =>
    have first := (steps_prepare session cache document).widen
      (preparePermit_within (List.cons_subset_cons document (List.nil_subset others)))
    rw [prepareAll_cons]
    simp only
    split
    · exact first
    · apply first.trans
      apply (ih _).widen
      exact preparePermit_within (List.subset_cons_self document others)

/-- The prepared form of a document: its id is that of the document, and its digest that of its
code. -/
def IsFor (session : Session) (document : SourceDocument) : Prepared → Prop
  | .done output => output.id = document.id
  | .lower output digest => output.id = document.id ∧ digest = session.loweringDigest output.code

theorem isFor_withCompiled (compiled : CompiledArtifact) (isFor : output.id = document.id) :
    session.IsFor document (session.withCompiled cache output compiled).1 := by
  rcases withCompiled_cases session cache output compiled with
    ⟨lowered, -, worked⟩ | ⟨-, worked⟩
  · rw [worked]
    exact isFor
  · rw [worked]
    exact ⟨isFor, rfl⟩

theorem isFor_prepareFallback (route : Route) :
    session.IsFor document (session.prepareFallback cache document source route).result := by
  generalize isFirst : session.withFrontmatter cache document source { id := document.id, route } =
    first
  have isFor := id_compared isFirst
  cases result : (session.compiledOf first.cache document source).result with
  | error failure =>
    rw [prepareFallback_of_error isFirst result]
    exact isFor
  | ok compiled =>
    rw [prepareFallback_of_ok isFirst result]
    exact isFor_withCompiled compiled isFor

/-- The outcome of a document on the fast path carries its id and its route. -/
theorem of_compileFast {id : Text} {route : Route}
    (succeeds : session.compileFast id source route = .ok output) :
    output.id = id ∧ output.route = route := by
  rw [compileFast] at succeeds
  cases compiled : session.native.compile source id ⟨some id, none⟩ with
  | error failure => rw [compiled] at succeeds; cases succeeds
  | ok native => rw [compiled] at succeeds; cases succeeds; exact ⟨rfl, rfl⟩

theorem isFor_prepare {item : Prepared}
    (succeeds : (session.prepare cache document).result = .ok item) :
    session.IsFor document item := by
  rcases prepare_cases session cache document with
    ⟨output, prepared, isFor, -⟩ | ⟨source, -, prepared⟩ | ⟨source, -, prepared⟩ <;>
    rw [prepared] at succeeds
  · cases succeeds
    exact isFor
  · cases compiled : session.compileFast document.id source (session.route source) with
    | error failure => rw [compiled] at succeeds; cases succeeds
    | ok output => rw [compiled] at succeeds; cases succeeds; exact (of_compileFast compiled).1
  · cases succeeds
    exact isFor_prepareFallback _

/-- A pass that prepares a document and the documents behind it prepares each of them. -/
theorem prepareAll_cons_ok {others : List SourceDocument} {items : List Prepared}
    (succeeds : (session.prepareAll cache (document :: others)).result = .ok items) :
    ∃ item rest, (session.prepare cache document).result = .ok item ∧
      (session.prepareAll (session.prepare cache document).cache others).result = .ok rest ∧
      items = item :: rest ∧
      (session.prepareAll cache (document :: others)).cache =
        (session.prepareAll (session.prepare cache document).cache others).cache := by
  rw [prepareAll_cons] at succeeds
  cases prepared : (session.prepare cache document).result with
  | error failure => simp only [prepared] at succeeds; cases succeeds
  | ok item =>
    simp only [prepared] at succeeds
    cases remaining : (session.prepareAll (session.prepare cache document).cache others).result with
    | error failure => rw [remaining] at succeeds; cases succeeds
    | ok rest =>
      rw [remaining] at succeeds
      cases succeeds
      refine ⟨item, rest, rfl, rfl, rfl, ?_⟩
      simp only [prepareAll_cons, prepared]

theorem isFor_prepareAll {items : List Prepared}
    (succeeds : (session.prepareAll cache documents).result = .ok items) :
    List.Forall₂ session.IsFor documents items := by
  induction documents generalizing cache items with
  | nil => cases succeeds; exact .nil
  | cons document others ih =>
    obtain ⟨item, rest, first, remaining, rfl, -⟩ := prepareAll_cons_ok succeeds
    exact .cons (isFor_prepare first) (ih remaining)

/-- The native compiler does not fail on the document, if it goes to it at all. -/
def Passes (session : Session) (document : SourceDocument) : Prop :=
  ∀ {source}, Hook.run session.hooks document.id document.source = .ok source →
    (session.route source).isFast = true →
      ∃ output, session.compileFast document.id source (session.route source) = .ok output

/-- Whether a document can be prepared depends on the fast path alone, not on the cache. -/
theorem prepare_ok_iff (cache : BuildCache) :
    (∃ item, (session.prepare cache document).result = .ok item) ↔ session.Passes document := by
  rw [prepare]
  cases hooked : Hook.run session.hooks document.id document.source with
  | error failure => simp [Passes, hooked]
  | ok source =>
    by_cases isFast : (session.route source).isFast = true
    · simp only [isFast, if_true, Passes, hooked, Except.ok.injEq, forall_eq']
      cases session.compileFast document.id source (session.route source) <;> simp [Except.map]
    · simp [Passes, hooked, isFast]

/-- Whether a pass succeeds depends on the fast path alone, not on the cache. -/
theorem prepareAll_ok_iff :
    (∃ items, (session.prepareAll cache documents).result = .ok items) ↔
      ∀ document ∈ documents, session.Passes document := by
  induction documents generalizing cache with
  | nil => simp [prepareAll]
  | cons document others ih =>
    rw [List.forall_mem_cons, ← prepare_ok_iff cache, ← ih]
    constructor
    · rintro ⟨items, succeeds⟩
      obtain ⟨item, rest, first, remaining, -, -⟩ := prepareAll_cons_ok succeeds
      exact ⟨⟨item, first⟩, rest, remaining⟩
    · rintro ⟨⟨item, first⟩, rest, remaining⟩
      exact ⟨item :: rest, by simp only [prepareAll_cons, first, remaining, Except.map]⟩

end Session

end MdxBuild

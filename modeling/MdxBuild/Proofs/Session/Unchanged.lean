import Mathlib.Data.List.Forall2
import Mathlib.Data.List.Nodup
import MdxBuild.Proofs.Cache.Retention
import MdxBuild.Proofs.Session.History

/-!
# Unchanged documents

A document that a pass has compiled on the fallback path is settled: its three digests are recorded
and their artifacts in memory. Other documents of the pass may share, move or swap digests with it
as they like, they take none of its artifacts away. A pass over settled documents takes everything
from memory, so it calls no compiler for them and lowers none of them.
-/

namespace MdxBuild

open BuildCache

/-- The document that a call is about. -/
def CompilerCall.path : CompilerCall → Text
  | .compileNatively path _ _ => path
  | .parseFrontmatter path => path
  | .extractHeadings path => path
  | .compileAsFallback path _ _ => path

namespace Session

variable {session again : Session} {cache after : BuildCache} {document : SourceDocument}
  {source : Text} {frontmatter : Json} {compiled : CompiledArtifact} {permit : Permit}

/-- The jobs of a pass for the lowering routine. -/
def loweringJobs (session : Session) (cache : BuildCache) (documents : List SourceDocument) :
    List LoweringJob :=
  match (session.prepareAll cache documents).result with
  | .ok items => jobs items
  | .error _ => []

/-- The code that is lowered for a document. -/
def moduleText (id : Text) (frontmatter : Json) (compiled : CompiledArtifact) : Text :=
  Metadata.postProcess ⟨frontmatter, compiled.headings, id, none⟩ compiled.code

/-- The document has the frontmatter and the compiled module that its source asks for. -/
structure HasModule (session : Session) (document : SourceDocument) (source : Text)
    (frontmatter : Json) (compiled : CompiledArtifact) (cache : BuildCache) : Prop where
  falls : session.FallsBack document source
  frontmatter : cache.Has .frontmatter document.id (session.frontmatterDigest document source)
    ⟨frontmatter⟩
  compiled : cache.Has .compile document.id (session.compileDigest document source) compiled

/-- The document has a lowered form of its code. -/
def HasLowered (session : Session) (document : SourceDocument) (frontmatter : Json)
    (compiled : CompiledArtifact) (cache : BuildCache) : Prop :=
  ∃ lowered, cache.Has .lowering document.id
    (session.loweringDigest (moduleText document.id frontmatter compiled)) lowered

/-- The document has everything that the fallback path takes from the cache. -/
def Settled (session : Session) (document : SourceDocument) (cache : BuildCache) : Prop :=
  ∃ source frontmatter compiled, session.HasModule document source frontmatter compiled cache ∧
    session.HasLowered document frontmatter compiled cache

/-- Steps in which nothing is recorded for the document leave it what it has. -/
theorem HasModule.steps (has : session.HasModule document source frontmatter compiled cache)
    (steps : Steps permit cache after)
    (unrecorded : ∀ stage, stage ≠ .lowering → ¬permit.records stage document.id) :
    session.HasModule document source frontmatter compiled after where
  falls := has.falls
  frontmatter := has.frontmatter.steps steps (unrecorded _ (by decide)) (by decide)
  compiled := has.compiled.steps steps (unrecorded _ (by decide)) (by decide)

theorem HasLowered.steps (has : session.HasLowered document frontmatter compiled cache)
    (steps : Steps permit cache after) (unrecorded : ¬permit.records .lowering document.id) :
    session.HasLowered document frontmatter compiled after := by
  obtain ⟨lowered, has⟩ := has
  exact has.exists_steps steps unrecorded

theorem Settled.steps (settled : session.Settled document cache) (steps : Steps permit cache after)
    (unrecorded : ∀ stage, ¬permit.records stage document.id) :
    session.Settled document after := by
  obtain ⟨source, frontmatter, compiled, hasModule, hasLowered⟩ := settled
  exact ⟨source, frontmatter, compiled, hasModule.steps steps fun stage _ => unrecorded stage,
    hasLowered.steps steps (unrecorded .lowering)⟩

/-! ## The first pass -/

section Cached

variable {ε : Type} {stage : Stage} {digest id : Text} {names : Text → Prop}
  {compute : Unit → Except ε stage.Artifact} {calls : List CompilerCall}

/-- In a writable cache a document has the artifact that was looked up or made for it. -/
theorem has_cached_record (writable : cache.Writable names) (named : names digest)
    {artifact : stage.Artifact}
    (succeeds : (cached cache stage digest compute calls).result = .ok artifact) :
    ((cached cache stage digest compute calls).cache.record stage id digest).Has stage id digest
      artifact := by
  apply Has.of_record
  rcases cached_cases cache stage digest compute calls with
    ⟨found, hit, worked⟩ | ⟨miss, failure, computed, worked⟩ | ⟨miss, made, computed, worked⟩
  · rw [worked] at succeeds ⊢
    cases succeeds
    rw [held_get_self, hit]
  · rw [worked] at succeeds
    cases succeeds
  · rw [worked] at succeeds ⊢
    cases succeeds
    exact writable.get.held_put named stage artifact

end Cached

/-- A degraded document is not whole. -/
theorem status_degrade_ne (output : DocumentOutput) (diagnostic : Text) :
    (output.degrade diagnostic).status ≠ .compiled := by
  simp only [DocumentOutput.degrade]
  split
  · decide
  · next notCompiled => exact notCompiled

/-- A document that is still whole has the frontmatter that it was given. -/
theorem has_withFrontmatter (document : SourceDocument) (source : Text) (output : DocumentOutput)
    (writable : cache.Writable session.Names)
    (whole : (session.withFrontmatter cache document source output).result.status = .compiled) :
    (session.withFrontmatter cache document source output).cache.Has .frontmatter document.id
      (session.frontmatterDigest document source)
      ⟨(session.withFrontmatter cache document source output).result.frontmatter⟩ := by
  have named : session.Names (session.frontmatterDigest document source) :=
    names_frontmatterDigest document source
  simp only [withFrontmatter] at whole ⊢
  split at whole
  · next artifact succeeds => exact has_cached_record writable named succeeds
  · next failure fails => exact absurd whole (status_degrade_ne _ _)

/-- A prepared document that is whole so far has what the fallback path takes from the cache, up to
its lowered form if that is still to come. -/
def Rests (session : Session) (cache : BuildCache) (document : SourceDocument) (item : Prepared) :
    Prop :=
  item.output.route.isFast = false → item.output.status = .compiled →
    ∃ source frontmatter compiled,
      session.HasModule document source frontmatter compiled cache ∧
      match item with
      | .done _ => session.HasLowered document frontmatter compiled cache
      | .lower _ digest =>
        digest = session.loweringDigest (moduleText document.id frontmatter compiled)

theorem Rests.of_whole {item : Prepared}
    (rests : item.output.status = .compiled → session.Rests cache document item) :
    session.Rests cache document item :=
  fun onFallback whole => rests whole onFallback whole

theorem Rests.steps {item : Prepared} (rests : session.Rests cache document item)
    (steps : Steps permit cache after) (unrecorded : ∀ stage, ¬permit.records stage document.id) :
    session.Rests after document item := by
  intro onFallback whole
  obtain ⟨source, frontmatter, compiled, hasModule, lowered⟩ := rests onFallback whole
  refine ⟨source, frontmatter, compiled, hasModule.steps steps fun stage _ => unrecorded stage, ?_⟩
  cases item with
  | done output => exact HasLowered.steps lowered steps (unrecorded .lowering)
  | lower output digest => exact lowered

theorem rests_withCompiled {output : DocumentOutput} (isFor : output.id = document.id)
    (has : session.HasModule document source output.frontmatter compiled cache) :
    session.Rests (session.withCompiled cache output compiled).2 document
      (session.withCompiled cache output compiled).1 := by
  intro _ _
  have remains := has.steps (steps_withCompiled session cache compiled isFor)
    fun stage earlier recorded => earlier recorded.1
  refine ⟨source, output.frontmatter, compiled, remains, ?_⟩
  have sameText : (withCode output compiled).code =
      moduleText document.id output.frontmatter compiled := by rw [← isFor]; rfl
  rcases withCompiled_cases session cache output compiled with
    ⟨lowered, lookup, worked⟩ | ⟨lookup, worked⟩
  · rw [worked, sameText, isFor]
    rw [sameText] at lookup
    exact ⟨lowered, Has.of_record (held_get_self.trans lookup)⟩
  · rw [worked, sameText]

theorem status_withCompiled (output : DocumentOutput) :
    (session.withCompiled cache output compiled).1.output.status = output.status := by
  rcases withCompiled_cases session cache output compiled with
    ⟨lowered, -, worked⟩ | ⟨-, worked⟩
  · rw [worked]
    rfl
  · rw [worked]
    rfl

theorem rests_prepareFallback (writable : cache.Writable session.Names)
    (falls : session.FallsBack document source) :
    session.Rests (session.prepareFallback cache document source (session.route source)).cache
      document (session.prepareFallback cache document source (session.route source)).result := by
  generalize isFirst : session.withFrontmatter cache document source
    { id := document.id, route := session.route source } = first
  have isFor := id_compared isFirst
  cases result : (session.compiledOf first.cache document source).result with
  | error failure =>
    rw [prepareFallback_of_error isFirst result]
    intro _ whole
    cases whole
  | ok compiled =>
    rw [prepareFallback_of_ok isFirst result]
    apply Rests.of_whole
    intro whole
    have wholeBefore : first.result.status = .compiled :=
      (status_withCompiled (session.compared first document source)).symm.trans whole
    have read := steps_withFrontmatter cache { id := document.id, route := session.route source }
      falls
    have hasFrontmatter := has_withFrontmatter document source
      { id := document.id, route := session.route source } writable
    rw [isFirst] at read hasFrontmatter
    have compiles := steps_compiledOf falls result
    have hasModule : session.HasModule document source first.result.frontmatter compiled
        ((session.compiledOf first.cache document source).cache.record .compile document.id
          (session.compileDigest document source)) := {
      falls
      frontmatter := (hasFrontmatter wholeBefore).steps compiles
        (fun recorded => absurd recorded.1 (by decide)) (by decide)
      compiled := has_cached_record (writable.steps read)
        (names_compileDigest document source) result }
    exact rests_withCompiled isFor hasModule

theorem rests_prepare {item : Prepared} (writable : cache.Writable session.Names)
    (succeeds : (session.prepare cache document).result = .ok item) :
    session.Rests (session.prepare cache document).cache document item := by
  rcases prepare_cases session cache document with
    ⟨output, prepared, -, hasFailed⟩ | ⟨source, isFast, prepared⟩ | ⟨source, falls, prepared⟩ <;>
    rw [prepared] at succeeds ⊢
  · cases succeeds
    intro _ whole
    cases hasFailed.symm.trans whole
  · intro onFallback _
    cases compiled : session.compileFast document.id source (session.route source) with
    | error failure => rw [compiled] at succeeds; cases succeeds
    | ok output =>
      rw [compiled] at succeeds
      cases succeeds
      rw [Prepared.output, (of_compileFast compiled).2, isFast] at onFallback
      cases onFallback
  · cases succeeds
    exact rests_prepareFallback writable falls

/-- Documents have different ids from the one before them. -/
theorem forall_ne_of_nodup {others : List SourceDocument}
    (distinct : ((document :: others).map SourceDocument.id).Nodup) :
    ∀ other ∈ others, other.id ≠ document.id := by
  rw [List.map_cons, List.nodup_cons] at distinct
  exact fun other member same => distinct.1 (same ▸ List.mem_map_of_mem member)

/-- Preparing documents records nothing for a document with another id. -/
theorem not_records_preparePermit {others : List SourceDocument}
    (apart : ∀ other ∈ others, other.id ≠ document.id) (stage : Stage) :
    ¬(session.preparePermit others).records stage document.id := by
  rintro ⟨other, member, sameId⟩
  exact apart other member sameId.symm

/-- Settling items records nothing for a document with another id than they have. -/
theorem not_records_settlePermit {others : List SourceDocument} {items : List Prepared}
    (areFor : List.Forall₂ session.IsFor others items)
    (apart : ∀ other ∈ others, other.id ≠ document.id) (outcomes : Batch.Outcomes)
    (stage : Stage) : ¬(session.settlePermit outcomes items).records stage document.id := by
  rintro ⟨-, output, digest, member, same⟩
  obtain ⟨other, isOther, isFor⟩ := exists_related areFor member
  exact apart other isOther (isFor.1.symm.trans same.symm)

theorem rests_prepareAll {documents : List SourceDocument} {items : List Prepared}
    (writable : cache.Writable session.Names)
    (distinct : (documents.map SourceDocument.id).Nodup)
    (succeeds : (session.prepareAll cache documents).result = .ok items) :
    List.Forall₂ (session.Rests (session.prepareAll cache documents).cache) documents items := by
  induction documents generalizing cache items with
  | nil => cases succeeds; exact .nil
  | cons document others ih =>
    obtain ⟨item, rest, first, remaining, rfl, same⟩ := prepareAll_cons_ok succeeds
    have unrecorded (stage : Stage) :
        ¬(session.preparePermit others).records stage document.id :=
      not_records_preparePermit (forall_ne_of_nodup distinct) stage
    rw [same]
    constructor
    · exact (rests_prepare writable first).steps (steps_prepareAll _ _ _) unrecorded
    · exact ih (writable.steps (steps_prepare _ _ _)) (List.nodup_cons.mp distinct).2 remaining

/-- Settling a document that is whole in the end leaves it settled. -/
theorem settled_settle {outcomes : Batch.Outcomes} {item : Prepared}
    (writable : cache.Writable session.Names) (isFor : session.IsFor document item)
    (rests : session.Rests cache document item)
    (onFallback : (settle cache outcomes item).1.route.isFast = false)
    (whole : (settle cache outcomes item).1.status = .compiled) :
    session.Settled document (settle cache outcomes item).2.1 := by
  cases item with
  | done output =>
    obtain ⟨source, frontmatter, compiled, hasModule, lowered⟩ := rests onFallback whole
    exact ⟨source, frontmatter, compiled, hasModule, lowered⟩
  | lower output digest =>
    have named : session.Names digest := by
      rw [isFor.2]
      exact names_loweringDigest _
    have settles := steps_settle cache outcomes
      (fun {other key} member => by
        obtain ⟨rfl, rfl⟩ : other = output ∧ key = digest := by simpa using member
        exact named) (List.mem_singleton_self (Prepared.lower output digest))
    simp only [settle] at onFallback whole settles ⊢
    -- A document without a lowered module is degraded, so there is one.
    cases outcome : outcomes.find? output.id with
    | none =>
      rw [outcome] at whole
      exact absurd whole (status_degrade_ne _ _)
    | some result =>
      cases result with
      | error failure =>
        rw [outcome] at whole
        exact absurd whole (status_degrade_ne _ _)
      | ok lowered =>
        rw [outcome] at onFallback whole settles
        obtain ⟨source, frontmatter, compiled, hasModule, isDigest⟩ := rests onFallback whole
        refine ⟨source, frontmatter, compiled,
          hasModule.steps settles fun stage earlier recorded => earlier recorded.1, lowered, ?_⟩
        have kept : (cache.put .lowering digest lowered).2.held .lowering digest = some lowered :=
          writable.held_put named .lowering lowered
        rw [← isDigest, ← isFor.1]
        exact Has.of_record kept

/-- Every document that a pass reports as whole is settled at the end of the pass. -/
theorem settled_settleAll {documents : List SourceDocument} {items : List Prepared}
    (outcomes : Batch.Outcomes) (writable : cache.Writable session.Names)
    (distinct : (documents.map SourceDocument.id).Nodup)
    (areFor : List.Forall₂ session.IsFor documents items)
    (rest : List.Forall₂ (session.Rests cache) documents items) :
    List.Forall₂ (fun document output => document.id = output.id ∧
      (output.route.isFast = false → output.status = .compiled →
        session.Settled document (settleAll cache outcomes items).2)) documents
        (settleAll cache outcomes items).1 := by
  induction areFor generalizing cache outcomes with
  | nil => exact .nil
  | @cons document item others items isFor areFor ih =>
    obtain ⟨rests, rest⟩ := List.forall₂_cons.mp rest
    have different := forall_ne_of_nodup distinct
    have named {output : DocumentOutput} {digest : Text} (member : .lower output digest ∈ [item]) :
        session.Names digest := names_of_isFor (.cons isFor .nil) member
    have settles := steps_settle cache outcomes named (List.mem_singleton_self item)
    have remaining := steps_settleAll (settle cache outcomes item).2.1
      (settle cache outcomes item).2.2 fun member => names_of_isFor areFor member
    rw [settleAll_cons]
    constructor
    · constructor
      · rw [id_settle, id_of_isFor isFor]
      · intro onFallback whole
        exact (settled_settle writable isFor rests onFallback whole).steps remaining
          (not_records_settlePermit areFor different _)
    · apply ih _ (writable.steps settles) (List.nodup_cons.mp distinct).2
      apply ((List.forall₂_and_left _ _).mpr ⟨different, rest⟩).imp
      rintro other prepared ⟨otherId, restsOther⟩
      -- The steps of an item record its own id only, so they leave other documents what they have.
      apply restsOther.steps settles (not_records_settlePermit (.cons isFor .nil) _ _)
      intro head isHead same
      rw [List.mem_singleton.mp isHead] at same
      exact otherId same.symm

/-! ## The pass after it -/

/-- A document whose frontmatter is in memory gets it from there. -/
theorem withFrontmatter_of_held {output : DocumentOutput} {artifact : FrontmatterArtifact}
    (inMemory : cache.held .frontmatter (session.frontmatterDigest document source) =
      some artifact) :
    session.withFrontmatter cache document source output =
      ⟨{ output with frontmatter := artifact.data },
        (cache.get .frontmatter (session.frontmatterDigest document source)).2.record .frontmatter
          document.id (session.frontmatterDigest document source), []⟩ := by
  unfold frontmatterDigest at inMemory ⊢
  simp only [withFrontmatter, cached_of_held inMemory]

/-- A settled document is done without a call, and unchanged. -/
theorem prepareFallback_of_settled
    (hasModule : session.HasModule document source frontmatter compiled cache)
    (hasLowered : session.HasLowered document frontmatter compiled cache) (route : Route) :
    ∃ output, (session.prepareFallback cache document source route).result = .done output ∧
      (session.prepareFallback cache document source route).calls = [] ∧
      output.id = document.id ∧ output.freshness = some .unchanged := by
  have read := steps_withFrontmatter cache { id := document.id, route } hasModule.falls
  generalize isFirst : session.withFrontmatter cache document source { id := document.id, route } =
    first at read
  have compiledThen := hasModule.compiled.steps read (fun recorded => absurd recorded.1 (by decide))
    (by decide)
  have loweredThen := hasLowered.steps read fun recorded => absurd recorded.1 (by decide)
  have firstIs := isFirst.symm.trans (withFrontmatter_of_held hasModule.frontmatter.held)
  have found : session.compiledOf first.cache document source =
      ⟨.ok compiled, (first.cache.get .compile (session.compileDigest document source)).2, []⟩ :=
    cached_of_held compiledThen.held
  have result : (session.compiledOf first.cache document source).result = .ok compiled := by
    rw [found]
  have recorded := steps_compiledOf hasModule.falls result
  obtain ⟨lowered, hasLowered⟩ :=
    loweredThen.steps recorded fun recorded => absurd recorded.1 (by decide)
  have lookup := found_get_of_held hasLowered.held
  have sameText : moduleText document.id frontmatter compiled =
      (withCode (session.compared first document source) compiled).code := by rw [firstIs]; rfl
  rw [sameText] at lookup
  have isUnchanged : first.cache.freshness .compile document.id
      (session.compileDigest document source) = .unchanged := by
    simp [freshness, compiledThen.recorded]
  rw [prepareFallback_of_ok isFirst result]
  refine ⟨_, congrArg Prod.fst (withCompiled_of_some lookup), ?_, ?_, ?_⟩
  · rw [found, firstIs]
    rfl
  · rw [firstIs]
    rfl
  · rw [← isUnchanged]
    rfl

theorem prepare_of_settled (settled : session.Settled document cache) :
    ∃ output, (session.prepare cache document).result = .ok (.done output) ∧
      (session.prepare cache document).calls = [] ∧
      output.id = document.id ∧ output.freshness = some .unchanged := by
  obtain ⟨source, frontmatter, compiled, hasModule, hasLowered⟩ := settled
  obtain ⟨output, isDone, noCalls, isFor, isUnchanged⟩ :=
    prepareFallback_of_settled hasModule hasLowered (session.route source)
  refine ⟨output, ?_, ?_, isFor, isUnchanged⟩
  · simp only [prepare, hasModule.falls.hooked, hasModule.falls.notFast, Bool.false_eq_true,
      if_false, isDone]
  · simp only [prepare, hasModule.falls.hooked, hasModule.falls.notFast, Bool.false_eq_true,
      if_false, noCalls]

/-- Reading the frontmatter calls no compiler for anything else. -/
theorem calls_withFrontmatter_subset {output : DocumentOutput} :
    (session.withFrontmatter cache document source output).calls ⊆
      [.parseFrontmatter document.id] := by
  have asked : (cached cache .frontmatter (session.frontmatterDigest document source)
      (fun _ => (session.native.parseFrontmatter source document.id).map FrontmatterArtifact.mk)
      [.parseFrontmatter document.id]).calls ⊆ [.parseFrontmatter document.id] :=
    calls_cached_subset
  simp only [withFrontmatter]
  split <;> exact asked

/-- Getting the compiled module calls the fallback compiler and asks for the headings, if
anything. -/
theorem mem_calls_compiledOf {call : CompilerCall}
    (member : call ∈ (session.compiledOf cache document source).calls) :
    call = .compileAsFallback document.id (session.fallbackSource source) FallbackPlugin.all ∨
      call = .extractHeadings document.id := by
  have asked := calls_cached_subset member
  simp only [fallbackCalls, List.mem_cons] at asked
  rcases asked with isCompile | asked
  · exact .inl isCompile
  · split at asked
    · exact .inr (List.mem_singleton.mp asked)
    · cases asked

/-- The calls for a document are about this document. -/
theorem path_of_mem_prepareFallback {route : Route} {call : CompilerCall}
    (member : call ∈ (session.prepareFallback cache document source route).calls) :
    call.path = document.id := by
  rw [calls_prepareFallback rfl, List.mem_append] at member
  rcases member with early | late
  · rw [List.mem_singleton.mp (calls_withFrontmatter_subset early)]
    rfl
  · rcases mem_calls_compiledOf late with rfl | rfl <;> rfl

theorem path_of_mem_prepare {call : CompilerCall}
    (member : call ∈ (session.prepare cache document).calls) : call.path = document.id := by
  rcases prepare_cases session cache document with
    ⟨output, prepared, -⟩ | ⟨source, -, prepared⟩ | ⟨source, -, prepared⟩ <;>
    rw [prepared] at member
  · cases member
  · rw [List.mem_singleton.mp member]
    rfl
  · exact path_of_mem_prepareFallback member

theorem mem_calls_prepareAll_cons {others : List SourceDocument} {call : CompilerCall}
    (member : call ∈ (session.prepareAll cache (document :: others)).calls) :
    call ∈ (session.prepare cache document).calls ∨
      call ∈ (session.prepareAll (session.prepare cache document).cache others).calls := by
  rw [prepareAll_cons] at member
  simp only at member
  split at member
  · exact .inl member
  · exact List.mem_append.mp member

theorem path_of_mem_prepareAll {documents : List SourceDocument} {call : CompilerCall}
    (member : call ∈ (session.prepareAll cache documents).calls) :
    ∃ document ∈ documents, call.path = document.id := by
  induction documents generalizing cache with
  | nil => cases member
  | cons document others ih =>
    rcases mem_calls_prepareAll_cons member with first | later
    · exact ⟨document, List.mem_cons_self, path_of_mem_prepare first⟩
    · obtain ⟨other, isOther, same⟩ := ih later
      exact ⟨other, List.mem_cons_of_mem _ isOther, same⟩

/-- A settled document of a pass takes no call and is done unchanged. -/
theorem prepareAll_of_settled {documents : List SourceDocument}
    (settled : session.Settled document cache) (isDocument : document ∈ documents)
    (distinct : (documents.map SourceDocument.id).Nodup) :
    (∀ call ∈ (session.prepareAll cache documents).calls, call.path ≠ document.id) ∧
    ∀ {items}, (session.prepareAll cache documents).result = .ok items →
      ∃ output, .done output ∈ items ∧ output.id = document.id ∧
        output.freshness = some .unchanged := by
  induction documents generalizing cache with
  | nil => cases isDocument
  | cons first others ih =>
    have different := forall_ne_of_nodup distinct
    rcases List.mem_cons.mp isDocument with rfl | isLater
    · obtain ⟨output, isDone, noCalls, isFor, isUnchanged⟩ := prepare_of_settled settled
      constructor
      · intro call member
        rcases mem_calls_prepareAll_cons member with early | later
        · rw [noCalls] at early
          cases early
        · obtain ⟨other, isOther, same⟩ := path_of_mem_prepareAll later
          exact same ▸ different other isOther
      · intro items succeeds
        obtain ⟨item, rest, prepared, -, rfl, -⟩ := prepareAll_cons_ok succeeds
        rw [isDone] at prepared
        cases prepared
        exact ⟨output, List.mem_cons_self, isFor, isUnchanged⟩
    · have apart : ∀ other ∈ [first], other.id ≠ document.id := by
        intro other isOther
        rw [List.mem_singleton.mp isOther]
        exact (different document isLater).symm
      have settledThen :=
        settled.steps (steps_prepare session cache first) (not_records_preparePermit apart)
      obtain ⟨noCalls, isDone⟩ := ih settledThen isLater (List.nodup_cons.mp distinct).2
      constructor
      · intro call member
        rcases mem_calls_prepareAll_cons member with early | later
        · rw [path_of_mem_prepare early]
          exact (different document isLater).symm
        · exact noCalls call later
      · intro items succeeds
        obtain ⟨item, rest, -, remaining, rfl, -⟩ := prepareAll_cons_ok succeeds
        obtain ⟨output, member, facts⟩ := isDone remaining
        exact ⟨output, List.mem_cons_of_mem _ member, facts⟩

/-! ## Passes one after the other -/

variable {documents : List SourceDocument} {report : BuildReport}

/-- The first document with an id is the only one if ids are distinct. -/
theorem document?_of_mem {output : DocumentOutput} {id : Text}
    (distinct : (report.documents.map DocumentOutput.id).Nodup) (member : output ∈ report.documents)
    (isFor : output.id = id) : report.document? id = some output := by
  rw [BuildReport.document?]
  cases found : report.documents.find? fun other => other.id = id with
  | none => exact absurd isFor (by simpa using List.find?_eq_none.mp found output member)
  | some other =>
    have sameId : other.id = id := by simpa using List.find?_some found
    rw [List.inj_on_of_nodup_map distinct (List.mem_of_find?_eq_some found) member
      (sameId.trans isFor.symm)]

/-- What is settled for a session is settled for every session with the same hash function, options
and hooks. -/
theorem Settled.of_same (settled : session.Settled document cache)
    (sameHash : again.hash = session.hash) (sameOptions : again.options = session.options)
    (sameHooks : again.hooks = session.hooks) : again.Settled document cache := by
  obtain ⟨source, frontmatter, compiled, hasModule, hasLowered⟩ := settled
  obtain ⟨hash, options, native, fallback, hooks, workers, routine, fate⟩ := again
  subst sameHash sameOptions sameHooks
  exact ⟨source, frontmatter, compiled, ⟨⟨hasModule.falls.hooked, hasModule.falls.notFast⟩,
    hasModule.frontmatter, hasModule.compiled⟩, hasLowered⟩

/-- Every document that a pass reports as compiled on the fallback path is settled after it. -/
theorem settled_of_build (writable : cache.Writable session.Names)
    (distinct : (documents.map SourceDocument.id).Nodup)
    (passes : (session.build cache documents).result = .ok report) :
    ∀ output ∈ report.documents, output.route.isFast = false → output.status = .compiled →
      ∃ document ∈ documents, document.id = output.id ∧
        session.Settled document (session.build cache documents).cache := by
  obtain ⟨items, result⟩ := exists_prepareAll_of_build passes
  have areFor := isFor_prepareAll result
  have settled := settled_settleAll (session.lowerAll items)
    (writable.steps (steps_prepareAll session cache documents)) distinct areFor
    (rests_prepareAll writable distinct result)
  rw [build_of_ok result] at passes ⊢
  cases passes
  intro output member onFallback whole
  obtain ⟨document, isDocument, same, isSettled⟩ := exists_related settled member
  exact ⟨document, isDocument, same, isSettled onFallback whole⟩

/-- A settled document is reported as unchanged by the next pass, which calls no compiler for it and
does not have it lowered. -/
theorem build_of_settled (settled : session.Settled document cache)
    (isDocument : document ∈ documents) (distinct : (documents.map SourceDocument.id).Nodup) :
    (∀ call ∈ (session.build cache documents).calls, call.path ≠ document.id) ∧
    (∀ job ∈ session.loweringJobs cache documents, job.jobId ≠ document.id) ∧
    ∀ {report}, (session.build cache documents).result = .ok report →
      (report.document? document.id).map DocumentOutput.freshness = some (some .unchanged) := by
  obtain ⟨noCalls, isDone⟩ := prepareAll_of_settled settled isDocument distinct
  cases result : (session.prepareAll cache documents).result with
  | error failure =>
    simp only [build, loweringJobs, result]
    constructor
    · exact noCalls
    · constructor
      · intro job member
        cases member
      · intro report passes
        cases passes
  | ok items =>
    obtain ⟨output, member, isFor, isUnchanged⟩ := isDone result
    have ids := ids_of_isFor (isFor_prepareAll result)
    have distinctItems : (items.map fun item => item.output.id).Nodup := by rwa [ids]
    rw [build_of_ok result]
    simp only [loweringJobs, result]
    constructor
    · exact noCalls
    · constructor
      · intro job isJob same
        obtain ⟨other, digest, isOther, rfl⟩ := mem_jobs.mp isJob
        have collapsed := List.inj_on_of_nodup_map distinctItems isOther member
          (same.trans isFor.symm)
        cases collapsed
      · intro report passes
        cases passes
        have reported : output ∈ (settleAll (session.prepareAll cache documents).cache
          (session.lowerAll items) items).1 := mem_settleAll_of_done member
        have distinctOutputs := distinctItems
        rw [← ids_settleAll (session.lowerAll items) items] at distinctOutputs
        rw [document?_of_mem distinctOutputs reported isFor, Option.map_some, isUnchanged]

/-- The first pass over the twins, with an empty directory. -/
def Trial.pass : Worked (Except CompilerFailure BuildReport) :=
  trial.build (ofDisk (some {})) Trial.twins

theorem Trial.isCompiled_pass :
    (match Trial.pass.result with
    | .ok report => report.documents.any fun output =>
      output.id == ['b'] && !output.route.isFast && output.status == .compiled
    | .error _ => false) = true := by
  decide +kernel

end Session

end MdxBuild

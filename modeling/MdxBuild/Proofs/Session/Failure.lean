import MdxBuild.Proofs.Cache.Retrieval
import MdxBuild.Proofs.Session.Unchanged

/-!
# Failed compiles

A document that the fallback compiler fails on gets a new digest for its frontmatter at most. Its
digests in the other stages stay as they are, and so do the artifacts under them, whatever the other
documents of the pass have in common with it: what one document refers to is not evicted for
another, and what a look-up finds is not made again. A later pass over the text that was compiled
last therefore takes the compiled module from the cache. Only an artifact that is on disk alone can
be lost, to a manifest in which some digest is the path of its file.
-/

namespace MdxBuild

open BuildCache

namespace Session

variable {session again : Session} {cache after : BuildCache} {document : SourceDocument}
  {documents : List SourceDocument} {source id : Text} {output : DocumentOutput}
  {compiled : CompiledArtifact}

/-! ## Calls -/

/-- The calls of a pass are those that preparing its documents takes. -/
theorem calls_build :
    (session.build cache documents).calls = (session.prepareAll cache documents).calls := by
  cases result : (session.prepareAll cache documents).result with
  | error failure => simp only [build, result]
  | ok items => rw [build_of_ok result]

/-- In the pass the fallback compiler is called for the document and fails on it. -/
def FailsOn (session : Session) (cache : BuildCache) (documents : List SourceDocument)
    (id : Text) : Prop :=
  ∃ given failure,
    .compileAsFallback id given FallbackPlugin.all ∈ (session.build cache documents).calls ∧
      session.fallback given id FallbackPlugin.all = .error failure

/-- The document takes the fallback path, and there is no compiled module of it, neither in the
cache nor from the fallback compiler. -/
def CompileFails (session : Session) (cache : BuildCache) (document : SourceDocument) : Prop :=
  ∃ source failure, session.FallsBack document source ∧
    (session.compiledOf (session.withFrontmatter cache document source
      { id := document.id, route := session.route source }).cache document source).result =
      .error failure

/-- A call of a fallback compiler that fails leaves no compiled module. -/
theorem result_compiledOf_of_mem {given : Text} {failure : CompilerFailure}
    (asked : .compileAsFallback document.id given FallbackPlugin.all ∈
      (session.compiledOf cache document source).calls)
    (fails : session.fallback given document.id FallbackPlugin.all = .error failure) :
    (session.compiledOf cache document source).result = .error failure := by
  obtain rfl : given = session.fallbackSource source := by
    rcases mem_calls_compiledOf asked with same | other
    · cases same
      rfl
    · cases other
  have computed : session.compileAsFallback document.id source = .error failure := by
    rw [compileAsFallback, fails]
    rfl
  rcases cached_cases cache .compile (session.compileDigest document source)
      (fun _ => session.compileAsFallback document.id source)
      (session.fallbackCalls document.id source) with
    ⟨found, hit, worked⟩ | ⟨miss, other, failed, worked⟩ | ⟨miss, made, succeeded, worked⟩
  · rw [compiledOf, worked] at asked
    cases asked
  · rw [computed] at failed
    cases failed
    rw [compiledOf, worked]
  · rw [computed] at succeeded
    cases succeeded

/-- A document for which the fallback compiler is called and fails is left without a compiled
module. -/
theorem compileFails_of_mem {given : Text} {failure : CompilerFailure}
    (asked : .compileAsFallback document.id given FallbackPlugin.all ∈
      (session.prepare cache document).calls)
    (fails : session.fallback given document.id FallbackPlugin.all = .error failure) :
    session.CompileFails cache document := by
  rcases prepare_cases session cache document with
    ⟨output, prepared, -⟩ | ⟨source, -, prepared⟩ | ⟨source, falls, prepared⟩ <;>
    rw [prepared] at asked
  · cases asked
  · cases List.mem_singleton.mp asked
  · rw [calls_prepareFallback rfl, List.mem_append] at asked
    rcases asked with early | late
    · cases List.mem_singleton.mp (calls_withFrontmatter_subset early)
    · exact ⟨source, failure, falls, result_compiledOf_of_mem late fails⟩

/-! ## The pass in which the compile fails -/

/-- Steps that record for one document nothing but its frontmatter, and keep no lowered modules. -/
def sparingPermit (session : Session) (id : Text) : Permit where
  names := session.Names
  records stage other := other = id → stage = .frontmatter
  keeps stage _ _ := stage ≠ .lowering

theorem stagePermit_within_sparingPermit :
    (session.stagePermit document .frontmatter).Within (session.sparingPermit id) where
  names named := named
  records recorded _ := recorded.1
  keeps kept := by
    rintro rfl
    exact kept

theorem preparePermit_within_sparingPermit (different : document.id ≠ id) :
    (session.preparePermit [document]).Within (session.sparingPermit id) where
  names named := named
  records := by
    rintro stage other ⟨recorded, member, rfl⟩ same
    rw [List.mem_singleton.mp member] at same
    exact absurd same different
  keeps := by
    rintro stage digest artifact ⟨recorded, -, kept⟩ rfl
    exact kept

/-- A document whose compile fails is done, and has at most recorded its frontmatter. -/
theorem prepare_of_compileFails (fails : session.CompileFails cache document) :
    (∃ output, (session.prepare cache document).result = .ok (.done output)) ∧
      Steps (session.stagePermit document .frontmatter) cache
        (session.prepare cache document).cache := by
  obtain ⟨source, failure, falls, result⟩ := fails
  have read := steps_withFrontmatter cache { id := document.id, route := session.route source } falls
  generalize isFirst : session.withFrontmatter cache document source
    { id := document.id, route := session.route source } = first at read result
  have names : (session.stagePermit document .frontmatter).names
      (session.compileDigest document source) := names_compileDigest document source
  simp only [prepare, falls.hooked, falls.notFast, Bool.false_eq_true, if_false,
    prepareFallback_of_error isFirst result]
  exact ⟨⟨_, rfl⟩, read.trans (steps_cached_of_error names result)⟩

/-- Code that is to be lowered has not been found lowered. -/
theorem missing_of_withCompiled {other : DocumentOutput} {digest : Text}
    (prepared : (session.withCompiled cache output compiled).1 = .lower other digest) :
    ((session.withCompiled cache output compiled).2.get .lowering digest).1 = none := by
  rcases withCompiled_cases session cache output compiled with
    ⟨lowered, hit, worked⟩ | ⟨miss, worked⟩ <;> rw [worked] at prepared ⊢ <;> cases prepared
  exact found_get_get.trans miss

/-- A document that is to be lowered has not been found lowered. -/
theorem missing_of_prepare {digest : Text}
    (prepared : (session.prepare cache document).result = .ok (.lower output digest)) :
    ((session.prepare cache document).cache.get .lowering digest).1 = none := by
  rcases prepare_cases session cache document with
    ⟨done, worked, -⟩ | ⟨source, -, worked⟩ | ⟨source, -, worked⟩ <;> rw [worked] at prepared ⊢
  · cases prepared
  · cases compiles : session.compileFast document.id source (session.route source) <;>
      rw [compiles] at prepared <;> cases prepared
  · generalize isFirst : session.withFrontmatter cache document source
      { id := document.id, route := session.route source } = first
    cases result : (session.compiledOf first.cache document source).result with
    | error failure =>
      rw [prepareFallback_of_error isFirst result] at prepared
      cases prepared
    | ok compiled =>
      rw [prepareFallback_of_ok isFirst result] at prepared ⊢
      exact missing_of_withCompiled (Except.ok.inj prepared)

/-- The documents are prepared one after the other, and those with the id fail to compile. -/
def FailsWhenPrepared (session : Session) (id : Text) : BuildCache → List SourceDocument → Prop
  | _, [] => True
  | cache, document :: others =>
    (document.id = id → session.CompileFails cache document) ∧
      FailsWhenPrepared session id (session.prepare cache document).cache others

theorem failsWhenPrepared_of_apart (apart : ∀ document ∈ documents, document.id ≠ id) :
    session.FailsWhenPrepared id cache documents := by
  induction documents generalizing cache with
  | nil => trivial
  | cons document others ih =>
    rw [List.forall_mem_cons] at apart
    exact ⟨fun same => absurd same apart.1, ih apart.2⟩

theorem failsWhenPrepared_of_mem {given : Text} {failure : CompilerFailure}
    (distinct : (documents.map SourceDocument.id).Nodup)
    (asked : .compileAsFallback id given FallbackPlugin.all ∈
      (session.prepareAll cache documents).calls)
    (fails : session.fallback given id FallbackPlugin.all = .error failure) :
    session.FailsWhenPrepared id cache documents := by
  induction documents generalizing cache with
  | nil => trivial
  | cons document others ih =>
    have different := forall_ne_of_nodup distinct
    by_cases same : document.id = id
    · subst same
      refine ⟨fun _ => ?_, failsWhenPrepared_of_apart different⟩
      rcases mem_calls_prepareAll_cons asked with early | later
      · exact compileFails_of_mem early fails
      · obtain ⟨other, isOther, isPath⟩ := path_of_mem_prepareAll later
        exact absurd isPath.symm (different other isOther)
    · refine ⟨fun isSame => absurd isSame same, ?_⟩
      rcases mem_calls_prepareAll_cons asked with early | later
      · exact absurd (path_of_mem_prepare early).symm same
      · exact ih (List.nodup_cons.mp distinct).2 later

theorem steps_prepare_of_fails (fails : document.id = id → session.CompileFails cache document) :
    Steps (session.sparingPermit id) cache (session.prepare cache document).cache := by
  by_cases same : document.id = id
  · exact (prepare_of_compileFails (fails same)).2.widen stagePermit_within_sparingPermit
  · exact (steps_prepare session cache document).widen (preparePermit_within_sparingPermit same)

theorem steps_prepareAll_of_fails (fails : session.FailsWhenPrepared id cache documents) :
    Steps (session.sparingPermit id) cache (session.prepareAll cache documents).cache := by
  induction documents generalizing cache with
  | nil => exact .refl cache
  | cons document others ih =>
    have first := steps_prepare_of_fails fails.1
    rw [prepareAll_cons]
    simp only
    split
    · exact first
    · exact first.trans (ih fails.2)

/-- What the document retrieves is left to it by steps that record only its frontmatter. -/
theorem retrieves_of_sparing {stage : Stage} {digest : Text} {artifact : stage.Artifact}
    (retrieves : cache.Retrieves session.Names stage id digest artifact)
    (steps : Steps (session.sparingPermit id) cache after) (later : stage ≠ .frontmatter) :
    after.Retrieves session.Names stage id digest artifact :=
  retrieves.steps steps (fun recorded => later (recorded rfl)) fun last _ kept => kept last

/-- The document is not among those that are to be lowered, and none of those is lowered anew to
what it retrieves. -/
theorem lower_of_fails {items : List Prepared} {key : Text}
    (fails : session.FailsWhenPrepared id cache documents)
    (succeeds : (session.prepareAll cache documents).result = .ok items)
    (member : .lower output key ∈ items) :
    output.id ≠ id ∧ ∀ {digest lowered},
      cache.Retrieves session.Names .lowering id digest lowered → key ≠ digest := by
  induction documents generalizing cache items with
  | nil => cases succeeds; cases member
  | cons document others ih =>
    obtain ⟨item, rest, first, remaining, rfl, -⟩ := prepareAll_cons_ok succeeds
    have sparing := steps_prepare_of_fails fails.1
    rcases List.mem_cons.mp member with rfl | isLater
    · constructor
      · intro same
        have isFor : output.id = document.id := (isFor_prepare first).1
        obtain ⟨⟨done, isDone⟩, -⟩ := prepare_of_compileFails (fails.1 (isFor.symm.trans same))
        rw [isDone] at first
        cases first
      · rintro digest lowered retrieves rfl
        have found := (retrieves_of_sparing retrieves sparing (by decide)).found
        rw [missing_of_prepare first] at found
        cases found
    · obtain ⟨different, unkept⟩ := ih fails.2 remaining isLater
      exact ⟨different, fun retrieves =>
        unkept (retrieves_of_sparing retrieves sparing (by decide))⟩

/-- A pass in which the compile of a document fails leaves the document its digests but that of the
frontmatter, and what it retrieves under them. -/
theorem build_of_fails {stage : Stage} (fails : session.FailsWhenPrepared id cache documents)
    (later : stage ≠ .frontmatter) :
    (session.build cache documents).cache.manifest.digest? stage id =
        cache.manifest.digest? stage id ∧
      ∀ {digest artifact}, cache.Retrieves session.Names stage id digest artifact →
        (session.build cache documents).cache.Retrieves session.Names stage id digest artifact := by
  have prepares := steps_prepareAll_of_fails fails
  have unrecorded : ¬(session.sparingPermit id).records stage id :=
    fun recorded => later (recorded rfl)
  cases result : (session.prepareAll cache documents).result with
  | error failure =>
    rw [build_of_error result]
    exact ⟨digest?_steps prepares unrecorded,
      fun retrieves => retrieves_of_sparing retrieves prepares later⟩
  | ok items =>
    rw [build_of_ok result]
    have settles := steps_settleAll (session.prepareAll cache documents).cache
      (session.lowerAll items) fun member => names_of_isFor (isFor_prepareAll result) member
    have unsettled : ¬(session.settlePermit (session.lowerAll items) items).records stage id := by
      rintro ⟨-, output, key, member, same⟩
      exact (lower_of_fails fails result member).1 same.symm
    constructor
    · exact (digest?_steps settles unsettled).trans (digest?_steps prepares unrecorded)
    · intro digest artifact retrieves
      refine (retrieves_of_sparing retrieves prepares later).steps settles unsettled ?_
      rintro rfl kept ⟨output, member, -⟩
      exact (lower_of_fails fails result member).2 retrieves rfl

end Session

end MdxBuild

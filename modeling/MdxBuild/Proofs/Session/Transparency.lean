import Mathlib.Data.List.Nodup
import MdxBuild.Proofs.Batch.Lowering
import MdxBuild.Proofs.Cache.Artifact
import MdxBuild.Proofs.Session.History
import MdxBuild.Proofs.Session.Plain

/-!
# The cache does not show

A cache that holds nothing but what documents have made under their digests does not show in the
outcome of a pass: each stage yields what it would yield without a cache. Passes keep the cache like
this, and so does everything else that happens to it between passes. So every document of a pass
becomes what it would become alone, with an empty cache.
-/

namespace MdxBuild

open BuildCache

namespace Session

variable {session : Session} {cache : BuildCache} {document : SourceDocument}
  {documents involved : List SourceDocument} {source : Text}

/-- The outcome of a prepared document if its code is lowered on its own. -/
def finish (session : Session) : Prepared → DocumentOutput
  | .done output => output
  | .lower output _ => session.lowerAlone output

/-- What is to be lowered for a document is the module that the document asks for. -/
def Wants (session : Session) (document : SourceDocument) : Prepared → Prop
  | .done _ => True
  | .lower output _ => session.Asks document output.code

/-! ## Stages -/

/-- An artifact of a valid cache is the one that would be made. -/
theorem result_cached {names : Text → Prop}
    {made : (stage : Stage) → Text → stage.Artifact → Prop} {ε : Type} {stage : Stage}
    {digest : Text} {compute : Unit → Except ε stage.Artifact} {calls : List CompilerCall}
    (valid : cache.Valid names made) (rereads : Rereads made) (named : names digest)
    (faithful : ∀ artifact, made stage digest artifact → compute () = .ok artifact) :
    (cached cache stage digest compute calls).result = compute () := by
  rcases cached_cases cache stage digest compute calls with
    ⟨found, hit, worked⟩ | ⟨miss, failure, computed, worked⟩ | ⟨miss, artifact, computed, worked⟩
  · have inMemory : (cache.get stage digest).2.held stage digest = some found := by
      rw [held_get_self, hit]
    rw [worked, faithful found ((valid.get rereads named).inMemory inMemory)]
  · rw [worked, computed]
  · rw [worked, computed]

/-- What documents make is not lost on disk. -/
theorem rereads_isMade (ordinary : ∀ document ∈ involved, session.Ordinary document) :
    Rereads (session.IsMade involved) := by
  intro stage digest artifact found isMade decoded
  have plain : stage.IsPlain artifact := by
    cases stage with
    | frontmatter =>
      obtain ⟨document, isInvolved, source, falls, -, parsed⟩ := isMade
      exact (ordinary document isInvolved).frontmatter falls parsed
    | compile => trivial
    | lowering => trivial
  rwa [Stage.eq_of_decode_encode plain decoded]

theorem isMade_of_compiles {stage : Stage} {digest : Text} {artifact : stage.Artifact}
    (subset : documents ⊆ involved)
    (keeps : (session.preparePermit documents).keeps stage digest artifact) :
    session.IsMade involved stage digest artifact := by
  obtain ⟨document, isDocument, compiles⟩ := keeps
  cases stage with
  | frontmatter => exact ⟨document, subset isDocument, compiles⟩
  | compile => exact ⟨document, subset isDocument, compiles⟩
  | lowering => exact compiles.elim

theorem wants_withCompiled {output : DocumentOutput} {compiled : CompiledArtifact}
    (asks : session.Asks document (withCode output compiled).code) :
    session.Wants document (session.withCompiled cache output compiled).1 := by
  rcases withCompiled_cases session cache output compiled with
    ⟨lowered, -, worked⟩ | ⟨-, worked⟩
  · rw [worked]
    trivial
  · rw [worked]
    exact asks

/-- Steps that keep what documents make leave the cache with nothing else. -/
theorem valid_steps {permit : Permit} {after : BuildCache}
    (ordinary : ∀ document ∈ involved, session.Ordinary document)
    (names : permit.names = session.Names)
    (keeps : ∀ {stage digest artifact}, permit.keeps stage digest artifact →
      session.IsMade involved stage digest artifact)
    (valid : cache.Valid session.Names (session.IsMade involved))
    (steps : Steps permit cache after) :
    after.Valid session.Names (session.IsMade involved) := by
  rw [← names] at valid ⊢
  exact valid.steps (rereads_isMade ordinary) keeps steps

/-- A list of results that are all computed is computed item by item. -/
theorem forall₂_of_mapM {ε α β : Type} {compute : α → Except ε β} {sources : List α}
    {results : List β} (succeeds : sources.mapM compute = .ok results) :
    List.Forall₂ (fun source result => compute source = .ok result) sources results := by
  induction sources generalizing results with
  | nil =>
    rw [← Except.ok.inj succeeds]
    exact .nil
  | cons source others ih =>
    rw [List.mapM_cons] at succeeds
    cases first : compute source with
    | error failure => rw [first] at succeeds; cases succeeds
    | ok result =>
      cases rest : others.mapM compute with
      | error failure => rw [first, rest] at succeeds; cases succeeds
      | ok remaining =>
        rw [first, rest] at succeeds
        rw [← Except.ok.inj succeeds]
        exact .cons first (ih rest)

section Valid

variable (impersonal : session.Impersonal)
  (ordinary : ∀ document ∈ involved, session.Ordinary document)
  (separates : session.Separates involved)

include impersonal ordinary separates

section Document

variable (isInvolved : document ∈ involved)
  (valid : cache.Valid session.Names (session.IsMade involved))

include isInvolved valid

theorem result_withFrontmatter (output : DocumentOutput)
    (falls : session.FallsBack document source) :
    (session.withFrontmatter cache document source output).result =
      session.readFrontmatter document source output := by
  have result : (cached cache .frontmatter (session.frontmatterDigest document source)
      (fun _ => (session.native.parseFrontmatter source document.id).map FrontmatterArtifact.mk)
      [.parseFrontmatter document.id]).result =
        (session.native.parseFrontmatter source document.id).map FrontmatterArtifact.mk := by
    apply result_cached valid (rereads_isMade ordinary) (names_frontmatterDigest document source)
    intro artifact isMade
    rw [parseFrontmatter_of_isMade impersonal ordinary separates isInvolved falls isMade]
    rfl
  unfold frontmatterDigest at result
  simp only [withFrontmatter, readFrontmatter, result]
  cases session.native.parseFrontmatter source document.id <;> rfl

theorem result_compiledOf
    (falls : session.FallsBack document source) :
    (session.compiledOf cache document source).result =
      session.compileAsFallback document.id source :=
  result_cached valid (rereads_isMade ordinary) (names_compileDigest document source)
    fun _ isMade =>
      compileAsFallback_of_isMade impersonal ordinary separates isInvolved falls isMade

theorem finish_withCompiled {output : DocumentOutput} {compiled : CompiledArtifact}
    (isFor : output.id = document.id)
    (asks : session.Asks document (withCode output compiled).code) :
    session.finish (session.withCompiled cache output compiled).1 =
      session.lowerAlone (withCode output compiled) := by
  have named := session.names_loweringDigest (withCode output compiled).code
  rcases withCompiled_cases session cache output compiled with
    ⟨lowered, lookup, worked⟩ | ⟨lookup, worked⟩
  · have isMade := (valid.get (rereads_isMade ordinary) named).inMemory
      (held_get_self.trans lookup)
    have answers := routine_of_isMade impersonal ordinary separates isInvolved asks isMade
    rw [← isFor] at answers
    have lowersTo : session.lowerAlone (withCode output compiled) =
        (withCode output compiled).withModule lowered := lowerAlone_of_ok answers
    rw [worked, lowersTo]
    rfl
  · rw [worked]
    rfl

theorem finish_prepareFallback
    (falls : session.FallsBack document source) :
    let prepared := (session.prepareFallback cache document source (session.route source)).result
    (session.finish prepared).unstamped = session.plainFallback document source ∧
      session.Wants document prepared := by
  have compiles {stage : Stage} {other : Stage} {digest : Text} {artifact : other.Artifact}
      (keeps : (session.stagePermit document stage).keeps other digest artifact) :
      session.IsMade involved other digest artifact :=
    isMade_of_compiles (List.cons_subset.mpr ⟨isInvolved, List.nil_subset _⟩)
      ⟨document, List.mem_singleton_self document, keeps⟩
  generalize isFirst : session.withFrontmatter cache document source
    { id := document.id, route := session.route source } = first
  have started : first.result = session.fallbackStart document source := by
    rw [← isFirst]
    exact result_withFrontmatter impersonal ordinary separates isInvolved valid _ falls
  have validFirst : first.cache.Valid session.Names (session.IsMade involved) := by
    rw [← isFirst]
    exact valid_steps ordinary rfl compiles valid (steps_withFrontmatter cache _ falls)
  have compiledHere :=
    result_compiledOf impersonal ordinary separates isInvolved validFirst falls
  have unstamped : (session.compared first document source).unstamped =
      session.fallbackStart document source := by
    rw [← unstamped_fallbackStart, ← started]
    rfl
  cases result : (session.compiledOf first.cache document source).result with
  | error failure =>
    rw [prepareFallback_of_error isFirst result]
    rw [result] at compiledHere
    constructor
    · rw [plainFallback, ← compiledHere, ← unstamped]
      rfl
    · trivial
  | ok compiled =>
    rw [prepareFallback_of_ok isFirst result]
    rw [result] at compiledHere
    have validSecond := valid_steps ordinary rfl compiles validFirst (steps_compiledOf falls result)
    have isFor := id_compared isFirst
    have asks : session.Asks document
        (withCode (session.compared first document source) compiled).code := by
      refine ⟨source, compiled, falls, compiledHere.symm, ?_⟩
      rw [← started]
      rfl
    have finished :=
      finish_withCompiled impersonal ordinary separates isInvolved validSecond isFor asks
    constructor
    · apply (congrArg DocumentOutput.unstamped finished).trans
      rw [unstamped_lowerAlone, plainFallback, ← compiledHere, ← unstamped]
      rfl
    · exact wants_withCompiled asks

/-- A document is prepared for what it would become without a cache. -/
theorem prepare_eq_plain :
    (session.prepare cache document).result.map (fun item => (session.finish item).unstamped) =
      session.plain document ∧
    ∀ item, (session.prepare cache document).result = .ok item → session.Wants document item := by
  rw [prepare, plain]
  cases hooked : Hook.run session.hooks document.id document.source with
  | error failure =>
    constructor
    · rfl
    · intro item same
      rw [← Except.ok.inj same]
      trivial
  | ok source =>
    by_cases isFast : (session.route source).isFast = true
    · simp only [isFast, if_true]
      cases compiled : session.compileFast document.id source (session.route source) with
      | error failure =>
        constructor
        · rfl
        · intro item same
          cases same
      | ok output =>
        constructor
        · exact congrArg Except.ok (unstamped_of_compileFast compiled)
        · intro item same
          rw [← Except.ok.inj same]
          trivial
    · simp only [isFast]
      have finished := finish_prepareFallback impersonal ordinary separates isInvolved valid
        ⟨hooked, Bool.not_eq_true _ ▸ isFast⟩
      constructor
      · exact congrArg Except.ok finished.1
      · intro item same
        rw [← Except.ok.inj same]
        exact finished.2

end Document

/-! ## Passes -/

theorem prepareAll_eq_plain (subset : documents ⊆ involved)
    (valid : cache.Valid session.Names (session.IsMade involved)) :
    (session.prepareAll cache documents).result.map
        (List.map fun item => (session.finish item).unstamped) = documents.mapM session.plain ∧
      ∀ items, (session.prepareAll cache documents).result = .ok items →
        List.Forall₂ (fun document item => session.IsFor document item ∧
          session.Wants document item) documents items := by
  induction documents generalizing cache with
  | nil =>
    constructor
    · rfl
    · intro items same
      rw [← Except.ok.inj same]
      exact .nil
  | cons document others ih =>
    obtain ⟨isInvolved, subsetOthers⟩ := List.cons_subset.mp subset
    obtain ⟨isPlain, wants⟩ := prepare_eq_plain impersonal ordinary separates isInvolved valid
    have validNext := valid_steps ordinary rfl
      (isMade_of_compiles (List.cons_subset.mpr ⟨isInvolved, List.nil_subset _⟩)) valid
      (steps_prepare session cache document)
    obtain ⟨arePlain, wantOthers⟩ := ih subsetOthers validNext
    rw [List.mapM_cons, ← isPlain, ← arePlain]
    cases prepared : (session.prepare cache document).result with
    | error failure =>
      have fails : (session.prepareAll cache (document :: others)).result = .error failure := by
        simp only [prepareAll_cons, prepared]
      rw [fails]
      constructor
      · rfl
      · intro items same
        cases same
    | ok item =>
      have goesOn : (session.prepareAll cache (document :: others)).result =
          (session.prepareAll (session.prepare cache document).cache others).result.map
            (item :: ·) := by
        simp only [prepareAll_cons, prepared]
      rw [goesOn]
      cases remaining :
          (session.prepareAll (session.prepare cache document).cache others).result with
      | error failure =>
        constructor
        · rfl
        · intro items same
          cases same
      | ok rest =>
        constructor
        · rfl
        · intro items same
          rw [← Except.ok.inj same]
          exact .cons ⟨isFor_prepare prepared, wants item prepared⟩ (wantOthers rest remaining)

omit impersonal ordinary separates in
/-- If every job gets its own answer, every document is finished with it. -/
theorem outputs_settleAll {outcomes : Batch.Outcomes} {items : List Prepared}
    (distinct : (items.map fun item => item.output.id).Nodup)
    (answered : ∀ {output digest}, .lower output digest ∈ items →
      outcomes.find? output.id =
        some (session.routine session.options.lowering ⟨output.id, output.code⟩)) :
    (settleAll cache outcomes items).1 = items.map session.finish := by
  induction items generalizing cache outcomes with
  | nil => rfl
  | cons item others ih =>
    rw [List.map_cons, List.nodup_cons] at distinct
    rw [settleAll_cons, List.map_cons]
    cases item with
    | done output =>
      exact congrArg _ (ih distinct.2 fun member => answered (List.mem_cons_of_mem _ member))
    | lower output digest =>
      have answeredLater {other : DocumentOutput} {key : Text}
          (member : .lower other key ∈ others) :
          (outcomes.erase output.id).find? other.id =
            some (session.routine session.options.lowering ⟨other.id, other.code⟩) := by
        have otherId : other.id ≠ output.id := fun same =>
          distinct.1 (List.mem_map.mpr ⟨_, member, same⟩)
        rw [Dictionary.find?_erase_of_ne outcomes otherId]
        exact answered (List.mem_cons_of_mem _ member)
      simp only [settle, answered List.mem_cons_self, finish, lowerAlone]
      cases session.routine session.options.lowering ⟨output.id, output.code⟩ with
      | error failure => exact congrArg _ (ih distinct.2 answeredLater)
      | ok lowered => exact congrArg _ (ih distinct.2 answeredLater)

/-- A pass over a cache that holds what documents make reports what they become without a cache, and
leaves such a cache behind. -/
theorem build_eq_plain (reported : ∀ group jobs, session.fate group jobs = .reported)
    (subset : documents ⊆ involved) (distinct : (documents.map SourceDocument.id).Nodup)
    (valid : cache.Valid session.Names (session.IsMade involved)) :
    (session.build cache documents).result.map
        (fun report => report.documents.map DocumentOutput.unstamped) =
      documents.mapM session.plain ∧
    (session.build cache documents).cache.Valid session.Names (session.IsMade involved) := by
  obtain ⟨arePlain, wants⟩ := prepareAll_eq_plain impersonal ordinary separates subset valid
  have prepared := valid_steps ordinary rfl (isMade_of_compiles subset) valid
    (steps_prepareAll session cache documents)
  rw [← arePlain]
  cases result : (session.prepareAll cache documents).result with
  | error failure =>
    rw [build_of_error result]
    constructor
    · simp only [build, result]
      rfl
    · exact prepared
  | ok items =>
    have areFor := isFor_prepareAll result
    have distinctItems : (items.map fun item => item.output.id).Nodup := by
      rwa [ids_of_isFor areFor]
    have answered {output : DocumentOutput} {digest : Text}
        (member : .lower output digest ∈ items) :
        (session.lowerAll items).find? output.id =
          some (session.routine session.options.lowering ⟨output.id, output.code⟩) := by
      apply Batch.find?_lower_of_reported reported (mem_jobs.mpr ⟨output, digest, member, rfl⟩)
      intro other isJob sameId
      obtain ⟨second, key, isItem, rfl⟩ := mem_jobs.mp isJob
      have same := List.inj_on_of_nodup_map distinctItems isItem member sameId
      cases same
      rfl
    rw [build_of_ok result]
    constructor
    · simp only [Except.map, outputs_settleAll distinctItems answered, List.map_map]
      rfl
    · apply valid_steps ordinary rfl _ prepared (steps_settleAll _ _ (names_of_isFor areFor))
      intro stage digest artifact keeps
      cases stage with
      | frontmatter => exact keeps.elim
      | compile => exact keeps.elim
      | lowering =>
        obtain ⟨output, member, outcome⟩ := keeps
        rw [answered member] at outcome
        obtain ⟨document, isDocument, isFor, wanted⟩ :=
          exists_related (wants items result) member
        refine ⟨document, subset isDocument, output.code, wanted, isFor.2.symm, ?_⟩
        rw [← isFor.1]
        exact Option.some.inj outcome

end Valid

/-! ## Histories -/

section Histories

variable {directory : Option Disk} {history : List Action}
  (blank : ∀ disk ∈ directory, disk.IsBlank)
  (hexadecimal : directory.isSome → session.hash.IsHexadecimal)
  (impersonal : session.Impersonal)
  (reported : ∀ group jobs, session.fate group jobs = .reported)

include blank hexadecimal impersonal reported

/-- After every history the cache holds nothing but what documents of the history make. -/
theorem valid_run (runs : session.Runs history)
    (distinct : ∀ action ∈ history, (action.documents.map SourceDocument.id).Nodup)
    (subset : history.flatMap Action.documents ⊆ involved)
    (ordinary : ∀ document ∈ involved, session.Ordinary document)
    (separates : session.Separates involved) :
    ((ofDisk directory).run history).Valid session.Names (session.IsMade involved) := by
  apply run_preserves (Valid session.Names (session.IsMade involved))
  · intro cache action member valid
    cases action with
    | build other documents =>
      obtain rfl := runs member
      have isInvolved : documents ⊆ involved := fun document isDocument =>
        subset (List.mem_flatMap.mpr ⟨_, member, isDocument⟩)
      exact (build_eq_plain impersonal ordinary separates reported isInvolved
        (distinct _ member) valid).2
    | invalidate id => exact valid.invalidate
    | clear => exact valid.clear
    | finish => exact valid.save
    | reopen => exact valid.reopen
  · apply Valid.start blank
    rintro durable - ⟨bytes, rfl⟩
    exact hexadecimal durable bytes

/-- After every history a pass reports what its documents become without a cache. -/
theorem run_build_eq_plain (runs : session.Runs history)
    (distinct : ∀ action ∈ history, (action.documents.map SourceDocument.id).Nodup)
    (distinctLast : (documents.map SourceDocument.id).Nodup)
    (ordinary : ∀ document ∈ history.flatMap Action.documents ++ documents,
      session.Ordinary document)
    (separates : session.Separates (history.flatMap Action.documents ++ documents)) :
    (session.build ((ofDisk directory).run history) documents).result.map
        (fun report => report.documents.map DocumentOutput.unstamped) =
      documents.mapM session.plain := by
  have valid := valid_run blank hexadecimal impersonal reported runs distinct
    (List.subset_append_left _ documents) ordinary separates
  exact (build_eq_plain impersonal ordinary separates reported (List.subset_append_right _ _)
    distinctLast valid).1

omit blank hexadecimal in
/-- A document that can be built without a cache is built alone, with an empty cache in memory, to
the same outcome. -/
theorem build_alone_of_plain {plain : DocumentOutput} (ordinary : session.Ordinary document)
    (separates : session.Separates [document]) (isPlain : session.plain document = .ok plain) :
    ∃ alone stats, (session.build (start none) [document]).result = .ok ⟨[alone], stats⟩ ∧
      alone.unstamped = plain := by
  have arePlain : (session.build (start none) [document]).result.map
      (fun report => report.documents.map DocumentOutput.unstamped) =
        [document].mapM session.plain := by
    have ordinaryAlone : ∀ other ∈ [document], session.Ordinary other := by
      intro other member
      rwa [List.mem_singleton.mp member]
    have valid : (start none).Valid session.Names (session.IsMade [document]) := by
      apply Valid.start
      · intro disk isDisk
        cases isDisk
      · intro durable
        cases durable
    exact (build_eq_plain impersonal ordinaryAlone separates reported
      (List.Subset.refl [document]) (List.nodup_singleton _) valid).1
  rw [List.mapM_cons, isPlain] at arePlain
  cases result : (session.build (start none) [document]).result with
  | error failure =>
    rw [result] at arePlain
    cases arePlain
  | ok report =>
    rw [result] at arePlain
    have outputs : report.documents.map DocumentOutput.unstamped = [plain] :=
      Except.ok.inj arePlain
    obtain ⟨alone, isAlone, same⟩ := List.map_eq_singleton_iff.mp outputs
    refine ⟨alone, report.cache, ?_, same⟩
    rw [← isAlone]

end Histories

namespace Trial

theorem impersonal_trial : trial.Impersonal where
  frontmatter _ _ _ := rfl
  headings _ _ _ := rfl
  fallback _ _ _ _ := rfl
  routine markup id other := by
    simp only [trial, MdxBuild.Trial.routine]
    split <;> rfl

/-- The source of the twins. -/
def twinSource : Text :=
  "import 'x'".toList

/-- The module of a twin. -/
def twinText (id : Text) : Text :=
  let headings := MdxBuild.Trial.headings twinSource
  let compiled := ⟨Generated.injectIds headings (trial.fallbackSource twinSource), headings⟩
  (withCode (trial.fallbackStart ⟨id, twinSource, none⟩ twinSource) compiled).code

/-- What is hashed for the twins. -/
def twinBytes : List (List UInt8) :=
  let lowering := trial.options.loweringFingerprint trial.hash
  [Digest.preimage twinSource frontmatterFingerprint,
    Digest.preimage twinSource (trial.options.compileFingerprint trial.hash),
    Digest.preimage (twinText ['a']) lowering, Digest.preimage (twinText ['b']) lowering]

theorem nodup_twinBytes : (twinBytes.map Sha256.hexDigest).Nodup := by
  decide +kernel

theorem notFast_twinSource : (trial.route twinSource).isFast = false := by
  decide +kernel

theorem notMem_twinSource : '\r' ∉ twinSource ∧ '\r' ∉ trial.fallbackSource twinSource := by
  decide +kernel

theorem isWhole_twinSource : (MdxBuild.Trial.frontmatter twinSource).isWhole = true := by
  decide +kernel

theorem eq_twinSource (isTwin : document ∈ twins)
    (hooked : Hook.run trial.hooks document.id document.source = .ok source) :
    source = twinSource := by
  have sameSource : document.source = twinSource := by
    rcases List.mem_cons.mp isTwin with rfl | isSecond
    · rfl
    · rw [List.mem_singleton.mp isSecond]
      rfl
  exact (Except.ok.inj hooked).symm.trans sameSource

theorem ordinary_twins : ∀ document ∈ twins, trial.Ordinary document := by
  intro document isTwin
  have noDigest : document.digest = none := by
    rcases List.mem_cons.mp isTwin with rfl | isSecond
    · rfl
    · rw [List.mem_singleton.mp isSecond]
  constructor
  · exact noDigest
  · intro source falls
    rw [eq_twinSource isTwin falls.hooked]
    exact notMem_twinSource.1
  · intro source compiled falls compiles
    rw [eq_twinSource isTwin falls.hooked] at compiles
    rw [← Except.ok.inj compiles]
    exact notMem_twinSource.2
  · intro source data falls parses
    rw [eq_twinSource isTwin falls.hooked] at parses
    rw [← Except.ok.inj parses]
    exact isWhole_twinSource

theorem mem_twinBytes {bytes : List UInt8} (isTwin : document ∈ twins)
    (hashes : trial.Hashes document bytes) : bytes ∈ twinBytes := by
  rcases hashes with ⟨source, falls, rfl | rfl⟩ |
    ⟨text, ⟨source, compiled, falls, compiles, rfl⟩, rfl⟩
  · rw [eq_twinSource isTwin falls.hooked]
    exact List.mem_cons_self
  · rw [eq_twinSource isTwin falls.hooked]
    exact List.mem_cons_of_mem _ List.mem_cons_self
  · rw [eq_twinSource isTwin falls.hooked] at compiles ⊢
    rw [← Except.ok.inj compiles]
    rcases List.mem_cons.mp isTwin with rfl | isSecond
    · exact List.mem_cons_of_mem _ (List.mem_cons_of_mem _ List.mem_cons_self)
    · rw [List.mem_singleton.mp isSecond]
      exact List.mem_cons_of_mem _ (List.mem_cons_of_mem _ (List.mem_cons_of_mem _
        List.mem_cons_self))

theorem separates_twins : trial.Separates twins := by
  intro first isFirst second isSecond bytes other hashesFirst hashesSecond same
  exact List.inj_on_of_nodup_map nodup_twinBytes (mem_twinBytes isFirst hashesFirst)
    (mem_twinBytes isSecond hashesSecond) same

/-- The twins are built and saved; the cache is opened again and the first twin forgotten. -/
def twinHistory : List Action :=
  [.build trial twins, .finish, .reopen, .invalidate ['a']]

theorem runs_twinHistory : trial.Runs twinHistory := by
  intro other documents member
  simp only [twinHistory, List.mem_cons, Action.build.injEq, reduceCtorEq, List.not_mem_nil,
    or_false] at member
  exact member.1

end Trial

end Session

end MdxBuild

import MdxBuild.Proofs.Session.Failure
import MdxBuild.Proofs.Session.Transparency

/-!
# Passes after a failed compile

A document of which the cache retrieves the compiled module goes on from there: a pass asks for its
frontmatter at most, reports it as unchanged and has the text of this module lowered, unless it has
been lowered before. A failed compile in between does not get in the way of that.
-/

namespace MdxBuild

open BuildCache

namespace Session

variable {session again : Session} {cache start : BuildCache} {document : SourceDocument}
  {documents : List SourceDocument} {source id : Text} {output : DocumentOutput}
  {compiled : CompiledArtifact}

/-- In the course of preparing the documents a look-up finds the lowered form of a text. -/
def FindsLowered (session : Session) (cache : BuildCache) (documents : List SourceDocument)
    (text : Text) (lowered : LoweredModule) : Prop :=
  ∃ before, Steps (session.preparePermit documents) cache before ∧
    (before.get .lowering (session.loweringDigest text)).1 = some lowered

/-- The document is reported as unchanged, and its compiled module is taken up: its text goes to the
lowering batch of the pass, or has been found lowered. -/
structure Resumes (session : Session) (cache : BuildCache) (documents : List SourceDocument)
    (compiled : CompiledArtifact) (output : DocumentOutput) : Prop where
  freshness : output.freshness = some .unchanged
  notFailed : output.status ≠ .failed
  headings : output.headings = compiled.headings
  module : let text := moduleText output.id output.frontmatter compiled
    ⟨output.id, text⟩ ∈ session.loweringJobs cache documents ∨
      ∃ lowered, session.FindsLowered cache documents text lowered ∧
        output.code = lowered.code ∧ output.map = lowered.map

/-- What is prepared of a document that resumes: its text is to be lowered or has been found
lowered. -/
structure PreparesFrom (session : Session) (cache : BuildCache) (documents : List SourceDocument)
    (compiled : CompiledArtifact) (item : Prepared) : Prop where
  freshness : item.output.freshness = some .unchanged
  notFailed : item.output.status ≠ .failed
  headings : item.output.headings = compiled.headings
  module : let text := moduleText item.output.id item.output.frontmatter compiled
    match item with
    | .lower output _ => output.code = text
    | .done output => ∃ lowered, session.FindsLowered cache documents text lowered ∧
        output.code = lowered.code ∧ output.map = lowered.map

theorem PreparesFrom.of_steps {more : List SourceDocument} {item : Prepared}
    (prepares : session.PreparesFrom cache documents compiled item)
    (steps : Steps (session.preparePermit more) start cache) (subset : documents ⊆ more) :
    session.PreparesFrom start more compiled item where
  freshness := prepares.freshness
  notFailed := prepares.notFailed
  headings := prepares.headings
  module := by
    have isText := prepares.module
    cases item with
    | lower output digest => exact isText
    | done output =>
      obtain ⟨lowered, ⟨before, reached, found⟩, facts⟩ := isText
      exact ⟨lowered, ⟨before, steps.trans (reached.widen (preparePermit_within subset)), found⟩,
        facts⟩

/-! ## Preparing the document -/

theorem status_degrade_ne_failed {diagnostic : Text} (notFailed : output.status ≠ .failed) :
    (output.degrade diagnostic).status ≠ .failed := by
  simp only [DocumentOutput.degrade]
  split
  · decide
  · exact notFailed

theorem status_withFrontmatter_ne_failed (notFailed : output.status ≠ .failed) :
    (session.withFrontmatter cache document source output).result.status ≠ .failed := by
  simp only [withFrontmatter]
  split
  · exact notFailed
  · exact status_degrade_ne_failed notFailed

theorem prepareFallback_of_retrieves (falls : session.FallsBack document source)
    (retrieves : cache.Retrieves session.Names .compile document.id
      (session.compileDigest document source) compiled) (route : Route) :
    (∀ call ∈ (session.prepareFallback cache document source route).calls,
      call = .parseFrontmatter document.id) ∧
    session.PreparesFrom cache [document] compiled
      (session.prepareFallback cache document source route).result := by
  have read := steps_withFrontmatter cache { id := document.id, route } falls
  have asked : (session.withFrontmatter cache document source { id := document.id, route }).calls ⊆
      [.parseFrontmatter document.id] := calls_withFrontmatter_subset
  have notFailed : (session.withFrontmatter cache document source
      { id := document.id, route }).result.status ≠ .failed :=
    status_withFrontmatter_ne_failed fun isFailed => by cases isFailed
  generalize isFirst : session.withFrontmatter cache document source { id := document.id, route } =
    first at read asked notFailed
  have retrievesThen := retrieves.steps read (fun recorded => absurd recorded.1 (by decide))
    fun last => absurd last (by decide)
  have found : session.compiledOf first.cache document source =
      ⟨.ok compiled, (first.cache.get .compile (session.compileDigest document source)).2, []⟩ :=
    cached_of_found retrievesThen.found
  have result : (session.compiledOf first.cache document source).result = .ok compiled := by
    rw [found]
  have isUnchanged : (session.compared first document source).freshness = some .unchanged := by
    simp [compared, BuildCache.freshness, retrievesThen.recorded]
  have within := stagePermit_within session (List.mem_singleton_self document)
  have reached := (read.widen (within .frontmatter)).trans
    ((steps_compiledOf falls result).widen (within .compile))
  rw [prepareFallback_of_ok isFirst result]
  constructor
  · intro call member
    simp only [found, List.append_nil] at member
    exact List.mem_singleton.mp (asked member)
  · rcases withCompiled_cases session
        ((session.compiledOf first.cache document source).cache.record .compile document.id
          (session.compileDigest document source))
        (session.compared first document source) compiled with
      ⟨lowered, hit, worked⟩ | ⟨-, worked⟩
    · simp only [worked]
      exact ⟨isUnchanged, notFailed, rfl, lowered, ⟨_, reached, hit⟩, rfl, rfl⟩
    · simp only [worked]
      exact ⟨isUnchanged, notFailed, rfl, rfl⟩

theorem prepare_of_retrieves (falls : session.FallsBack document source)
    (retrieves : cache.Retrieves session.Names .compile document.id
      (session.compileDigest document source) compiled) :
    (∀ call ∈ (session.prepare cache document).calls, call = .parseFrontmatter document.id) ∧
    ∃ item, (session.prepare cache document).result = .ok item ∧
      session.PreparesFrom cache [document] compiled item := by
  obtain ⟨asked, prepares⟩ := prepareFallback_of_retrieves falls retrieves (session.route source)
  simp only [prepare, falls.hooked, falls.notFast, Bool.false_eq_true, if_false]
  exact ⟨asked, _, rfl, prepares⟩

/-- Among documents with distinct ids, one whose compiled module is retrieved goes on from it. -/
theorem prepareAll_of_retrieves (falls : session.FallsBack document source)
    (retrieves : cache.Retrieves session.Names .compile document.id
      (session.compileDigest document source) compiled)
    (isDocument : document ∈ documents) (distinct : (documents.map SourceDocument.id).Nodup) :
    (∀ call ∈ (session.prepareAll cache documents).calls, call.path = document.id →
      call = .parseFrontmatter document.id) ∧
    ∀ {items}, (session.prepareAll cache documents).result = .ok items →
      ∃ item ∈ items, item.output.id = document.id ∧
        session.PreparesFrom cache documents compiled item := by
  induction documents generalizing cache with
  | nil => cases isDocument
  | cons first others ih =>
    have different := forall_ne_of_nodup distinct
    rcases List.mem_cons.mp isDocument with rfl | isLater
    · obtain ⟨asked, item, isItem, prepares⟩ := prepare_of_retrieves falls retrieves
      constructor
      · intro call member isPath
        rcases mem_calls_prepareAll_cons member with early | later
        · exact asked call early
        · obtain ⟨other, isOther, same⟩ := path_of_mem_prepareAll later
          exact absurd (same.symm.trans isPath) (different other isOther)
      · intro items succeeds
        obtain ⟨head, rest, prepared, -, rfl, -⟩ := prepareAll_cons_ok succeeds
        rw [isItem] at prepared
        cases prepared
        exact ⟨item, List.mem_cons_self, id_of_isFor (isFor_prepare isItem),
          prepares.of_steps (.refl cache)
            (List.cons_subset_cons document (List.nil_subset others))⟩
    · have apart : ∀ other ∈ [first], other.id ≠ document.id := by
        intro other isOther
        rw [List.mem_singleton.mp isOther]
        exact (different document isLater).symm
      have steps := steps_prepare session cache first
      have retrievesThen := retrieves.steps steps (not_records_preparePermit apart .compile)
        fun last => absurd last (by decide)
      obtain ⟨asked, prepared⟩ := ih retrievesThen isLater (List.nodup_cons.mp distinct).2
      constructor
      · intro call member isPath
        rcases mem_calls_prepareAll_cons member with early | later
        · rw [path_of_mem_prepare early] at isPath
          exact absurd isPath.symm (different document isLater)
        · exact asked call later isPath
      · intro items succeeds
        obtain ⟨head, rest, -, remaining, rfl, -⟩ := prepareAll_cons_ok succeeds
        obtain ⟨item, member, isFor, prepares⟩ := prepared remaining
        have earlier := steps.widen
          (preparePermit_within (List.cons_subset_cons first (List.nil_subset others)))
        -- What the first document leaves in the cache is where the look-ups of the others start.
        have later : session.PreparesFrom (session.prepare cache first).cache (first :: others)
            compiled item :=
          prepares.of_steps (.refl _) (List.subset_cons_self first others)
        exact ⟨item, List.mem_cons_of_mem _ member, isFor,
          later.of_steps earlier (List.Subset.refl _)⟩

/-! ## Settling the document -/

theorem exists_settle_of_mem {items : List Prepared} {item : Prepared} (cache : BuildCache)
    (outcomes : Batch.Outcomes) (member : item ∈ items) :
    ∃ before left, (settle before left item).1 ∈ (settleAll cache outcomes items).1 := by
  induction items generalizing cache outcomes with
  | nil => cases member
  | cons head rest ih =>
    rw [settleAll_cons]
    rcases List.mem_cons.mp member with rfl | later
    · exact ⟨cache, outcomes, List.mem_cons_self⟩
    · obtain ⟨before, left, reported⟩ := ih _ _ later
      exact ⟨before, left, List.mem_cons_of_mem _ reported⟩

/-- Whatever the lowering batch makes of it, a document that goes on with its compiled module
resumes. -/
theorem resumes_settle {item : Prepared} (before : BuildCache) (left : Batch.Outcomes)
    (prepares : session.PreparesFrom cache documents compiled item)
    (isJob : ∀ {output digest}, item = .lower output digest →
      ⟨output.id, output.code⟩ ∈ session.loweringJobs cache documents) :
    session.Resumes cache documents compiled (settle before left item).1 := by
  obtain ⟨freshness, notFailed, headings, isText⟩ := prepares
  cases item with
  | done output => exact ⟨freshness, notFailed, headings, .inr isText⟩
  | lower output digest =>
    have isInBatch := isJob rfl
    have sameText : output.code = moduleText output.id output.frontmatter compiled := isText
    rw [sameText] at isInBatch
    simp only [settle]
    split
    · exact ⟨freshness, notFailed, headings, .inl isInBatch⟩
    · exact ⟨freshness, status_degrade_ne_failed notFailed, headings, .inl isInBatch⟩
    · exact ⟨freshness, status_degrade_ne_failed notFailed, headings, .inl isInBatch⟩

/-- A document whose compiled module is retrieved resumes in the pass. -/
theorem build_of_retrieves (falls : session.FallsBack document source)
    (retrieves : cache.Retrieves session.Names .compile document.id
      (session.compileDigest document source) compiled)
    (isDocument : document ∈ documents) (distinct : (documents.map SourceDocument.id).Nodup) :
    (∀ call ∈ (session.build cache documents).calls, call.path = document.id →
      call = .parseFrontmatter document.id) ∧
    ∀ {report}, (session.build cache documents).result = .ok report →
      ∃ output, report.document? document.id = some output ∧
        session.Resumes cache documents compiled output := by
  obtain ⟨asked, prepared⟩ := prepareAll_of_retrieves falls retrieves isDocument distinct
  rw [calls_build]
  refine ⟨asked, ?_⟩
  intro report passes
  have ids := ids_of_build passes
  obtain ⟨items, result⟩ := exists_prepareAll_of_build passes
  obtain ⟨item, member, isFor, prepares⟩ := prepared result
  rw [build_of_ok result] at passes
  cases passes
  obtain ⟨before, left, reported⟩ := exists_settle_of_mem
    (session.prepareAll cache documents).cache (session.lowerAll items) member
  have isReported : (settle before left item).1.id = document.id := (id_settle left item).trans isFor
  refine ⟨_, document?_of_mem (by rwa [ids]) reported isReported, ?_⟩
  apply resumes_settle before left prepares
  rintro output digest rfl
  simp only [loweringJobs, result]
  exact mem_jobs.mpr ⟨output, digest, member, rfl⟩

/-! ## The main statement -/

/-- In a cache on disk the digests of a session with a hexadecimal hash function spell no paths. -/
theorem slash_notMem_of_names (hexadecimal : session.hash.IsHexadecimal) {key : Text}
    (named : session.Names key) : '/' ∉ key := by
  obtain ⟨bytes, rfl⟩ := named
  exact (Digest.namesFile_of_isHex (hexadecimal bytes)).noSlash

/-- A failed compile costs nothing later. A pass in which the fallback compiler fails for a document
leaves the document its digests in the compile stage and in the lowering stage, with the artifacts
that look-ups found under them. A pass after it, over the text with the digest that is recorded in
the compile stage, takes the compiled module from the cache, without a call of the fallback
compiler, and reports the document as unchanged. -/
theorem resumes_after_failsOn (hexadecimal : cache.disk.isSome → session.hash.IsHexadecimal)
    (distinct : (documents.map SourceDocument.id).Nodup)
    (fails : session.FailsOn cache documents id) :
    let between := (session.build cache documents).cache
    (∀ stage, stage ≠ .frontmatter →
      between.manifest.digest? stage id = cache.manifest.digest? stage id ∧
      ∀ {digest artifact}, cache.Recalls stage id digest artifact →
        (between.get stage digest).1 = some artifact) ∧
    ∀ {digest compiled}, cache.Recalls .compile id digest compiled →
      ∀ {again : Session} {next : List SourceDocument} {document source},
        again.hash = session.hash → (next.map SourceDocument.id).Nodup → document ∈ next →
        document.id = id → again.FallsBack document source →
        again.compileDigest document source = digest →
        (∀ call ∈ (again.build between next).calls, call.path = id →
          call = .parseFrontmatter id) ∧
        ∀ {report}, (again.build between next).result = .ok report →
          ∃ output, report.document? id = some output ∧
            again.Resumes between next compiled output := by
  intro between
  obtain ⟨given, failure, asked, answers⟩ := fails
  rw [calls_build] at asked
  have failing := failsWhenPrepared_of_mem distinct asked answers
  have noSlash : cache.disk.isSome → ∀ {key}, session.Names key → '/' ∉ key :=
    fun durable _ named => slash_notMem_of_names (hexadecimal durable) named
  constructor
  · intro stage later
    obtain ⟨sameDigest, keeps⟩ := build_of_fails failing later
    exact ⟨sameDigest, fun recalls => (keeps (.of_recalls recalls noSlash)).found⟩
  · rintro digest compiled recalls again next document source sameHash distinctNext isNext rfl falls
      rfl
    have sameNames : again.Names = session.Names := by
      unfold Names
      rw [sameHash]
    have retrieves := (build_of_fails failing (by decide)).2 (.of_recalls recalls noSlash)
    rw [← sameNames] at retrieves
    exact build_of_retrieves falls retrieves isNext distinctNext

namespace Trial

/-- The trial session with a fallback compiler that fails for the first of two documents. -/
def faltering : Session :=
  { trial with
    fallback := fun source path plugins =>
      if path = ['a'] then .error (.fallback path "unexpected token".toList)
      else trial.fallback source path plugins }

/-- The twins with other texts. -/
def edits : List SourceDocument :=
  [⟨['a'], "import 'y'".toList, none⟩, ⟨['b'], "import 'z'".toList, none⟩]

/-- The digest under which the compiled module of the twins is kept. -/
def twinDigest : Text :=
  "1f6d64e33e67c7d85baaf12d5ce825ec20e09dd63a9b10d63f22e4a1fe157974".toList

theorem compileDigest_eq_twinDigest :
    trial.compileDigest ⟨['a'], twinSource, none⟩ twinSource = twinDigest := by
  decide +kernel

/-- A cache that was saved and opened again, with the compiled module of the first twin on disk and
some digest recorded for the second one. -/
def opened (digest : Text) : BuildCache :=
  let kept := ((ofDisk (some {})).put .compile twinDigest ⟨twinSource, []⟩).2
  ((kept.record .compile ['a'] twinDigest).record .compile ['b'] digest).save.2.reopen

theorem recalls_opened :
    (opened twinDigest).Recalls .compile ['a'] twinDigest ⟨twinSource, []⟩ where
  recorded := by decide +kernel
  found := by decide +kernel
  flat _ := by decide +kernel

theorem failsOn_edits : faltering.FailsOn (opened twinDigest) edits ['a'] := by
  refine ⟨"import 'y'".toList, .fallback ['a'] "unexpected token".toList, ?_, rfl⟩
  rw [calls_build]
  decide +kernel

end Trial

/-- After a failed compile of the first twin, in a pass in which the second twin gives up the digest
that they share, the first twin resumes, from disk and with a fallback compiler that still fails. -/
theorem twin_resumes_after_edits :
    let between := (Trial.faltering.build (Trial.opened Trial.twinDigest) Trial.edits).cache
    Trial.faltering.FailsOn (Trial.opened Trial.twinDigest) Trial.edits ['a'] ∧
    (between.get .compile Trial.twinDigest).1 = some ⟨Trial.twinSource, []⟩ ∧
    (∀ call ∈ (Trial.faltering.build between Trial.twins).calls, call.path = ['a'] →
      call = .parseFrontmatter ['a']) ∧
    ∃ report output, (Trial.faltering.build between Trial.twins).result = .ok report ∧
      report.document? ['a'] = some output ∧
      Trial.faltering.Resumes between Trial.twins ⟨Trial.twinSource, []⟩ output := by
  intro between
  obtain ⟨keeps, resumes⟩ := resumes_after_failsOn (fun _ => Sha256.isHexadecimal_hexDigest)
    (by decide) Trial.failsOn_edits
  have falls : Trial.faltering.FallsBack ⟨['a'], Trial.twinSource, none⟩ Trial.twinSource :=
    ⟨rfl, Trial.notFast_twinSource⟩
  have distinct : (Trial.twins.map SourceDocument.id).Nodup := by decide
  have sameHash : Trial.faltering.hash = Trial.faltering.hash := rfl
  obtain ⟨asked, reported⟩ := resumes Trial.recalls_opened sameHash distinct List.mem_cons_self rfl
    falls Trial.compileDigest_eq_twinDigest
  have allPass : ∀ document ∈ Trial.twins, Trial.faltering.Passes document := by
    intro document isTwin source hooked isFast
    rw [Trial.eq_twinSource isTwin hooked] at isFast
    cases Trial.notFast_twinSource.symm.trans isFast
  obtain ⟨items, result⟩ := prepareAll_ok_iff.mpr allPass
  have passes := congrArg Worked.result (build_of_ok result)
  obtain ⟨output, isReported, resumed⟩ := reported passes
  exact ⟨Trial.failsOn_edits, (keeps .compile (by decide)).2 Trial.recalls_opened, asked, _, output,
    passes, isReported, resumed⟩

/-- In a manifest that holds a path in place of a digest, the second document can give up the file
of the first: the artifact of the failed document is lost. -/
theorem lost_after_edits_of_path :
    let cache := Trial.opened ("../compile/".toList ++ Trial.twinDigest)
    (Trial.edits.map SourceDocument.id).Nodup ∧
    Trial.faltering.FailsOn cache Trial.edits ['a'] ∧
    cache.manifest.digest? .compile ['a'] = some Trial.twinDigest ∧
    (cache.get .compile Trial.twinDigest).1 = some ⟨Trial.twinSource, []⟩ ∧
    ((Trial.faltering.build cache Trial.edits).cache.get .compile Trial.twinDigest).1 = none := by
  intro cache
  have outcome : .compileAsFallback ['a'] "import 'y'".toList FallbackPlugin.all ∈
        (Trial.faltering.build cache Trial.edits).calls ∧
      cache.manifest.digest? .compile ['a'] = some Trial.twinDigest ∧
      (cache.get .compile Trial.twinDigest).1 = some ⟨Trial.twinSource, []⟩ ∧
      ((Trial.faltering.build cache Trial.edits).cache.get .compile Trial.twinDigest).1 = none := by
    decide +kernel
  exact ⟨by decide, ⟨_, _, outcome.1, rfl⟩, outcome.2⟩

end Session

end MdxBuild

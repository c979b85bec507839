import MdxBuild.Proofs.Module.FileExport
import MdxBuild.Proofs.Session.Provenance
import MdxBuild.Proofs.Session.Transparency

/-!
# Whose source map a document gets

The key of a lowered module is the digest of its text alone, but its source map says which document
it was lowered for. Where every module names its file, different documents have different modules,
so each is reported with a map of its own. Where the compiled code declares `file` itself, a second
document of the same content asks for the very same module and is handed the map of the first.
-/

namespace MdxBuild

open BuildCache Digest

namespace Session

variable {session : Session} {cache : BuildCache} {document : SourceDocument}
  {documents involved : List SourceDocument} {source : Text} {output : DocumentOutput}

/-! ## Labels -/

/-- The routine labels every map that it makes with the id of the job. -/
def Labels (session : Session) (label : Text → Option Text) : Prop :=
  ∀ {job lowered map}, session.routine session.options.lowering job = .ok lowered →
    lowered.map = some map → label map = some job.jobId

/-- The hash function does not collide on modules that documents of the list may ask to lower. -/
def TellsModules (session : Session) (involved : List SourceDocument) : Prop :=
  ∀ job other, session.HasJob involved job → session.HasJob involved other →
    session.hash.TellsApart
      (preimage job.markup (session.options.loweringFingerprint session.hash))
      (preimage other.markup (session.options.loweringFingerprint session.hash))

variable {label : Text → Option Text} {id : Text}

/-- Where every module names its file, modules of different documents have different digests. -/
theorem label_of_hasMap (labels : session.Labels label) (tells : session.TellsModules involved)
    (undeclared : ∀ compiled, session.HasCompiled involved compiled →
      Metadata.declaresFile compiled.code = false)
    {map : Text} (hasMap : session.HasMap involved id map) : label map = some id := by
  obtain ⟨text, lowered, asks, ⟨job, makes, sameDigest, answers⟩, isMap⟩ := hasMap
  have sameText := unifyNewlines_eq_of_preimage_eq (tells job ⟨id, text⟩ makes asks sameDigest)
  obtain ⟨-, frontmatter, compiled, -, hasCompiled, isModule⟩ := makes
  obtain ⟨-, otherFrontmatter, otherCompiled, -, otherHasCompiled, isOtherModule⟩ := asks
  rw [isModule, isOtherModule] at sameText
  have sameFile : job.jobId = id := Metadata.file_eq_of_unifyNewlines_eq (undeclared _ hasCompiled)
    (undeclared _ otherHasCompiled) sameText
  rw [labels answers isMap, sameFile]

/-! ## Documents of the same content -/

/-- The documents differ in their ids at most. -/
def SameContent (document other : SourceDocument) : Prop :=
  other.source = document.source ∧ other.digest = document.digest

section SameContent

variable {other : SourceDocument} (same : SameContent document other)

include same

theorem identity_keyed_eq (source : Text) :
    (keyed other source).identity = (keyed document source).identity := by
  obtain ⟨sameSource, sameDigest⟩ := same
  rw [keyed, keyed, sameSource]
  split
  · rw [SourceDocument.identity, SourceDocument.identity, sameSource, sameDigest]
  · rfl

theorem frontmatterDigest_eq (source : Text) :
    session.frontmatterDigest other source = session.frontmatterDigest document source := by
  simp only [frontmatterDigest, SourceDocument.digestWith, identity_keyed_eq same]

theorem compileDigest_eq (source : Text) :
    session.compileDigest other source = session.compileDigest document source := by
  simp only [compileDigest, SourceDocument.digestWith, identity_keyed_eq same]

/-- A document whose compiled module declares `file` leaves its lowered module to every document of
the same content. -/
theorem prepareFallback_of_sameContent {frontmatter : Json} {compiled : CompiledArtifact}
    {lowered : LoweredModule}
    (hasModule : session.HasModule document source frontmatter compiled cache)
    (hasLowered : cache.Has .lowering document.id
      (session.loweringDigest (moduleText document.id frontmatter compiled)) lowered)
    (declares : Metadata.declaresFile compiled.code = true) (route : Route) :
    ∃ output, (session.prepareFallback cache other source route).result = .done output ∧
      output.id = other.id ∧ output.map = lowered.map := by
  have heldFrontmatter : cache.held .frontmatter (session.frontmatterDigest other source) =
      some ⟨frontmatter⟩ := by
    rw [frontmatterDigest_eq same]
    exact hasModule.frontmatter.held
  generalize isFirst : session.withFrontmatter cache other source { id := other.id, route } = first
  have firstIs := isFirst.symm.trans (withFrontmatter_of_held heldFrontmatter)
  -- Each stage only looks its own digest up and records it, so the later stages are not touched.
  have compiledThen : first.cache.Has .compile document.id (session.compileDigest other source)
      compiled := by
    rw [firstIs, compileDigest_eq same]
    exact hasModule.compiled.get.record (by simp)
  have loweredThen : first.cache.Has .lowering document.id
      (session.loweringDigest (moduleText document.id frontmatter compiled)) lowered := by
    rw [firstIs]
    exact hasLowered.get.record (by simp)
  have found : session.compiledOf first.cache other source =
      ⟨.ok compiled, (first.cache.get .compile (session.compileDigest other source)).2, []⟩ :=
    cached_of_held compiledThen.held
  have result : (session.compiledOf first.cache other source).result = .ok compiled := by
    rw [found]
  have recorded : ((session.compiledOf first.cache other source).cache.record .compile other.id
      (session.compileDigest other source)).Has .lowering document.id
        (session.loweringDigest (moduleText document.id frontmatter compiled)) lowered := by
    rw [found]
    exact loweredThen.get.record (by simp)
  have sameText : moduleText document.id frontmatter compiled =
      (withCode (session.compared first other source) compiled).code := by
    rw [firstIs]
    exact Metadata.postProcess_of_declaresFile declares
  have lookup := found_get_of_held recorded.held
  rw [sameText] at lookup
  rw [prepareFallback_of_ok isFirst result]
  refine ⟨_, congrArg Prod.fst (withCompiled_of_some lookup), ?_, rfl⟩
  rw [firstIs]
  rfl

/-- The next pass reports the other document with the map that was made for the first one. -/
theorem build_of_sameContent {frontmatter : Json} {compiled : CompiledArtifact}
    {lowered : LoweredModule}
    (hasModule : session.HasModule document source frontmatter compiled cache)
    (hasLowered : cache.Has .lowering document.id
      (session.loweringDigest (moduleText document.id frontmatter compiled)) lowered)
    (declares : Metadata.declaresFile compiled.code = true)
    (falls : session.FallsBack other source) :
    ∃ output stats, (session.build cache [other]).result = .ok ⟨[output], stats⟩ ∧
      output.id = other.id ∧ output.map = lowered.map := by
  obtain ⟨output, isDone, sameId, sameMap⟩ := prepareFallback_of_sameContent same hasModule
    hasLowered declares (session.route source)
  have prepared : (session.prepare cache other).result = .ok (.done output) := by
    simp only [prepare, falls.hooked, falls.notFast, Bool.false_eq_true, if_false, isDone]
  have result : (session.prepareAll cache [other]).result = .ok [.done output] := by
    simp only [prepareAll, prepared, Except.map]
  have passes := congrArg Worked.result (build_of_ok result)
  exact ⟨output, _, passes, sameId, sameMap⟩

end SameContent

/-- After the first pass, a document whose compiled module declares `file` has its map from the
routine, and another document of the same content is reported with this map. -/
theorem label_build_of_sameContent {other : SourceDocument} (same : SameContent document other)
    (labels : session.Labels label)
    (mapped : ∀ {job lowered}, session.routine session.options.lowering job = .ok lowered →
      lowered.map.isSome)
    (declares : ∀ compiled, session.HasCompiled [document] compiled →
      Metadata.declaresFile compiled.code = true)
    (alike : ∀ {source}, session.FallsBack document source → session.FallsBack other source)
    (valid : cache.Valid session.Names (session.IsFrom [document]))
    (settled : session.Settled document cache) :
    ∃ output stats map, (session.build cache [other]).result = .ok ⟨[output], stats⟩ ∧
      output.id = other.id ∧ output.map = some map ∧ label map = some document.id := by
  obtain ⟨source, frontmatter, compiled, hasModule, lowered, hasLowered⟩ := settled
  obtain ⟨job, ⟨⟨maker, isMaker, sameId⟩, -⟩, -, answers⟩ := valid.inMemory hasLowered.held
  obtain ⟨map, isMap⟩ := Option.isSome_iff_exists.mp (mapped answers)
  obtain ⟨output, stats, passes, isOther, sameMap⟩ := build_of_sameContent same hasModule hasLowered
    (declares compiled (valid.inMemory hasModule.compiled.held)) (alike hasModule.falls)
  refine ⟨output, stats, map, passes, isOther, sameMap.trans isMap, ?_⟩
  rw [labels answers isMap, ← sameId, List.mem_singleton.mp isMaker]

/-- With distinct ids in each pass, documents are reported in order, and each with a map of its own,
if no compiled module declares `file`. If that of a document does, then another document of the same
content is reported with the map of this one. -/
theorem maps_own_unless_declared (labels : session.Labels label) :
    (∀ {directory history documents report}, (∀ disk ∈ directory, disk.IsBlank) →
      (directory.isSome → session.hash.IsHexadecimal) → session.Runs history →
      (∀ action ∈ history, (action.documents.map SourceDocument.id).Nodup) →
      (documents.map SourceDocument.id).Nodup →
      session.TellsModules (history.flatMap Action.documents ++ documents) →
      (∀ compiled, session.HasCompiled (history.flatMap Action.documents ++ documents) compiled →
        Metadata.declaresFile compiled.code = false) →
      (session.build ((ofDisk directory).run history) documents).result = .ok report →
        report.documents.map DocumentOutput.id = documents.map SourceDocument.id ∧
          ∀ output ∈ report.documents, ∀ map, output.map = some map →
            label map = some output.id) ∧
    (∀ {directory document other report}, (∀ disk ∈ directory, disk.IsBlank) →
      (directory.isSome → session.hash.IsHexadecimal) →
      (∀ {job lowered}, session.routine session.options.lowering job = .ok lowered →
        lowered.map.isSome) →
      (∀ compiled, session.HasCompiled [document] compiled →
        Metadata.declaresFile compiled.code = true) →
      SameContent document other →
      (∀ {source}, session.FallsBack document source → session.FallsBack other source) →
      (session.build (ofDisk directory) [document]).result = .ok report →
      (∀ output ∈ report.documents, output.route.isFast = false ∧ output.status = .compiled) →
        ∃ output stats map,
          (session.build (session.build (ofDisk directory) [document]).cache [other]).result =
            .ok ⟨[output], stats⟩ ∧
          output.id = other.id ∧ output.map = some map ∧ label map = some document.id) := by
  constructor
  · intro directory history documents report blank hexadecimal runs distinct distinctLast tells
      undeclared passes
    have valid := valid_run_isFrom blank hexadecimal runs distinct
      (List.subset_append_left _ documents)
    have hasMap := hasMap_build (List.subset_append_right _ _) distinctLast valid passes
    refine ⟨ids_of_build passes, fun output member map isMap => ?_⟩
    exact label_of_hasMap labels tells undeclared (hasMap output member map isMap)
  · intro directory document other report blank hexadecimal mapped declares same alike passes whole
    have runs : session.Runs [] := fun member => by cases member
    have single : ([document].map SourceDocument.id).Nodup := List.nodup_singleton _
    have writable := writable_run_of_blank blank hexadecimal runs
    have valid := isFrom_build (List.Subset.refl [document]) single
      (valid_run_isFrom blank hexadecimal runs (by simp) (by simp))
    rw [run_nil] at writable valid
    obtain ⟨output, isReport, -⟩ := List.map_eq_singleton_iff.mp (ids_of_build passes)
    have member : output ∈ report.documents := by rw [isReport]; exact List.mem_singleton_self _
    obtain ⟨onFallback, isCompiled⟩ := whole output member
    obtain ⟨first, isFirst, -, settled⟩ := settled_of_build writable single passes output
      member onFallback isCompiled
    rw [List.mem_singleton.mp isFirst] at settled
    exact label_build_of_sameContent same labels mapped declares alike valid settled

/-! ## A session with source maps -/

namespace Trial

/-- A session whose modules have source maps. -/
def mapping : Session :=
  { trial with options := {} }

/-- The id in the words of a map. -/
def mapLabel (map : Text) : Option Text :=
  Text.after? "map of ".toList map

theorem labels_mapping : mapping.Labels mapLabel := by
  intro job lowered map answers isMap
  simp only [mapping, trial, MdxBuild.Trial.routine] at answers
  split at answers
  · cases answers
  · obtain rfl := Except.ok.inj answers
    exact Text.after?_eq_some_iff.mpr (Option.some.inj isMap).symm

theorem mapped_mapping {job : LoweringJob} {lowered : LoweredModule}
    (answers : mapping.routine mapping.options.lowering job = .ok lowered) :
    lowered.map.isSome := by
  simp only [mapping, trial, MdxBuild.Trial.routine] at answers
  split at answers
  · cases answers
  · obtain rfl := Except.ok.inj answers
    rfl

/-- What the fallback compiler makes of a source. -/
def mappingCompiled (source : Text) : CompiledArtifact :=
  let headings := MdxBuild.Trial.headings source
  ⟨Generated.injectIds headings (mapping.fallbackSource source), headings⟩

/-! ### Twins that leave `file` to the build -/

/-- The texts that the twins may ask to lower. -/
def twinMarkups : List Text :=
  [['a'], ['b']].flatMap fun id =>
    [Json.null, MdxBuild.Trial.frontmatter twinSource].map fun frontmatter =>
      moduleText id frontmatter (mappingCompiled twinSource)

theorem nodup_twinMarkups : (twinMarkups.map mapping.loweringDigest).Nodup := by
  decide +kernel

theorem undeclared_twinSource :
    Metadata.declaresFile (mappingCompiled twinSource).code = false := by
  decide +kernel

theorem mem_of_hasFrontmatter {involved : List SourceDocument} (areTwins : involved ⊆ twins)
    {data : Json} (has : mapping.HasFrontmatter involved data) :
    data ∈ [Json.null, MdxBuild.Trial.frontmatter twinSource] := by
  induction has with
  | none => exact List.mem_cons_self
  | parsed isInvolved falls parses =>
    rw [eq_twinSource (areTwins isInvolved) falls.hooked] at parses
    exact List.mem_cons_of_mem _ (List.mem_singleton.mpr (Except.ok.inj parses).symm)
  | @reread data found _ decodes ih =>
    have whole : data.isWhole = true := by
      rcases List.mem_cons.mp ih with rfl | isRead
      · rfl
      · rw [List.mem_singleton.mp isRead]
        exact isWhole_twinSource
    have same := @Stage.eq_of_decode_encode .frontmatter ⟨data⟩ ⟨found⟩ whole decodes
    obtain rfl : found = data := congrArg FrontmatterArtifact.data same
    exact ih

theorem eq_of_hasCompiled {involved : List SourceDocument} (areTwins : involved ⊆ twins)
    {compiled : CompiledArtifact} (has : mapping.HasCompiled involved compiled) :
    compiled = mappingCompiled twinSource := by
  obtain ⟨document, isInvolved, source, falls, compiles⟩ := has
  rw [eq_twinSource (areTwins isInvolved) falls.hooked] at compiles
  exact (Except.ok.inj compiles).symm

theorem mem_twinMarkups {involved : List SourceDocument} (areTwins : involved ⊆ twins)
    {job : LoweringJob} (has : mapping.HasJob involved job) : job.markup ∈ twinMarkups := by
  obtain ⟨⟨document, isInvolved, sameId⟩, frontmatter, compiled, hasFrontmatter, hasCompiled,
    isModule⟩ := has
  have isId : job.jobId ∈ [['a'], ['b']] := by
    rw [← sameId]
    exact List.mem_map_of_mem (areTwins isInvolved)
  rw [isModule, eq_of_hasCompiled areTwins hasCompiled]
  exact List.mem_flatMap.mpr ⟨_, isId,
    List.mem_map_of_mem (mem_of_hasFrontmatter areTwins hasFrontmatter)⟩

theorem tellsModules_twins {involved : List SourceDocument} (areTwins : involved ⊆ twins) :
    mapping.TellsModules involved := by
  intro job other hasJob hasOther same
  rw [List.inj_on_of_nodup_map nodup_twinMarkups (mem_twinMarkups areTwins hasJob)
    (mem_twinMarkups areTwins hasOther) same]

/-- The twins are built and saved; the cache is opened again and the first twin forgotten. -/
def mappingHistory : List Action :=
  [.build mapping twins, .finish, .reopen, .invalidate ['a']]

theorem runs_mappingHistory : mapping.Runs mappingHistory := by
  intro other documents member
  simp only [mappingHistory, List.mem_cons, Action.build.injEq, reduceCtorEq, List.not_mem_nil,
    or_false] at member
  exact member.1

/-! ### Documents that declare `file` -/

/-- A source that declares `file`. -/
def declaringSource : Text :=
  "import 'x'\nexport const file = 'x';\n".toList

/-- A document that declares `file`. -/
def declaring (id : Text) : SourceDocument :=
  ⟨id, declaringSource, none⟩

theorem declares_declaringSource :
    Metadata.declaresFile (mappingCompiled declaringSource).code = true := by
  decide +kernel

theorem isCompiled_declaring :
    (match (mapping.build (ofDisk none) [declaring ['a']]).result with
    | .ok report => report.documents.all fun output =>
      !output.route.isFast && output.status == .compiled
    | .error _ => false) = true := by
  decide +kernel

end Trial

/-- Both twins are reported with their own maps after the history over them. Of two documents with
one source that declares `file`, the second is reported with the map of the first. -/
theorem maps_own_of_twins :
    (∃ report, (Trial.mapping.build ((ofDisk (some {})).run Trial.mappingHistory)
        Trial.twins).result = .ok report ∧
      report.documents.map DocumentOutput.id = [['a'], ['b']] ∧
        ∀ output ∈ report.documents, ∀ map, output.map = some map →
          Trial.mapLabel map = some output.id) ∧
    ∃ output stats map,
      (Trial.mapping.build (Trial.mapping.build (ofDisk none) [Trial.declaring ['a']]).cache
        [Trial.declaring ['b']]).result = .ok ⟨[output], stats⟩ ∧
      output.id = ['b'] ∧ output.map = some map ∧ Trial.mapLabel map = some ['a'] := by
  constructor
  · have allPass : ∀ document ∈ Trial.twins, Trial.mapping.Passes document := by
      intro document isTwin source hooked isFast
      rw [Trial.eq_twinSource isTwin hooked] at isFast
      cases Trial.notFast_twinSource.symm.trans isFast
    obtain ⟨items, result⟩ := prepareAll_ok_iff.mpr allPass
    have areTwins : Trial.mappingHistory.flatMap Action.documents ++ Trial.twins ⊆ Trial.twins := by
      decide
    have distinct : ∀ action ∈ Trial.mappingHistory,
        (action.documents.map SourceDocument.id).Nodup := by
      simp only [Trial.mappingHistory, List.forall_mem_cons]
      refine ⟨?_, ?_, ?_, ?_, ?_⟩ <;> decide
    have passes := congrArg Worked.result (build_of_ok result)
    refine ⟨_, passes, ?_⟩
    exact (maps_own_unless_declared Trial.labels_mapping).1
      (fun disk isDisk => Option.some.inj isDisk ▸ .inl rfl)
      (fun _ => Sha256.isHexadecimal_hexDigest) Trial.runs_mappingHistory distinct (by decide)
      (Trial.tellsModules_twins areTwins)
      (fun compiled has => Trial.eq_of_hasCompiled areTwins has ▸ Trial.undeclared_twinSource)
      passes
  · have isCompiled := Trial.isCompiled_declaring
    split at isCompiled
    · next report passes =>
      have declares : ∀ compiled, Trial.mapping.HasCompiled [Trial.declaring ['a']] compiled →
          Metadata.declaresFile compiled.code = true := by
        rintro compiled ⟨document, isDocument, source, falls, compiles⟩
        rw [List.mem_singleton.mp isDocument] at falls compiles
        obtain rfl : Trial.declaringSource = source := Except.ok.inj falls.hooked
        rw [← Except.ok.inj compiles]
        exact Trial.declares_declaringSource
      refine (maps_own_unless_declared Trial.labels_mapping).2
        (fun disk isDisk => by cases isDisk) (fun durable => by cases durable)
        Trial.mapped_mapping declares ⟨rfl, rfl⟩
        (fun falls => ⟨falls.hooked, falls.notFast⟩) passes ?_
      intro output member
      simpa using List.all_eq_true.mp isCompiled output member
    · cases isCompiled

/-- The second of two documents with one source that declares `file` is reported with a map that
says that it is that of the first. -/
theorem map_of_other_of_declaring :
    ∃ report, (Trial.mapping.build ((ofDisk none).run
        [.build Trial.mapping [Trial.declaring ['a']]]) [Trial.declaring ['b']]).result =
          .ok report ∧
      ∃ output ∈ report.documents, output.id = ['b'] ∧
        output.map = some "map of a".toList := by
  have taken : (match (Trial.mapping.build ((ofDisk none).run
        [.build Trial.mapping [Trial.declaring ['a']]]) [Trial.declaring ['b']]).result with
      | .ok report => report.documents.any fun output =>
        output.id == ['b'] && output.map == some "map of a".toList
      | .error _ => false) = true := by
    decide +kernel
  split at taken
  · next report passes =>
    obtain ⟨output, member, facts⟩ := List.any_eq_true.mp taken
    rw [Bool.and_eq_true, beq_iff_eq, beq_iff_eq] at facts
    exact ⟨report, passes, output, member, facts⟩
  · cases taken

end Session

end MdxBuild

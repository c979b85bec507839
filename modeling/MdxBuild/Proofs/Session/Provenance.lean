import MdxBuild.Proofs.Session.Soundness
import MdxBuild.Proofs.Session.Unchanged

/-!
# Where what is held comes from

Everything that a cache holds was made for some document of its history: frontmatter and compiled
modules by the outside compilers, lowered modules by the routine from a job whose text has the
digest they are kept under. The document that is handed a module need not be the one it was made
for; `HasMap` says what remains true of the map.
-/

namespace MdxBuild

open BuildCache Digest

namespace Session

variable {session : Session} {cache : BuildCache} {document : SourceDocument}
  {documents involved : List SourceDocument} {source : Text} {output : DocumentOutput}

/-! ## Modules that documents may ask to lower -/

/-- What the frontmatter of documents of the list can be: nothing, what is read from a source, and
what comes back when it is read from a file. -/
inductive HasFrontmatter (session : Session) (involved : List SourceDocument) : Json → Prop
  | none : HasFrontmatter session involved .null
  | parsed {document : SourceDocument} {source : Text} {data : Json}
      (isInvolved : document ∈ involved) (falls : session.FallsBack document source)
      (parses : session.native.parseFrontmatter source document.id = .ok data) :
      HasFrontmatter session involved data
  | reread {data found : Json} (has : HasFrontmatter session involved data)
      (decodes : Stage.frontmatter.decode (Stage.frontmatter.encode ⟨data⟩).render =
        .ok (⟨found⟩ : FrontmatterArtifact)) :
      HasFrontmatter session involved found

/-- A module that the fallback compiler makes for a document of the list. -/
def HasCompiled (session : Session) (involved : List SourceDocument)
    (compiled : CompiledArtifact) : Prop :=
  ∃ document ∈ involved, ∃ source, session.FallsBack document source ∧
    session.compileAsFallback document.id source = .ok compiled

/-- A job for a document of the list, whichever documents its parts were made for. -/
def HasJob (session : Session) (involved : List SourceDocument) (job : LoweringJob) : Prop :=
  (∃ document ∈ involved, document.id = job.jobId) ∧
    ∃ frontmatter compiled, session.HasFrontmatter involved frontmatter ∧
      session.HasCompiled involved compiled ∧
      job.markup = moduleText job.jobId frontmatter compiled

/-- The artifact was made for a document of the list. A lowered module was made of a text with its
digest. -/
def IsFrom (session : Session) (involved : List SourceDocument) :
    (stage : Stage) → Text → stage.Artifact → Prop
  | .frontmatter, _, artifact => session.HasFrontmatter involved artifact.data
  | .compile, _, compiled => session.HasCompiled involved compiled
  | .lowering, digest, lowered =>
    ∃ job, session.HasJob involved job ∧ session.loweringDigest job.markup = digest ∧
      session.routine session.options.lowering job = .ok lowered

theorem rereads_isFrom : Rereads (session.IsFrom involved) := by
  intro stage digest artifact found isFrom decoded
  cases stage with
  | frontmatter => exact .reread isFrom decoded
  | compile =>
    rwa [@Stage.eq_of_decode_encode .compile artifact found trivial decoded]
  | lowering =>
    rwa [@Stage.eq_of_decode_encode .lowering artifact found trivial decoded]

theorem isFrom_of_compiles (isInvolved : document ∈ involved) {stage : Stage} {digest : Text}
    {artifact : stage.Artifact} (compiles : session.Compiles document stage digest artifact) :
    session.IsFrom involved stage digest artifact := by
  cases stage with
  | frontmatter =>
    obtain ⟨source, falls, -, parses⟩ := compiles
    exact .parsed isInvolved falls parses
  | compile =>
    obtain ⟨source, falls, -, compiles⟩ := compiles
    exact ⟨document, isInvolved, source, falls, compiles⟩
  | lowering => exact compiles.elim

/-- The map is that of a module under the digest of a module of the document with the id. -/
def HasMap (session : Session) (involved : List SourceDocument) (id map : Text) : Prop :=
  ∃ text lowered, session.HasJob involved ⟨id, text⟩ ∧
    session.IsFrom involved .lowering (session.loweringDigest text) lowered ∧
    lowered.map = some map

/-- What is prepared for a document has a map that the document may have, or none so far. -/
def MapsTo (session : Session) (involved : List SourceDocument) : Prepared → Prop
  | .done output => ∀ map, output.map = some map → session.HasMap involved output.id map
  | .lower output _ => output.map = none ∧ session.HasJob involved ⟨output.id, output.code⟩

/-! ## Preparing a document -/

/-- An artifact from the cache was made for a document of the list, if those are that are made
anew. -/
theorem made_cached {names : Text → Prop}
    {made : (stage : Stage) → Text → stage.Artifact → Prop} {ε : Type} {stage : Stage}
    {digest : Text} {compute : Unit → Except ε stage.Artifact} {calls : List CompilerCall}
    (valid : cache.Valid names made) (rereads : Rereads made) (named : names digest)
    (makes : ∀ artifact, compute () = .ok artifact → made stage digest artifact)
    {artifact : stage.Artifact}
    (succeeds : (cached cache stage digest compute calls).result = .ok artifact) :
    made stage digest artifact := by
  rcases cached_cases cache stage digest compute calls with
    ⟨found, hit, worked⟩ | ⟨-, failure, -, worked⟩ | ⟨-, fresh, computed, worked⟩
  · rw [worked] at succeeds
    obtain rfl := Except.ok.inj succeeds
    exact (valid.get rereads named).inMemory (held_get_self.trans hit)
  · rw [worked] at succeeds
    cases succeeds
  · rw [worked] at succeeds
    obtain rfl := Except.ok.inj succeeds
    exact makes fresh computed

theorem map_withFrontmatter :
    (session.withFrontmatter cache document source output).result.map = output.map := by
  simp only [withFrontmatter]
  split <;> rfl

/-- Steps that keep what is made for documents of the list leave the cache with nothing else. -/
theorem valid_of_steps {permit : Permit} {after : BuildCache}
    (valid : cache.Valid session.Names (session.IsFrom involved))
    (names : permit.names = session.Names)
    (keeps : ∀ {stage digest artifact}, permit.keeps stage digest artifact →
      session.IsFrom involved stage digest artifact)
    (steps : Steps permit cache after) : after.Valid session.Names (session.IsFrom involved) := by
  rw [← names] at valid ⊢
  exact valid.steps rereads_isFrom keeps steps

theorem isFrom_of_preparePermit (subset : documents ⊆ involved) {stage : Stage} {digest : Text}
    {artifact : stage.Artifact}
    (keeps : (session.preparePermit documents).keeps stage digest artifact) :
    session.IsFrom involved stage digest artifact := by
  obtain ⟨document, isDocument, compiles⟩ := keeps
  exact isFrom_of_compiles (subset isDocument) compiles

section Prepare

variable (isInvolved : document ∈ involved)
  (valid : cache.Valid session.Names (session.IsFrom involved))

include isInvolved valid

theorem hasFrontmatter_withFrontmatter (falls : session.FallsBack document source)
    (noFrontmatter : output.frontmatter = .null) :
    session.HasFrontmatter involved
      (session.withFrontmatter cache document source output).result.frontmatter := by
  have makes : ∀ artifact, (session.native.parseFrontmatter source document.id).map
      FrontmatterArtifact.mk = .ok artifact →
      session.IsFrom involved .frontmatter (session.frontmatterDigest document source)
        artifact := by
    intro artifact computed
    cases parsed : session.native.parseFrontmatter source document.id with
    | error failure => rw [parsed] at computed; cases computed
    | ok data =>
      rw [parsed] at computed
      cases computed
      exact .parsed isInvolved falls parsed
  simp only [withFrontmatter]
  split
  · next artifact succeeds =>
    exact made_cached valid rereads_isFrom (names_frontmatterDigest document source) makes succeeds
  · next failure fails =>
    rw [DocumentOutput.degrade, noFrontmatter]
    exact .none

theorem hasCompiled_compiledOf (falls : session.FallsBack document source)
    {compiled : CompiledArtifact}
    (succeeds : (session.compiledOf cache document source).result = .ok compiled) :
    session.HasCompiled involved compiled := by
  have makes : ∀ artifact, session.compileAsFallback document.id source = .ok artifact →
      session.IsFrom involved .compile (session.compileDigest document source) artifact :=
    fun _ compiles => ⟨document, isInvolved, source, falls, compiles⟩
  exact made_cached valid rereads_isFrom (names_compileDigest document source) makes succeeds

theorem mapsTo_withCompiled {compiled : CompiledArtifact} (isFor : output.id = document.id)
    (noMap : output.map = none)
    (hasFrontmatter : session.HasFrontmatter involved output.frontmatter)
    (hasCompiled : session.HasCompiled involved compiled) :
    session.MapsTo involved (session.withCompiled cache output compiled).1 := by
  have hasJob : session.HasJob involved ⟨output.id, (withCode output compiled).code⟩ :=
    ⟨⟨document, isInvolved, isFor.symm⟩, output.frontmatter, compiled, hasFrontmatter, hasCompiled,
      rfl⟩
  rcases withCompiled_cases session cache output compiled with
    ⟨lowered, lookup, worked⟩ | ⟨-, worked⟩
  · rw [worked]
    intro map isMap
    have named := session.names_loweringDigest (withCode output compiled).code
    exact ⟨_, lowered, hasJob,
      (valid.get rereads_isFrom named).inMemory (held_get_self.trans lookup), isMap⟩
  · rw [worked]
    exact ⟨noMap, hasJob⟩

theorem mapsTo_prepareFallback (falls : session.FallsBack document source) (route : Route) :
    session.MapsTo involved (session.prepareFallback cache document source route).result := by
  have readsFrontmatter : session.HasFrontmatter involved
      (session.withFrontmatter cache document source
        { id := document.id, route }).result.frontmatter :=
    hasFrontmatter_withFrontmatter isInvolved valid falls rfl
  have noMap : (session.withFrontmatter cache document source
    { id := document.id, route }).result.map = none := map_withFrontmatter
  have validFirst := valid_of_steps valid rfl (isFrom_of_compiles isInvolved)
    (steps_withFrontmatter cache { id := document.id, route } falls)
  generalize isFirst : session.withFrontmatter cache document source { id := document.id, route } =
    first at readsFrontmatter noMap validFirst
  cases result : (session.compiledOf first.cache document source).result with
  | error failure =>
    rw [prepareFallback_of_error isFirst result]
    intro map isMap
    rw [DocumentOutput.fail, compared, noMap] at isMap
    cases isMap
  | ok compiled =>
    rw [prepareFallback_of_ok isFirst result]
    have validSecond := valid_of_steps validFirst rfl (isFrom_of_compiles isInvolved)
      (steps_compiledOf falls result)
    exact mapsTo_withCompiled isInvolved validSecond (id_compared isFirst) noMap readsFrontmatter
      (hasCompiled_compiledOf isInvolved validFirst falls result)

theorem mapsTo_prepare {item : Prepared}
    (succeeds : (session.prepare cache document).result = .ok item) :
    session.MapsTo involved item := by
  have unmapped {output : DocumentOutput} (noMap : output.map = none) :
      session.MapsTo involved (.done output) := by
    intro map isMap
    rw [noMap] at isMap
    cases isMap
  rw [prepare] at succeeds
  cases hooked : Hook.run session.hooks document.id document.source with
  | error failure =>
    rw [hooked] at succeeds
    cases succeeds
    exact unmapped rfl
  | ok source =>
    rw [hooked] at succeeds
    simp only at succeeds
    split at succeeds
    · rw [compileFast] at succeeds
      cases compiled : session.native.compile source document.id ⟨some document.id, none⟩ with
      | error failure => rw [compiled] at succeeds; cases succeeds
      | ok native =>
        rw [compiled] at succeeds
        cases succeeds
        exact unmapped rfl
    · next notFast =>
      cases succeeds
      exact mapsTo_prepareFallback isInvolved valid ⟨hooked, Bool.not_eq_true _ ▸ notFast⟩ _

end Prepare

/-! ## Passes -/

theorem mapsTo_prepareAll {items : List Prepared} (subset : documents ⊆ involved)
    (valid : cache.Valid session.Names (session.IsFrom involved))
    (succeeds : (session.prepareAll cache documents).result = .ok items) :
    ∀ item ∈ items, session.MapsTo involved item := by
  induction documents generalizing cache items with
  | nil =>
    cases succeeds
    exact fun item member => by cases member
  | cons document others ih =>
    obtain ⟨isInvolved, subsetOthers⟩ := List.cons_subset.mp subset
    obtain ⟨item, rest, first, remaining, rfl, -⟩ := prepareAll_cons_ok succeeds
    have validNext := valid_of_steps valid rfl
      (isFrom_of_preparePermit (List.cons_subset.mpr ⟨isInvolved, List.nil_subset _⟩))
      (steps_prepare session cache document)
    rw [List.forall_mem_cons]
    exact ⟨mapsTo_prepare isInvolved valid first, ih subsetOthers validNext remaining⟩

section Items

variable {items : List Prepared} (areFor : List.Forall₂ session.IsFor documents items)
  (distinct : (items.map fun item => item.output.id).Nodup)
  (mapsTo : ∀ item ∈ items, session.MapsTo involved item)

include areFor distinct mapsTo

/-- With distinct ids, a document is handed the module that was made of its own text. -/
theorem isFrom_of_lowerAll {digest : Text} {lowered : LoweredModule}
    (member : .lower output digest ∈ items)
    (outcome : (session.lowerAll items).find? output.id = some (.ok lowered)) :
    session.IsFrom involved .lowering digest lowered := by
  obtain ⟨job, isJob, sameId, answers⟩ := Batch.exists_job_of_lower outcome
  obtain ⟨document, -, -, isDigest⟩ := exists_related areFor member
  have sameText : job.markup = output.code :=
    oneText_of_nodup distinct job isJob _ (mem_jobs.mpr ⟨output, digest, member, rfl⟩) sameId
  obtain rfl : job = ⟨output.id, output.code⟩ := by rw [← sameId, ← sameText]
  exact ⟨_, (mapsTo _ member).2, isDigest.symm, answers⟩

theorem hasMap_of_lowerAll {digest map : Text} {lowered : LoweredModule}
    (member : .lower output digest ∈ items)
    (outcome : (session.lowerAll items).find? output.id = some (.ok lowered))
    (isMap : lowered.map = some map) : session.HasMap involved output.id map := by
  obtain ⟨document, -, -, isDigest⟩ := exists_related areFor member
  exact ⟨output.code, lowered, (mapsTo _ member).2,
    isDigest ▸ isFrom_of_lowerAll areFor distinct mapsTo member outcome, isMap⟩

end Items

/-- A document is settled with the map that it has already, or with that of the module which it is
handed. -/
theorem hasMap_settle {item : Prepared} {outcomes : Batch.Outcomes}
    (mapsTo : session.MapsTo involved item)
    (answered : ∀ {output digest lowered}, item = .lower output digest →
      outcomes.find? output.id = some (.ok lowered) →
        ∀ map, lowered.map = some map → session.HasMap involved output.id map)
    (map : Text) (isMap : (settle cache outcomes item).1.map = some map) :
    session.HasMap involved (settle cache outcomes item).1.id map := by
  cases item with
  | done output => exact mapsTo map isMap
  | lower output digest =>
    have noMap : output.map = none := mapsTo.1
    simp only [settle] at isMap ⊢
    cases outcome : outcomes.find? output.id with
    | none =>
      rw [outcome] at isMap
      cases noMap.symm.trans isMap
    | some result =>
      cases result with
      | error failure =>
        rw [outcome] at isMap
        cases noMap.symm.trans isMap
      | ok lowered =>
        rw [outcome] at isMap
        exact answered rfl outcome map isMap

theorem hasMap_settleAll {items : List Prepared} {outcomes : Batch.Outcomes}
    (mapsTo : ∀ item ∈ items, session.MapsTo involved item)
    (answered : ∀ {output digest lowered}, .lower output digest ∈ items →
      outcomes.find? output.id = some (.ok lowered) →
        ∀ map, lowered.map = some map → session.HasMap involved output.id map) :
    ∀ output ∈ (settleAll cache outcomes items).1, ∀ map, output.map = some map →
      session.HasMap involved output.id map := by
  induction items generalizing cache outcomes with
  | nil => exact fun output member => by cases member
  | cons item others ih =>
    rw [List.forall_mem_cons] at mapsTo
    rw [settleAll_cons, List.forall_mem_cons]
    constructor
    · apply hasMap_settle mapsTo.1
      rintro output digest lowered rfl
      exact answered List.mem_cons_self
    · apply ih mapsTo.2
      intro output digest lowered member outcome
      exact answered (List.mem_cons_of_mem _ member) (find?_of_find?_settle outcome)

section Pass

variable (subset : documents ⊆ involved) (distinct : (documents.map SourceDocument.id).Nodup)
  (valid : cache.Valid session.Names (session.IsFrom involved))

include subset distinct valid

/-- A pass over documents with distinct ids keeps what is made for documents only. -/
theorem isFrom_build :
    (session.build cache documents).cache.Valid session.Names (session.IsFrom involved) := by
  apply build_preserves (Valid session.Names (session.IsFrom involved)) _ _ valid
  · intro after steps validBefore
    exact valid_of_steps validBefore rfl (isFrom_of_preparePermit subset) steps
  · intro before after items result _ steps validBefore
    have areFor := isFor_prepareAll result
    have distinctItems : (items.map fun item => item.output.id).Nodup := by
      rwa [ids_of_isFor areFor]
    have mapsTo := mapsTo_prepareAll subset valid result
    apply valid_of_steps validBefore rfl _ steps
    intro stage digest artifact keeps
    cases stage with
    | frontmatter => exact keeps.elim
    | compile => exact keeps.elim
    | lowering =>
      obtain ⟨output, member, outcome⟩ := keeps
      exact isFrom_of_lowerAll areFor distinctItems mapsTo member outcome

/-- A pass over documents with distinct ids reports maps that the documents may have. -/
theorem hasMap_build {report : BuildReport}
    (passes : (session.build cache documents).result = .ok report) :
    ∀ output ∈ report.documents, ∀ map, output.map = some map →
      session.HasMap involved output.id map := by
  obtain ⟨items, result⟩ := exists_prepareAll_of_build passes
  have areFor := isFor_prepareAll result
  have distinctItems : (items.map fun item => item.output.id).Nodup := by
    rwa [ids_of_isFor areFor]
  have mapsTo := mapsTo_prepareAll subset valid result
  rw [build_of_ok result] at passes
  cases passes
  exact hasMap_settleAll mapsTo fun member outcome map isMap =>
    hasMap_of_lowerAll areFor distinctItems mapsTo member outcome isMap

end Pass

/-! ## Histories -/

theorem valid_run_isFrom {directory : Option Disk} {history : List Action}
    (blank : ∀ disk ∈ directory, disk.IsBlank)
    (hexadecimal : directory.isSome → session.hash.IsHexadecimal) (runs : session.Runs history)
    (distinct : ∀ action ∈ history, (action.documents.map SourceDocument.id).Nodup)
    (subset : history.flatMap Action.documents ⊆ involved) :
    ((ofDisk directory).run history).Valid session.Names (session.IsFrom involved) := by
  apply run_preserves (Valid session.Names (session.IsFrom involved))
  · intro cache action member valid
    cases action with
    | build other documents =>
      obtain rfl := runs member
      have isInvolved : documents ⊆ involved := fun document isDocument =>
        subset (List.mem_flatMap.mpr ⟨_, member, isDocument⟩)
      exact isFrom_build isInvolved (distinct _ member) valid
    | invalidate id => exact valid.invalidate
    | clear => exact valid.clear
    | finish => exact valid.save
    | reopen => exact valid.reopen
  · apply Valid.start blank
    rintro durable - ⟨bytes, rfl⟩
    exact hexadecimal durable bytes

end Session

end MdxBuild

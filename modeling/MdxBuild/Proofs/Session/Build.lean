import MdxBuild.Proofs.Session.Preparation
import MdxBuild.Session.Build

/-!
# Build passes as steps on the cache

The lowering batch of a pass keeps modules under the digests of the documents that asked for them.
With the preparation of the documents, all that a pass does to the cache is a sequence of steps,
also if a failure ends the pass; whatever these steps preserve is preserved by the pass.
-/

namespace MdxBuild

open BuildCache

/-- What has become of a prepared document so far. -/
def Prepared.output : Prepared → DocumentOutput
  | .done output => output
  | .lower output _ => output

namespace Session

variable {session : Session} {cache : BuildCache} {documents : List SourceDocument}
  {output : DocumentOutput}

/-- A lowered module that is what became of the job of a document. -/
def Lowers (outcomes : Batch.Outcomes) (items : List Prepared) :
    (stage : Stage) → Text → stage.Artifact → Prop
  | .frontmatter, _, _ => False
  | .compile, _, _ => False
  | .lowering, digest, lowered =>
    ∃ output, .lower output digest ∈ items ∧ outcomes.find? output.id = some (.ok lowered)

/-- Steps that keep the modules of a lowering batch. -/
def settlePermit (session : Session) (outcomes : Batch.Outcomes) (items : List Prepared) :
    Permit where
  names := session.Names
  records stage id := stage = .lowering ∧ ∃ output digest, .lower output digest ∈ items ∧
    id = output.id
  keeps := Lowers outcomes items

/-- Each item of a list is related to one of the list that it is related to item by item. -/
theorem exists_related {α β : Type} {related : α → β → Prop} {sources : List α} {results : List β}
    (pairwise : List.Forall₂ related sources results) {result : β} (member : result ∈ results) :
    ∃ source ∈ sources, related source result := by
  induction pairwise with
  | nil => cases member
  | @cons source first others rest isRelated _ ih =>
    rcases List.mem_cons.mp member with rfl | member
    · exact ⟨source, List.mem_cons_self, isRelated⟩
    · obtain ⟨other, isOther, isRelated⟩ := ih member
      exact ⟨other, List.mem_cons_of_mem _ isOther, isRelated⟩

/-- Digests of prepared documents are digests of the session. -/
theorem names_of_isFor {items : List Prepared} (areFor : List.Forall₂ session.IsFor documents items)
    {digest : Text} (member : .lower output digest ∈ items) : session.Names digest := by
  obtain ⟨document, -, isFor⟩ := exists_related areFor member
  rw [isFor.2]
  exact names_loweringDigest _

/-- Settling one document. -/
theorem steps_settle (cache : BuildCache) (outcomes : Batch.Outcomes) {item : Prepared}
    {items : List Prepared}
    (names : ∀ {output digest}, .lower output digest ∈ items → session.Names digest)
    (member : item ∈ items) :
    Steps (session.settlePermit outcomes items) cache (settle cache outcomes item).2.1 := by
  cases item with
  | done output => exact .refl cache
  | lower output digest =>
    simp only [settle]
    cases outcome : outcomes.find? output.id with
    | none => exact .refl cache
    | some result =>
      cases result with
      | error failure => exact .refl cache
      | ok lowered =>
        exact .single (.kept (names member) ⟨rfl, output, digest, member, rfl⟩
          ⟨output, member, outcome⟩ (.inl rfl))

/-- What is left of the outcomes was among them. -/
theorem find?_of_find?_settle {outcomes : Batch.Outcomes} {item : Prepared} {id : Text}
    {outcome : LoweringOutcome}
    (found : (settle cache outcomes item).2.2.find? id = some outcome) :
    outcomes.find? id = some outcome := by
  cases item with
  | done output => exact found
  | lower output digest =>
    have left : (settle cache outcomes (.lower output digest)).2.2 = outcomes.erase output.id := by
      simp only [settle]
      split <;> rfl
    rw [left] at found
    exact Dictionary.find?_of_find?_erase found

theorem settleAll_cons (outcomes : Batch.Outcomes) (item : Prepared) (rest : List Prepared) :
    settleAll cache outcomes (item :: rest) =
      let first := settle cache outcomes item
      let others := settleAll first.2.1 first.2.2 rest
      (first.1 :: others.1, others.2) :=
  rfl

theorem settlePermit_within {outcomes left : Batch.Outcomes} {items rest : List Prepared}
    (subset : rest ⊆ items)
    (fewer : ∀ {id outcome}, left.find? id = some outcome → outcomes.find? id = some outcome) :
    (session.settlePermit left rest).Within (session.settlePermit outcomes items) where
  names named := named
  records := fun ⟨stage, output, digest, member, same⟩ =>
    ⟨stage, output, digest, subset member, same⟩
  keeps {stage digest artifact} kept := by
    cases stage with
    | frontmatter => exact kept
    | compile => exact kept
    | lowering =>
      obtain ⟨output, member, outcome⟩ := kept
      exact ⟨output, subset member, fewer outcome⟩

theorem steps_settleAll (cache : BuildCache) (outcomes : Batch.Outcomes) {items : List Prepared}
    (names : ∀ {output digest}, .lower output digest ∈ items → session.Names digest) :
    Steps (session.settlePermit outcomes items) cache (settleAll cache outcomes items).2 := by
  induction items generalizing cache outcomes with
  | nil => exact .refl cache
  | cons item rest ih =>
    have first := steps_settle cache outcomes names List.mem_cons_self
    have remaining := ih (settle cache outcomes item).2.1 (settle cache outcomes item).2.2
      fun member => names (List.mem_cons_of_mem _ member)
    rw [settleAll_cons]
    exact first.trans (remaining.widen
      (settlePermit_within (List.subset_cons_self item rest) find?_of_find?_settle))

theorem id_of_isFor {document : SourceDocument} {item : Prepared}
    (isFor : session.IsFor document item) : item.output.id = document.id := by
  cases item with
  | done output => exact isFor
  | lower output digest => exact isFor.1

/-- Prepared documents have the ids of the documents. -/
theorem ids_of_isFor {items : List Prepared} (areFor : List.Forall₂ session.IsFor documents items) :
    items.map (fun item => item.output.id) = documents.map SourceDocument.id := by
  induction areFor with
  | nil => rfl
  | @cons document item others rest isFor _ ih =>
    rw [List.map_cons, List.map_cons, ih, id_of_isFor isFor]

/-- Settling leaves a document its id. -/
theorem id_settle (outcomes : Batch.Outcomes) (item : Prepared) :
    (settle cache outcomes item).1.id = item.output.id := by
  cases item with
  | done output => rfl
  | lower output digest =>
    simp only [settle]
    split <;> rfl

theorem ids_settleAll (outcomes : Batch.Outcomes) (items : List Prepared) :
    (settleAll cache outcomes items).1.map DocumentOutput.id =
      items.map fun item => item.output.id := by
  induction items generalizing cache outcomes with
  | nil => rfl
  | cons item rest ih => rw [settleAll_cons, List.map_cons, List.map_cons, ih, id_settle]

/-- A document that was done before the batch stays as it is. -/
theorem mem_settleAll_of_done {outcomes : Batch.Outcomes} {items : List Prepared}
    (member : .done output ∈ items) : output ∈ (settleAll cache outcomes items).1 := by
  induction items generalizing cache outcomes with
  | nil => cases member
  | cons item rest ih =>
    rw [settleAll_cons]
    rcases List.mem_cons.mp member with rfl | later
    · exact List.mem_cons_self
    · exact List.mem_cons_of_mem _ (ih later)

/-- The jobs are those of the documents that are to be lowered. -/
theorem mem_jobs {items : List Prepared} {job : LoweringJob} :
    job ∈ jobs items ↔ ∃ output digest, .lower output digest ∈ items ∧
      job = ⟨output.id, output.code⟩ := by
  rw [jobs, List.mem_filterMap]
  constructor
  · rintro ⟨item, member, isJob⟩
    cases item with
    | done output => cases isJob
    | lower output digest => exact ⟨output, digest, member, (Option.some.inj isJob).symm⟩
  · rintro ⟨output, digest, member, rfl⟩
    exact ⟨_, member, rfl⟩

/-! ## Build passes -/

/-- A pass that the native compiler ends leaves the cache as it is then. -/
theorem build_of_error {failure : CompilerFailure}
    (fails : (session.prepareAll cache documents).result = .error failure) :
    (session.build cache documents).cache = (session.prepareAll cache documents).cache := by
  simp only [build, fails]

/-- A pass whose documents are all prepared settles them. -/
theorem build_of_ok {items : List Prepared}
    (succeeds : (session.prepareAll cache documents).result = .ok items) :
    let prepared := session.prepareAll cache documents
    let settled := settleAll prepared.cache (session.lowerAll items) items
    session.build cache documents =
      ⟨.ok ⟨settled.1, settled.2.stats⟩, settled.2, prepared.calls⟩ := by
  simp only [build, succeeds]

/-- A pass that succeeds has prepared its documents. -/
theorem exists_prepareAll_of_build {report : BuildReport}
    (passes : (session.build cache documents).result = .ok report) :
    ∃ items, (session.prepareAll cache documents).result = .ok items := by
  cases result : (session.prepareAll cache documents).result with
  | error failure => simp only [build, result] at passes; cases passes
  | ok items => exact ⟨items, rfl⟩

/-- Documents are reported in order. -/
theorem ids_of_build {report : BuildReport}
    (passes : (session.build cache documents).result = .ok report) :
    report.documents.map DocumentOutput.id = documents.map SourceDocument.id := by
  obtain ⟨items, result⟩ := exists_prepareAll_of_build passes
  rw [build_of_ok result] at passes
  cases passes
  rw [ids_settleAll, ids_of_isFor (isFor_prepareAll result)]

/-- What the steps of the two halves of a build pass preserve is preserved by the pass. -/
theorem build_preserves (holds : BuildCache → Prop)
    (prepares : ∀ {after}, Steps (session.preparePermit documents) cache after → holds cache →
      holds after)
    (settles : ∀ {before after items}, (session.prepareAll cache documents).result = .ok items →
      (session.prepareAll cache documents).cache = before →
      Steps (session.settlePermit (session.lowerAll items) items) before after →
      holds before → holds after)
    (start : holds cache) : holds (session.build cache documents).cache := by
  have prepared := prepares (steps_prepareAll session cache documents) start
  cases result : (session.prepareAll cache documents).result with
  | error failure => rwa [build_of_error result]
  | ok items =>
    rw [build_of_ok result]
    have names {output : DocumentOutput} {digest : Text} (member : .lower output digest ∈ items) :=
      names_of_isFor (isFor_prepareAll result) member
    exact settles result rfl (steps_settleAll _ _ names) prepared

end Session

end MdxBuild

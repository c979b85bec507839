import Mathlib.Data.List.Induction
import Mathlib.Data.List.Nodup
import MdxBuild.Proofs.Batch.Lowering
import MdxBuild.Proofs.Cache.Artifact
import MdxBuild.Proofs.Cache.Retention
import MdxBuild.Proofs.Session.History

/-!
# Soundness of the lowering stage

Modules are kept under the digests of texts, but a batch hands them back by ids. So if documents of
a pass share an id, the first of them gets the module of another one and keeps it under its own
digest, where later passes find it. The lowering stage is sound as long as no pass mixes modules up
like that; this is exactly the condition, and distinct ids are enough for it.
-/

namespace MdxBuild

open BuildCache Digest

namespace Session

variable {session : Session} {cache : BuildCache} {documents : List SourceDocument}
  {items : List Prepared} {outcomes : Batch.Outcomes}

/-- The routine returns the module for a text with the digest. -/
def IsAnswer (session : Session) (digest : Text) (lowered : LoweredModule) : Prop :=
  ∃ job : LoweringJob, session.loweringDigest job.markup = digest ∧
    session.routine session.options.lowering job = .ok lowered

/-- Every module of the lowering stage, in memory or in a file of the directory, is an answer for
its digest. -/
structure Sound (session : Session) (cache : BuildCache) : Prop where
  inMemory : ∀ {digest lowered}, cache.held .lowering digest = some lowered →
    session.IsAnswer digest lowered
  onDisk : ∀ {disk}, cache.disk = some disk → ∀ {digest content}, isHex digest = true →
    disk.Stores .lowering digest content →
      ∃ lowered, content = some (Stage.lowering.encode lowered).render ∧
        session.IsAnswer digest lowered

/-! ## What a pass keeps -/

/-- The modules that a batch leaves for prepared documents, with the digests under which they are
kept, in order. -/
def kept (outcomes : Batch.Outcomes) : List Prepared → List (Text × LoweredModule)
  | [] => []
  | .done _ :: others => kept outcomes others
  | .lower output digest :: others =>
    let later := kept (outcomes.erase output.id) others
    match outcomes.find? output.id with
    | some (.ok lowered) => (digest, lowered) :: later
    | _ => later

/-- What the pass keeps last under each digest is an answer for it. -/
def Unmixed (session : Session) (cache : BuildCache) (documents : List SourceDocument) : Prop :=
  ∀ items, (session.prepareAll cache documents).result = .ok items → ∀ digest lowered,
      (Dictionary.ofList (kept (session.lowerAll items) items)).find? digest = some lowered →
        session.IsAnswer digest lowered

/-- A module is kept under the digest of a document that asked for one and has its id. -/
theorem mem_kept {digest : Text} {lowered : LoweredModule}
    (member : (digest, lowered) ∈ kept outcomes items) :
    ∃ output, .lower output digest ∈ items ∧ outcomes.find? output.id = some (.ok lowered) := by
  induction items generalizing outcomes with
  | nil => cases member
  | cons item others ih =>
    cases item with
    | done output =>
      obtain ⟨other, isItem, outcome⟩ := ih member
      exact ⟨other, List.mem_cons_of_mem _ isItem, outcome⟩
    | lower output key =>
      have later (isLater : (digest, lowered) ∈ kept (outcomes.erase output.id) others) :
          ∃ other, .lower other digest ∈ .lower output key :: others ∧
            outcomes.find? other.id = some (.ok lowered) := by
        obtain ⟨other, isItem, outcome⟩ := ih isLater
        exact ⟨other, List.mem_cons_of_mem _ isItem, Dictionary.find?_of_find?_erase outcome⟩
      rw [kept] at member
      split at member
      · next found outcome =>
        rcases List.mem_cons.mp member with same | isLater
        · obtain ⟨rfl, rfl⟩ := Prod.mk.inj same
          exact ⟨output, List.mem_cons_self, outcome⟩
        · exact later isLater
      · exact later member

/-- Jobs of a batch with one id have one text. -/
def OneText (items : List Prepared) : Prop :=
  ∀ job ∈ jobs items, ∀ other ∈ jobs items, job.jobId = other.jobId → job.markup = other.markup

theorem oneText_of_nodup (distinct : (items.map fun item => item.output.id).Nodup) :
    OneText items := by
  intro job isJob other isOther sameId
  obtain ⟨first, digest, isItem, rfl⟩ := mem_jobs.mp isJob
  obtain ⟨second, key, isOtherItem, rfl⟩ := mem_jobs.mp isOther
  have same := List.inj_on_of_nodup_map distinct isItem isOtherItem sameId
  cases same
  rfl

/-- A pass keeps an answer if the jobs with one id have one text. -/
theorem isAnswer_of_mem_kept (areFor : List.Forall₂ session.IsFor documents items)
    (oneText : OneText items) {digest : Text} {lowered : LoweredModule}
    (member : (digest, lowered) ∈ kept (session.lowerAll items) items) :
    session.IsAnswer digest lowered := by
  obtain ⟨output, isItem, outcome⟩ := mem_kept member
  obtain ⟨job, isJob, sameId, answers⟩ := Batch.exists_job_of_lower outcome
  obtain ⟨document, -, -, isDigest⟩ := exists_related areFor isItem
  have sameText : job.markup = output.code :=
    oneText job isJob _ (mem_jobs.mpr ⟨output, digest, isItem, rfl⟩) sameId
  exact ⟨job, by rw [sameText, isDigest], answers⟩

/-- A pass over documents with distinct ids mixes nothing up. -/
theorem unmixed_of_nodup (cache : BuildCache)
    (distinct : (documents.map SourceDocument.id).Nodup) : session.Unmixed cache documents := by
  intro items succeeds digest lowered found
  have areFor := isFor_prepareAll succeeds
  rcases Dictionary.mem_of_find?_insertAll found with member | before
  · exact isAnswer_of_mem_kept areFor (oneText_of_nodup (by rwa [ids_of_isFor areFor])) member
  · cases before

/-! ## Passes -/

/-- The lowering stage with modules kept over those that were answers before. -/
def overlaid (session : Session) (later : Dictionary LoweredModule) :
    (stage : Stage) → Text → stage.Artifact → Prop
  | .frontmatter, _, _ => True
  | .compile, _, _ => True
  | .lowering, digest, lowered =>
    later.find? digest = some lowered ∨
      later.find? digest = none ∧ session.IsAnswer digest lowered

theorem overlaid_of_answers {later : Dictionary LoweredModule}
    (answers : ∀ digest lowered, later.find? digest = some lowered →
      session.IsAnswer digest lowered) {stage : Stage} {digest : Text} {artifact : stage.Artifact}
    (isMade : session.overlaid later stage digest artifact) :
    session.overlaid .empty stage digest artifact := by
  cases stage with
  | frontmatter => trivial
  | compile => trivial
  | lowering =>
    rcases isMade with isLater | ⟨-, isAnswer⟩
    · exact .inr ⟨rfl, answers _ _ isLater⟩
    · exact .inr ⟨rfl, isAnswer⟩

/-- What is kept under a digest does not matter to other digests and in other stages. -/
theorem overlaid_insert {later : Dictionary LoweredModule} {digest : Text} (lowered : LoweredModule)
    {stage : Stage} {key : Text} {artifact : stage.Artifact}
    (different : ¬(stage = .lowering ∧ key = digest))
    (isMade : session.overlaid later stage key artifact) :
    session.overlaid (later.insert digest lowered) stage key artifact := by
  cases stage with
  | frontmatter => trivial
  | compile => trivial
  | lowering =>
    have otherKey : key ≠ digest := fun same => different ⟨rfl, same⟩
    simpa only [overlaid, Dictionary.find?_insert_of_ne later lowered otherKey] using isMade

theorem rereads_overlaid : Rereads (session.overlaid .empty) := by
  intro stage digest artifact found isMade decoded
  cases stage with
  | frontmatter => trivial
  | compile => trivial
  | lowering =>
    have same : found = artifact :=
      @Stage.eq_of_decode_encode .lowering artifact found trivial decoded
    rwa [same]

/-- A document that asks for a module gets one, which is kept, or the cache stays as it is. -/
theorem settleAll_lower_cases (cache : BuildCache) (outcomes : Batch.Outcomes)
    (output : DocumentOutput) (digest : Text) (others : List Prepared) :
    (∃ lowered, outcomes.find? output.id = some (.ok lowered) ∧
      (settleAll cache outcomes (.lower output digest :: others)).2 =
        (settleAll ((cache.put .lowering digest lowered).2.record .lowering output.id digest)
          (outcomes.erase output.id) others).2 ∧
      kept outcomes (.lower output digest :: others) =
        (digest, lowered) :: kept (outcomes.erase output.id) others) ∨
    ((settleAll cache outcomes (.lower output digest :: others)).2 =
        (settleAll cache (outcomes.erase output.id) others).2 ∧
      kept outcomes (.lower output digest :: others) =
        kept (outcomes.erase output.id) others) := by
  rw [settleAll_cons, settle, kept]
  cases outcome : outcomes.find? output.id with
  | none => exact .inr ⟨rfl, rfl⟩
  | some result =>
    cases result with
    | error failure => exact .inr ⟨rfl, rfl⟩
    | ok lowered => exact .inl ⟨lowered, rfl, rfl, rfl⟩

/-- The modules of a batch are kept over what the lowering stage has. -/
theorem valid_settleAll (outcomes : Batch.Outcomes) {later : Dictionary LoweredModule}
    (named : ∀ {output digest}, .lower output digest ∈ items → session.Names digest)
    (writable : cache.Writable session.Names)
    (valid : cache.Valid session.Names (session.overlaid later)) :
    (settleAll cache outcomes items).2.Valid session.Names
      (session.overlaid (later.insertAll (kept outcomes items))) := by
  induction items generalizing cache outcomes later with
  | nil => exact valid
  | cons item others ih =>
    have namedLater {output : DocumentOutput} {digest : Text}
        (member : .lower output digest ∈ others) : session.Names digest :=
      named (List.mem_cons_of_mem _ member)
    cases item with
    | done output => exact ih _ namedLater writable valid
    | lower output digest =>
      rcases settleAll_lower_cases cache outcomes output digest others with
        ⟨lowered, -, same, keeps⟩ | ⟨same, keeps⟩
      · rw [same, keeps]
        have here : session.Names digest := named List.mem_cons_self
        have isMade : session.overlaid (later.insert digest lowered) .lowering digest lowered :=
          .inl (Dictionary.find?_insert_self later digest lowered)
        have put := valid.put_over writable here isMade (overlaid_insert lowered)
        exact ih _ namedLater (writable.put here _).record put.record
      · rw [same, keeps]
        exact ih _ namedLater writable valid

/-- Every module that has been kept is in memory for an id whose outcome has been used. -/
def Remembers (cache : BuildCache) (outcomes : Batch.Outcomes)
    (later : Dictionary LoweredModule) : Prop :=
  ∀ digest lowered, later.find? digest = some lowered →
    ∃ id, cache.Has .lowering id digest lowered ∧ outcomes.find? id = none

namespace Remembers

variable {later : Dictionary LoweredModule}

theorem empty : Remembers cache outcomes .empty := by
  intro digest lowered found
  cases found

theorem erase (remembers : Remembers cache outcomes later) (id : Text) :
    Remembers cache (outcomes.erase id) later := by
  intro digest lowered found
  obtain ⟨used, has, gone⟩ := remembers digest lowered found
  refine ⟨used, has, ?_⟩
  rw [Dictionary.find?_erase, gone, ite_self]

/-- An id that is used now has not been used before, so it takes no module from memory. -/
theorem insert (remembers : Remembers cache outcomes later)
    (writable : cache.Writable session.Names) {digest : Text} (named : session.Names digest)
    {id : Text} {outcome : LoweringOutcome}
    (unused : outcomes.find? id = some outcome) (lowered : LoweredModule) :
    Remembers ((cache.put .lowering digest lowered).2.record .lowering id digest)
      (outcomes.erase id) (later.insert digest lowered) := by
  intro key module found
  rw [Dictionary.find?_insert] at found
  split at found
  · next sameKey =>
    obtain rfl := Option.some.inj found
    rw [sameKey]
    exact ⟨id, .of_record (writable.held_put named .lowering lowered),
      Dictionary.find?_erase_self outcomes id⟩
  · next different =>
    obtain ⟨used, has, gone⟩ := remembers key module found
    have otherId : used ≠ id := by
      rintro rfl
      rw [unused] at gone
      cases gone
    have unaffected : ¬(Stage.lowering = .lowering ∧ key = digest) := fun same =>
      different same.2
    have remains := has.put_of_ne lowered unaffected
    refine ⟨used, remains.record fun same => otherId same.2, ?_⟩
    rw [Dictionary.find?_erase_of_ne outcomes otherId, gone]

end Remembers

/-- What a batch leaves last for a digest is in memory afterwards. -/
theorem held_settleAll {later : Dictionary LoweredModule}
    (named : ∀ {output digest}, .lower output digest ∈ items → session.Names digest)
    (writable : cache.Writable session.Names) (remembers : Remembers cache outcomes later)
    {digest : Text} {lowered : LoweredModule}
    (found : (later.insertAll (kept outcomes items)).find? digest = some lowered) :
    (settleAll cache outcomes items).2.held .lowering digest = some lowered := by
  induction items generalizing cache outcomes later with
  | nil =>
    obtain ⟨id, has, -⟩ := remembers digest lowered found
    exact has.held
  | cons item others ih =>
    have namedLater {output : DocumentOutput} {digest : Text}
        (member : .lower output digest ∈ others) : session.Names digest :=
      named (List.mem_cons_of_mem _ member)
    cases item with
    | done output => exact ih namedLater writable remembers found
    | lower output key =>
      rcases settleAll_lower_cases cache outcomes output key others with
        ⟨kept, outcome, same, keeps⟩ | ⟨same, keeps⟩
      · rw [keeps] at found
        rw [same]
        have here : session.Names key := named List.mem_cons_self
        exact ih namedLater (writable.put here _).record (remembers.insert writable here outcome _)
          found
      · rw [keeps] at found
        rw [same]
        exact ih namedLater writable (remembers.erase output.id) found

theorem sound_of_valid (valid : cache.Valid session.Names (session.overlaid .empty)) :
    session.Sound cache where
  inMemory held := by
    rcases valid.inMemory held with isLater | ⟨-, isAnswer⟩
    · cases isLater
    · exact isAnswer
  onDisk isDisk _ _ hex stores := by
    obtain ⟨lowered, isContent, isLater | ⟨-, isAnswer⟩⟩ := valid.onDisk isDisk hex stores
    · cases isLater
    · exact ⟨lowered, isContent, isAnswer⟩

/-- A pass that mixes nothing up leaves a sound stage sound. -/
theorem valid_build (writable : cache.Writable session.Names)
    (valid : cache.Valid session.Names (session.overlaid .empty))
    (unmixed : session.Unmixed cache documents) :
    (session.build cache documents).cache.Valid session.Names (session.overlaid .empty) := by
  have compiles {stage : Stage} {digest : Text} {artifact : stage.Artifact}
      (keeps : (session.preparePermit documents).keeps stage digest artifact) :
      session.overlaid .empty stage digest artifact := by
    obtain ⟨document, -, compiled⟩ := keeps
    cases stage with
    | frontmatter => trivial
    | compile => trivial
    | lowering => exact compiled.elim
  have prepares := steps_prepareAll session cache documents
  have start : cache.Valid (session.preparePermit documents).names (session.overlaid .empty) := valid
  have prepared := start.steps rereads_overlaid compiles prepares
  cases result : (session.prepareAll cache documents).result with
  | error failure => rwa [build_of_error result]
  | ok items =>
    rw [build_of_ok result]
    have settled := valid_settleAll (session.lowerAll items)
      (names_of_isFor (isFor_prepareAll result))
      (writable.steps prepares) prepared
    exact settled.weaken (overlaid_of_answers (unmixed items result))

/-- A pass whose cache is sound afterwards has mixed nothing up. -/
theorem unmixed_of_sound (writable : cache.Writable session.Names)
    (sound : session.Sound (session.build cache documents).cache) :
    session.Unmixed cache documents := by
  intro items result digest lowered found
  rw [build_of_ok result] at sound
  apply sound.inMemory
  exact held_settleAll (names_of_isFor (isFor_prepareAll result))
    (writable.steps (steps_prepareAll session cache documents)) .empty found

/-! ## Histories -/

section Histories

variable {directory : Option Disk} (blank : ∀ disk ∈ directory, disk.IsBlank)
  (hexadecimal : directory.isSome → session.hash.IsHexadecimal) {history : List Action}
  (runs : session.Runs history)

include blank hexadecimal runs

theorem writable_run_of_blank : ((ofDisk directory).run history).Writable session.Names := by
  apply writable_run (fun disk isDisk => (blank disk isDisk).ready) _ hexadecimal
  intro durable other documents member
  rw [runs member]
  exact hexadecimal durable

/-- A history whose passes mix nothing up leaves the stage sound. -/
theorem valid_run_of_unmixed
    (unmixed : ∀ passed documents later, history = passed ++ .build session documents :: later →
      session.Unmixed ((ofDisk directory).run passed) documents) :
    ((ofDisk directory).run history).Valid session.Names (session.overlaid .empty) := by
  induction history using List.reverseRecOn with
  | nil =>
    apply Valid.start blank
    rintro durable - ⟨bytes, rfl⟩
    exact hexadecimal durable bytes
  | append_singleton passed action ih =>
    have runsPassed : session.Runs passed := fun member => runs (List.mem_append_left _ member)
    have valid := ih runsPassed fun early documents later same =>
      unmixed early documents (later ++ [action]) (by rw [same, List.append_assoc]; rfl)
    rw [run_append, run_cons, run_nil]
    cases action with
    | build other documents =>
      obtain rfl := runs (List.mem_append_right _ (List.mem_singleton_self _))
      exact valid_build (writable_run_of_blank blank hexadecimal runsPassed) valid
        (unmixed passed documents [] rfl)
    | invalidate id => exact valid.invalidate
    | clear => exact valid.clear
    | finish => exact valid.save
    | reopen => exact valid.reopen

/-- The lowering stage is sound in every state that a history leads to exactly if no pass of the
history mixes modules up. A history whose passes have distinct ids is of this kind. -/
theorem sound_iff_unmixed :
    ((∀ passed later, history = passed ++ later →
        session.Sound ((ofDisk directory).run passed)) ↔
      ∀ passed documents later, history = passed ++ .build session documents :: later →
        session.Unmixed ((ofDisk directory).run passed) documents) ∧
    ((∀ documents, .build session documents ∈ history →
        (documents.map SourceDocument.id).Nodup) →
      ∀ passed later, history = passed ++ later →
        session.Sound ((ofDisk directory).run passed)) := by
  have sufficient (unmixed : ∀ passed documents later,
      history = passed ++ .build session documents :: later →
        session.Unmixed ((ofDisk directory).run passed) documents) (passed later : List Action)
      (same : history = passed ++ later) : session.Sound ((ofDisk directory).run passed) := by
    have runsPassed : session.Runs passed := fun member =>
      runs (same ▸ List.mem_append_left _ member)
    apply sound_of_valid
    apply valid_run_of_unmixed blank hexadecimal runsPassed
    intro early documents rest isPrefix
    exact unmixed early documents (rest ++ later) (by rw [same, isPrefix, List.append_assoc]; rfl)
  constructor
  · constructor
    · intro sound passed documents later same
      have runsPassed : session.Runs passed := fun member =>
        runs (same ▸ List.mem_append_left _ member)
      apply unmixed_of_sound (writable_run_of_blank blank hexadecimal runsPassed)
      have next := sound (passed ++ [.build session documents]) later
        (by rw [same, List.append_assoc]; rfl)
      rwa [run_append, run_cons, run_nil] at next
    · exact sufficient
  · intro distinct
    apply sufficient
    intro passed documents later same
    have member : .build session documents ∈ history := by rw [same]; simp
    exact unmixed_of_nodup _ (distinct documents member)

end Histories

/-- A session with a routine that returns the text that it is given. -/
def Trial.echo : Session :=
  { trial with routine := fun _ job => .ok ⟨job.markup, none⟩ }

/-- A document takes the text that another one had, is forgotten and comes back. -/
def Trial.swaps : List Action :=
  [.build Trial.echo [⟨['a'], "import 'x'".toList, none⟩, ⟨['b'], "import 'y'".toList, none⟩],
    .build Trial.echo [⟨['a'], "import 'y'".toList, none⟩, ⟨['b'], "import 'x'".toList, none⟩],
    .invalidate ['a'],
    .build Trial.echo [⟨['a'], "import 'x'".toList, none⟩]]

/-- Documents with distinct ids may swap their texts. -/
theorem sound_of_swaps : Trial.echo.Sound ((ofDisk (some {})).run Trial.swaps) := by
  have runs : Trial.echo.Runs Trial.swaps := by
    intro other documents member
    simp only [Trial.swaps, List.mem_cons, Action.build.injEq, reduceCtorEq, List.not_mem_nil,
      false_or, or_false] at member
    rcases member with ⟨rfl, -⟩ | ⟨rfl, -⟩ | ⟨rfl, -⟩ <;> rfl
  have distinct : ∀ documents, .build Trial.echo documents ∈ Trial.swaps →
      (documents.map SourceDocument.id).Nodup := by
    intro documents member
    simp only [Trial.swaps, List.mem_cons, Action.build.injEq, true_and, reduceCtorEq,
      List.not_mem_nil, false_or, or_false] at member
    rcases member with rfl | rfl | rfl <;> decide
  exact (sound_iff_unmixed (fun disk isDisk => Option.some.inj isDisk ▸ .inl rfl)
    (fun _ => Sha256.isHexadecimal_hexDigest) runs).2 distinct Trial.swaps []
      (List.append_nil _).symm

/-- A pass over two documents with one id. -/
def Trial.mixes : List Action :=
  [.build Trial.echo [⟨['a'], "import 'x'".toList, none⟩, ⟨['a'], "import 'y'".toList, none⟩]]

theorem Trial.isMixed : (((ofDisk none).run Trial.mixes).store .lowering).memory.entries.any
    (fun entry => entry.1 != Trial.echo.loweringDigest entry.2.code) = true := by
  decide +kernel

/-- The code of the second document is kept under the digest of the first one, although the routine
goes by the text alone: it returns this code for no text with this digest. -/
theorem not_sound_of_namesakes :
    (∀ options job other, job.markup = other.markup →
      Trial.echo.routine options job = Trial.echo.routine options other) ∧
    ¬Trial.echo.Sound ((ofDisk none).run Trial.mixes) := by
  constructor
  · intro options job other sameText
    simp only [Trial.echo, sameText]
  · intro sound
    obtain ⟨⟨digest, lowered⟩, member, differs⟩ := List.any_eq_true.mp Trial.isMixed
    obtain ⟨job, isDigest, answers⟩ := sound.inMemory (Dictionary.mem_entries.mp member)
    have isText : lowered = ⟨job.markup, none⟩ := (Except.ok.inj answers).symm
    rw [isText, isDigest] at differs
    simp at differs

end Session

end MdxBuild

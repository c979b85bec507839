import MdxBuild.Proofs.Cache.Ledger

/-!
# Closing a durable cache and opening it again

To a host that has the directory to itself, saving the cache, closing it and opening it again is
invisible exactly if every artifact that it keeps is read back from its file. The manifest always
is. Of artifacts without fractions those are read back whose data does not nest too deeply.
-/

namespace MdxBuild

open Digest

variable {ε : Type}

/-- An operation that uses digests that can stand in file names, and keeps artifacts of a kind
only. -/
def Operation.Uses (keeps : (stage : Stage) → stage.Artifact → Prop) : Operation ε → Prop
  | .put stage digest artifact => NamesFile digest ∧ keeps stage artifact
  | .getOrCompute stage digest computation =>
    NamesFile digest ∧ ∀ artifact, computation = .ok artifact → keeps stage artifact
  | .get _ digest | .evict _ digest | .record _ _ digest => NamesFile digest
  | .clearStage _ | .freshness .. | .invalidate _ | .clear | .manifest | .save => True

/-- An event of a host that has the directory to itself. -/
def Event.Uses (keeps : (stage : Stage) → stage.Artifact → Prop) : Event ε → Prop
  | .operation asked => asked.Uses keeps
  | .reopened => True
  | .disturbed _ => False

/-- The operation of an event, if it is one. -/
def Event.operation? : Event ε → Option (Operation ε)
  | .operation asked => some asked
  | _ => none

/-- The event is an operation. -/
def Event.isOperation (event : Event ε) : Bool :=
  event.operation?.isSome

namespace BuildCache

variable {cache : BuildCache} {ledger : Ledger} {keeps : (stage : Stage) → stage.Artifact → Prop}

/-- A directory of its own shows the ledger of its files. -/
theorem shows_ofDisk {tree : Disk} (tidy : tree.Tidy)
    (named : ∀ {stage : Stage} {id digest : Text},
      (Manifest.load tree).digest? stage id = some digest → NamesFile digest) :
    (ofDisk (some tree)).Shows ⟨Manifest.load tree, readArtifact tree⟩ where
  sound := ⟨Manifest.version_load tree, named⟩
  manifest := rfl
  directory := ⟨tree, rfl, tidy, fun _ _ _ => rfl⟩
  inMemory _ inMemory := by cases inMemory

section Survival

variable (survives : ∀ stage artifact, keeps stage artifact → stage.Survives artifact)

include survives

/-- An operation is answered as the ledger says, and changes the cache as it changes the ledger. -/
theorem Shows.operate (shows : cache.Shows ledger) {operation : Operation ε}
    (uses : operation.Uses keeps) :
    cache.answer operation = ledger.answer operation ∧
      (cache.operate operation).Shows (ledger.operate operation) := by
  cases operation with
  | put stage digest artifact =>
    obtain ⟨written, kept⟩ := shows.put uses.1 (survives stage artifact uses.2)
    exact ⟨congrArg Answer.written written, kept⟩
  | get stage digest =>
    exact ⟨congrArg (Answer.found stage) (shows.found_get uses), shows.get uses⟩
  | getOrCompute stage digest computation =>
    obtain ⟨names, mayKeep⟩ := uses
    have found : (cache.get stage digest).1 = ledger.artifact stage digest := shows.found_get names
    have computes : cache.computes stage digest = (ledger.artifact stage digest).isNone :=
      shows.computes_eq names
    have looked : (cache.get stage digest).2.Shows ledger := shows.get names
    simp only [answer, Ledger.answer, BuildCache.operate, Ledger.operate, computes]
    cases inLedger : ledger.artifact stage digest with
    | some artifact =>
      rw [getOrCompute_of_found (found.trans inLedger)]
      exact ⟨rfl, looked⟩
    | none =>
      rw [getOrCompute_of_missing (found.trans inLedger)]
      cases computation with
      | error failure => exact ⟨rfl, looked⟩
      | ok artifact =>
        exact ⟨rfl, (looked.put names (survives stage artifact (mayKeep artifact rfl))).2⟩
  | evict stage digest => exact ⟨rfl, shows.evict uses⟩
  | clearStage stage => exact ⟨rfl, shows.clearStage⟩
  | record stage id digest => exact ⟨rfl, shows.record uses⟩
  | freshness stage id digest =>
    refine ⟨?_, shows⟩
    rw [answer, freshness, shows.manifest]
    rfl
  | invalidate id => exact ⟨rfl, shows.invalidate⟩
  | clear => exact ⟨rfl, shows.clear⟩
  | manifest => exact ⟨congrArg Answer.noted shows.manifest, shows⟩
  | save => exact ⟨congrArg Answer.written shows.save.1, shows.save.2.1⟩

/-- A history is answered as the ledger answers its operations, wherever the cache is closed and
opened again. -/
theorem Shows.answers_eq (shows : cache.Shows ledger) {history : List (Event ε)}
    (uses : ∀ event ∈ history, event.Uses keeps) :
    cache.answers history = ledger.answers (history.filterMap Event.operation?) := by
  induction history generalizing cache ledger with
  | nil => rfl
  | cons event others ih =>
    have othersUse : ∀ event ∈ others, event.Uses keeps :=
      fun event member => uses event (List.mem_cons_of_mem _ member)
    cases event with
    | operation operation =>
      obtain ⟨answered, after⟩ := shows.operate survives (uses _ List.mem_cons_self)
      rw [answers, answered, ih after othersUse]
      rfl
    | reopened => exact ih shows.save.2.2 othersUse
    | disturbed change => cases uses _ List.mem_cons_self

end Survival

/-- Artifacts of a kind are kept across every closing and opening of a tidy directory. -/
def ReopensUnseen (keeps : (stage : Stage) → stage.Artifact → Prop) : Prop :=
  ∀ (ε : Type) (tree : Disk) (history : List (Event ε)), tree.Tidy →
    (∀ {stage : Stage} {id digest : Text},
      (Manifest.load tree).digest? stage id = some digest → NamesFile digest) →
    (∀ event ∈ history, event.Uses keeps) →
      (ofDisk (some tree)).answers history =
        (ofDisk (some tree)).answers (history.filter Event.isOperation)

theorem filterMap_operation?_filter (history : List (Event ε)) :
    (history.filter Event.isOperation).filterMap Event.operation? =
      history.filterMap Event.operation? := by
  rw [List.filterMap_filter]
  congr 1
  funext event
  cases event <;> rfl

section New

variable {stage : Stage} {digest : Text} (artifact : stage.Artifact) (names : NamesFile digest)

include names

/-- What is kept in a new directory is found. -/
theorem found_put_new :
    (((ofDisk (some {})).put stage digest artifact).2.get stage digest).1 = some artifact := by
  have tidy : Disk.Tidy {} := Disk.IsBlank.tidy (.inl rfl)
  apply found_get_of_held
  rw [held_put_self, if_pos]
  rw [toBool_put]
  exact congrArg Except.toBool (tidy.put_artifact_ok names)

/-- After opening again, what was kept in a new directory is what is read from its file. -/
theorem found_put_reopen_new :
    (((ofDisk (some {})).put stage digest artifact).2.save.2.reopen.get stage digest).1 =
      (stage.decode (stage.encode artifact).render).toOption := by
  have tidy : Disk.Tidy {} := Disk.IsBlank.tidy (.inl rfl)
  let written := (Disk.put {} (stage.path digest) (stage.encode artifact).render).2
  have tidyWritten : written.Tidy := tidy.put_artifact names
  have reads (manifest : Text) :
      Disk.read? (written.put [Manifest.fileName] manifest).2 (stage.path digest) =
        some (stage.encode artifact).render :=
    (tidyWritten.read?_put_manifest_of_artifact names).trans (tidy.read?_put_self names)
  rw [found_get, reopen, held_ofDisk, Option.none_or, Store.fileText?, ofDisk, disk_save, disk_put]
  exact (congrArg (Option.bind · fun text => (stage.decode text).toOption) (reads _)).trans rfl

end New

/-- What is kept in a new directory and asked for again survives, if closing the cache in between
does not show. -/
theorem survives_of_answers_eq {stage : Stage} {digest : Text} {artifact : stage.Artifact}
    (names : NamesFile digest)
    (same : (ofDisk (some {})).answers [.operation (.put stage digest artifact), .reopened,
        .operation (.get stage digest : Operation ε)] =
      (ofDisk (some {})).answers [.operation (.put stage digest artifact),
        .operation (.get stage digest)]) :
    stage.Survives artifact := by
  have sameAnswer :
      (.found stage (((ofDisk (some {})).put stage digest artifact).2.save.2.reopen.get
        stage digest).1 : Answer ε) =
      .found stage (((ofDisk (some {})).put stage digest artifact).2.get stage digest).1 :=
    (List.cons.inj (List.cons.inj same).2).1
  rw [found_put_new artifact names, found_put_reopen_new artifact names] at sameAnswer
  have sameFound : (stage.decode (stage.encode artifact).render).toOption = some artifact := by
    injection sameAnswer
  rw [Stage.Survives]
  cases decoded : stage.decode (stage.encode artifact).render with
  | error fault => simp [decoded, Except.toOption] at sameFound
  | ok found =>
    rw [decoded] at sameFound
    exact congrArg Except.ok (Option.some.inj sameFound)

theorem survives_of_reopensUnseen (unseen : ReopensUnseen keeps) {stage : Stage}
    {artifact : stage.Artifact} (isKept : keeps stage artifact) : stage.Survives artifact := by
  have names : NamesFile ['0'] := namesFile_of_digits (List.all_eq_true.mp rfl) (by decide)
  let history : List (Event Empty) := [.operation (.put stage ['0'] artifact), .reopened,
    .operation (.get stage ['0'])]
  have uses : ∀ event ∈ history, event.Uses keeps := by
    simp only [history, List.forall_mem_cons]
    exact ⟨⟨names, isKept⟩, trivial, names, fun _ none => by cases none⟩
  exact survives_of_answers_eq names
    (unseen Empty {} history (Disk.IsBlank.tidy (.inl rfl)) (fun has => by cases has) uses)

/-- To a host that has the directory to itself, closing and opening the cache is invisible exactly
if every artifact that it keeps is read back from its file. Artifacts in which every number is an
integer are, unless their data nests deeper than the reader goes. -/
theorem reopensUnseen_iff :
    (ReopensUnseen keeps ↔ ∀ stage artifact, keeps stage artifact → stage.Survives artifact) ∧
      ∀ (stage : Stage) (artifact : stage.Artifact), stage.IsIntegral artifact →
        (stage.Survives artifact ↔ stage.nesting artifact < Json.greatestDepth) := by
  refine ⟨⟨fun unseen stage artifact => survives_of_reopensUnseen unseen, ?_⟩,
    fun stage artifact => Stage.survives_iff⟩
  intro survives ε tree history tidy named uses
  have shows := shows_ofDisk tidy named
  have usesFiltered : ∀ event ∈ history.filter Event.isOperation, event.Uses keeps :=
    fun event member => uses event (List.mem_of_mem_filter member)
  rw [shows.answers_eq survives uses, shows.answers_eq survives usesFiltered,
    filterMap_operation?_filter]

/-- Closing and opening is invisible where artifacts have integers for numbers and do not nest too
deeply. -/
theorem reopensUnseen_of_shallow :
    ReopensUnseen fun stage artifact =>
      stage.IsIntegral artifact ∧ stage.nesting artifact < Json.greatestDepth :=
  reopensUnseen_iff.1.mpr fun _ _ shallow => (Stage.survives_iff shallow.1).mpr shallow.2

/-- An artifact as it is printed after it was read from its file. -/
def reprinted (stage : Stage) (artifact : stage.Artifact) : Option Text :=
  (stage.decode (stage.encode artifact).render).toOption.map fun found =>
    (stage.encode found).render

theorem reprinted_of_survives {stage : Stage} {artifact : stage.Artifact}
    (survives : stage.Survives artifact) :
    reprinted stage artifact = some (stage.encode artifact).render := by
  rw [reprinted, survives]
  rfl

/-- A number without a fraction that does not fit 64 bits. -/
def hugeNumber : Text :=
  "222222222222222222222222".toList

theorem not_survives_hugeNumber :
    ∃ artifact : FrontmatterArtifact, Json.parse hugeNumber = .ok artifact.data ∧
      ¬Stage.frontmatter.Survives artifact := by
  have isAnother : ((Json.parse hugeNumber).toOption.any fun data =>
      reprinted .frontmatter ⟨data⟩ != some (Stage.frontmatter.encode ⟨data⟩).render) = true := by
    decide +kernel
  cases parsed : Json.parse hugeNumber with
  | error fault =>
    rw [parsed] at isAnother
    cases isAnother
  | ok data =>
    rw [parsed] at isAnother
    refine ⟨⟨data⟩, rfl, fun survives => ?_⟩
    exact absurd (reprinted_of_survives survives) (bne_iff_ne.mp isAnother)

/-- A huge number that is kept as frontmatter is another number once the cache was closed. -/
theorem answers_reopened_ne_of_hugeNumber :
    ∃ artifact : FrontmatterArtifact, Json.parse hugeNumber = .ok artifact.data ∧
      (ofDisk (some {})).answers [.operation (.put .frontmatter "ab".toList artifact), .reopened,
          .operation (.get .frontmatter "ab".toList : Operation Empty)] ≠
        (ofDisk (some {})).answers [.operation (.put .frontmatter "ab".toList artifact),
          .operation (.get .frontmatter "ab".toList)] := by
  obtain ⟨artifact, parsed, changes⟩ := not_survives_hugeNumber
  refine ⟨artifact, parsed, fun same => changes ?_⟩
  exact survives_of_answers_eq (namesFile_of_digits (List.all_eq_true.mp rfl) (by decide)) same

end BuildCache

end MdxBuild

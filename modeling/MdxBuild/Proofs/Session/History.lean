import MdxBuild.Proofs.Cache.Balance
import MdxBuild.Proofs.Session.Build
import MdxBuild.Trial.Compiler
import MdxBuild.Trial.Routine

/-!
# Histories

Between build passes a host can forget documents, forget everything, save the manifest and open the
cache again. The states of a build are what histories of these actions lead to. Every pass of a
history may have a session of its own, so nothing is taken for granted about what compilers and
hooks did in earlier passes. Within a pass, documents are prepared one after the other.
-/

namespace MdxBuild

/-- A session to try histories out with. Its fallback compiler leaves a source as it is. -/
def Session.trial : Session where
  hash := Sha256.hexDigest
  options := { lowering := { sourceMaps := false } }
  native := ({} : Trial.NativePlan).compiler
  fallback source _ _ := .ok ⟨source, []⟩
  hooks := []
  workers := 2
  routine := Trial.routine
  fate _ _ := .reported

/-- Two documents with one source, which share two of their three artifacts. -/
def Session.Trial.twins : List SourceDocument :=
  [⟨['a'], "import 'x'".toList, none⟩, ⟨['b'], "import 'x'".toList, none⟩]

/-- What a host does with a cache. -/
inductive Action where
  | build (session : Session) (documents : List SourceDocument)
  | invalidate (id : Text)
  | clear
  /-- Saves the manifest. -/
  | finish
  /-- Closes the cache without saving it and opens it again. -/
  | reopen

/-- The documents of an action. -/
def Action.documents : Action → List SourceDocument
  | .build _ documents => documents
  | _ => []

/-- All passes of a history are passes of the session. -/
def Session.Runs (session : Session) (history : List Action) : Prop :=
  ∀ {other documents}, .build other documents ∈ history → other = session

namespace BuildCache

/-- The cache after an action; a pass counts also if a failure ends it. -/
def perform (cache : BuildCache) : Action → BuildCache
  | .build session documents => (session.build cache documents).cache
  | .invalidate id => cache.invalidate id
  | .clear => cache.clear
  | .finish => cache.save.2
  | .reopen => cache.reopen

/-- The cache after a history. -/
def run (cache : BuildCache) (history : List Action) : BuildCache :=
  history.foldl perform cache

variable {cache : BuildCache} {history : List Action}

@[simp]
theorem run_nil : cache.run [] = cache :=
  rfl

@[simp]
theorem run_cons (action : Action) :
    cache.run (action :: history) = (cache.perform action).run history :=
  rfl

@[simp]
theorem run_append (later : List Action) :
    cache.run (history ++ later) = (cache.run history).run later :=
  List.foldl_append

/-- What every action of a history preserves holds after the history. -/
theorem run_preserves (holds : BuildCache → Prop)
    (preserves : ∀ {cache}, ∀ action ∈ history, holds cache → holds (cache.perform action))
    (start : holds cache) : holds (cache.run history) := by
  induction history generalizing cache with
  | nil => exact start
  | cons action others ih =>
    exact ih (fun action member => preserves action (List.mem_cons_of_mem _ member))
      (preserves action List.mem_cons_self start)

/-! ## Balance -/

theorem Balanced.perform (balanced : cache.Balanced) (action : Action) :
    (cache.perform action).Balanced := by
  cases action with
  | build session documents =>
    exact Session.build_preserves Balanced (fun steps balanced => balanced.steps steps)
      (fun _ _ steps balanced => balanced.steps steps) balanced
  | invalidate id => exact balanced.invalidate
  | clear => exact balanced.clear
  | finish => rwa [BuildCache.perform, save_of_memoryOnly balanced.memoryOnly]
  | reopen =>
    rw [BuildCache.perform, BuildCache.reopen, balanced.memoryOnly]
    exact .start

theorem balanced_run (history : List Action) : ((ofDisk none).run history).Balanced :=
  run_preserves Balanced (fun action _ balanced => balanced.perform action) .start

/-- Every session of a history names contents as SHA-256 does. -/
def Hexadecimal (history : List Action) : Prop :=
  ∀ {session documents}, .build session documents ∈ history → session.hash.IsHexadecimal

theorem Writable.perform (writable : cache.Writable fun digest => Digest.isHex digest = true)
    (action : Action)
    (hexadecimal : ∀ {session documents}, action = .build session documents →
      session.hash.IsHexadecimal) :
    (cache.perform action).Writable fun digest => Digest.isHex digest = true := by
  cases action with
  | build session documents =>
    have spells {names : BuildCache} : names.Spells session.Names := by
      rintro - digest ⟨bytes, rfl⟩
      exact hexadecimal rfl bytes
    have named : (session.build cache documents).cache.Writable session.Names :=
      Session.build_preserves (Writable session.Names) (fun steps writable => writable.steps steps)
        (fun _ _ steps writable => writable.steps steps) (writable.of_spells spells)
    exact named.of_spells fun _ _ hex => hex
  | invalidate id => exact writable.invalidate
  | clear => exact writable.clear
  | finish => exact writable.save
  | reopen => exact writable.reopen

/-- A cache stays writable over every history if its directory is ready for it at the start. -/
theorem writable_run {directory : Option Disk} (ready : ∀ disk ∈ directory, disk.Ready)
    (hexadecimal : directory.isSome → Hexadecimal history) {session : Session}
    (named : directory.isSome → session.hash.IsHexadecimal) :
    ((ofDisk directory).run history).Writable session.Names := by
  cases directory with
  | none => exact .of_memoryOnly (balanced_run history).memoryOnly
  | some disk =>
    have writable : ((ofDisk (some disk)).run history).Writable fun digest =>
        Digest.isHex digest = true := by
      apply run_preserves (Writable _) _ (.start ready fun _ _ hex => hex)
      intro cache action member writable
      exact writable.perform action fun same => hexadecimal rfl (same ▸ member)
    apply writable.of_spells
    rintro - digest ⟨bytes, rfl⟩
    exact named rfl bytes

end BuildCache

end MdxBuild

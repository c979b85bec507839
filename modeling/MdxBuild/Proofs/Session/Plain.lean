import MdxBuild.Proofs.Digest.Content
import MdxBuild.Proofs.Module.Newlines
import MdxBuild.Proofs.Session.Build

/-!
# Building without a cache

What a document becomes if every stage is computed from its own source. A cache may stand in for the
stages as long as it cannot mistake one text for another and nothing but the text counts; what this
takes of compilers, hash function and documents is stated here. Then an artifact that was made for
some document under a digest is what would be made for every document with this digest.
-/

namespace MdxBuild

open BuildCache

/-- The outcome of a document without the comparison with the pass before. -/
def DocumentOutput.unstamped (output : DocumentOutput) : DocumentOutput :=
  { output with freshness := none }

namespace Session

variable {session : Session} {document : SourceDocument} {involved : List SourceDocument}
  {source text : Text}

/-- The outcome of a document with the frontmatter that is read from its source. -/
def readFrontmatter (session : Session) (document : SourceDocument) (source : Text)
    (output : DocumentOutput) : DocumentOutput :=
  match session.native.parseFrontmatter source document.id with
  | .ok data => { output with frontmatter := data }
  | .error failure => output.degrade failure.render

/-- The outcome of a document whose code is lowered on its own. -/
def lowerAlone (session : Session) (output : DocumentOutput) : DocumentOutput :=
  match session.routine session.options.lowering ⟨output.id, output.code⟩ with
  | .ok lowered => output.withModule lowered
  | .error failure => output.degrade ("left unlowered: ".toList ++ failure.message)

theorem lowerAlone_of_ok {session : Session} {output : DocumentOutput} {lowered : LoweredModule}
    (answers : session.routine session.options.lowering ⟨output.id, output.code⟩ = .ok lowered) :
    session.lowerAlone output = output.withModule lowered := by
  rw [lowerAlone, answers]

/-- The outcome of a document on the fallback path before it is compiled. -/
def fallbackStart (session : Session) (document : SourceDocument) (source : Text) :
    DocumentOutput :=
  session.readFrontmatter document source { id := document.id, route := session.route source }

/-- What a document becomes on the fallback path without a cache. -/
def plainFallback (session : Session) (document : SourceDocument) (source : Text) :
    DocumentOutput :=
  match session.compileAsFallback document.id source with
  | .error failure => (session.fallbackStart document source).fail failure.render
  | .ok compiled => session.lowerAlone (withCode (session.fallbackStart document source) compiled)

/-- What a document becomes without a cache. -/
def plain (session : Session) (document : SourceDocument) :
    Except CompilerFailure DocumentOutput :=
  match Hook.run session.hooks document.id document.source with
  | .error failure =>
    let output : DocumentOutput := { id := document.id, route := session.route document.source }
    .ok (output.fail failure.render)
  | .ok source =>
    if (session.route source).isFast then
      session.compileFast document.id source (session.route source)
    else .ok (session.plainFallback document source)

/-- The text is the module of the document that is to be lowered. -/
def Asks (session : Session) (document : SourceDocument) (text : Text) : Prop :=
  ∃ source compiled, session.FallsBack document source ∧
    session.compileAsFallback document.id source = .ok compiled ∧
    text = (withCode (session.fallbackStart document source) compiled).code

/-! ## Assumptions -/

/-- What the outside compilers and the routine make of a text, if they make anything of it, does not
depend on the path or the job id that comes with it. Their messages may. -/
structure Impersonal (session : Session) : Prop where
  frontmatter : ∀ source path other,
    (session.native.parseFrontmatter source path).toOption =
      (session.native.parseFrontmatter source other).toOption
  headings : ∀ source path other,
    (session.native.extractHeadings source path).toOption =
      (session.native.extractHeadings source other).toOption
  fallback : ∀ source path other plugins,
    (session.fallback source path plugins).toOption =
      (session.fallback source other plugins).toOption
  routine : ∀ markup id other,
    (session.routine session.options.lowering ⟨id, markup⟩).toOption =
      (session.routine session.options.lowering ⟨other, markup⟩).toOption

/-- A document without a digest of the host. If it takes the fallback path, there is no carriage
return in its source behind the hooks and in what the fallback compiler makes of it, and no number
but integers in its frontmatter. -/
structure Ordinary (session : Session) (document : SourceDocument) : Prop where
  noDigest : document.digest = none
  source : ∀ {source}, session.FallsBack document source →
    '\r' ∉ source
  code : ∀ {source compiled}, session.FallsBack document source →
    session.fallback (session.fallbackSource source) document.id FallbackPlugin.all =
      .ok compiled → '\r' ∉ compiled.code
  frontmatter : ∀ {source data}, session.FallsBack document source →
    session.native.parseFrontmatter source document.id = .ok data → data.isWhole = true

/-- The bytes that are hashed for a document. -/
def Hashes (session : Session) (document : SourceDocument) (bytes : List UInt8) : Prop :=
  (∃ source, session.FallsBack document source ∧
    (bytes = Digest.preimage source frontmatterFingerprint ∨
      bytes = Digest.preimage source (session.options.compileFingerprint session.hash))) ∨
  ∃ text, session.Asks document text ∧
    bytes = Digest.preimage text (session.options.loweringFingerprint session.hash)

/-- The hash function does not collide on what is hashed for the documents. -/
def Separates (session : Session) (involved : List SourceDocument) : Prop :=
  ∀ first ∈ involved, ∀ second ∈ involved, ∀ bytes other, session.Hashes first bytes →
    session.Hashes second other → session.hash bytes = session.hash other → bytes = other

/-! ## Outcomes -/

theorem unstamped_of_compileFast {id : Text} {route : Route} {output : DocumentOutput}
    (succeeds : session.compileFast id source route = .ok output) : output.unstamped = output := by
  rw [compileFast] at succeeds
  cases compiled : session.native.compile source id ⟨some id, none⟩ with
  | error failure => rw [compiled] at succeeds; cases succeeds
  | ok native => rw [compiled] at succeeds; cases succeeds; rfl

theorem unstamped_lowerAlone (output : DocumentOutput) :
    (session.lowerAlone output).unstamped = session.lowerAlone output.unstamped := by
  simp only [lowerAlone, DocumentOutput.unstamped]
  split <;> rfl

theorem unstamped_fallbackStart :
    (session.fallbackStart document source).unstamped = session.fallbackStart document source := by
  rw [fallbackStart, readFrontmatter]
  split <;> rfl

/-- The module of an ordinary document has no carriage returns. -/
theorem Ordinary.notMem_of_asks (ordinary : session.Ordinary document)
    (asks : session.Asks document text) : '\r' ∉ text := by
  obtain ⟨source, compiled, falls, compiles, rfl⟩ := asks
  rw [compileAsFallback] at compiles
  cases made : session.fallback (session.fallbackSource source) document.id
      FallbackPlugin.all with
  | error failure =>
    rw [made] at compiles
    cases compiles
  | ok output =>
    rw [made] at compiles
    cases compiles
    exact Metadata.notMem_postProcess (Generated.notMem_injectIds _ (ordinary.code falls made))

/-! ## Artifacts under a digest -/

/-- The artifact is what some document of the list has made under the digest. -/
def IsMade (session : Session) (involved : List SourceDocument) :
    (stage : Stage) → Text → stage.Artifact → Prop
  | .frontmatter, digest, artifact =>
    ∃ document ∈ involved, session.Compiles document .frontmatter digest artifact
  | .compile, digest, artifact =>
    ∃ document ∈ involved, session.Compiles document .compile digest artifact
  | .lowering, digest, lowered =>
    ∃ document ∈ involved, ∃ text, session.Asks document text ∧
      session.loweringDigest text = digest ∧
      session.routine session.options.lowering ⟨document.id, text⟩ = .ok lowered

theorem ok_of_toOption_eq {ε α : Type} {first second : Except ε α} {value : α}
    (same : first.toOption = second.toOption) (succeeds : first = .ok value) :
    second = .ok value := by
  rw [succeeds] at same
  cases second with
  | error failure => cases same
  | ok other => rw [Option.some.inj same]

/-- The digests of a document without a digest of the host are made of its source. -/
theorem identity_keyed (noDigest : document.digest = none) :
    (keyed document source).identity = source := by
  rw [keyed]
  split
  · next same => rw [SourceDocument.identity, noDigest, same, Option.getD_none]
  · rfl

/-- The fallback compiler, too, goes by the text. -/
theorem Impersonal.compileAsFallback (impersonal : session.Impersonal) (source id other : Text) :
    (session.compileAsFallback id source).toOption =
      (session.compileAsFallback other source).toOption := by
  have sameCode := impersonal.fallback (session.fallbackSource source) id other FallbackPlugin.all
  have sameHeadings := impersonal.headings source id other
  rw [Session.compileAsFallback, Session.compileAsFallback]
  cases first : session.fallback (session.fallbackSource source) id FallbackPlugin.all with
  | error failure =>
    cases second : session.fallback (session.fallbackSource source) other FallbackPlugin.all with
    | error failure => rfl
    | ok compiled => rw [first, second] at sameCode; cases sameCode
  | ok compiled =>
    rw [first] at sameCode
    rw [ok_of_toOption_eq sameCode rfl]
    cases extracted : session.native.extractHeadings source id with
    | ok headings =>
      rw [extracted] at sameHeadings
      rw [ok_of_toOption_eq sameHeadings rfl]
    | error failure =>
      cases again : session.native.extractHeadings source other with
      | ok headings => rw [extracted, again] at sameHeadings; cases sameHeadings
      | error failure => rfl

section Made

variable (impersonal : session.Impersonal)
  (ordinary : ∀ document ∈ involved, session.Ordinary document)
  (separates : session.Separates involved) (isInvolved : document ∈ involved)

include impersonal ordinary separates isInvolved

theorem parseFrontmatter_of_isMade {artifact : FrontmatterArtifact}
    (falls : session.FallsBack document source)
    (isMade : session.IsMade involved .frontmatter (session.frontmatterDigest document source)
      artifact) : session.native.parseFrontmatter source document.id = .ok artifact.data := by
  obtain ⟨other, isOther, before, fallsOther, sameDigest, parsed⟩ := isMade
  have plain := ordinary document isInvolved
  have plainOther := ordinary other isOther
  simp only [frontmatterDigest, SourceDocument.digestWith, identity_keyed plain.noDigest,
    identity_keyed plainOther.noDigest, Digest.compute] at sameDigest
  have sameBytes := separates other isOther document isInvolved _ _
    (.inl ⟨before, fallsOther, .inl rfl⟩) (.inl ⟨source, falls, .inl rfl⟩) sameDigest
  obtain rfl := Digest.eq_of_preimage_eq (plainOther.source fallsOther) (plain.source falls)
    sameBytes
  exact ok_of_toOption_eq (impersonal.frontmatter _ _ _) parsed

theorem compileAsFallback_of_isMade {artifact : CompiledArtifact}
    (falls : session.FallsBack document source)
    (isMade : session.IsMade involved .compile (session.compileDigest document source) artifact) :
    session.compileAsFallback document.id source = .ok artifact := by
  obtain ⟨other, isOther, before, fallsOther, sameDigest, compiles⟩ := isMade
  have plain := ordinary document isInvolved
  have plainOther := ordinary other isOther
  simp only [compileDigest, SourceDocument.digestWith, identity_keyed plain.noDigest,
    identity_keyed plainOther.noDigest, Digest.compute] at sameDigest
  have sameBytes := separates other isOther document isInvolved _ _
    (.inl ⟨before, fallsOther, .inr rfl⟩) (.inl ⟨source, falls, .inr rfl⟩) sameDigest
  obtain rfl := Digest.eq_of_preimage_eq (plainOther.source fallsOther) (plain.source falls)
    sameBytes
  exact ok_of_toOption_eq (impersonal.compileAsFallback _ _ _) compiles

theorem routine_of_isMade {lowered : LoweredModule} (asks : session.Asks document text)
    (isMade : session.IsMade involved .lowering (session.loweringDigest text) lowered) :
    session.routine session.options.lowering ⟨document.id, text⟩ = .ok lowered := by
  obtain ⟨other, isOther, before, asksOther, sameDigest, answers⟩ := isMade
  have sameBytes := separates other isOther document isInvolved _ _
    (.inr ⟨before, asksOther, rfl⟩) (.inr ⟨text, asks, rfl⟩) sameDigest
  obtain rfl := Digest.eq_of_preimage_eq ((ordinary other isOther).notMem_of_asks asksOther)
    ((ordinary document isInvolved).notMem_of_asks asks) sameBytes
  exact ok_of_toOption_eq (impersonal.routine _ _ _) answers

end Made

end Session

end MdxBuild

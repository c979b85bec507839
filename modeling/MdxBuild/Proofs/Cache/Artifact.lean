import MdxBuild.Cache.Artifact
import MdxBuild.Proofs.Json.Record

/-!
# Artifacts on disk

An artifact that was written to disk is read back as it was, or not at all: a file never yields
another artifact than the one written into it. Frontmatter is subject to a condition, since numbers
of double precision need not survive being printed.
-/

namespace MdxBuild

open Json

theorem readsBack_bounded (expected : Text) (greatest number : Nat) :
    ReadsBack (readBounded expected greatest) (ofNat number).render number := by
  obtain ⟨outcome, unaltered, reads⟩ := readsBack_readNumber number
  obtain ⟨first, others, written, isDigit, _⟩ := ofNat_eq_cons number
  have readsUnsigned (rest : Text) (ended : endsNumber rest = true) :
      readUnsigned expected (Text.ofNat number ++ rest) =
        (outcome.bind (unsignedOf expected)).map (·, rest) := by
    have readsNumber := reads rest ended
    rw [written, List.cons_append] at readsNumber ⊢
    rw [readUnsigned, skipBlanks_cons (isJsonBlank_of_isDigit isDigit)]
    simp only [ne_of_isDigit isDigit '-' rfl, isDigit, if_true, if_false, readsNumber]
    cases outcome with
    | error fault => rfl
    | ok value =>
      change (unsignedOf expected value).bind _ = _
      cases unsigned : unsignedOf expected value <;> simp [Except.bind, Except.map, unsigned]
  refine ⟨(outcome.bind (unsignedOf expected)).bind fun value =>
    if value ≤ greatest then .ok ()
    else .error (.invalidValue (.number (.integer value)) expected), ?_⟩
  intro rest ended
  rw [render_ofNat, readBounded, readsUnsigned rest ended]
  cases outcome with
  | error fault => rfl
  | ok value =>
    cases value with
    | double bits => rfl
    | integer value =>
      obtain rfl := unaltered value rfl
      simp only [Except.bind, unsignedOf, Int.natCast_nonneg, if_true, Int.toNat_natCast]
      change (if number ≤ greatest then _ else _) = _
      split <;> rfl

/-- A number within the bound of its field is read back. -/
theorem readsUnless_bounded {expected : Text} {greatest number : Nat} (fits : number ≤ greatest)
    (small : greatest ≤ greatestUnsigned) :
    ReadsUnless (.ok ()) (readBounded expected greatest) (Text.ofNat number) number := by
  intro rest ended
  rw [readBounded, readsUnless_unsigned (Nat.le_trans fits small) rest ended]
  simp [bind, Except.bind, fits, Except.map]

/-- A heading is read back from its object if its depth is. -/
theorem readsUnless_heading {heading : HeadingRecord} {refusal : Except Fault Unit}
    (readsDepth : ReadsUnless refusal (readBounded "u8".toList 255)
      (Json.ofNat heading.depth).render heading.depth) :
    ReadsUnless refusal HeadingRecord.record.read heading.toJson.render heading :=
  Record.readsUnless_object
    (.deciding (Record.readsUnless_member rfl rfl readsDepth)
      (.next (Record.readsUnless_member rfl rfl (readsUnless_text _ heading.slug))
        (.next (Record.readsUnless_member rfl rfl (readsUnless_text _ heading.text))
          (.done _)))) rfl

theorem readsBack_heading (heading : HeadingRecord) :
    ReadsBack HeadingRecord.record.read heading.toJson.render heading := by
  obtain ⟨refusal, readsDepth⟩ := readsBack_bounded "u8".toList 255 heading.depth
  exact ⟨refusal, readsUnless_heading readsDepth⟩

/-- Frontmatter is read back from its object if its data is. -/
theorem readsUnless_frontmatter {artifact : FrontmatterArtifact} {refusal : Except Fault Unit}
    (readsData : ReadsUnless refusal (readValue (greatestDepth - 1)) artifact.data.render
      artifact.data) :
    ReadsUnless refusal FrontmatterArtifact.record.read (Stage.frontmatter.encode artifact).render
      artifact :=
  Record.readsUnless_object
    (.deciding (Record.readsUnless_member rfl rfl readsData) (.done _)) rfl

theorem readsBack_frontmatter {artifact : FrontmatterArtifact}
    (whole : artifact.data.isWhole = true) :
    ReadsBack FrontmatterArtifact.record.read (Stage.frontmatter.encode artifact).render
      artifact :=
  ⟨_, readsUnless_frontmatter (readsUnless_value whole _)⟩

/-- A compiled module is read back from its object if its headings are. -/
theorem readsUnless_compiled {artifact : CompiledArtifact} {refusal : Except Fault Unit}
    (readsHeadings : ReadsUnless refusal (readList HeadingRecord.record.read)
      (array (artifact.headings.map HeadingRecord.toJson)).render artifact.headings) :
    ReadsUnless refusal CompiledArtifact.record.read (Stage.compile.encode artifact).render
      artifact :=
  Record.readsUnless_object
    (.next (Record.readsUnless_member rfl rfl (readsUnless_text _ artifact.code))
      (.deciding (Record.readsUnless_member rfl rfl readsHeadings) (.done _))) rfl

theorem startsItem_heading (heading : HeadingRecord) : StartsItem heading.toJson.render :=
  startsItem_object _

theorem readsBack_compiled (artifact : CompiledArtifact) :
    ReadsBack CompiledArtifact.record.read (Stage.compile.encode artifact).render artifact := by
  obtain ⟨refusal, readsHeadings⟩ := readsBack_list
    (fun heading (_ : heading ∈ artifact.headings) => startsItem_heading heading)
    (fun heading _ => readsBack_heading heading)
  exact ⟨refusal, readsUnless_compiled readsHeadings⟩

/-- A lowered module is read back from its object. -/
theorem readsUnless_lowered (artifact : LoweredModule) :
    ReadsUnless (.ok ()) LoweredModule.record.read (Stage.lowering.encode artifact).render
      artifact :=
  Record.readsUnless_object
    (.next (Record.readsUnless_member rfl rfl (readsUnless_text _ artifact.code))
      (.next (Record.readsUnless_member rfl rfl (readsUnless_optional _ artifact.map))
        (.done _))) rfl

namespace Stage

/-- An artifact whose printed form is that of no other artifact: in frontmatter, numbers have to be
integers. -/
def IsPlain : (stage : Stage) → stage.Artifact → Prop
  | .frontmatter, artifact => artifact.data.isWhole = true
  | .compile, _ => True
  | .lowering, _ => True

/-- A whole text is read as the value that was printed, if it is read at all. -/
theorem eq_of_parseAs {α : Type} {readWhole : Text → Except Fault (α × Text)} {printed : Text}
    {value found : α} (readsBack : ReadsBack readWhole printed value)
    (parsed : parseAs readWhole printed = .ok found) : found = value := by
  obtain ⟨refusal, reads⟩ := readsBack
  rw [parseAs_of_readsUnless reads] at parsed
  cases refusal with
  | error fault => cases parsed
  | ok _ => cases parsed; rfl

/-- What is read from the file of an artifact is the artifact. -/
theorem eq_of_decode_encode {stage : Stage} {artifact found : stage.Artifact}
    (plain : stage.IsPlain artifact)
    (decoded : stage.decode (stage.encode artifact).render = .ok found) : found = artifact := by
  cases stage with
  | frontmatter => exact eq_of_parseAs (readsBack_frontmatter plain) decoded
  | compile => exact eq_of_parseAs (readsBack_compiled artifact) decoded
  | lowering => exact eq_of_parseAs ⟨_, readsUnless_lowered artifact⟩ decoded

/-! ## Artifacts that are read back -/

/-- The artifact is read back from its file. -/
def Survives (stage : Stage) (artifact : stage.Artifact) : Prop :=
  stage.decode (stage.encode artifact).render = .ok artifact

/-- An artifact in which every number is an integer of the range of its field. -/
def IsIntegral : (stage : Stage) → stage.Artifact → Prop
  | .frontmatter, artifact => artifact.data.isWhole = true
  | .compile, artifact => ∀ heading ∈ artifact.headings, heading.depth ≤ 255
  | .lowering, _ => True

/-- How deep the data of an artifact nests. -/
def nesting : (stage : Stage) → stage.Artifact → Nat
  | .frontmatter, artifact => artifact.data.depth
  | .compile, _ => 0
  | .lowering, _ => 0

/-- An artifact in which every number is an integer is read back exactly if its data does not nest
deeper than the reader goes inside the object of the artifact. -/
theorem survives_iff {stage : Stage} {artifact : stage.Artifact}
    (integral : stage.IsIntegral artifact) :
    stage.Survives artifact ↔ stage.nesting artifact < greatestDepth := by
  cases stage with
  | frontmatter =>
    have decodes := parseAs_of_readsUnless
      (readsUnless_frontmatter (readsUnless_value integral (greatestDepth - 1)))
    have bound : artifact.data.depth ≤ greatestDepth - 1 ↔ artifact.data.depth < greatestDepth :=
      Nat.le_sub_one_iff_lt (by decide)
    rw [Survives, decode, decodes, nesting, ← bound]
    split
    · next shallow => simp [shallow, Except.map]
    · next deep => simp [deep, Except.map]
  | compile =>
    have readsHeadings := readsUnless_list
      (fun heading (_ : heading ∈ artifact.headings) => startsItem_heading heading)
      fun heading member => readsUnless_heading
        (render_ofNat heading.depth ▸ readsUnless_bounded (integral heading member) (by decide))
    have decodes := parseAs_of_readsUnless (readsUnless_compiled readsHeadings)
    exact iff_of_true decodes (Nat.succ_pos _)
  | lowering =>
    exact iff_of_true (parseAs_of_readsUnless (readsUnless_lowered artifact)) (Nat.succ_pos _)

end Stage

end MdxBuild

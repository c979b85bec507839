import MdxBuild.Heading.Record
import MdxBuild.Json.Record

/-!
# Cached artifacts

Three stages of the fallback path are cached: reading frontmatter, compiling and lowering. Each has
its own kind of artifact, which is written to disk as JSON.
-/

namespace MdxBuild

open Json

/-- A cached stage of the fallback path. -/
inductive Stage where
  | frontmatter
  | compile
  | lowering
deriving DecidableEq, Repr

/-- The frontmatter of a document as data. -/
structure FrontmatterArtifact where
  data : Json
deriving Repr

/-- What the fallback compiler made of a document, with heading ids, and its headings. -/
structure CompiledArtifact where
  code : Text
  headings : List HeadingRecord
deriving DecidableEq, Repr

/-- The final code of a module, and its source map if there is one. -/
structure LoweredModule where
  code : Text
  map : Option Text
deriving DecidableEq, Repr

namespace Stage

/-- The stages, in the order in which a document runs through them. -/
def all : List Stage :=
  [.frontmatter, .compile, .lowering]

/-- The name under which a stage keeps its entries. -/
def name : Stage → Text
  | .frontmatter => "frontmatter".toList
  | .compile => "compile".toList
  | .lowering => "lowering".toList

/-- The artifacts of a stage. -/
abbrev Artifact : Stage → Type
  | .frontmatter => FrontmatterArtifact
  | .compile => CompiledArtifact
  | .lowering => LoweredModule

end Stage

/-! ## Artifacts as JSON -/

/-- What has been read of a heading record. -/
structure HeadingRecord.Draft where
  depth : Option Nat := none
  slug : Option Text := none
  text : Option Text := none

/-- Reads a natural number up to a bound that a message calls `expected`. -/
def readBounded (expected : Text) (greatest : Nat) (text : Text) : Except Fault (Nat × Text) := do
  let (value, after) ← readUnsigned expected text
  if value ≤ greatest then .ok (value, after)
  else .error (.invalidValue (.number (.integer value)) expected)

/-- The record of a heading. -/
def HeadingRecord.record : Record HeadingRecord.Draft HeadingRecord where
  name := "struct HeadingRecord".toList
  fields := [
    .of "depth".toList true HeadingRecord.Draft.depth
      (fun draft value => { draft with depth := some value }) (readBounded "u8".toList 255),
    .of "slug".toList true HeadingRecord.Draft.slug
      (fun draft value => { draft with slug := some value }) (readText "a string".toList),
    .of "text".toList true HeadingRecord.Draft.text
      (fun draft value => { draft with text := some value }) (readText "a string".toList)]
  blank := {}
  finish draft := do
    let depth ← require "depth".toList draft.depth
    let slug ← require "slug".toList draft.slug
    let text ← require "text".toList draft.text
    .ok ⟨depth, slug, text⟩

/-- What has been read of a frontmatter artifact. -/
structure FrontmatterArtifact.Draft where
  data : Option Json := none

/-- The record of a frontmatter artifact. -/
def FrontmatterArtifact.record : Record FrontmatterArtifact.Draft FrontmatterArtifact where
  name := "struct FrontmatterArtifact".toList
  fields := [
    .of "data".toList true FrontmatterArtifact.Draft.data
      (fun draft value => { draft with data := some value }) (readValue (greatestDepth - 1))]
  blank := {}
  finish draft := do
    let data ← require "data".toList draft.data
    .ok ⟨data⟩

/-- What has been read of a compiled artifact. -/
structure CompiledArtifact.Draft where
  code : Option Text := none
  headings : Option (List HeadingRecord) := none

/-- The record of a compiled artifact. -/
def CompiledArtifact.record : Record CompiledArtifact.Draft CompiledArtifact where
  name := "struct CompiledArtifact".toList
  fields := [
    .of "code".toList true CompiledArtifact.Draft.code
      (fun draft value => { draft with code := some value }) (readText "a string".toList),
    .of "headings".toList true CompiledArtifact.Draft.headings
      (fun draft value => { draft with headings := some value })
      (readList HeadingRecord.record.read)]
  blank := {}
  finish draft := do
    let code ← require "code".toList draft.code
    let headings ← require "headings".toList draft.headings
    .ok ⟨code, headings⟩

/-- What has been read of a lowered module. -/
structure LoweredModule.Draft where
  code : Option Text := none
  map : Option (Option Text) := none

/-- The record of a lowered module. -/
def LoweredModule.record : Record LoweredModule.Draft LoweredModule where
  name := "struct LoweredModule".toList
  fields := [
    .of "code".toList true LoweredModule.Draft.code
      (fun draft value => { draft with code := some value }) (readText "a string".toList),
    .of "map".toList true LoweredModule.Draft.map
      (fun draft value => { draft with map := some value })
      (readOptional (readText "a string".toList))]
  blank := {}
  finish draft := do
    let code ← require "code".toList draft.code
    .ok ⟨code, draft.map.getD none⟩

/-- An artifact as JSON. -/
def Stage.encode : (stage : Stage) → stage.Artifact → Json
  | .frontmatter, artifact => .object [("data".toList, artifact.data)]
  | .compile, artifact =>
    .object [
      ("code".toList, .string artifact.code),
      ("headings".toList, .array (artifact.headings.map HeadingRecord.toJson))]
  | .lowering, artifact =>
    .object [
      ("code".toList, .string artifact.code),
      ("map".toList, .ofOption .string artifact.map)]

/-- Reads an artifact of a stage from a text. -/
def Stage.decode : (stage : Stage) → Text → Except Fault stage.Artifact
  | .frontmatter, text => parseAs FrontmatterArtifact.record.read text
  | .compile, text => parseAs CompiledArtifact.record.read text
  | .lowering, text => parseAs LoweredModule.record.read text

end MdxBuild

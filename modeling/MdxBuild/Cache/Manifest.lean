import MdxBuild.Cache.Artifact
import MdxBuild.Storage.Disk

/-!
# The cache manifest

The manifest maps each document, for each stage, to the digest it had last. It is kept in a file of
the cache directory; a file that is missing, is no manifest or has another format version counts as
an empty manifest.
-/

namespace MdxBuild

open Json

/-- The digests of the documents, by namespace and document. -/
structure Manifest where
  version : Nat
  namespaces : Dictionary (Dictionary Text)
deriving DecidableEq

/-- Why a write to the cache directory failed: the path that could not be made. -/
structure CacheError where
  path : Path
deriving DecidableEq, Repr

namespace Manifest

/-- The version of the format. -/
def formatVersion : Nat :=
  1

/-- The file of the manifest in the cache directory. -/
def fileName : Text :=
  "manifest.json".toList

/-- The manifest without documents. -/
def empty : Manifest :=
  ⟨formatVersion, .empty⟩

instance : Inhabited Manifest :=
  ⟨empty⟩

/-- The digests of a stage, by document. -/
def documents (manifest : Manifest) (stage : Stage) : Dictionary Text :=
  (manifest.namespaces.find? stage.name).getD .empty

/-- The digest of a document in a stage. -/
def digest? (manifest : Manifest) (stage : Stage) (id : Text) : Option Text :=
  (manifest.documents stage).find? id

/-- The manifest with a new digest for a document in a stage. -/
def record (manifest : Manifest) (stage : Stage) (id digest : Text) : Manifest :=
  { manifest with
    namespaces :=
      manifest.namespaces.insert stage.name ((manifest.documents stage).insert id digest) }

/-- Some document has the digest in a stage. -/
def references (manifest : Manifest) (stage : Stage) (digest : Text) : Bool :=
  (manifest.documents stage).values.contains digest

/-- The manifest without a document. -/
def remove (manifest : Manifest) (id : Text) : Manifest :=
  { manifest with namespaces := manifest.namespaces.map (·.erase id) }

/-- The manifest as JSON. -/
def toJson (manifest : Manifest) : Json :=
  .object [
    ("version".toList, .ofNat manifest.version),
    ("namespaces".toList,
      .ofDictionary (manifest.namespaces.map fun documents =>
        .ofDictionary (documents.map .string)))]

/-- Reads an object of any keys; the last value of a key counts. -/
def readDictionary {α : Type} (readItem : Text → Except Fault (α × Text)) (text : Text) :
    Except Fault (Dictionary α × Text) :=
  match skipBlanks text with
  | [] => .error (.endOf .value)
  | char :: rest =>
    if char = '{' then
      readMembers (fun entries key afterKey => do
        let (value, after) ← readItem (← afterColon afterKey)
        .ok (entries.insert key value, after)) (rest.length + 1) true Dictionary.empty rest
    else .error (mismatch "a map".toList (char :: rest))

/-- What has been read of a manifest. -/
structure Draft where
  version : Option Nat := none
  namespaces : Option (Dictionary (Dictionary Text)) := none

/-- The record of a manifest. -/
def format : Record Draft Manifest where
  name := "struct CacheManifest".toList
  fields := [
    .of "version".toList true Draft.version
      (fun draft value => { draft with version := some value })
      (readBounded "u32".toList (Nat.pow 2 32 - 1)),
    .of "namespaces".toList true Draft.namespaces
      (fun draft value => { draft with namespaces := some value })
      (readDictionary (readDictionary (readText "a string".toList)))]
  blank := {}
  finish draft := do
    let version ← require "version".toList draft.version
    let namespaces ← require "namespaces".toList draft.namespaces
    .ok ⟨version, namespaces⟩

/-- The manifest that the text of its file holds. -/
def ofText (text : Text) : Manifest :=
  match parseAs format.read text with
  | .ok manifest => if manifest.version = formatVersion then manifest else empty
  | .error _ => empty

/-- The manifest kept in a directory. -/
def load (disk : Disk) : Manifest :=
  match disk.read? [fileName] with
  | some text => ofText text
  | none => empty

/-- Writes the manifest into its file in a directory. -/
def save (manifest : Manifest) (disk : Disk) : Except CacheError Unit × Disk :=
  let (result, written) := disk.put [fileName] manifest.toJson.renderPretty
  (result.mapError CacheError.mk, written)

end Manifest

end MdxBuild

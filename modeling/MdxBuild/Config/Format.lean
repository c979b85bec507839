import MdxBuild.Component.Format
import MdxBuild.Config.Options

/-!
# Build options as JSON

The host hands over its options as a JSON text. Every option has a default; options it does not
know are passed over.
-/

namespace MdxBuild

open Json

/-- What has been read of the lowering options. -/
structure LoweringOptions.Draft where
  maxWorkers : Option Nat := none
  timeoutMs : Option Nat := none
  jsxImportSource : Option Text := none
  sourceMaps : Option Bool := none

/-- The lowering options of a draft, with defaults for what it leaves open. -/
def LoweringOptions.ofDraft (draft : LoweringOptions.Draft) : LoweringOptions :=
  let fallback : LoweringOptions := {}
  { maxWorkers := draft.maxWorkers.getD fallback.maxWorkers
    timeoutMs := draft.timeoutMs.getD fallback.timeoutMs
    jsxImportSource := draft.jsxImportSource.getD fallback.jsxImportSource
    sourceMaps := draft.sourceMaps.getD fallback.sourceMaps }

/-- The record of the lowering options. -/
def LoweringOptions.record : Record LoweringOptions.Draft LoweringOptions where
  name := "struct LoweringConfig".toList
  fields := [
    .of "maxWorkers".toList false LoweringOptions.Draft.maxWorkers
      (fun draft value => { draft with maxWorkers := some value }) (readUnsigned "usize".toList),
    .of "timeoutMs".toList false LoweringOptions.Draft.timeoutMs
      (fun draft value => { draft with timeoutMs := some value }) (readUnsigned "u64".toList),
    .of "jsxImportSource".toList false LoweringOptions.Draft.jsxImportSource
      (fun draft value => { draft with jsxImportSource := some value })
      (readText "a string".toList),
    .of "sourceMaps".toList false LoweringOptions.Draft.sourceMaps
      (fun draft value => { draft with sourceMaps := some value }) readBool]
  blank := {}
  finish draft := .ok (LoweringOptions.ofDraft draft)

/-- The lowering options as JSON. -/
def LoweringOptions.toJson (options : LoweringOptions) : Json :=
  .object [
    ("maxWorkers".toList, .ofNat options.maxWorkers),
    ("timeoutMs".toList, .ofNat options.timeoutMs),
    ("jsxImportSource".toList, .string options.jsxImportSource),
    ("sourceMaps".toList, .bool options.sourceMaps)]

/-- What has been read of the build options. -/
structure BuildOptions.Draft where
  allowImports : Option (List Text) := none
  ignoreCodeFences : Option Bool := none
  defaultDirectives : Option Bool := none
  componentLibraries : Option (List ComponentLibrary) := none
  componentExtension : Option Text := none
  cacheDir : Option (Option Text) := none
  lowering : Option LoweringOptions := none

/-- The build options of a draft, with defaults for what it leaves open. -/
def BuildOptions.ofDraft (draft : BuildOptions.Draft) : BuildOptions :=
  let fallback : BuildOptions := {}
  { allowImports := draft.allowImports.getD fallback.allowImports
    ignoreCodeFences := draft.ignoreCodeFences.getD fallback.ignoreCodeFences
    defaultDirectives := draft.defaultDirectives.getD fallback.defaultDirectives
    componentLibraries := draft.componentLibraries.getD fallback.componentLibraries
    componentExtension := draft.componentExtension.getD fallback.componentExtension
    cacheDir := draft.cacheDir.getD fallback.cacheDir
    lowering := draft.lowering.getD fallback.lowering }

/-- The record of the build options. -/
def BuildOptions.record : Record BuildOptions.Draft BuildOptions where
  name := "struct BuildConfig".toList
  fields := [
    .of "allowImports".toList false BuildOptions.Draft.allowImports
      (fun draft value => { draft with allowImports := some value })
      (readList (readText "a string".toList)),
    .of "ignoreCodeFences".toList false BuildOptions.Draft.ignoreCodeFences
      (fun draft value => { draft with ignoreCodeFences := some value }) readBool,
    .of "defaultDirectives".toList false BuildOptions.Draft.defaultDirectives
      (fun draft value => { draft with defaultDirectives := some value }) readBool,
    .of "componentLibraries".toList false BuildOptions.Draft.componentLibraries
      (fun draft value => { draft with componentLibraries := some value })
      (readList ComponentLibrary.record.read),
    .of "componentExtension".toList false BuildOptions.Draft.componentExtension
      (fun draft value => { draft with componentExtension := some value })
      (readText "a string".toList),
    .of "cacheDir".toList false BuildOptions.Draft.cacheDir
      (fun draft value => { draft with cacheDir := some value })
      (readOptional (readText "path string".toList)),
    .of "lowering".toList false BuildOptions.Draft.lowering
      (fun draft value => { draft with lowering := some value }) LoweringOptions.record.read]
  blank := {}
  finish draft := .ok (BuildOptions.ofDraft draft)

/-- The build options as JSON, with every default spelled out. -/
def BuildOptions.toJson (options : BuildOptions) : Json :=
  .object [
    ("allowImports".toList, .array (options.allowImports.map .string)),
    ("ignoreCodeFences".toList, .bool options.ignoreCodeFences),
    ("defaultDirectives".toList, .bool options.defaultDirectives),
    ("componentLibraries".toList,
      .array (options.componentLibraries.map ComponentLibrary.toJson)),
    ("componentExtension".toList, .string options.componentExtension),
    ("cacheDir".toList, .ofOption .string options.cacheDir),
    ("lowering".toList, options.lowering.toJson)]

/-- Why there are no build options. -/
inductive ConfigError where
  /-- The file cannot be read. -/
  | unreadable
  | invalid (fault : Fault)
deriving DecidableEq, Repr

/-- What is wrong with the options, in words. -/
def ConfigError.message : ConfigError → Text
  | .unreadable => "failed to read config".toList
  | .invalid fault => "invalid build config: ".toList ++ fault.message

/-- The build options of a JSON text. -/
def BuildOptions.parse (text : Text) : Except ConfigError BuildOptions :=
  (parseAs BuildOptions.record.read text).mapError .invalid

/-- The build options of a file's content, if there is one. -/
def BuildOptions.ofFile : Option Text → Except ConfigError BuildOptions
  | none => .error .unreadable
  | some content => parse content

end MdxBuild

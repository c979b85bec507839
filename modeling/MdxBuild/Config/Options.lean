import MdxBuild.Component.Registry
import MdxBuild.Route

/-!
# Build options

The options that the host sets for a build. Options that can change what is made of a document are
part of a fingerprint, so that results made under other options are never taken for current.
-/

namespace MdxBuild

/-- The options of the lowering stage. -/
structure LoweringOptions where
  /-- The greatest number of workers for a batch. -/
  maxWorkers : Nat := 8
  /-- The time in milliseconds after which a chunk counts as failed. -/
  timeoutMs : Nat := 60000
  /-- The package whose runtime the lowered modules import. -/
  jsxImportSource : Text := "react".toList
  sourceMaps : Bool := true
deriving DecidableEq, Repr

/-- The options of a build. -/
structure BuildOptions where
  /-- The modules that the fast path may import. -/
  allowImports : List Text := []
  ignoreCodeFences : Bool := true
  /-- The built-in directives stand in where no library declares any. -/
  defaultDirectives : Bool := true
  componentLibraries : List ComponentLibrary := []
  /-- The file extension of modules that hold one component. -/
  componentExtension : Text := ".astro".toList
  /-- Where the cache is kept between builds, if anywhere. -/
  cacheDir : Option Text := none
  lowering : LoweringOptions := {}
deriving DecidableEq, Repr

namespace BuildOptions

/-- The registry of the configured libraries. -/
def registry (options : BuildOptions) : Registry :=
  (Registry.merge options.componentLibraries).withBuiltin options.defaultDirectives

/-- The modules that the fast path may import. -/
def allowList (options : BuildOptions) : AllowList :=
  ⟨options.allowImports⟩

end BuildOptions

end MdxBuild

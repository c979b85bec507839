import MdxBuild.Config.Format
import MdxBuild.Digest.Content

/-!
# Fingerprints of options

The fingerprint of a stage is the hash of the compact JSON form of the options that matter for what
the stage makes, headed by the stage's name.
-/

namespace MdxBuild.BuildOptions

/-- The options that matter for what the fallback compiler is given and makes. -/
def compileKey (options : BuildOptions) : Json :=
  .array [
    .string "compile".toList,
    .array (options.componentLibraries.map ComponentLibrary.toJson),
    .bool options.defaultDirectives,
    .string options.componentExtension]

/-- The options that matter for lowered code. -/
def loweringKey (options : BuildOptions) : Json :=
  .array [
    .string "lowering".toList,
    .string options.lowering.jsxImportSource,
    .bool options.lowering.sourceMaps]

/-- The fingerprint of the options for the compile stage. -/
def compileFingerprint (hash : Hash) (options : BuildOptions) : Text :=
  hash (Text.utf8 options.compileKey.render)

/-- The fingerprint of the options for the lowering stage. -/
def loweringFingerprint (hash : Hash) (options : BuildOptions) : Text :=
  hash (Text.utf8 options.loweringKey.render)

end MdxBuild.BuildOptions

import MdxBuild.Route
import MdxBuild.Text.Regular

/-!
# Compiled allow lists

The patterns of an allow list are matched as regular expressions: the pieces of a glob between its
stars, escaped, with `.*` for each star, from the start of the specifier to its end. A list is
compiled as a whole, which fails with the first pattern that the engine refuses, or leniently,
without the patterns that it refuses. Whether the host has configured a list at all is told by the
patterns that it gave, not by those that were compiled.
-/

namespace MdxBuild

open Regular

/-- A glob in the notation of regular expressions. -/
def Glob.expression (engine : Engine) (glob : Text) : Text :=
  '^' :: ".*".toList.intercalate ((glob.splitOn '*').map engine.escape) ++ ['$']

/-- A pattern of an allow list that the engine refused. -/
structure PatternFault where
  pattern : Text
  reason : Text
deriving DecidableEq, Repr

/-- The fault in words. -/
def PatternFault.render (fault : PatternFault) : Text :=
  "invalid allowImports pattern '".toList ++ fault.pattern ++ "': ".toList ++ fault.reason

/-- The module specifiers that the fast path may import, ready for matching. -/
structure CompiledAllowList (engine : Engine) where
  matchers : List engine.Matcher
  isConfigured : Bool

namespace CompiledAllowList

variable {engine : Engine}

/-- The matchers for patterns, up to the first one that is refused. -/
def matchers? (engine : Engine) : List Text → Except PatternFault (List engine.Matcher)
  | [] => .ok []
  | pattern :: others =>
    match engine.compile (Glob.expression engine pattern) with
    | .error reason => .error ⟨pattern, reason⟩
    | .ok matcher => (matchers? engine others).map (matcher :: ·)

/-- The allow list with all of the patterns. -/
def compile (engine : Engine) (patterns : List Text) :
    Except PatternFault (CompiledAllowList engine) :=
  (matchers? engine patterns).map (⟨·, !patterns.isEmpty⟩)

/-- The allow list with the patterns that the engine takes. -/
def lenient (engine : Engine) (patterns : List Text) : CompiledAllowList engine where
  matchers := patterns.filterMap fun pattern =>
    (engine.compile (Glob.expression engine pattern)).toOption
  isConfigured := !patterns.isEmpty

/-- One of the patterns accepts the specifier. -/
def allows (allowed : CompiledAllowList engine) (specifier : Text) : Bool :=
  allowed.matchers.any (engine.occurs · specifier)

end CompiledAllowList

namespace Route

variable {engine : Engine}

/-- The route of a document under a compiled allow list. -/
def classifyWith (allowed : CompiledAllowList engine) (ignoreFences : Bool) (source : Text) :
    Route :=
  if source.isEmpty then .fast
  else
    let specifiers := Import.specifiers (scanned ignoreFences source)
    if specifiers.isEmpty then .fast
    else if !allowed.isConfigured then .fallback .noAllowList specifiers
    else
      match specifiers.filter (!allowed.allows ·) with
      | [] => .fast
      | refused => .fallback .notAllowed refused

/-- The route of a document under the patterns that an engine takes. -/
def classifyLeniently (engine : Engine) (patterns : List Text) (ignoreFences : Bool)
    (source : Text) : Route :=
  classifyWith (.lenient engine patterns) ignoreFences source

end Route

end MdxBuild

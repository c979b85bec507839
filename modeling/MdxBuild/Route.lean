import MdxBuild.Import.Statement
import MdxBuild.Markdown.Fence
import MdxBuild.Markdown.Frontmatter
import MdxBuild.Text.Glob

/-!
# Routing

A document takes the fast path unless it imports a module that the host does not allow. Imports
count in the body only, and, on request, outside fenced code only. A list of patterns allows what
one of its globs accepts; the empty list allows nothing and gives the fallback its own cause.
-/

namespace MdxBuild

open Text

/-- The module specifiers that the fast path may import. -/
structure AllowList where
  patterns : List Text
deriving DecidableEq, Repr

namespace AllowList

/-- At least one pattern was given. -/
def isConfigured (allowed : AllowList) : Bool :=
  !allowed.patterns.isEmpty

/-- One of the patterns accepts the specifier. -/
def allows (allowed : AllowList) (specifier : Text) : Bool :=
  allowed.patterns.any (Glob.accepts · specifier)

end AllowList

/-- Why a document cannot take the fast path. -/
inductive FallbackCause where
  | noAllowList
  | notAllowed
deriving DecidableEq, Repr

/-- The path that a document takes through the build. -/
inductive Route where
  | fast
  | fallback (cause : FallbackCause) (disallowed : List Text)
deriving DecidableEq, Repr

namespace Route

/-- The number of specifiers that a reason names before it counts the rest. -/
def namedInReason : Nat :=
  3

/-- The first specifiers, and how many more there are. -/
def summary (specifiers : List Text) : Text :=
  let shown := (", ".toList).intercalate (specifiers.take namedInReason)
  if namedInReason < specifiers.length then
    shown ++ " (and ".toList ++ ofNat (specifiers.length - namedInReason) ++ " more)".toList
  else shown

/-- The document takes the fast path. -/
def isFast : Route → Bool
  | .fast => true
  | .fallback .. => false

/-- The specifiers that keep the document off the fast path. -/
def disallowed : Route → List Text
  | .fast => []
  | .fallback _ specifiers => specifiers

/-- The reason for the fallback path, for people. -/
def reason : Route → Option Text
  | .fast => none
  | .fallback .noAllowList specifiers =>
    some ("Contains imports with no allowImports configured: ".toList ++ summary specifiers)
  | .fallback .notAllowed specifiers =>
    some ("Contains imports not in allowImports: ".toList ++ summary specifiers)

/-- The text in which imports are looked for. -/
def scanned (ignoreFences : Bool) (source : Text) : Text :=
  if ignoreFences then blankFences (Frontmatter.strip source) else Frontmatter.strip source

/-- The route of a document that imports the given specifiers. -/
def ofSpecifiers (allowed : AllowList) (specifiers : List Text) : Route :=
  if specifiers.isEmpty then .fast
  else if !allowed.isConfigured then .fallback .noAllowList specifiers
  else
    match specifiers.filter (!allowed.allows ·) with
    | [] => .fast
    | refused => .fallback .notAllowed refused

/-- The route of a document. -/
def classify (allowed : AllowList) (ignoreFences : Bool) (source : Text) : Route :=
  ofSpecifiers allowed (Import.specifiers (scanned ignoreFences source))

end Route

end MdxBuild

import MdxBuild.Heading.Record
import MdxBuild.Json.Value

/-!
# Outside compilers

A build relies on two compilers that the host supplies: a native one for documents that need nothing
but Markdown, which also knows the frontmatter and the headings of every document, and a fallback
one for all other documents. They are functions here; which of them are called, and with what, is
recorded as a list of calls.
-/

namespace MdxBuild

/-- A compiler that failed on a document. -/
structure CompilerFailure where
  compiler : Text
  path : Text
  message : Text
deriving DecidableEq, Repr

namespace CompilerFailure

/-- The failure in words. -/
def render (failure : CompilerFailure) : Text :=
  failure.compiler ++ " failed for ".toList ++ failure.path ++ ": ".toList ++ failure.message

/-- A failure of the native compiler. -/
def native (path message : Text) : CompilerFailure :=
  ⟨"native compiler".toList, path, message⟩

/-- A failure of the fallback compiler. -/
def fallback (path message : Text) : CompilerFailure :=
  ⟨"fallback compiler".toList, path, message⟩

end CompilerFailure

/-- What the native compiler is told about a document. -/
structure CompileRequest where
  file : Option Text
  url : Option Text
deriving DecidableEq, Repr

/-- What the native compiler makes of a document. -/
structure NativeOutput where
  code : Text
  frontmatter : Json
  headings : List HeadingRecord
  diagnostics : List Text

/-- The native compiler: what it makes of a source under a path. -/
structure NativeCompiler where
  compile : (source path : Text) → CompileRequest → Except CompilerFailure NativeOutput
  parseFrontmatter : (source path : Text) → Except CompilerFailure Json
  extractHeadings : (source path : Text) → Except CompilerFailure (List HeadingRecord)

/-- An extension of Markdown that the fallback compiler is asked to apply. -/
inductive FallbackPlugin where
  | gfm
  | directivePassThrough
  | taskListNormalization
  | headingIds
deriving DecidableEq, Repr

/-- The extensions that the fallback compiler is asked to apply. -/
def FallbackPlugin.all : List FallbackPlugin :=
  [.gfm, .directivePassThrough, .taskListNormalization, .headingIds]

/-- What the fallback compiler makes of a document. Its headings are of use only if the native
compiler cannot tell them. -/
structure FallbackOutput where
  code : Text
  headings : List HeadingRecord
deriving DecidableEq, Repr

/-- The fallback compiler: what it makes of a source under a path. -/
abbrev FallbackCompiler : Type :=
  (source path : Text) → List FallbackPlugin → Except CompilerFailure FallbackOutput

/-- A call of an outside compiler. -/
inductive CompilerCall where
  | compileNatively (path source : Text) (request : CompileRequest)
  | parseFrontmatter (path : Text)
  | extractHeadings (path : Text)
  | compileAsFallback (path source : Text) (plugins : List FallbackPlugin)
deriving DecidableEq, Repr

end MdxBuild

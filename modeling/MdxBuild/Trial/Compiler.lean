import MdxBuild.Json.Printer
import MdxBuild.Markdown.Frontmatter
import MdxBuild.Session.Compiler

/-!
# Trial compilers

Compilers that a session can be tried out with. They read just as much of a document as a session
shows: lines of frontmatter that hold a key and a value, and heading lines. Documents for which a
step is to fail are listed by path.
-/

namespace MdxBuild.Trial

open Text

/-! ## Documents -/

/-- The key and the value that a line of frontmatter holds. -/
def frontmatterEntry? (line : Text) : Option (Text × Json) :=
  match line.dropWhile (· != ':') with
  | [] => none
  | _ :: value => some (trim (line.takeWhile (· != ':')), .string (trim value))

/-- The frontmatter of a source: the entries of its lines, sorted by key. -/
def frontmatter (source : Text) : Json :=
  let content := match Frontmatter.find? source with
    | some block => block.content
    | none => []
  .ofDictionary (.ofList ((content.splitOn '\n').filterMap frontmatterEntry?))

/-- A heading of a document, before it has a slug. -/
structure HeadingLine where
  depth : Nat
  text : Text
deriving DecidableEq, Repr

/-- The heading that a line holds: up to six signs, a space and its text. -/
def headingLine? (line : Text) : Option HeadingLine :=
  let signs := line.takeWhile (· = '#')
  match line.drop signs.length with
  | ' ' :: rest =>
    if 1 ≤ signs.length && signs.length ≤ 6 then some ⟨signs.length, trim rest⟩ else none
  | _ => none

/-- The headings of a source. -/
def headingLines (source : Text) : List HeadingLine :=
  ((Frontmatter.strip source).splitOn '\n').filterMap headingLine?

/-- The maximal runs of letters and digits of the ASCII range. -/
def runs : Text → List Text
  | [] => []
  | char :: rest =>
    if !char.isAlphanum then runs rest
    else
      match rest, runs rest with
      | next :: _, run :: others =>
        if next.isAlphanum then (char :: run) :: others else [char] :: run :: others
      | _, others => [char] :: others

/-- The slug that a heading text has by itself. -/
def baseSlug (text : Text) : Text :=
  ['-'].intercalate (runs (asciiLower text))

/-- The records of headings, given the slugs that were used before. A slug that was used gets the
number of its uses. -/
def records (used : List Text) : List HeadingLine → List HeadingRecord
  | [] => []
  | line :: others =>
    let base := baseSlug line.text
    let slug := match used.count base with
      | 0 => base
      | count => base ++ ['-'] ++ ofNat count
    ⟨line.depth, slug, line.text⟩ :: records (base :: used) others

/-- The headings of a source with their slugs. -/
def headings (source : Text) : List HeadingRecord :=
  records [] (headingLines source)

/-! ## Native compiler -/

/-- What the trial native compiler fails on, and what it reports otherwise. -/
structure NativePlan where
  failCompile : List Text := []
  failFrontmatter : List Text := []
  failHeadings : List Text := []
  diagnostics : List Text := []

/-- The trial native compiler. -/
def NativePlan.compiler (plan : NativePlan) : NativeCompiler where
  compile source path _ :=
    if plan.failCompile.contains path then .error (.native path "native crash".toList)
    else
      .ok {
        code := "native:".toList ++ path
        frontmatter := frontmatter source
        headings := headings source
        diagnostics := plan.diagnostics }
  parseFrontmatter source path :=
    if plan.failFrontmatter.contains path then .error (.native path "bad frontmatter".toList)
    else .ok (frontmatter source)
  extractHeadings source path :=
    if plan.failHeadings.contains path then .error (.native path "no headings".toList)
    else .ok (headings source)

/-! ## Fallback compiler -/

/-- The call that makes a heading. -/
def headingCall (line : HeadingLine) : Text :=
  "_jsx(_components.h".toList ++ ofNat line.depth ++ ", \x7b children: ".toList ++
    Json.quote line.text ++ " \x7d)".toList

/-- The module that holds the headings of a source. -/
def headingModule (source : Text) : Text :=
  "import \x7b jsx as _jsx \x7d from \"react/jsx-runtime\";\n".toList ++
    "export default function MDXContent(props) \x7b\n".toList ++
    "  const _components = \x7b h1: \"h1\", h2: \"h2\", h3: \"h3\", ".toList ++
    "...props.components \x7d;\n".toList ++
    "  return <div className=\"content\">\x7b[".toList ++
    ", ".toList.intercalate ((headingLines source).map headingCall) ++
    "]\x7d</div>;\n\x7d\n".toList

/-- What the trial fallback compiler fails on, and what it makes otherwise. -/
structure FallbackPlan where
  failing : List Text := []
  headings : List HeadingRecord := []
  /-- The code for some paths. -/
  code : Dictionary Text := .empty

/-- The trial fallback compiler. -/
def FallbackPlan.compiler (plan : FallbackPlan) : FallbackCompiler := fun source path _ =>
  if plan.failing.contains path then .error (.fallback path "unexpected token".toList)
  else .ok ⟨(plan.code.find? path).getD (headingModule source), plan.headings⟩

end MdxBuild.Trial

import MdxBuild.Heading.Record
import MdxBuild.Json.Printer
import MdxBuild.Module.DefaultExport

/-!
# Metadata exports

Every component module exports what is known about its document beside the content component. What
the module already declares is left to it.
-/

namespace MdxBuild

open Text

/-- What is known about a document. -/
structure Metadata where
  frontmatter : Json
  headings : List HeadingRecord
  file : Text
  url : Option Text

namespace Metadata

/-- The words that declare a binding, the longer form of a function first. -/
def afterDeclarator? (text : Text) : Option Text :=
  let word := fun (keyword : String) => after? keyword.toList text
  match word "const" with
  | some rest => some rest
  | none =>
    match word "let" with
    | some rest => some rest
    | none =>
      match word "var" with
      | some rest => some rest
      | none =>
        match (word "async").bind DefaultExport.afterBlanks? with
        | some rest => after? "function".toList rest
        | none => word "function"

/-- The statement at the start of a text exports a binding of the given name. -/
def declares (name text : Text) : Bool :=
  let behindName := do
    let afterExport ← DefaultExport.afterBlanks? (← after? "export".toList text)
    let afterWord ← DefaultExport.afterBlanks? (← afterDeclarator? afterExport)
    after? name afterWord
  behindName.any wordEnds

/-- The module exports a binding of the given name. -/
def exported (name code : Text) : Bool :=
  (firstAtLineStart? (fun text => if declares name text then some () else none) code).isSome

/-- The statement that exports a constant. -/
def constant (name : Text) (value : Text) : Text :=
  "export const ".toList ++ name ++ " = ".toList ++ value ++ ";\n".toList

/-- The statement that exports the list of headings. -/
def headingsFunction (headings : List HeadingRecord) : Text :=
  "export function getHeadings() \x7b\n  return ".toList ++
    (Json.array (headings.map HeadingRecord.toJson)).render ++ ";\n\x7d\n".toList

/-- The names of the metadata exports, each with the statement that makes it. -/
def exports (metadata : Metadata) : List (Text × Text) :=
  [("frontmatter".toList, constant "frontmatter".toList metadata.frontmatter.render),
    ("getHeadings".toList, headingsFunction metadata.headings),
    ("file".toList, constant "file".toList (Json.quote metadata.file))] ++
  metadata.url.toList.map fun url =>
    ("url".toList, constant "url".toList (Json.quote url))

/-- The module with the metadata exports that it lacks and with `component` as its default
export. -/
def wrap (metadata : Metadata) (component code : Text) : Text :=
  trimEnd code ++ "\n\n".toList ++
    (metadata.exports.filter fun entry => !exported entry.1 code).flatMap Prod.snd ++
    "export default ".toList ++ component ++ ";\n".toList

/-- The component module of a compiled module. -/
def postProcess (metadata : Metadata) (code : Text) : Text :=
  let (normalized, component) := DefaultExport.normalize code
  metadata.wrap (component.getD DefaultExport.contentComponent) normalized

end Metadata

end MdxBuild

import MdxBuild.Jsx.Lowering
import MdxBuild.Jsx.Text
import MdxBuild.Script.Module

/-!
# Plain lowering

Lowering that needs nothing but the tree of a module. It takes every element, and names the runtime
bindings as usual, whether the module has such names of its own or not. Bindings that the module
imports already are not imported again.
-/

namespace MdxBuild.Jsx

open Script

/-- A name of letters and digits of the ASCII range, underscores and dollar signs. -/
def isSimpleName (text : Text) : Bool :=
  let isMark := fun (char : Char) => char = '_' || char = '$'
  text.head?.any (fun char => char.isAlpha || isMark char) &&
    text.all fun char => char.isAlphanum || isMark char

/-- The usual name of a runtime binding. -/
def RuntimeName.usual (name : RuntimeName) : Text :=
  '_' :: name.exported

/-- The style of plain lowering. -/
def plain : Style where
  name := RuntimeName.usual
  marksPure := false
  childText := cleanText
  attributeText := id
  isPlainKey := isSimpleName
  spreadChild := id
  inlinesObjects := false
  keepsLateKeys := false
  lowersEveryKey := true

/-- The name of the module that holds the runtime of a package. -/
def runtimeModule (package : Text) : Text :=
  package ++ "/jsx-runtime".toList

/-- The names that the statements of a module import. -/
def importedNames (statements : Module) : List Text :=
  statements.flatMap fun statement =>
    match statement with
    | .importItems items _ => items.map ImportItem.binding
    | _ => []

/-- The bindings that plain lowering introduces and that a module does not import already. -/
def missingNames (statements : Module) : List RuntimeName :=
  let used := plain.runtimeNames statements
  let imported := importedNames statements
  [.fragment, .jsx, .jsxs].filter fun name => used.contains name && !imported.contains name.usual

/-- The statement that imports what plain lowering introduces, if that is anything. -/
def runtimeImport (package : Text) (statements : Module) : Option Text :=
  let missing := missingNames statements
  if missing.isEmpty then none
  else
    let items := missing.map fun name => name.exported ++ " as ".toList ++ name.usual
    some ("import \x7b ".toList ++ ", ".toList.intercalate items ++ " \x7d from \"".toList ++
      runtimeModule package ++ "\";\n".toList)

/-- Plain lowering changes something. -/
def hasMarkup (statements : Module) : Bool :=
  !(plain.runtimeNames statements).isEmpty

/-- A statement that is a directive. -/
def isDirective : Node → Bool
  | .directive _ => true
  | _ => false

/-- The module lowered in the plain way, with its import of the runtime in front. The statement for
the import has to be one, which the name of a package can keep it from. -/
def lowerPlainly? (package : Text) (statements : Module) : Option Module := do
  let lowered := plain.lowerAll statements
  let header ← match runtimeImport package statements with
    | some code => Module.ofText? code
    | none => some []
  some (lowered.takeWhile isDirective ++ header ++ lowered.dropWhile isDirective)

end MdxBuild.Jsx

import MdxBuild.Component.Registry
import MdxBuild.Import.Binding
import MdxBuild.Markdown.Frontmatter

/-!
# Import injection

Every used component that a module does not import yet gets an import from the place where the
registry says it is exported: components with a module of their own one statement each, the named
exports of one module a common statement. The statements are sorted and stand before the code,
behind its frontmatter.
-/

namespace MdxBuild.Import

open Text

/-- The import of the component that renders the built-in directives. -/
def builtinAside : Text :=
  "import Aside from 'virtual:fallback-components/Aside';".toList

/-- The statement that imports a component from a module of its own. -/
def defaultStatement (fileExtension : Text) (component : Component) : Text :=
  "import ".toList ++ component.name ++ " from '".toList ++
    trimEndBy (· = '/') component.modulePath ++ ['/'] ++ component.name ++ fileExtension ++
    "';".toList

/-- The statement that imports named exports of a module. -/
def namedStatement (modulePath : Text) (names : List Text) : Text :=
  "import \x7b ".toList ++ (", ".toList).intercalate names ++ " \x7d from '".toList ++ modulePath ++
    "';".toList

/-- Where a component to be imported comes from. -/
inductive Source where
  /-- It is the default export of a module of its own. -/
  | ownModule (component : Component)
  /-- It is a named export. -/
  | namedExport (component : Component)
  /-- It is the built-in one. -/
  | builtin
deriving DecidableEq, Repr

/-- Where a component comes from, if the registry knows. -/
def source? (registry : Registry) (builtinActive : Bool) (name : Text) : Option Source :=
  match registry.component? name with
  | some component =>
    some (match component.exportKind with
      | .named => .namedExport component
      | .default => .ownModule component)
  | none => if name = Registry.asideComponent && builtinActive then some .builtin else none

/-- The components among the used ones that the code does not bind. -/
def missing (code : Text) (used : List Text) : List Text :=
  let bound := bindings code
  (sortedSet used).filter (!bound.contains ·)

/-- The named exports to import, by module. -/
def namedByModule (sources : List Source) : Dictionary (List Text) :=
  sources.foldl (fun modules source =>
    match source with
    | .namedExport component =>
      modules.insert component.modulePath
        ((modules.find? component.modulePath).getD [] ++ [component.name])
    | _ => modules) .empty

/-- The statements that import the given components, sorted. -/
def statements (fileExtension : Text) (sources : List Source) : List Text :=
  let single := sources.filterMap fun source =>
    match source with
    | .ownModule component => some (defaultStatement fileExtension component)
    | .builtin => some builtinAside
    | .namedExport _ => none
  let grouped := (namedByModule sources).entries.map fun (modulePath, names) =>
    namedStatement modulePath names
  (single ++ grouped).mergeSort precedes

/-- The code with imports for the used components that it does not import yet. -/
def inject (registry : Registry) (builtinActive : Bool) (fileExtension : Text) (used : List Text)
    (code : Text) : Text :=
  let sources := (missing code used).filterMap (source? registry builtinActive)
  match statements fileExtension sources with
  | [] => code
  | added =>
    let newline := newlineOf code
    let block := newline.intercalate added
    match Frontmatter.find? code with
    | some frontmatter => frontmatter.block ++ block ++ newline ++ newline ++ frontmatter.body
    | none => block ++ newline ++ newline ++ code

end MdxBuild.Import

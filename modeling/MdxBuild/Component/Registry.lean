import MdxBuild.Component.Library
import MdxBuild.Dictionary

/-!
# The component registry

The registry merges component libraries in order: a later component replaces an earlier one of the
same name, and a later directive one of the same name up to ASCII case. Where no library declares a
directive, a built-in set that renders as `Aside` can stand in.
-/

namespace MdxBuild

open Text

/-- The components and directives in force. Directives are kept under their lower-case names. -/
structure Registry where
  components : Dictionary Component := .empty
  directives : Dictionary DirectiveMapping := .empty
  /-- The directives are those of the built-in set. -/
  builtinActive : Bool := false
deriving DecidableEq

namespace Registry

/-- The component that renders the built-in directives. -/
def asideComponent : Text :=
  "Aside".toList

/-- The names of the built-in directives. -/
def builtinNames : List Text :=
  ["note", "tip", "info", "caution", "warning", "danger", "important"].map String.toList

/-- A built-in directive passes its own name as its type. -/
def builtinMapping (name : Text) : DirectiveMapping :=
  ⟨name, asideComponent, [⟨"type".toList, .directiveName⟩]⟩

/-- The registry with one more component. -/
def addComponent (registry : Registry) (component : Component) : Registry :=
  { registry with components := registry.components.insert component.name component }

/-- The registry with one more directive, under its lower-case name. -/
def addDirective (registry : Registry) (mapping : DirectiveMapping) : Registry :=
  let name := asciiLower mapping.directive
  { registry with
    directives := registry.directives.insert name { mapping with directive := name } }

/-- The registry with the declarations of one more library. -/
def addLibrary (registry : Registry) (library : ComponentLibrary) : Registry :=
  library.directives.foldl addDirective (library.components.foldl addComponent registry)

/-- The registry of a list of libraries. -/
def merge (libraries : List ComponentLibrary) : Registry :=
  libraries.foldl addLibrary {}

/-- Some directive is declared. -/
def hasDirectives (registry : Registry) : Bool :=
  !registry.directives.isEmpty

/-- The registry with the built-in directives, if they are wanted and there are no others. -/
def withBuiltin (registry : Registry) (wanted : Bool) : Registry :=
  if wanted && !registry.hasDirectives then
    { registry with
      directives := .ofList (builtinNames.map fun name => (name, builtinMapping name))
      builtinActive := true }
  else registry

/-- The mapping of a directive, up to ASCII case. -/
def directive? (registry : Registry) (name : Text) : Option DirectiveMapping :=
  registry.directives.find? (asciiLower name)

/-- The component of a name. -/
def component? (registry : Registry) (name : Text) : Option Component :=
  registry.components.find? name

/-- The layout of a component's children; a component that is not registered holds Markdown. -/
def slotsOf (registry : Registry) (component : Text) : SlotLayout :=
  ((registry.component? component).map Component.slots).getD .markdown

end Registry

end MdxBuild

import MdxBuild.Component.Library
import MdxBuild.Json.Record

/-!
# Component libraries as JSON

The printed form names every field, in the order of the type; the readers accept it and every form
that leaves out fields with a default.
-/

namespace MdxBuild

open Json

/-- The names of the export kinds. -/
def ExportKind.names : List (Text × ExportKind) :=
  [("default".toList, .default), ("named".toList, .named)]

/-- The names of the slot layouts. -/
def SlotLayout.names : List (Text × SlotLayout) :=
  [("markdown".toList, .markdown), ("raw".toList, .raw)]

/-- An export kind as JSON. -/
def ExportKind.toJson : ExportKind → Json
  | .default => .string "default".toList
  | .named => .string "named".toList

/-- A slot layout as JSON. -/
def SlotLayout.toJson : SlotLayout → Json
  | .markdown => .string "markdown".toList
  | .raw => .string "raw".toList

/-- A component as JSON. -/
def Component.toJson (component : Component) : Json :=
  .object [
    ("name".toList, .string component.name),
    ("modulePath".toList, .string component.modulePath),
    ("exportKind".toList, component.exportKind.toJson),
    ("slots".toList, component.slots.toJson)]

/-- The source of a prop as JSON. -/
def PropSource.toJson : PropSource → Json
  | .directiveName => .object [("from".toList, .string "directiveName".toList)]
  | .bracketTitle => .object [("from".toList, .string "bracketTitle".toList)]
  | .literal value =>
    .object [("from".toList, .string "literal".toList), ("value".toList, .string value)]

/-- An injected prop as JSON. -/
def InjectedProp.toJson (prop : InjectedProp) : Json :=
  .object [("name".toList, .string prop.name), ("source".toList, prop.source.toJson)]

/-- A directive mapping as JSON. -/
def DirectiveMapping.toJson (mapping : DirectiveMapping) : Json :=
  .object [
    ("directive".toList, .string mapping.directive),
    ("component".toList, .string mapping.component),
    ("injectProps".toList, .array (mapping.injectProps.map InjectedProp.toJson))]

/-- A component library as JSON. -/
def ComponentLibrary.toJson (library : ComponentLibrary) : Json :=
  .object [
    ("name".toList, .string library.name),
    ("components".toList, .array (library.components.map Component.toJson)),
    ("directives".toList, .array (library.directives.map DirectiveMapping.toJson))]

/-! ## Components -/

/-- What has been read of a component. -/
structure Component.Draft where
  name : Option Text := none
  modulePath : Option Text := none
  exportKind : Option ExportKind := none
  slots : Option SlotLayout := none

/-- The record of a component. -/
def Component.record : Record Component.Draft Component where
  name := "struct ComponentDefinition".toList
  fields := [
    .of "name".toList true Component.Draft.name
      (fun draft value => { draft with name := some value }) (readText "a string".toList),
    .of "modulePath".toList true Component.Draft.modulePath
      (fun draft value => { draft with modulePath := some value }) (readText "a string".toList),
    .of "exportKind".toList false Component.Draft.exportKind
      (fun draft value => { draft with exportKind := some value }) (readVariant ExportKind.names),
    .of "slots".toList false Component.Draft.slots
      (fun draft value => { draft with slots := some value }) (readVariant SlotLayout.names)]
  blank := {}
  finish draft := do
    let name ← require "name".toList draft.name
    let modulePath ← require "modulePath".toList draft.modulePath
    .ok ⟨name, modulePath, draft.exportKind.getD .default, draft.slots.getD .markdown⟩

/-! ## Prop sources -/

/-- The kinds of prop sources. -/
inductive PropSource.Kind where
  | directiveName
  | bracketTitle
  | literal
deriving DecidableEq, Repr

namespace PropSource

/-- The names of the kinds. -/
def Kind.names : List (Text × Kind) :=
  [("directiveName".toList, .directiveName), ("bracketTitle".toList, .bracketTitle),
    ("literal".toList, .literal)]

/-- What a message calls a prop source. -/
def expected : Text :=
  "internally tagged enum PropSource".toList

/-- The depth to which values beside the kind may nest. -/
def valueDepth : Nat :=
  119

/-- What has been read of a prop source: its kind, and everything beside it. -/
structure Draft where
  kind : Option Kind := none
  others : List (Text × Json) := []

/-- The text of a literal. -/
def literalText : Json → Except Fault Text
  | .string value => .ok value
  | other => .error (.invalidType (found other) "a string".toList)

/-- The text of a literal among the members beside the kind. -/
def literalMember (value : Option Text) : List (Text × Json) → Except Fault Text
  | [] => require "value".toList value
  | (key, json) :: others =>
    if key = "value".toList then
      if value.isSome then .error (.duplicateField key)
      else do literalMember (some (← literalText json)) others
    else literalMember value others

/-- The prop source of a kind with the members beside it. -/
def ofMembers (others : List (Text × Json)) : Kind → Except Fault PropSource
  | .directiveName => .ok .directiveName
  | .bracketTitle => .ok .bracketTitle
  | .literal => (literalMember none others).map .literal

/-- The prop source of a kind with the items after it. -/
def ofItems (items : List Json) : Kind → Except Fault PropSource
  | .directiveName => noItems .directiveName
  | .bracketTitle => noItems .bracketTitle
  | .literal =>
    match items with
    | [] => .error (.invalidLength 0 "struct variant PropSource::Literal with 1 element".toList)
    | first :: others => do
      let value ← literalText first
      if others.isEmpty then .ok (.literal value)
      else .error (.invalidLength items.length "1 element in sequence".toList)
where
  /-- A kind without content allows no items. -/
  noItems (source : PropSource) : Except Fault PropSource :=
    if items.isEmpty then .ok source
    else .error (.invalidLength items.length "0 elements in sequence".toList)

/-- Takes one member of the object into the draft. -/
def member (draft : Draft) (key afterKey : Text) : Except Fault (Draft × Text) :=
  if key = "from".toList then
    if draft.kind.isSome then .error (.duplicateField key)
    else do
      let (kind, after) ← readVariantName Kind.names (← afterColon afterKey)
      .ok ({ draft with kind := some kind }, after)
  else do
    let (value, after) ← readValue valueDepth (← afterColon afterKey)
    .ok ({ draft with others := draft.others ++ [(key, value)] }, after)

/-- An item of the array form: the kind first, then values. -/
inductive Item where
  | kind (kind : Kind)
  | value (value : Json)

/-- Reads the array form behind its bracket. -/
def readArray (text : Text) : Except Fault (PropSource × Text) :=
  match skipBlanks text with
  | [] => .error (.endOf .list)
  | char :: rest =>
    if char = ']' then .error (.missingField "from".toList)
    else do
      let (kind, afterKind) ← readVariantName Kind.names (char :: rest)
      let (items, after) ← readItems (readValue valueDepth) (afterKind.length + 1) false afterKind
      .ok (← ofItems items kind, after)

/-- Reads a prop source: an object that names its kind under `from`, or an array that begins with
the kind. -/
def read (text : Text) : Except Fault (PropSource × Text) :=
  match skipBlanks text with
  | [] => .error (.endOf .value)
  | char :: rest =>
    if char = '{' then do
      let (draft, after) ← readMembers member (rest.length + 1) true {} rest
      let kind ← require "from".toList draft.kind
      .ok (← ofMembers draft.others kind, after)
    else if char = '[' then readArray rest
    else .error (mismatch expected (char :: rest))

end PropSource

/-! ## Directives -/

/-- What has been read of an injected prop. -/
structure InjectedProp.Draft where
  name : Option Text := none
  source : Option PropSource := none

/-- The record of an injected prop. -/
def InjectedProp.record : Record InjectedProp.Draft InjectedProp where
  name := "struct InjectedProp".toList
  fields := [
    .of "name".toList true InjectedProp.Draft.name
      (fun draft value => { draft with name := some value }) (readText "a string".toList),
    .of "source".toList true InjectedProp.Draft.source
      (fun draft value => { draft with source := some value }) PropSource.read]
  blank := {}
  finish draft := do
    let name ← require "name".toList draft.name
    let source ← require "source".toList draft.source
    .ok ⟨name, source⟩

/-- What has been read of a directive mapping. -/
structure DirectiveMapping.Draft where
  directive : Option Text := none
  component : Option Text := none
  injectProps : Option (List InjectedProp) := none

/-- The record of a directive mapping. -/
def DirectiveMapping.record : Record DirectiveMapping.Draft DirectiveMapping where
  name := "struct DirectiveMapping".toList
  fields := [
    .of "directive".toList true DirectiveMapping.Draft.directive
      (fun draft value => { draft with directive := some value }) (readText "a string".toList),
    .of "component".toList true DirectiveMapping.Draft.component
      (fun draft value => { draft with component := some value }) (readText "a string".toList),
    .of "injectProps".toList false DirectiveMapping.Draft.injectProps
      (fun draft value => { draft with injectProps := some value })
      (readList InjectedProp.record.read)]
  blank := {}
  finish draft := do
    let directive ← require "directive".toList draft.directive
    let component ← require "component".toList draft.component
    .ok ⟨directive, component, draft.injectProps.getD []⟩

/-! ## Libraries -/

/-- What has been read of a component library. -/
structure ComponentLibrary.Draft where
  name : Option Text := none
  components : Option (List Component) := none
  directives : Option (List DirectiveMapping) := none

/-- The record of a component library. -/
def ComponentLibrary.record : Record ComponentLibrary.Draft ComponentLibrary where
  name := "struct ComponentLibrary".toList
  fields := [
    .of "name".toList true ComponentLibrary.Draft.name
      (fun draft value => { draft with name := some value }) (readText "a string".toList),
    .of "components".toList false ComponentLibrary.Draft.components
      (fun draft value => { draft with components := some value })
      (readList Component.record.read),
    .of "directives".toList false ComponentLibrary.Draft.directives
      (fun draft value => { draft with directives := some value })
      (readList DirectiveMapping.record.read)]
  blank := {}
  finish draft := do
    let name ← require "name".toList draft.name
    .ok ⟨name, draft.components.getD [], draft.directives.getD []⟩

end MdxBuild

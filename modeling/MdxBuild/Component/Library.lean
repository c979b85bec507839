import MdxBuild.Text.Basic

/-!
# Component libraries

A library declares components, with the modules that export them, and directives, with the
components that render them and the props they pass. Libraries are the part of the configuration
that directives are expanded by.
-/

namespace MdxBuild

/-- How a module exports a component. -/
inductive ExportKind where
  /-- One module for each component, which is its default export. -/
  | default
  /-- The component is a named export of the module. -/
  | named
deriving DecidableEq, Repr

/-- How the children of a component are laid out between its tags. -/
inductive SlotLayout where
  /-- Markdown blocks, set off by empty lines. -/
  | markdown
  /-- Verbatim, directly between the tags. -/
  | raw
deriving DecidableEq, Repr

/-- A component and the module that exports it. -/
structure Component where
  name : Text
  modulePath : Text
  exportKind : ExportKind := .default
  slots : SlotLayout := .markdown
deriving DecidableEq, Repr

/-- Where an injected prop gets its value. -/
inductive PropSource where
  | directiveName
  | bracketTitle
  | literal (value : Text)
deriving DecidableEq, Repr

/-- A prop that the tag of a directive passes. -/
structure InjectedProp where
  name : Text
  source : PropSource
deriving DecidableEq, Repr

/-- A directive, the component that renders it and the props it passes. -/
structure DirectiveMapping where
  directive : Text
  component : Text
  injectProps : List InjectedProp := []
deriving DecidableEq, Repr

/-- A named set of components and directives. -/
structure ComponentLibrary where
  name : Text
  components : List Component := []
  directives : List DirectiveMapping := []
deriving DecidableEq, Repr

end MdxBuild

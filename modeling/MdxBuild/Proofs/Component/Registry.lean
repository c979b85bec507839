import MdxBuild.Component.Registry
import MdxBuild.Directive.Expansion
import MdxBuild.Proofs.Dictionary

/-!
# Look-ups in the component registry

Libraries are merged by taking in their declarations one after the other, so a look-up finds the last
declaration in all of them: the last component of a name, and the last directive of a lower-case
name. Merging is therefore compositional, and libraries that are merged once more change nothing.
The built-in directives stand in for a registry without directives, and after that there are some.
-/

namespace MdxBuild

open Text

/-- The mapping under its lower-case name. -/
def DirectiveMapping.lowered (mapping : DirectiveMapping) : DirectiveMapping :=
  { mapping with directive := asciiLower mapping.directive }

namespace Registry

variable {registry : Registry}

/-! ## What is taken in -/

/-- The components of libraries, as entries under their names. -/
def componentEntries (libraries : List ComponentLibrary) : List (Text × Component) :=
  (libraries.flatMap ComponentLibrary.components).map fun component => (component.name, component)

/-- The directives of libraries, as entries under their lower-case names. -/
def directiveEntries (libraries : List ComponentLibrary) : List (Text × DirectiveMapping) :=
  (libraries.flatMap ComponentLibrary.directives).map fun mapping =>
    (asciiLower mapping.directive, mapping.lowered)

theorem addLibrary_eq (registry : Registry) (library : ComponentLibrary) :
    registry.addLibrary library = { registry with
      components := registry.components.insertAll (componentEntries [library])
      directives := registry.directives.insertAll (directiveEntries [library]) } := by
  have addComponents (components : List Component) (registry : Registry) :
      components.foldl addComponent registry = { registry with
        components := registry.components.insertAll
          (components.map fun component => (component.name, component)) } := by
    induction components generalizing registry with
    | nil => rfl
    | cons component others ih => exact ih _
  have addDirectives (mappings : List DirectiveMapping) (registry : Registry) :
      mappings.foldl addDirective registry = { registry with
        directives := registry.directives.insertAll
          (mappings.map fun mapping => (asciiLower mapping.directive, mapping.lowered)) } := by
    induction mappings generalizing registry with
    | nil => rfl
    | cons mapping others ih => exact ih _
  rw [addLibrary, addComponents, addDirectives, componentEntries, directiveEntries,
    List.flatMap_singleton, List.flatMap_singleton]

/-- Libraries are taken in entry by entry. -/
theorem foldl_addLibrary (libraries : List ComponentLibrary) (registry : Registry) :
    libraries.foldl addLibrary registry = { registry with
      components := registry.components.insertAll (componentEntries libraries)
      directives := registry.directives.insertAll (directiveEntries libraries) } := by
  induction libraries generalizing registry with
  | nil => rfl
  | cons library others ih =>
    have isSplit : library :: others = [library] ++ others := rfl
    rw [List.foldl_cons, ih, addLibrary_eq, isSplit, componentEntries, componentEntries,
      componentEntries, directiveEntries, directiveEntries, directiveEntries, List.flatMap_append,
      List.flatMap_append, List.map_append, List.map_append, Dictionary.insertAll_append,
      Dictionary.insertAll_append]

/-! ## What is found -/

/-- The last component of a name counts. -/
theorem component?_merge (libraries : List ComponentLibrary) (name : Text) :
    (merge libraries).component? name =
      ((libraries.flatMap ComponentLibrary.components).filter (·.name == name)).getLast? := by
  rw [component?, merge, foldl_addLibrary, Dictionary.find?_insertAll_eq_or, Dictionary.find?_empty,
    Option.or_none, componentEntries, List.filter_map, List.getLast?_map, Option.map_map]
  exact Option.map_id_apply

/-- The last directive of a lower-case name counts. -/
theorem find?_directives_merge (libraries : List ComponentLibrary) (key : Text) :
    (merge libraries).directives.find? key =
      ((libraries.flatMap ComponentLibrary.directives).filter
        (asciiLower ·.directive == key)).getLast?.map DirectiveMapping.lowered := by
  rw [merge, foldl_addLibrary, Dictionary.find?_insertAll_eq_or, Dictionary.find?_empty,
    Option.or_none, directiveEntries, List.filter_map, List.getLast?_map, Option.map_map]
  rfl

/-- The last directive of a name, up to ASCII case, counts. -/
theorem directive?_merge (libraries : List ComponentLibrary) (name : Text) :
    (merge libraries).directive? name =
      ((libraries.flatMap ComponentLibrary.directives).filter
        (sameIgnoringCase ·.directive name)).getLast?.map DirectiveMapping.lowered :=
  find?_directives_merge libraries (asciiLower name)

/-- Of two lists of libraries, the second one is looked up first. -/
theorem component?_merge_append (first second : List ComponentLibrary) (name : Text) :
    (merge (first ++ second)).component? name =
      ((merge second).component? name).or ((merge first).component? name) := by
  rw [component?_merge, component?_merge, component?_merge, List.flatMap_append,
    List.filter_append, List.getLast?_append]

theorem directive?_merge_append (first second : List ComponentLibrary) (name : Text) :
    (merge (first ++ second)).directive? name =
      ((merge second).directive? name).or ((merge first).directive? name) := by
  rw [directive?_merge, directive?_merge, directive?_merge, List.flatMap_append,
    List.filter_append, List.getLast?_append, Option.map_or]

theorem merge_append_self (libraries : List ComponentLibrary) :
    merge (libraries ++ libraries) = merge libraries := by
  rw [merge, List.foldl_append, foldl_addLibrary, foldl_addLibrary, merge, foldl_addLibrary,
    Dictionary.insertAll_insertAll_self, Dictionary.insertAll_insertAll_self]

/-- The components of a registry are kept under their names. -/
def IsKeyed (registry : Registry) : Prop :=
  ∀ name component, registry.component? name = some component → component.name = name

theorem isKeyed_merge (libraries : List ComponentLibrary) : (merge libraries).IsKeyed := by
  intro name component isFound
  rw [component?_merge] at isFound
  have member := List.mem_of_getLast? isFound
  rw [List.mem_filter, beq_iff_eq] at member
  exact member.2

/-! ## The built-in directives -/

theorem isKeyed_withBuiltin (isKeyed : registry.IsKeyed) (wanted : Bool) :
    (registry.withBuiltin wanted).IsKeyed := by
  rw [withBuiltin]
  split
  · exact isKeyed
  · exact isKeyed

/-- Where the built-in directives are in force, there is nothing left for them to stand in for. -/
@[simp]
theorem withBuiltin_withBuiltin (registry : Registry) (wanted : Bool) :
    (registry.withBuiltin wanted).withBuiltin wanted = registry.withBuiltin wanted := by
  cases none : wanted && !registry.hasDirectives with
  | false => rw [withBuiltin.eq_def registry, none, if_neg Bool.false_ne_true, withBuiltin, none,
      if_neg Bool.false_ne_true]
  | true =>
    rw [withBuiltin.eq_def registry, none, if_pos rfl, withBuiltin, if_neg]
    rw [Bool.and_eq_true, Bool.not_eq_true']
    rintro ⟨-, isEmpty⟩
    cases isEmpty

/-- Merged libraries answer with the last declaration in all of them: a component by its name, a
directive by its name up to ASCII case, and it is kept under its lower-case name, which it has from
then on. Libraries behind others are looked up before these; the same libraries once more change
nothing. Documents are expanded alike whether the built-in directives stand in before or then. -/
theorem lookups_merge (libraries others : List ComponentLibrary) (name : Text) (useBuiltin : Bool)
    (source : Text) :
    (merge libraries).component? name =
        ((libraries.flatMap ComponentLibrary.components).filter (·.name == name)).getLast? ∧
      (merge libraries).directive? name =
        ((libraries.flatMap ComponentLibrary.directives).filter
          (sameIgnoringCase ·.directive name)).getLast?.map DirectiveMapping.lowered ∧
      (merge libraries).directives.find? name =
        ((libraries.flatMap ComponentLibrary.directives).filter
          (asciiLower ·.directive == name)).getLast?.map DirectiveMapping.lowered ∧
      (merge (libraries ++ others)).component? name =
        ((merge others).component? name).or ((merge libraries).component? name) ∧
      (merge (libraries ++ others)).directive? name =
        ((merge others).directive? name).or ((merge libraries).directive? name) ∧
      merge (libraries ++ libraries) = merge libraries ∧
      expandDirectives ((merge libraries).withBuiltin useBuiltin) useBuiltin source =
        expandDirectives (merge libraries) useBuiltin source := by
  refine ⟨component?_merge libraries name, directive?_merge libraries name,
    find?_directives_merge libraries name, component?_merge_append libraries others name,
    directive?_merge_append libraries others name, merge_append_self libraries, ?_⟩
  rw [expandDirectives, withBuiltin_withBuiltin, expandDirectives]

end Registry

end MdxBuild

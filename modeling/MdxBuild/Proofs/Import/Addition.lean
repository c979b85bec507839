import Mathlib.Data.List.Basic
import Mathlib.Data.List.Induction
import MdxBuild.Import.Injection
import MdxBuild.Proofs.Component.Registry

/-!
# What is added

The statements that injection adds import a component from a module of its own, or the built-in one,
or the named exports of one module. Together they import the components that are wanted, each once,
from the place where the registry says it is exported.
-/

namespace MdxBuild.Import

open Text

variable {registry : Registry} {builtinActive : Bool} {fileExtension name code : Text}
  {used : List Text} {sources : List Source} {source : Source}

/-- A statement that injection adds. -/
inductive Addition where
  /-- The import of a component from a module of its own. -/
  | ownModule (component : Component)
  /-- The import of the built-in component. -/
  | builtin
  /-- The import of named exports of one module. -/
  | grouped (modulePath : Text) (names : List Text)
deriving DecidableEq, Repr

namespace Addition

/-- The text of the statement. -/
def render (fileExtension : Text) : Addition → Text
  | .ownModule component => defaultStatement fileExtension component
  | .builtin => builtinAside
  | .grouped modulePath names => namedStatement modulePath names

/-- The names that the statement binds. -/
def names : Addition → List Text
  | .ownModule component => [component.name]
  | .builtin => [Registry.asideComponent]
  | .grouped _ names => names

/-- The module of which the statement imports named exports. -/
def groupedPath? : Addition → Option Text
  | .grouped modulePath _ => some modulePath
  | _ => none

/-- The statement imports its names from where the registry says they are exported. -/
def IsFrom (registry : Registry) (builtinActive : Bool) : Addition → Prop
  | .ownModule component =>
    registry.component? component.name = some component ∧ component.exportKind = .default
  | .builtin => registry.component? Registry.asideComponent = none ∧ builtinActive = true
  | .grouped modulePath names => names ≠ [] ∧ ∀ name ∈ names, ∃ component,
    registry.component? name = some component ∧ component.exportKind = .named ∧
      component.modulePath = modulePath

end Addition

/-! ## Sources -/

/-- The name of the component to be imported. -/
def Source.imported : Source → Text
  | .ownModule component => component.name
  | .namedExport component => component.name
  | .builtin => Registry.asideComponent

/-- The sources are those of different components. -/
structure AreSources (registry : Registry) (builtinActive : Bool) (sources : List Source) : Prop where
  nodup : (sources.map Source.imported).Nodup
  registered : ∀ source ∈ sources, source? registry builtinActive source.imported = some source

theorem isSome_source?_iff : (source? registry builtinActive name).isSome = true ↔
    (registry.component? name).isSome = true ∨
      (name = Registry.asideComponent ∧ builtinActive = true) := by
  rw [source?]
  cases registry.component? name with
  | some component => exact iff_of_true rfl (.inl rfl)
  | none =>
    dsimp only
    split
    · next isAside =>
      rw [Bool.and_eq_true, decide_eq_true_eq] at isAside
      exact iff_of_true rfl (.inr isAside)
    · next notAside =>
      rw [Bool.and_eq_true, decide_eq_true_eq] at notAside
      apply iff_of_false
      · intro isSome
        cases isSome
      · rintro (isSome | isAside)
        · cases isSome
        · exact notAside isAside

/-- The source is what the registry says about the component of the name. -/
def Source.IsRegistered (registry : Registry) (builtinActive : Bool) (name : Text) : Source → Prop
  | .ownModule component =>
    registry.component? name = some component ∧ component.exportKind = .default
  | .namedExport component =>
    registry.component? name = some component ∧ component.exportKind = .named
  | .builtin => registry.component? name = none ∧ name = Registry.asideComponent ∧
    builtinActive = true

theorem isRegistered_of_source? (isSource : source? registry builtinActive name = some source) :
    source.IsRegistered registry builtinActive name := by
  rw [source?] at isSource
  cases isComponent : registry.component? name with
  | none =>
    rw [isComponent, Option.ite_none_right_eq_some, Bool.and_eq_true, decide_eq_true_eq] at isSource
    rw [← Option.some.inj isSource.2]
    exact ⟨isComponent, isSource.1⟩
  | some component =>
    rw [isComponent] at isSource
    cases isKind : component.exportKind <;> simp only [isKind] at isSource <;>
      rw [← Option.some.inj isSource] <;> exact ⟨isComponent, isKind⟩

/-- A source is that of the name that it was looked up for. -/
theorem imported_of_source? (isKeyed : registry.IsKeyed)
    (isSource : source? registry builtinActive name = some source) : source.imported = name := by
  have isRegistered := isRegistered_of_source? isSource
  cases source with
  | ownModule component => exact isKeyed name component isRegistered.1
  | namedExport component => exact isKeyed name component isRegistered.1
  | builtin => exact isRegistered.2.1.symm

/-- The sources of the components to be imported. -/
def missingSources (registry : Registry) (builtinActive : Bool) (used : List Text) (code : Text) :
    List Source :=
  (missing code used).filterMap (source? registry builtinActive)

theorem map_imported_missingSources (isKeyed : registry.IsKeyed) :
    (missingSources registry builtinActive used code).map Source.imported =
      (missing code used).filter fun name => (source? registry builtinActive name).isSome := by
  rw [missingSources, List.map_filterMap, ← List.filterMap_eq_filter]
  apply List.filterMap_congr
  intro name _
  cases isSource : source? registry builtinActive name with
  | none => simp only [Option.guard, isSource, Option.isSome_none, Option.map_none]; rfl
  | some source =>
    rw [Option.map_some, imported_of_source? isKeyed isSource]
    simp only [Option.guard, isSource, Option.isSome_some]; rfl

theorem areSources_missingSources (isKeyed : registry.IsKeyed) (builtinActive : Bool)
    (used : List Text) (code : Text) :
    AreSources registry builtinActive (missingSources registry builtinActive used code) := by
  constructor
  · rw [map_imported_missingSources isKeyed]
    exact ((nodup_sortedSet used).filter _).filter _
  · intro source member
    rcases List.mem_filterMap.mp member with ⟨name, -, isSource⟩
    rw [imported_of_source? isKeyed isSource, isSource]

/-- The component is used, the code does not bind it yet, and it is known where it comes from. -/
def Needs (registry : Registry) (builtinActive : Bool) (used : List Text) (code name : Text) : Prop :=
  name ∈ used ∧ name ∉ bindings code ∧
    ((registry.component? name).isSome = true ∨
      (name = Registry.asideComponent ∧ builtinActive = true))

theorem mem_imported_missingSources (isKeyed : registry.IsKeyed) :
    name ∈ (missingSources registry builtinActive used code).map Source.imported ↔
      Needs registry builtinActive used code name := by
  rw [map_imported_missingSources isKeyed, List.mem_filter, isSome_source?_iff, missing,
    List.mem_filter, mem_sortedSet, Bool.not_eq_true', ← Bool.not_eq_true, List.contains_iff_mem,
    and_assoc, Needs]

/-! ## Additions -/

/-- The statement for a component with a source of its own. -/
def Source.addition? : Source → Option Addition
  | .ownModule component => some (.ownModule component)
  | .builtin => some .builtin
  | .namedExport _ => none

/-- The statements for the given sources, those for named exports behind the others. -/
def unsortedAdditions (sources : List Source) : List Addition :=
  sources.filterMap Source.addition? ++
    (namedByModule sources).entries.map fun entry => .grouped entry.1 entry.2

/-- The statements for the given sources, in the order of their texts. -/
def additions (fileExtension : Text) (sources : List Source) : List Addition :=
  (unsortedAdditions sources).mergeSort fun first second =>
    precedes (first.render fileExtension) (second.render fileExtension)

theorem perm_additions (fileExtension : Text) (sources : List Source) :
    (additions fileExtension sources).Perm (unsortedAdditions sources) :=
  List.mergeSort_perm _ _

theorem additions_of_pairwise
    (inOrder : (unsortedAdditions sources).Pairwise fun first second =>
      precedes (first.render fileExtension) (second.render fileExtension)) :
    additions fileExtension sources = unsortedAdditions sources :=
  List.mergeSort_of_pairwise inOrder

/-- The texts of the additions are the statements. -/
theorem statements_eq (fileExtension : Text) (sources : List Source) :
    statements fileExtension sources =
      (additions fileExtension sources).map (Addition.render fileExtension) := by
  have isSingle : (sources.filterMap Source.addition?).map (Addition.render fileExtension) =
      sources.filterMap fun source =>
        match source with
        | .ownModule component => some (defaultStatement fileExtension component)
        | .builtin => some builtinAside
        | .namedExport _ => none := by
    rw [List.map_filterMap]
    apply List.filterMap_congr
    intro source _
    cases source <;> rfl
  have isSorted : (additions fileExtension sources).map (Addition.render fileExtension) =
      ((unsortedAdditions sources).map (Addition.render fileExtension)).mergeSort precedes :=
    List.map_mergeSort fun _ _ _ _ => rfl
  rw [isSorted, unsortedAdditions, List.map_append, isSingle, List.map_map]
  rfl

theorem namedByModule_concat (sources : List Source) (source : Source) :
    namedByModule (sources ++ [source]) =
      match source with
      | .namedExport component =>
        (namedByModule sources).insert component.modulePath
          (((namedByModule sources).find? component.modulePath).getD [] ++ [component.name])
      | _ => namedByModule sources := by
  rw [namedByModule, List.foldl_append]
  rfl

/-- The additions import the components of the sources, each as often. -/
theorem perm_names_unsortedAdditions (sources : List Source) :
    ((unsortedAdditions sources).flatMap Addition.names).Perm (sources.map Source.imported) := by
  have grouped_names (entries : List (Text × List Text)) :
      (entries.map fun entry => Addition.grouped entry.1 entry.2).flatMap Addition.names =
        entries.flatMap Prod.snd := by
    rw [List.flatMap_map]
    rfl
  induction sources using List.reverseRecOn with
  | nil => exact List.Perm.refl _
  | append_singleton sources source ih =>
    rw [unsortedAdditions, List.flatMap_append, grouped_names] at ih
    rw [unsortedAdditions, List.filterMap_append, List.flatMap_append, List.flatMap_append,
      grouped_names, namedByModule_concat, List.map_append]
    have alone (addition : Addition) (isAddition : source.addition? = some addition)
        (isName : addition.names = [source.imported]) :
        ((sources.filterMap Source.addition?).flatMap Addition.names ++
          ([source].filterMap Source.addition?).flatMap Addition.names ++
            (namedByModule sources).entries.flatMap Prod.snd).Perm
          (sources.map Source.imported ++ [source].map Source.imported) := by
      rw [List.filterMap_cons_some isAddition, List.flatMap_cons, isName, List.append_assoc]
      exact (List.perm_append_comm.append_left _).trans
        ((List.append_assoc _ _ _).symm ▸ ih.append_right _)
    cases source with
    | ownModule component => exact alone _ rfl rfl
    | builtin => exact alone _ rfl rfl
    | namedExport component =>
      rw [List.filterMap_cons_none rfl, List.filterMap_nil, List.flatMap_nil, List.append_nil]
      apply ((Dictionary.perm_insert_append _ _ _).append_left _).trans
      rw [← List.append_assoc]
      exact ih.append_right _

/-- The names listed under a module are those of its exports among the sources, at least one. -/
theorem of_mem_namedByModule {modulePath : Text} {names : List Text}
    (member : (modulePath, names) ∈ (namedByModule sources).entries) :
    names ≠ [] ∧ ∀ name ∈ names, ∃ component, Source.namedExport component ∈ sources ∧
      component.name = name ∧ component.modulePath = modulePath := by
  induction sources using List.reverseRecOn generalizing modulePath names with
  | nil => cases member
  | append_singleton sources source ih =>
    have later (member : (modulePath, names) ∈ (namedByModule sources).entries) :
        names ≠ [] ∧ ∀ name ∈ names, ∃ component, Source.namedExport component ∈ sources ++ [source] ∧
          component.name = name ∧ component.modulePath = modulePath := by
      rcases ih member with ⟨nonempty, areExports⟩
      refine ⟨nonempty, fun name isName => ?_⟩
      rcases areExports name isName with ⟨component, isSource, isComponent⟩
      exact ⟨component, List.mem_append_left _ isSource, isComponent⟩
    rw [namedByModule_concat] at member
    cases source with
    | ownModule => exact later member
    | builtin => exact later member
    | namedExport component =>
      rw [Dictionary.mem_entries, Dictionary.find?_insert] at member
      split at member
      · next same =>
        rw [← Option.some.inj member]
        constructor
        · exact List.append_ne_nil_of_right_ne_nil _ (List.cons_ne_nil _ _)
        · intro name isName
          rcases List.mem_append.mp isName with isEarlier | isLast
          · cases isBefore : (namedByModule sources).find? component.modulePath with
            | none =>
              rw [isBefore] at isEarlier
              cases isEarlier
            | some listed =>
              rw [isBefore] at isEarlier
              rcases (ih (Dictionary.mem_entries.mpr isBefore)).2 name isEarlier with
                ⟨other, isSource, isName, isPath⟩
              exact ⟨other, List.mem_append_left _ isSource, isName, isPath.trans same.symm⟩
          · refine ⟨component, List.mem_append_right _ List.mem_cons_self, ?_, same.symm⟩
            exact (List.mem_singleton.mp isLast).symm
      · exact later (Dictionary.mem_entries.mpr member)

namespace AreSources

theorem isFrom_of_mem (areSources : AreSources registry builtinActive sources) {addition : Addition}
    (member : addition ∈ unsortedAdditions sources) : addition.IsFrom registry builtinActive := by
  rcases List.mem_append.mp member with isSingle | isGrouped
  · rcases List.mem_filterMap.mp isSingle with ⟨source, isSource, isAddition⟩
    have isRegistered := isRegistered_of_source? (areSources.registered source isSource)
    cases source with
    | ownModule component =>
      rw [← Option.some.inj isAddition]
      exact isRegistered
    | builtin =>
      rw [← Option.some.inj isAddition]
      exact ⟨isRegistered.1, isRegistered.2.2⟩
    | namedExport => cases isAddition
  · rcases List.mem_map.mp isGrouped with ⟨⟨modulePath, names⟩, isEntry, rfl⟩
    rcases of_mem_namedByModule isEntry with ⟨nonempty, areExports⟩
    refine ⟨nonempty, fun name isName => ?_⟩
    rcases areExports name isName with ⟨component, isSource, rfl, isPath⟩
    have isRegistered := isRegistered_of_source? (areSources.registered _ isSource)
    exact ⟨component, isRegistered.1, isRegistered.2, isPath⟩

end AreSources

theorem nodup_groupedPath? (sources : List Source) :
    ((unsortedAdditions sources).filterMap Addition.groupedPath?).Nodup := by
  have noneSingle : (sources.filterMap Source.addition?).filterMap Addition.groupedPath? = [] := by
    rw [List.filterMap_filterMap, List.filterMap_eq_nil_iff]
    intro source _
    cases source <;> rfl
  rw [unsortedAdditions, List.filterMap_append, noneSingle, List.nil_append, List.filterMap_map]
  have areKeys : (namedByModule sources).entries.filterMap
      (Addition.groupedPath? ∘ fun entry => .grouped entry.1 entry.2) =
        (namedByModule sources).keys := by
    rw [Dictionary.keys, ← List.filterMap_eq_map]
    rfl
  rw [areKeys]
  exact Dictionary.nodup_keys _

/-- The additions import the components that the code needs, and no others. -/
theorem mem_names_additions (isKeyed : registry.IsKeyed) (builtinActive : Bool)
    (fileExtension : Text) (used : List Text) (code name : Text) :
    name ∈ (additions fileExtension (missingSources registry builtinActive used code)).flatMap
        Addition.names ↔ Needs registry builtinActive used code name := by
  rw [((perm_additions fileExtension _).flatMap_right Addition.names).mem_iff,
    (perm_names_unsortedAdditions _).mem_iff, mem_imported_missingSources isKeyed]

end MdxBuild.Import

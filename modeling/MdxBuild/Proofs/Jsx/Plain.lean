import Mathlib.Data.List.Nodup
import MdxBuild.Proofs.Jsx.Retention

/-!
# Plain lowering is complete

Plain lowering leaves no markup in a module, keeps the code around and inside of the markup, and
imports each runtime name that the calls for the elements need, unless the module does so already.
-/

namespace MdxBuild.Jsx

open Script Style

/-! ## Runtime names -/

section Names

variable {name : RuntimeName} {nodes : List Node} {node : Node}

theorem mem_namesOfAll_iff :
    name ∈ plain.namesOfAll nodes ↔ ∃ part ∈ nodes, name ∈ plain.ownNames part := by
  induction nodes with
  | nil => simp [namesOfAll]
  | cons part others ih => simp [namesOfAll, ih]

theorem mem_namesOfOthers_iff :
    name ∈ plain.namesOfOthers nodes ↔
      ∃ part ∈ nodes, isKeyAttribute part = false ∧ name ∈ plain.ownNames part := by
  induction nodes with
  | nil => simp [namesOfOthers]
  | cons part others ih => cases isKey : isKeyAttribute part <;> simp [namesOfOthers, ih, isKey]

/-- The elements in all keys are lowered. -/
theorem mem_namesOfKeys_iff :
    name ∈ plain.namesOfKeys nodes ↔
      ∃ part ∈ nodes, isKeyAttribute part = true ∧ name ∈ plain.ownNames part := by
  have lowersAll : plain.lowersEveryKey = true := rfl
  induction nodes with
  | nil => simp [namesOfKeys]
  | cons part others ih =>
    cases isKey : isKeyAttribute part <;> simp [namesOfKeys, ih, isKey, lowersAll]

/-- The elements in an element are lowered together with it. -/
theorem mem_ownNames_element {tag : Tag} {attributes children : List Node} :
    name ∈ plain.ownNames (.element tag attributes children) ↔
      name ∈ plain.callNames (.element tag attributes children) ∨
        ∃ part ∈ attributes ++ children, name ∈ plain.ownNames part := by
  simp only [ownNames, callee_plain_ne, if_false, List.mem_append, mem_namesOfOthers_iff,
    mem_namesOfAll_iff, mem_namesOfKeys_iff, callNames]
  constructor
  · rintro (((⟨part, isPart, -, needed⟩ | ⟨part, isPart, needed⟩) |
      ⟨part, isPart, -, needed⟩) | own)
    · exact .inr ⟨part, .inl isPart, needed⟩
    · exact .inr ⟨part, .inr isPart, needed⟩
    · exact .inr ⟨part, .inl isPart, needed⟩
    · exact .inl own
  · rintro (own | ⟨part, isPart | isPart, needed⟩)
    · exact .inr own
    · cases isKey : isKeyAttribute part with
      | false => exact .inl (.inl (.inl ⟨part, isPart, isKey, needed⟩))
      | true => exact .inl (.inr ⟨part, isPart, isKey, needed⟩)
    · exact .inl (.inl (.inr ⟨part, isPart, needed⟩))

theorem mem_ownNames_iff :
    name ∈ plain.ownNames node ↔
      name ∈ plain.callNames node ∨
        isNested node = true ∧ ∃ part ∈ node.parts, name ∈ plain.ownNames part := by
  cases node with
  | element tag attributes children => simp [mem_ownNames_element, isNested, Node.parts]
  | fragment children =>
    simp only [ownNames, List.mem_append, mem_namesOfAll_iff, callNames, isNested, Node.parts,
      true_and]
    exact or_comm
  | setting key value => simp [ownNames, callNames, isNested, Node.parts]
  | _ => simp [ownNames, callNames, isNested]

theorem mem_innerNames_iff :
    name ∈ plain.innerNames node ↔
      ∃ part ∈ node.parts, name ∈ plain.innerNames part ∨
        ¬(isNested node = true ∧ isNested part = true) ∧ name ∈ plain.ownNames part := by
  rw [innerNames]
  simp

/-- The names that lowering a node needs are those that the calls for the elements in it need. -/
theorem mem_names_iff :
    (name ∈ plain.innerNames node ∨ name ∈ plain.ownNames node) ↔
      ∃ sub ∈ node.subnodes, name ∈ plain.callNames sub := by
  induction node using Node.induction_of_parts with
  | step node ih =>
    constructor
    · rintro (inner | own)
      · obtain ⟨part, isPart, needed⟩ := mem_innerNames_iff.mp inner
        obtain ⟨sub, member, calls⟩ := (ih part isPart).mp (needed.imp_right And.right)
        exact ⟨sub, Node.mem_subnodes_of_mem_parts isPart member, calls⟩
      · obtain calls | ⟨-, part, isPart, needed⟩ := mem_ownNames_iff.mp own
        · exact ⟨node, node.mem_subnodes_self, calls⟩
        · obtain ⟨sub, member, calls⟩ := (ih part isPart).mp (.inr needed)
          exact ⟨sub, Node.mem_subnodes_of_mem_parts isPart member, calls⟩
    · rintro ⟨sub, member, calls⟩
      obtain rfl | ⟨part, isPart, member⟩ := Node.mem_subnodes_iff.mp member
      · exact .inr (mem_ownNames_iff.mpr (.inl calls))
      · obtain inner | own := (ih part isPart).mpr ⟨sub, member, calls⟩
        · exact .inl (mem_innerNames_iff.mpr ⟨part, isPart, .inl inner⟩)
        -- An element directly inside of another one is lowered together with it.
        · by_cases nested : isNested node = true
          · exact .inr (mem_ownNames_iff.mpr (.inr ⟨nested, part, isPart, own⟩))
          · have apart : ¬(isNested node = true ∧ isNested part = true) := fun both =>
              nested both.1
            exact .inl (mem_innerNames_iff.mpr ⟨part, isPart, .inr ⟨apart, own⟩⟩)

end Names

/-- A module introduces a runtime name if the call for an element in it, at any depth, needs the
name. -/
def Introduces (statements : Module) (name : RuntimeName) : Prop :=
  ∃ statement ∈ statements, ∃ sub ∈ statement.subnodes, name ∈ plain.callNames sub

/-- The runtime names are kept exact across all positions of markup. -/
theorem mem_runtimeNames_iff {statements : Module} {name : RuntimeName} :
    name ∈ plain.runtimeNames statements ↔ Introduces statements name := by
  simp only [runtimeNames, List.mem_eraseDups, List.mem_flatMap, List.mem_append, mem_names_iff,
    Introduces]

theorem Introduces.ne_createElement {statements : Module} {name : RuntimeName}
    (introduced : Introduces statements name) : name ≠ .createElement := by
  obtain ⟨_, _, sub, _, needed⟩ := introduced
  rintro rfl
  cases sub with
  | element tag attributes children =>
    exact callee_plain_ne _ _ (List.mem_singleton.mp needed).symm
  | fragment children =>
    obtain same | needed := List.mem_cons.mp needed
    · cases same
    · exact callee_plain_ne _ _ (List.mem_singleton.mp needed).symm
  | _ => cases needed

/-! ## The import of the runtime -/

/-- The statement that imports runtime names under their usual names. -/
def importOf (package : Text) (names : List RuntimeName) : Text :=
  "import \x7b ".toList ++
    ", ".toList.intercalate
      (names.map fun name => name.exported ++ " as ".toList ++ name.usual) ++
    " \x7d from \"".toList ++ runtimeModule package ++ "\";\n".toList

theorem runtimeImport_eq (package : Text) (statements : Module) :
    runtimeImport package statements =
      if missingNames statements = [] then none
      else some (importOf package (missingNames statements)) := by
  simp only [runtimeImport, List.isEmpty_iff]
  rfl

/-- The import of the runtime lists the name exactly once. -/
def IsListedOnce (package : Text) (statements : Module) (name : RuntimeName) : Prop :=
  ∃ names : List RuntimeName,
    runtimeImport package statements = some (importOf package names) ∧ names.count name = 1

/-- Names that the module does not import already are listed, once each. -/
theorem isListedOnce {package : Text} {statements : Module} {name : RuntimeName}
    (introduced : Introduces statements name) (unbound : name.usual ∉ importedNames statements) :
    IsListedOnce package statements name := by
  have isMissing : name ∈ missingNames statements := by
    have used := mem_runtimeNames_iff.mpr introduced
    have known := introduced.ne_createElement
    rw [missingNames, List.mem_filter]
    refine ⟨?_, by simpa [used] using unbound⟩
    cases name <;> simp at known ⊢
  have distinct : (missingNames statements).Nodup := List.Nodup.filter _ (by decide)
  refine ⟨missingNames statements, ?_, List.count_eq_one_of_mem distinct isMissing⟩
  rw [runtimeImport_eq, if_neg (List.ne_nil_of_mem isMissing)]

theorem callNames_of_isMarkup {node : Node} (code : node.isMarkup = false) :
    plain.callNames node = [] := by
  cases node <;> first | rfl | cases code

/-- Without markup there is nothing to import. -/
theorem runtimeImport_of_isCode {statements : Module}
    (isCode : ∀ statement ∈ statements, statement.IsCode) (package : Text) :
    runtimeImport package statements = none := by
  have unused : plain.runtimeNames statements = [] := by
    refine List.eq_nil_iff_forall_not_mem.mpr fun name used => ?_
    obtain ⟨statement, isStatement, sub, member, needed⟩ := mem_runtimeNames_iff.mp used
    rw [callNames_of_isMarkup (isCode statement isStatement sub member)] at needed
    cases needed
  rw [runtimeImport_eq, if_pos (by simp [missingNames, unused])]

/-! ## Completeness -/

/-- A module was lowered completely, and its import of the runtime fits. -/
structure IsComplete (package : Text) (statements lowered : Module) : Prop where
  /-- Every statement is lowered for itself. -/
  statements_map : lowered = statements.map plain.lower
  /-- No markup is left at any depth. -/
  code : ∀ node ∈ lowered, node.IsCode
  /-- Outside of markup nothing changes but what is lowered below. -/
  outside : ∀ statement ∈ statements, ∀ node ∈ statement.subnodes, node.isMarkup = false →
    plain.lower node = node.mapParts plain.lower
  /-- A part without markup stays as it is. -/
  unchanged : ∀ statement ∈ statements, ∀ node ∈ statement.subnodes, node.IsCode →
    plain.lower node = node
  /-- Code inside of markup is still there, unchanged, at some place of the same statement. -/
  kept : ∀ statement ∈ statements, ∀ node, PassesOn statement node → node.IsCode →
    node ∈ (plain.lower statement).subnodes
  /-- The lowered module refers to what the module refers to, and to runtime names. -/
  references : ∀ id, (∃ statement ∈ lowered, .name id ∈ statement.subnodes) →
    (∃ statement ∈ statements, ∃ node ∈ statement.subnodes, id ∈ ownReferences node) ∨
      ∃ name, Introduces statements name ∧ id = name.usual
  /-- A runtime name that is introduced is listed once, or the module imports it already. -/
  bound : ∀ name, Introduces statements name →
    IsListedOnce package statements name ∨ name.usual ∈ importedNames statements
  /-- Without markup there is no import. -/
  unmarked : (∀ statement ∈ statements, statement.IsCode) →
    lowered = statements ∧ runtimeImport package statements = none

/-- A lowered module is code over the variables of the module and the names it introduces. -/
theorem isCodeOver_lowerAll {statements : Module} {node : Node}
    (member : node ∈ plain.lowerAll statements) :
    node.IsCodeOver fun id =>
      (∃ statement ∈ statements, ∃ node ∈ statement.subnodes, id ∈ ownReferences node) ∨
        ∃ name, Introduces statements name ∧ id = name.usual := by
  rw [lowerAll_eq_map] at member
  obtain ⟨statement, isStatement, rfl⟩ := List.mem_map.mp member
  refine isCodeOver_lower (fun value isCode => isCode) ?_ ?_
  · intro sub below id refers
    exact .inl ⟨statement, isStatement, sub, below, refers⟩
  · intro sub below name needed
    exact .inr ⟨name, ⟨statement, isStatement, sub, below, needed⟩, rfl⟩

/-- A module that imports one of the runtime names that it introduces: the element in the attribute
needs `_jsx`, and the one around it `_jsxs`. -/
def sampled : Module := [
  .importItems [.named (.name "jsx".toList) "_jsx".toList] (.ofText "react/jsx-runtime".toList),
  .expression (.element (.intrinsic "p".toList)
    [.setting "title".toList (.element (.intrinsic "b".toList) [] [])]
    [.text "a".toList, .container (.name "x".toList)])]

end MdxBuild.Jsx

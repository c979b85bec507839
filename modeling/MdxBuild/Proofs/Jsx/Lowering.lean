import MdxBuild.Jsx.Lowering
import MdxBuild.Proofs.Script.Parts

/-!
# What lowering leaves behind

Outside of markup lowering goes through to the parts of a node and changes nothing else. A piece of
markup becomes code: no markup is left at any depth, and the variables that the code refers to are
those of the module, the tags and the runtime functions of the elements.
-/

namespace MdxBuild.Jsx

open Script

namespace Style

variable {style : Style}

/-! ## Lists of nodes -/

theorem lowerAll_eq_map (nodes : List Node) : style.lowerAll nodes = nodes.map style.lower := by
  induction nodes with
  | nil => rfl
  | cons node others ih => rw [lowerAll, ih, List.map_cons]

/-- What an attribute of an element is lowered to. -/
def loweredSetting? (style : Style) : Node → Option Setting
  | .setting key value => some (.value key (style.lower value))
  | .flag key => some (.value key (.word "true".toList))
  | .spread value => some (.spread (style.lower value))
  | _ => none

theorem lowerAttributes_eq (attributes : List Node) :
    style.lowerAttributes attributes = attributes.filterMap style.loweredSetting? := by
  induction attributes with
  | nil => rfl
  | cons setting others ih =>
    cases setting <;> simp [lowerAttributes, List.filterMap_cons, ih, loweredSetting?]

/-- What a child of an element is lowered to, if it counts. -/
def loweredChild? (style : Style) : Node → Option Node
  | .text raw => (style.childText raw).map fun text => .string (.ofText text)
  | .emptyContainer => none
  | .spread value => some (.spread (style.lower value))
  | node => some (style.lower node)

theorem lowerChildren_eq (children : List Node) :
    style.lowerChildren children = children.filterMap style.loweredChild? := by
  induction children with
  | nil => rfl
  | cons child others ih =>
    cases child <;> simp [lowerChildren, List.filterMap_cons, ih, loweredChild?]
    case text raw => cases style.childText raw <;> simp

theorem map_key_lowerAttributes (attributes : List Node) :
    (style.lowerAttributes attributes).map Setting.key? = attributes.filterMap attributeKey? := by
  rw [lowerAttributes_eq, List.map_filterMap]
  congr 1
  funext setting
  cases setting <;> rfl

theorem length_lowerChildren (children : List Node) :
    (style.lowerChildren children).length = style.childCount children := by
  rw [lowerChildren_eq, List.length_filterMap_eq_countP, childCount]
  congr 1
  funext child
  cases child <;> simp [loweredChild?]

/-! ## Code around markup -/

/-- Outside of markup only the parts of a node are lowered. -/
theorem lower_eq_mapParts {node : Node} (code : node.isMarkup = false) :
    style.lower node = node.mapParts style.lower := by
  cases node <;> simp [Node.isMarkup] at code <;>
    simp [lower, Node.mapParts, lowerAll_eq_map]

/-- Code without markup stays as it is. -/
theorem lower_of_isCode {node : Node} (isCode : node.IsCode) : style.lower node = node := by
  induction node using Node.induction_of_parts with
  | step node ih =>
    obtain ⟨code, below⟩ := Node.throughout_iff.mp isCode
    rw [lower_eq_mapParts code]
    exact Node.mapParts_eq_self fun part isPart => ih part isPart (below part isPart)

/-! ## Calls -/

/-- The value of a lowered attribute. -/
def settingValue : Setting → Node
  | .value _ value => value
  | .spread value => value

section Calls

variable {names : Text → Prop}

theorem isCodeOver_property {key : Text} {value : Node} (isCode : value.IsCodeOver names) :
    (style.property key value).IsCodeOver names :=
  Node.isCodeOver_of_parts rfl rfl (by simpa [property, Node.parts] using isCode)

theorem isCodeOver_members {setting : Setting} (isCode : (settingValue setting).IsCodeOver names) :
    ∀ member ∈ style.members setting, member.IsCodeOver names := by
  have spreads {value : Node} (isCode : value.IsCodeOver names) :
      ∀ member ∈ [Node.spread value], member.IsCodeOver names := by
    simp only [List.mem_singleton, forall_eq]
    exact Node.isCodeOver_of_parts rfl rfl (by simpa [Node.parts] using isCode)
  unfold members
  split
  · exact List.forall_mem_singleton.mpr (isCodeOver_property isCode)
  · split
    · exact (Node.throughout_iff.mp isCode).2
    · exact spreads isCode
  · exact spreads isCode

theorem isCodeOver_childrenMember {children : List Node}
    (areCode : ∀ child ∈ children, child.IsCodeOver names) :
    ∀ member ∈ childrenMember children, member.IsCodeOver names := by
  have holds {value : Node} (isCode : value.IsCodeOver names) :
      ∀ member ∈ [Node.property (.name "children".toList) value], member.IsCodeOver names := by
    simp only [List.mem_singleton, forall_eq]
    exact Node.isCodeOver_of_parts rfl rfl (by simpa [Node.parts] using isCode)
  unfold childrenMember
  split
  · exact fun _ member => absurd member List.not_mem_nil
  · exact holds (areCode _ List.mem_cons_self)
  · exact holds (Node.isCodeOver_of_parts rfl rfl areCode)

theorem mem_of_lastKey? {settings : List Setting} {value : Node}
    (last : value ∈ lastKey? settings) : ∃ setting ∈ settings, settingValue setting = value := by
  obtain ⟨setting, member, found⟩ := List.mem_filterMap.mp (List.mem_of_getLast? last)
  cases setting with
  | spread _ => cases found
  | value key value =>
    simp only [Option.ite_none_right_eq_some, Option.some.injEq] at found
    exact ⟨_, member, found.2⟩

/-- The call that makes an element is code if the tag, the attributes and the children are. -/
theorem isCodeOver_call {tag : Node} {settings : List Setting} {children : List Node}
    (spreads : ∀ value, value.IsCodeOver names → (style.spreadChild value).IsCodeOver names)
    (function : names (style.name (style.callee (settings.map Setting.key?) children.length)))
    (tagIsCode : tag.IsCodeOver names)
    (settingsAreCode : ∀ setting ∈ settings, (settingValue setting).IsCodeOver names)
    (childrenAreCode : ∀ child ∈ children, child.IsCodeOver names) :
    (style.call tag settings children).IsCodeOver names := by
  have listedAreCode : ∀ child ∈ children.map style.listedChild, child.IsCodeOver names := by
    simp only [List.mem_map, forall_exists_index, and_imp, forall_apply_eq_imp_iff₂]
    intro child member
    unfold listedChild
    split
    · next value =>
      have valueIsCode := (Node.throughout_iff.mp (childrenAreCode _ member)).2 value
      exact spreads value (valueIsCode (by simp [Node.parts]))
    · exact childrenAreCode child member
  refine Node.isCodeOver_of_parts rfl rfl ?_
  rw [call, Node.parts]
  refine List.forall_mem_cons.mpr ⟨Node.isCodeOver_name function, ?_⟩
  split
  · refine List.forall_mem_cons.mpr ⟨tagIsCode, List.forall_mem_cons.mpr ⟨?_, childrenAreCode⟩⟩
    refine Node.isCodeOver_of_parts rfl rfl fun member isMember => ?_
    obtain ⟨setting, isSetting, isMember⟩ := List.mem_flatMap.mp isMember
    exact isCodeOver_members (settingsAreCode setting isSetting) member isMember
  · refine List.forall_mem_cons.mpr ⟨tagIsCode, List.forall_mem_cons.mpr ⟨?_, ?_⟩⟩
    · refine Node.isCodeOver_of_parts rfl rfl fun member isMember => ?_
      obtain isMember | isMember := List.mem_append.mp isMember
      · obtain ⟨setting, isSetting, isMember⟩ := List.mem_flatMap.mp isMember
        exact isCodeOver_members (settingsAreCode setting (List.mem_filter.mp isSetting).1)
          member isMember
      · exact isCodeOver_childrenMember listedAreCode member isMember
    · intro key isKey
      obtain ⟨setting, isSetting, rfl⟩ := mem_of_lastKey? (Option.mem_toList.mp isKey)
      exact settingsAreCode setting isSetting

end Calls

/-! ## References -/

/-- The variable that a tag refers to. -/
def tagVariable? : Tag → Option Text
  | .component root _ => if root = "this".toList then none else some root
  | _ => none

/-- The variables that a node itself refers to: an element to that of its tag, and braces without an
expression to `undefined`. -/
def ownReferences : Node → List Text
  | .name id => [id]
  | .element tag _ _ => (tagVariable? tag).toList
  | .emptyContainer => ["undefined".toList]
  | _ => []

/-- The runtime names that the call for a node itself needs. -/
def callNames (style : Style) : Node → List RuntimeName
  | .element _ attributes children =>
    [style.callee (attributes.filterMap attributeKey?) (style.childCount children)]
  | .fragment children => [.fragment, style.callee [] (style.childCount children)]
  | _ => []

theorem isCodeOver_path {names : Text → Prop} {owner : Node} (isCode : owner.IsCodeOver names)
    (path : List Text) : (path.foldl Node.member owner).IsCodeOver names := by
  induction path generalizing owner with
  | nil => exact isCode
  | cons key path ih =>
    refine ih (Node.isCodeOver_of_parts rfl rfl ?_)
    simpa [Node.parts] using isCode

theorem isCodeOver_tag {names : Text → Prop} {name : Tag}
    (known : ∀ id ∈ tagVariable? name, names id) : (tag name).IsCodeOver names := by
  cases name with
  | intrinsic name => exact Node.isCodeOver_of_parts rfl rfl nofun
  | namespaced space name => exact Node.isCodeOver_of_parts rfl rfl nofun
  | component root path =>
    refine isCodeOver_path ?_ path
    split
    · exact Node.isCodeOver_of_parts rfl rfl nofun
    · next isVariable => exact Node.isCodeOver_name (known root (if_neg isVariable))

section Parts

variable {names : Text → Prop} {parts : List Node}

/-- Attributes become code if their own lowered forms are code. -/
theorem isCodeOver_lowerAttributes
    (areCode : ∀ part ∈ parts, (style.lower part).IsCodeOver names) :
    ∀ setting ∈ style.lowerAttributes parts, (settingValue setting).IsCodeOver names := by
  intro setting member
  rw [lowerAttributes_eq] at member
  obtain ⟨part, isPart, lowered⟩ := List.mem_filterMap.mp member
  have below := (Node.throughout_iff.mp (areCode part isPart)).2
  cases part with
  | setting key value =>
    cases lowered
    exact below _ (by simp [lower, property, Node.parts, settingValue])
  | flag key =>
    cases lowered
    exact below _ (by simp [lower, property, Node.parts, settingValue])
  | spread value =>
    cases lowered
    exact below _ (by simp [lower, Node.parts, settingValue])
  | _ => cases lowered

/-- Children become code if their own lowered forms are code. -/
theorem isCodeOver_lowerChildren
    (areCode : ∀ part ∈ parts, (style.lower part).IsCodeOver names) :
    ∀ child ∈ style.lowerChildren parts, child.IsCodeOver names := by
  intro child member
  rw [lowerChildren_eq] at member
  obtain ⟨part, isPart, lowered⟩ := List.mem_filterMap.mp member
  have isCode := areCode part isPart
  cases part with
  | text raw =>
    obtain ⟨text, _, rfl⟩ := Option.map_eq_some_iff.mp lowered
    exact Node.isCodeOver_of_parts rfl rfl nofun
  | emptyContainer => cases lowered
  | _ =>
    cases lowered
    exact isCode

end Parts

/-- Lowering leaves no markup at any depth, and refers to nothing but what the module refers to and
the runtime names that its elements need. -/
theorem isCodeOver_lower {names : Text → Prop}
    (spreads : ∀ value, value.IsCodeOver names → (style.spreadChild value).IsCodeOver names)
    {node : Node} (own : ∀ sub ∈ node.subnodes, ∀ id ∈ ownReferences sub, names id)
    (calls : ∀ sub ∈ node.subnodes, ∀ name ∈ style.callNames sub, names (style.name name)) :
    (style.lower node).IsCodeOver names := by
  induction node using Node.induction_of_parts with
  | step node ih =>
    have below (part : Node) (isPart : part ∈ node.parts) : (style.lower part).IsCodeOver names :=
      ih part isPart
        (fun sub member => own sub (Node.mem_subnodes_of_mem_parts isPart member))
        (fun sub member => calls sub (Node.mem_subnodes_of_mem_parts isPart member))
    have ownHere := own node node.mem_subnodes_self
    have callsHere := calls node node.mem_subnodes_self
    cases code : node.isMarkup with
    | false =>
      rw [lower_eq_mapParts code]
      refine Node.throughout_iff.mpr ⟨⟨(Node.isMarkup_mapParts _ _).trans code, ?_⟩, ?_⟩
      · intro id refers
        cases node <;> cases refers
        exact ownHere _ List.mem_cons_self
      · simpa [Node.IsCodeOver] using below
    | true =>
      cases node with
      | element name attributes children =>
        refine isCodeOver_call spreads ?_ (isCodeOver_tag fun id known => ownHere id ?_)
          (isCodeOver_lowerAttributes fun part isPart => below part (List.mem_append_left _ isPart))
          (isCodeOver_lowerChildren fun part isPart => below part (List.mem_append_right _ isPart))
        · rw [map_key_lowerAttributes, length_lowerChildren]
          exact callsHere _ List.mem_cons_self
        · simpa [ownReferences] using known
      | fragment children =>
        refine isCodeOver_call spreads ?_ (Node.isCodeOver_name (callsHere _ List.mem_cons_self))
          nofun (isCodeOver_lowerChildren below)
        rw [length_lowerChildren]
        exact callsHere _ (by simp [callNames])
      | setting key value => exact isCodeOver_property (below value List.mem_cons_self)
      | flag key => exact isCodeOver_property (Node.isCodeOver_of_parts rfl rfl nofun)
      | quoted raw => exact Node.isCodeOver_of_parts rfl rfl nofun
      | text raw => exact Node.isCodeOver_of_parts rfl rfl nofun
      | container value => exact below value List.mem_cons_self
      | emptyContainer => exact Node.isCodeOver_name (ownHere _ List.mem_cons_self)
      | _ => cases code

end Style

end MdxBuild.Jsx

import MdxBuild.Jsx.Plain
import MdxBuild.Proofs.Jsx.Lowering

/-!
# What plain lowering keeps

The call for an element has all that the element passes on: the values of its attributes, its last
key and its children. So code at any depth of a module is found in the lowered module as it was,
unless a later key of its element took its place.
-/

namespace MdxBuild.Jsx

open Script Style

/-! ## Calls -/

theorem callee_plain (keys : List (Option Text)) (children : Nat) :
    plain.callee keys children = if children ≤ 1 then .jsx else .jsxs :=
  rfl

theorem callee_plain_ne (keys : List (Option Text)) (children : Nat) :
    plain.callee keys children ≠ .createElement := by
  rw [callee_plain]
  split <;> simp

/-- The members of the attribute object of a call. -/
def attributeMembers (settings : List Setting) (children : List Node) : List Node :=
  (settings.filter fun setting => setting.key? != some keyName).flatMap plain.members ++
    childrenMember (children.map plain.listedChild)

/-- The call that makes an element has the tag, the attribute object and the last key. -/
theorem call_plain (tag : Node) (settings : List Setting) (children : List Node) :
    plain.call tag settings children =
      .call false
        (.name (plain.name (plain.callee (settings.map Setting.key?) children.length)))
        (tag :: .object (attributeMembers settings children) :: (lastKey? settings).toList) := by
  simp only [call, callee_plain_ne, if_false]
  rfl

section Kept

variable {tag : Node} {settings : List Setting} {children : List Node}

theorem mem_subnodes_call_of_member {member value : Node}
    (isMember : member ∈ attributeMembers settings children) (isPart : value ∈ member.parts) :
    value ∈ (plain.call tag settings children).subnodes := by
  have inObject : value ∈ (Node.object (attributeMembers settings children)).subnodes :=
    Node.mem_subnodes_trans (Node.part_mem_subnodes isPart) (Node.part_mem_subnodes isMember)
  rw [call_plain]
  refine Node.mem_subnodes_trans inObject (Node.part_mem_subnodes ?_)
  exact List.mem_cons_of_mem _ (List.mem_cons_of_mem _ List.mem_cons_self)

/-- An attribute that is no key has its value in the call. -/
theorem mem_subnodes_call_of_setting {setting : Setting} (isSetting : setting ∈ settings)
    (noKey : setting.key? ≠ some keyName) :
    settingValue setting ∈ (plain.call tag settings children).subnodes := by
  have isOther : setting ∈ settings.filter fun setting => setting.key? != some keyName := by
    simpa [isSetting] using noKey
  have isMember {member : Node} (member_of : member ∈ plain.members setting) :
      member ∈ attributeMembers settings children :=
    List.mem_append_left _ (List.mem_flatMap.mpr ⟨setting, isOther, member_of⟩)
  cases setting with
  | value key value =>
    exact mem_subnodes_call_of_member (isMember List.mem_cons_self) List.mem_cons_self
  | spread value =>
    have spreads : .spread value ∈ plain.members (.spread value) := by
      unfold members
      split <;> simp_all [plain]
    exact mem_subnodes_call_of_member (isMember spreads) List.mem_cons_self

/-- The last key is in the call. -/
theorem mem_subnodes_call_of_key {value : Node} (last : value ∈ lastKey? settings) :
    value ∈ (plain.call tag settings children).subnodes := by
  rw [call_plain]
  refine Node.part_mem_subnodes (List.mem_cons_of_mem _ (List.mem_cons_of_mem _
    (List.mem_cons_of_mem _ ?_)))
  exact Option.mem_toList.mpr last

/-- Every child is in the call. -/
theorem mem_subnodes_call_of_child {child : Node} (isChild : child ∈ children) :
    plain.listedChild child ∈ (plain.call tag settings children).subnodes := by
  have listed : plain.listedChild child ∈ children.map plain.listedChild :=
    List.mem_map_of_mem isChild
  have isMember {member : Node}
      (member_of : member ∈ childrenMember (children.map plain.listedChild)) :
      member ∈ attributeMembers settings children :=
    List.mem_append_right _ member_of
  unfold childrenMember at isMember
  split at isMember
  · next none => simp_all
  · next only single =>
    rw [single] at listed
    exact mem_subnodes_call_of_member (isMember List.mem_cons_self) listed
  · refine Node.mem_subnodes_trans (Node.part_mem_subnodes ?_)
      (mem_subnodes_call_of_member (isMember List.mem_cons_self) List.mem_cons_self)
    exact listed

end Kept

/-! ## What is passed on -/

/-- The values that the attributes of an element pass on: of several keys, the last one alone is a
key of the element. -/
def passedValues : List Node → List Node
  | [] => []
  | .setting key value :: others =>
    if key = keyName && others.any isKeyAttribute then passedValues others
    else value :: passedValues others
  | .spread value :: others => value :: passedValues others
  | _ :: others => passedValues others

/-- What a child of an element passes on: an expression in braces without the braces, and without
the mark that it is to be spread. -/
def passedChild : Node → Node
  | .spread value => value
  | .container value => passedChild value
  | child => child

/-- The nodes directly inside of a node that lowering passes on to what becomes of the node. -/
def passed : Node → List Node
  | .element _ attributes children => passedValues attributes ++ children.map passedChild
  | .fragment children => children.map passedChild
  | node => node.parts

/-- A node passes on another one, through any number of nodes in between. -/
inductive PassesOn : Node → Node → Prop
  | here (node : Node) : PassesOn node node
  | inside {node part sub : Node} (isPassed : part ∈ passed node) (passes : PassesOn part sub) :
    PassesOn node sub

theorem lastKey?_cons (setting : Setting) (others : List Setting) :
    lastKey? (setting :: others) =
      (lastKey? others).or
        (if setting.key? = some keyName then some (settingValue setting) else none) := by
  cases setting with
  | spread value => simp [lastKey?, Setting.key?]
  | value key value =>
    by_cases isKey : key = keyName <;>
      simp [lastKey?, Setting.key?, isKey, settingValue, List.getLast?_cons]

/-- An element has a key only if one of its attributes gives it one. -/
theorem lastKey?_eq_none {attributes : List Node} (noKey : attributes.any isKeyAttribute = false) :
    lastKey? (plain.lowerAttributes attributes) = none := by
  induction attributes with
  | nil => rfl
  | cons setting others ih =>
    simp only [List.any_cons, Bool.or_eq_false_iff] at noKey
    cases setting <;>
      simp_all [lowerAttributes, lastKey?_cons, Setting.key?, isKeyAttribute, attributeKey?]

/-- The value of a node became that of an attribute that is no key, or the last key. -/
def IsSet (settings : List Setting) (value : Node) : Prop :=
  (∃ setting ∈ settings, setting.key? ≠ some keyName ∧ settingValue setting = value) ∨
    value ∈ lastKey? settings

theorem IsSet.cons {settings : List Setting} {value : Node} (isSet : IsSet settings value)
    (setting : Setting) : IsSet (setting :: settings) value := by
  obtain ⟨other, member, noKey, same⟩ | last := isSet
  · exact .inl ⟨other, List.mem_cons_of_mem _ member, noKey, same⟩
  · refine .inr ?_
    rw [lastKey?_cons, Option.mem_def.mp last]
    rfl

/-- The values that attributes pass on are values of the lowered attributes. -/
theorem isSet_of_mem_passedValues {attributes : List Node} {value : Node}
    (isPassed : value ∈ passedValues attributes) :
    IsSet (plain.lowerAttributes attributes) (plain.lower value) := by
  induction attributes with
  | nil => cases isPassed
  | cons setting others ih =>
    cases setting with
    | setting key given =>
      by_cases overridden : (key = keyName && others.any isKeyAttribute) = true
      · rw [passedValues, if_pos overridden] at isPassed
        exact (ih isPassed).cons _
      · rw [passedValues, if_neg overridden] at isPassed
        obtain rfl | isPassed := List.mem_cons.mp isPassed
        · by_cases isKey : key = keyName
          · refine .inr ?_
            have noKey : others.any isKeyAttribute = false := by simpa [isKey] using overridden
            rw [lowerAttributes, lastKey?_cons, lastKey?_eq_none noKey]
            simp [Setting.key?, isKey, settingValue]
          · exact .inl ⟨_, List.mem_cons_self, by simpa [Setting.key?] using isKey, rfl⟩
        · exact (ih isPassed).cons _
    | spread given =>
      obtain rfl | isPassed := List.mem_cons.mp isPassed
      · exact .inl ⟨_, List.mem_cons_self, by simp [Setting.key?], rfl⟩
      · exact (ih isPassed).cons _
    | flag key => exact (ih isPassed).cons _
    | _ => exact ih isPassed

/-- The value of an attribute is in the call for its element. -/
theorem mem_subnodes_call_of_isSet {tag value : Node} {settings : List Setting}
    {children : List Node} (isSet : IsSet settings value) :
    value ∈ (plain.call tag settings children).subnodes := by
  obtain ⟨setting, member, noKey, rfl⟩ | last := isSet
  · exact mem_subnodes_call_of_setting member noKey
  · exact mem_subnodes_call_of_key last

theorem PassesOn.eq_of_childless {node sub : Node} (passes : PassesOn node sub)
    (childless : passed node = []) : sub = node := by
  cases passes with
  | here => rfl
  | inside isPassed _ =>
    rw [childless] at isPassed
    cases isPassed

theorem listedChild_lower (child : Node) :
    plain.listedChild (plain.lower child) = plain.lower (passedChild child) := by
  induction child using Node.induction_of_parts with
  | step child ih =>
    cases child with
    | container value => exact ih value List.mem_cons_self
    | _ => rfl

/-- A child that passes on code is in the call for its element. -/
theorem mem_subnodes_call_of_mem_children {tag child sub : Node} {settings : List Setting}
    {children : List Node} (isChild : child ∈ children) (passes : PassesOn (passedChild child) sub)
    (isCode : sub.IsCode) :
    plain.lower (passedChild child) ∈
      (plain.call tag settings (plain.lowerChildren children)).subnodes := by
  -- A child that is dropped passes on nothing but itself, which is markup.
  have notDropped (childless : passed child = []) (same : passedChild child = child) :
      child.isMarkup = false := by
    rw [same] at passes
    exact passes.eq_of_childless childless ▸ isCode sub sub.mem_subnodes_self
  have counts : plain.loweredChild? child = some (plain.lower child) := by
    cases child with
    | text raw => cases notDropped rfl rfl
    | emptyContainer => cases notDropped rfl rfl
    | _ => rfl
  rw [← listedChild_lower]
  refine mem_subnodes_call_of_child ?_
  rw [lowerChildren_eq]
  exact List.mem_filterMap.mpr ⟨child, isChild, counts⟩

/-- Code that lowering passes on is found in what it makes of the node. -/
theorem mem_subnodes_lower {node sub : Node} (passes : PassesOn node sub) (isCode : sub.IsCode) :
    sub ∈ (plain.lower node).subnodes := by
  induction passes with
  | here node =>
    rw [lower_of_isCode isCode]
    exact node.mem_subnodes_self
  | @inside node part sub isPassed passes ih =>
    refine Node.mem_subnodes_trans (ih isCode) ?_
    cases code : node.isMarkup with
    | false =>
      have isPart : part ∈ node.parts := by
        cases node <;> first | exact isPassed | cases code
      rw [lower_eq_mapParts code]
      refine Node.part_mem_subnodes ?_
      rw [Node.parts_mapParts]
      exact List.mem_map_of_mem isPart
    | true =>
      cases node with
      | element name attributes children =>
        obtain isPassed | isPassed := List.mem_append.mp isPassed
        · exact mem_subnodes_call_of_isSet (isSet_of_mem_passedValues isPassed)
        · obtain ⟨child, isChild, rfl⟩ := List.mem_map.mp isPassed
          exact mem_subnodes_call_of_mem_children isChild passes isCode
      | fragment children =>
        obtain ⟨child, isChild, rfl⟩ := List.mem_map.mp isPassed
        exact mem_subnodes_call_of_mem_children isChild passes isCode
      | setting key value =>
        cases List.mem_singleton.mp isPassed
        exact Node.part_mem_subnodes List.mem_cons_self
      | container value =>
        cases List.mem_singleton.mp isPassed
        exact Node.mem_subnodes_self _
      | flag key => cases isPassed
      | quoted raw => cases isPassed
      | text raw => cases isPassed
      | emptyContainer => cases isPassed
      | _ => cases code

end MdxBuild.Jsx

import MdxBuild.Proofs.Json.Reading

/-!
# What printing tells apart

The compact form of a value in which every number is an integer tells the value, whatever the order
of its members, its depth and the characters of its strings are. The reader is of no use here: it
sorts members and gives up on values that nest too deeply. A printed form also tells where it ends,
so the forms of items can be told from the form of their list.
-/

namespace MdxBuild

/-- A number is told by its digits. -/
theorem Text.ofNat_injective : Function.Injective Text.ofNat := by
  intro number other same
  have value := congrArg (Nat.ofDigitChars 10 · 0) same
  simpa [Text.ofNat, Nat.ofDigitChars_ten_toDigits] using value

namespace Json

/-- Among the printed forms of values of a kind, that of the value tells the value and where it
ends, as long as nothing follows that would go on with a number. -/
def Delimits {α : Type} (print : α → Text) (valid : α → Prop) (value : α) : Prop :=
  ∀ ⦃other : α⦄, valid other → ∀ ⦃rest after : Text⦄, endsNumber rest = true →
    endsNumber after = true → print value ++ rest = print other ++ after →
      value = other ∧ rest = after

/-! ## Scalars -/

/-- A printed string tells where it ends. -/
theorem quote_append_inj {value other rest after : Text}
    (same : quote value ++ rest = quote other ++ after) : value = other ∧ rest = after := by
  rw [quote_append, quote_append, List.cons.injEq] at same
  have reads := congrArg readString same.2
  rw [readString_escape, readString_escape, Except.ok.injEq, Prod.mk.injEq] at reads
  exact reads

/-- The digits of a number are all that stand in front of a text that ends numbers. -/
theorem takeWhile_ofNat_append (number : Nat) {rest : Text} (ended : endsNumber rest = true) :
    (Text.ofNat number ++ rest).takeWhile Char.isDigit = Text.ofNat number := by
  have noDigit : rest.takeWhile Char.isDigit = [] := by
    cases rest with
    | nil => rfl
    | cons char others =>
      have isNoDigit : startsDigit (char :: others) = false := by
        simp only [endsNumber, Bool.and_eq_true, Bool.not_eq_true'] at ended
        exact ended.1.1
      rw [List.takeWhile_cons, if_neg (by simpa [startsDigit] using isNoDigit)]
  rw [List.takeWhile_append_of_pos fun _ => isDigit_of_mem_ofNat number, noDigit, List.append_nil]

theorem ofNat_append_inj {number other : Nat} {rest after : Text}
    (ended : endsNumber rest = true) (endedAfter : endsNumber after = true)
    (same : Text.ofNat number ++ rest = Text.ofNat other ++ after) :
    number = other ∧ rest = after := by
  have digits : Text.ofNat number = Text.ofNat other := by
    rw [← takeWhile_ofNat_append number ended, same, takeWhile_ofNat_append other endedAfter]
  rw [digits] at same
  exact ⟨Text.ofNat_injective digits, List.append_cancel_left same⟩

/-- A printed integer starts with a digit exactly if it is not negative. -/
theorem integerText_append_inj {value other : Int} {rest after : Text}
    (ended : endsNumber rest = true) (endedAfter : endsNumber after = true)
    (same : integerText value ++ rest = integerText other ++ after) :
    value = other ∧ rest = after := by
  obtain ⟨digit, digits, written, isDigit, -⟩ := ofNat_eq_cons value.natAbs
  obtain ⟨otherDigit, otherDigits, otherWritten, isOtherDigit, -⟩ := ofNat_eq_cons other.natAbs
  rw [integerText, integerText] at same
  split at same <;> split at same
  · obtain ⟨sameSize, sameRest⟩ := ofNat_append_inj ended endedAfter (List.cons.inj same).2
    exact ⟨by omega, sameRest⟩
  · rw [otherWritten] at same
    exact absurd (List.cons.inj same).1.symm (ne_of_isDigit isOtherDigit '-' rfl)
  · rw [written] at same
    exact absurd (List.cons.inj same).1 (ne_of_isDigit isDigit '-' rfl)
  · obtain ⟨sameSize, sameRest⟩ := ofNat_append_inj ended endedAfter same
    exact ⟨by omega, sameRest⟩

/-! ## Lists -/

section Lists

variable {α : Type} {print : α → Text} {valid : α → Prop} {items others : List α}
  {rest after : Text} {close : Char}

/-- Items behind a comma each are told up to the closing bracket. -/
theorem eq_of_behindCommas (delimits : ∀ item ∈ items, Delimits print valid item)
    (areValid : ∀ other ∈ others, valid other) (noComma : close ≠ ',')
    (ends : ∀ rest, endsNumber (close :: rest) = true)
    (same : items.flatMap (fun item => ',' :: print item) ++ close :: rest =
      others.flatMap (fun item => ',' :: print item) ++ close :: after) :
    items = others ∧ rest = after := by
  induction items generalizing others with
  | nil =>
    cases others with
    | nil => exact ⟨rfl, (List.cons.inj same).2⟩
    | cons other more => exact absurd (List.cons.inj same).1 noComma
  | cons item remaining ih =>
    cases others with
    | nil => exact absurd (List.cons.inj same).1.symm noComma
    | cons other more =>
      rw [List.flatMap_cons, List.flatMap_cons, List.append_assoc, List.append_assoc,
        List.cons_append, List.cons_append, List.cons.injEq] at same
      obtain ⟨rfl, behind⟩ := delimits item List.mem_cons_self
        (areValid other List.mem_cons_self) (endsNumber_behindCommas (ends _) remaining)
        (endsNumber_behindCommas (ends _) more) same.2
      obtain ⟨rfl, sameRest⟩ := ih
        (fun next member => delimits next (List.mem_cons_of_mem _ member))
        (fun next member => areValid next (List.mem_cons_of_mem _ member)) behind
      exact ⟨rfl, sameRest⟩

/-- Items with commas between them are told up to the closing bracket. -/
theorem eq_of_separated (delimits : ∀ item ∈ items, Delimits print valid item)
    (areValid : ∀ item ∈ items, valid item) (areValidOthers : ∀ other ∈ others, valid other)
    (starts : ∀ item, valid item → ∃ first printed, print item = first :: printed ∧ first ≠ close)
    (noComma : close ≠ ',') (ends : ∀ rest, endsNumber (close :: rest) = true)
    (same : separated print items ++ close :: rest = separated print others ++ close :: after) :
    items = others ∧ rest = after := by
  have noClose {item : α} (isValid : valid item) (more : List α) (text after : Text) :
      separated print (item :: more) ++ text ≠ close :: after := by
    obtain ⟨first, printed, written, differs⟩ := starts item isValid
    rw [separated, written]
    intro closed
    exact differs (List.cons.inj closed).1
  cases items with
  | nil =>
    cases others with
    | nil => exact ⟨rfl, (List.cons.inj same).2⟩
    | cons other more =>
      exact absurd same.symm (noClose (areValidOthers other List.mem_cons_self) more _ _)
  | cons item remaining =>
    cases others with
    | nil => exact absurd same (noClose (areValid item List.mem_cons_self) remaining _ _)
    | cons other more =>
      -- With one more comma in front, all items stand behind a comma.
      have behindCommas := congrArg (',' :: ·) same
      simp only [separated, ← List.cons_append] at behindCommas
      exact eq_of_behindCommas delimits areValidOthers noComma ends behindCommas

end Lists

/-! ## Values -/

mutual

/-- A value in which every number is an integer. -/
def isIntegral : Json → Bool
  | .number (.double _) => false
  | .array items => itemsIntegral items
  | .object members => membersIntegral members
  | _ => true

/-- Items in which every number is an integer. -/
def itemsIntegral : List Json → Bool
  | [] => true
  | item :: others => item.isIntegral && itemsIntegral others

/-- Members in which every number is an integer. -/
def membersIntegral : List (Text × Json) → Bool
  | [] => true
  | (_, value) :: others => value.isIntegral && membersIntegral others

end

theorem itemsIntegral_iff {items : List Json} :
    itemsIntegral items = true ↔ ∀ item ∈ items, item.isIntegral = true := by
  induction items with
  | nil => simp [itemsIntegral]
  | cons item others ih => simp [itemsIntegral, ih]

theorem membersIntegral_iff {members : List (Text × Json)} :
    membersIntegral members = true ↔ ∀ member ∈ members, member.2.isIntegral = true := by
  induction members with
  | nil => simp [membersIntegral]
  | cons member others ih => simp [membersIntegral, ih]

/-- The kinds of values. -/
inductive Kind where
  | null
  | bool
  | number
  | string
  | array
  | object
deriving DecidableEq, Repr

/-- The kind of a value. -/
def kind : Json → Kind
  | .null => .null
  | .bool _ => .bool
  | .number _ => .number
  | .string _ => .string
  | .array _ => .array
  | .object _ => .object

/-- The kind of the values whose printed forms start with a character. -/
def kindAt (first : Char) : Kind :=
  if first = 'n' then .null
  else if first = 't' ∨ first = 'f' then .bool
  else if first = '"' then .string
  else if first = '[' then .array
  else if first = '{' then .object
  else .number

theorem kindAt_of_isDigit {char : Char} (isDigit : char.isDigit = true) :
    kindAt char = .number := by
  have differs (other : Char) (noDigit : other.isDigit = false) :=
    ne_of_isDigit isDigit other noDigit
  simp [kindAt, differs]

/-- A printed form shows its kind, and does not start with a closing bracket. -/
theorem exists_first_render {value : Json} (integral : value.isIntegral = true) :
    ∃ first rest, value.render = first :: rest ∧ kindAt first = value.kind ∧ first ≠ ']' := by
  cases value with
  | null => exact ⟨'n', _, rfl, rfl, by decide⟩
  | bool value => cases value <;> exact ⟨_, _, rfl, rfl, by decide⟩
  | number value =>
    cases value with
    | double bits => cases integral
    | integer value =>
      obtain ⟨first, others, written, isDigit, _⟩ := ofNat_eq_cons value.natAbs
      simp only [render, renderScalar, Number.render, integerText, written]
      split
      · exact ⟨'-', _, rfl, rfl, by decide⟩
      · exact ⟨first, others, rfl, kindAt_of_isDigit isDigit, ne_of_isDigit isDigit ']' rfl⟩
  | string value => exact ⟨'"', _, rfl, rfl, by decide⟩
  | array items => exact ⟨'[', _, rfl, rfl, by decide⟩
  | object members => exact ⟨'{', _, rfl, rfl, by decide⟩

/-- Values whose printed forms start alike are of the same kind. -/
theorem kind_eq_of_render_append {value other : Json} {rest after : Text}
    (integral : value.isIntegral = true) (otherIntegral : other.isIntegral = true)
    (same : value.render ++ rest = other.render ++ after) : value.kind = other.kind := by
  obtain ⟨first, printed, written, shows, -⟩ := exists_first_render integral
  obtain ⟨otherFirst, otherPrinted, otherWritten, otherShows, -⟩ :=
    exists_first_render otherIntegral
  rw [written, otherWritten] at same
  rw [← shows, ← otherShows, (List.cons.inj same).1]

/-- An array is told if its items are. -/
theorem delimits_array {items : List Json} (integral : itemsIntegral items = true)
    (delimits : ∀ item ∈ items, Delimits render (isIntegral · = true) item) :
    Delimits render (isIntegral · = true) (array items) := by
  intro other otherIntegral rest after _ _ same
  have sameKind : (array items).kind = other.kind :=
    kind_eq_of_render_append integral otherIntegral same
  cases other with
  | array others =>
    rw [render, render, renderItems_eq_separated, renderItems_eq_separated] at same
    simp only [List.append_assoc, List.cons_append, List.cons.injEq, true_and] at same
    obtain ⟨rfl, sameRest⟩ := eq_of_separated delimits (itemsIntegral_iff.mp integral)
      (itemsIntegral_iff.mp otherIntegral)
      (fun item isIntegral => by
        obtain ⟨first, printed, written, -, differs⟩ := exists_first_render isIntegral
        exact ⟨first, printed, written, differs⟩)
      (by decide) (fun _ => rfl) same
    exact ⟨rfl, sameRest⟩
  | _ => cases sameKind

/-- A member is told if its value is. -/
theorem delimits_printMember {member : Text × Json}
    (delimits : Delimits render (isIntegral · = true) member.2) :
    Delimits (printMember render) (fun member => member.2.isIntegral = true) member := by
  intro other otherIntegral rest after ended endedAfter same
  obtain ⟨key, value⟩ := member
  obtain ⟨otherKey, otherValue⟩ := other
  rw [printMember_append, printMember_append] at same
  obtain ⟨rfl, behind⟩ := quote_append_inj same
  obtain ⟨rfl, sameRest⟩ := delimits otherIntegral ended endedAfter (List.cons.inj behind).2
  exact ⟨rfl, sameRest⟩

/-- An object is told with the order of its members if their values are. -/
theorem delimits_object {members : List (Text × Json)} (integral : membersIntegral members = true)
    (delimits : ∀ member ∈ members, Delimits render (isIntegral · = true) member.2) :
    Delimits render (isIntegral · = true) (object members) := by
  intro other otherIntegral rest after _ _ same
  have sameKind : (object members).kind = other.kind :=
    kind_eq_of_render_append integral otherIntegral same
  cases other with
  | object others =>
    rw [render, render, renderMembers_eq_separated, renderMembers_eq_separated] at same
    simp only [List.append_assoc, List.cons_append, List.cons.injEq, true_and] at same
    obtain ⟨rfl, sameRest⟩ := eq_of_separated
      (fun member isMember => delimits_printMember (delimits member isMember))
      (membersIntegral_iff.mp integral) (membersIntegral_iff.mp otherIntegral)
      (fun member _ => ⟨'"', _, rfl, by decide⟩) (by decide) (fun _ => rfl) same
    exact ⟨rfl, sameRest⟩
  | _ => cases sameKind

/-- The compact form of a value in which every number is an integer tells the value and where it
ends. -/
theorem delimits_render {value : Json} (integral : value.isIntegral = true) :
    Delimits render (isIntegral · = true) value := by
  match value with
  | .array items =>
    have items' := itemsIntegral_iff.mp integral
    exact delimits_array integral fun item member => delimits_render (items' item member)
  | .object members =>
    have members' := membersIntegral_iff.mp integral
    exact delimits_object integral fun member isMember =>
      delimits_render (members' member isMember)
  | .null =>
    intro other otherIntegral rest after _ _ same
    have sameKind := kind_eq_of_render_append integral otherIntegral same
    cases other with
    | null => exact ⟨rfl, List.append_cancel_left same⟩
    | _ => cases sameKind
  | .bool value =>
    intro other otherIntegral rest after _ _ same
    have sameKind := kind_eq_of_render_append integral otherIntegral same
    cases other with
    | bool other =>
      cases value <;> cases other
      · exact ⟨rfl, List.append_cancel_left same⟩
      · exact absurd (List.cons.inj same).1 (by decide)
      · exact absurd (List.cons.inj same).1 (by decide)
      · exact ⟨rfl, List.append_cancel_left same⟩
    | _ => cases sameKind
  | .number (.double bits) => cases integral
  | .number (.integer value) =>
    intro other otherIntegral rest after ended endedAfter same
    have sameKind := kind_eq_of_render_append integral otherIntegral same
    match other with
    | .number (.double bits) => cases otherIntegral
    | .number (.integer other) =>
      obtain ⟨rfl, sameRest⟩ := integerText_append_inj ended endedAfter same
      exact ⟨rfl, sameRest⟩
    | .null | .bool _ | .string _ | .array _ | .object _ => cases sameKind
  | .string value =>
    intro other otherIntegral rest after _ _ same
    have sameKind := kind_eq_of_render_append integral otherIntegral same
    cases other with
    | string other =>
      obtain ⟨rfl, sameRest⟩ := quote_append_inj same
      exact ⟨rfl, sameRest⟩
    | _ => cases sameKind
termination_by sizeOf value
decreasing_by
  · exact sizeOf_lt_array member
  · exact sizeOf_lt_object isMember

/-- Values in which every number is an integer are printed differently if they differ. -/
theorem render_injective {value other : Json} (integral : value.isIntegral = true)
    (otherIntegral : other.isIntegral = true) (same : value.render = other.render) :
    value = other := by
  have sameAppended : value.render ++ [] = other.render ++ [] := by rw [same]
  exact (delimits_render integral otherIntegral rfl rfl sameAppended).1

end Json

end MdxBuild

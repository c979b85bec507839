import MdxBuild.Proofs.Json.Reading

/-!
# The characters of printed values

A printed value holds no control characters of the ASCII range: strings have them escaped, and
numbers are made of digits and a few signs. So printed values never break a line.
-/

namespace MdxBuild

namespace Text

/-- A text without control characters of the ASCII range. -/
def IsPrintable (text : Text) : Prop :=
  ∀ char ∈ text, 32 ≤ char.toNat

namespace IsPrintable

variable {first second : Text}

theorem append (printable : first.IsPrintable) (others : second.IsPrintable) :
    IsPrintable (first ++ second) :=
  List.forall_mem_append.mpr ⟨printable, others⟩

theorem cons {char : Char} (printable : 32 ≤ char.toNat) (others : second.IsPrintable) :
    IsPrintable (char :: second) :=
  List.forall_mem_cons.mpr ⟨printable, others⟩

theorem subset (printable : second.IsPrintable) (subset : first ⊆ second) : first.IsPrintable :=
  fun char member => printable char (subset member)

theorem notMem {char : Char} (printable : first.IsPrintable) (control : char.toNat < 32) :
    char ∉ first :=
  fun member => absurd (printable char member) (Nat.not_le_of_lt control)

end IsPrintable

theorem isPrintable_of_all {text : Text} (all : (text.all fun char => 32 ≤ char.toNat) = true) :
    text.IsPrintable :=
  fun char member => of_decide_eq_true (List.all_eq_true.mp all char member)

end Text

open Text

/-! ## Numbers -/

theorem isPrintable_ofNat (number : Nat) : (Text.ofNat number).IsPrintable := by
  intro char member
  have isDigit := Json.isDigit_of_mem_ofNat number member
  rw [Char.isDigit, Bool.and_eq_true, decide_eq_true_eq, decide_eq_true_eq] at isDigit
  exact Nat.le_trans (by decide) (UInt32.le_iff_toNat_le.mp isDigit.1)

/-- The text of a positive decimal is made of digits and a few signs. -/
theorem Decimal.isPrintable_render (decimal : Decimal.Scientific) :
    (Decimal.jsonLayout.render decimal).IsPrintable := by
  have digits := isPrintable_ofNat (decimal.reduce 20).digits
  have first (count : Nat) := digits.subset (List.take_subset count _)
  have last (count : Nat) := digits.subset (List.drop_subset count _)
  have zeros (count : Nat) : IsPrintable (List.replicate count '0') := by
    intro char member
    rw [List.eq_of_mem_replicate member]
    decide
  have point : IsPrintable ['.'] := isPrintable_of_all rfl
  have mark : IsPrintable ['e'] := isPrintable_of_all rfl
  unfold Decimal.Layout.render
  extract_lets reduced digitText exponent whole mantissa sign
  have isMantissa : IsPrintable mantissa := by
    unfold mantissa
    split
    · exact digits
    · exact ((first 1).append point).append (last 1)
  have isSign : IsPrintable sign := by
    unfold sign
    split <;> exact isPrintable_of_all rfl
  split
  · split
    · exact ((isPrintable_of_all rfl).append (zeros _)).append digits
    · split
      · exact (digits.append (zeros _)).append (isPrintable_of_all rfl)
      · exact ((first whole).append point).append (last whole)
  · exact ((isMantissa.append mark).append isSign).append (isPrintable_ofNat _)

theorem Decimal.isPrintable_ofBits (bits : UInt64) :
    (Decimal.ofBits Decimal.jsonLayout bits).IsPrintable := by
  unfold Decimal.ofBits
  extract_lets whole fraction biased sign
  have isSign : IsPrintable sign := by
    unfold sign
    split <;> exact isPrintable_of_all rfl
  split
  · exact isPrintable_of_all rfl
  · split
    · exact isSign.append (isPrintable_of_all rfl)
    · exact isSign.append (Decimal.isPrintable_render _)

namespace Json

theorem isPrintable_integerText (value : Int) : (integerText value).IsPrintable := by
  rw [integerText]
  split
  · exact .cons (by decide) (isPrintable_ofNat _)
  · exact isPrintable_ofNat _

theorem isPrintable_number (value : Number) : value.render.IsPrintable := by
  cases value with
  | integer value => exact isPrintable_integerText value
  | double bits => exact Decimal.isPrintable_ofBits bits

/-! ## Strings -/

theorem le_toNat_digitChar (digit : Nat) : 32 ≤ (Nat.digitChar digit).toNat := by
  by_cases small : digit < 16
  · exact (by decide : ∀ digit < 16, 32 ≤ (Nat.digitChar digit).toNat) digit small
  · have star : Nat.digitChar digit = '*' := by
      rw [Nat.digitChar]
      repeat rw [if_neg (by omega)]
    rw [star]
    decide

/-- Control characters are escaped. -/
theorem isPrintable_escapeChar (char : Char) : (escapeChar char).IsPrintable := by
  intro other member
  have signs : IsPrintable "\"\\bfnrtu0".toList := isPrintable_of_all rfl
  rw [escapeChar] at member
  repeat' split at member
  -- The last two forms are a code of four digits and the character itself.
  case isFalse.isFalse.isFalse.isFalse.isFalse.isFalse.isFalse.isFalse control =>
    rw [List.mem_singleton.mp member]
    exact Nat.le_of_not_lt control
  case isFalse.isFalse.isFalse.isFalse.isFalse.isFalse.isFalse.isTrue =>
    simp only [List.mem_cons, List.not_mem_nil, or_false, hexDigit] at member
    rcases member with rfl | rfl | rfl | rfl | rfl | rfl
    all_goals first | exact le_toNat_digitChar _ | decide
  all_goals exact signs.subset (by decide) other member

theorem isPrintable_quote (value : Text) : (quote value).IsPrintable := by
  have escaped : (escape value).IsPrintable := by
    intro char member
    obtain ⟨source, -, inChar⟩ := List.mem_flatMap.mp member
    exact isPrintable_escapeChar source char inChar
  exact ((isPrintable_of_all rfl).append escaped).append (isPrintable_of_all rfl)

/-! ## Values -/

theorem isPrintable_separated {α : Type} {print : α → Text} {items : List α}
    (printable : ∀ item ∈ items, (print item).IsPrintable) :
    (separated print items).IsPrintable := by
  cases items with
  | nil => nofun
  | cons item others =>
    rw [List.forall_mem_cons] at printable
    refine printable.1.append ?_
    intro char member
    obtain ⟨other, isOther, printed⟩ := List.mem_flatMap.mp member
    exact IsPrintable.cons (by decide) (printable.2 other isOther) char printed

/-- There are no control characters in a printed value. -/
theorem isPrintable_render (value : Json) : value.render.IsPrintable := by
  match value with
  | .null => exact isPrintable_of_all rfl
  | .bool true => exact isPrintable_of_all rfl
  | .bool false => exact isPrintable_of_all rfl
  | .number value => exact isPrintable_number value
  | .string value => exact isPrintable_quote value
  | .array items =>
    have printable := isPrintable_separated fun item (_ : item ∈ items) => isPrintable_render item
    rw [render, renderItems_eq_separated]
    exact ((isPrintable_of_all rfl).append printable).append (isPrintable_of_all rfl)
  | .object members =>
    have printable : (separated (printMember render) members).IsPrintable := by
      refine isPrintable_separated fun member isMember => ?_
      exact (isPrintable_quote _).append (.cons (by decide) (isPrintable_render member.2))
    rw [render, renderMembers_eq_separated]
    exact ((isPrintable_of_all rfl).append printable).append (isPrintable_of_all rfl)
termination_by sizeOf value
decreasing_by
  · exact sizeOf_lt_array ‹_›
  · exact sizeOf_lt_object isMember

end Json

end MdxBuild

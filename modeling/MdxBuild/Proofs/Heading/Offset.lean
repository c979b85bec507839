import MdxBuild.Heading.Bytewise
import MdxBuild.Proofs.Digest.Content

/-!
# Offsets at characters

A scan works at offsets at which the rest of the code is a text of its own. There, the byte of a
character of the ASCII range can be taken for the character, and all bytes of another character lie
beyond the ASCII range, so that no quote, bracket or other mark is found within a character. Cuts
between such offsets are never at fault.
-/

namespace MdxBuild.Generated.Bytewise

open Text

variable {code rest first inner : Text} {offset other : Nat} {char : Char}

/-- A scan goes on with what a scan without a fault has found. -/
@[simp]
theorem ok_bind {α β : Type} (found : α) (next : α → Except Fault β) :
    (Except.ok found >>= next) = next found :=
  rfl

/-! ## Bytes of characters -/

/-- A character whose UTF-8 form is one byte. -/
def IsAscii (char : Char) : Prop :=
  char.toNat < 128

instance (char : Char) : Decidable (IsAscii char) :=
  inferInstanceAs (Decidable (_ < _))

theorem utf8Size_of_isAscii (ascii : IsAscii char) : char.utf8Size = 1 := by
  rw [Char.utf8Size_eq_one_iff]
  exact UInt32.le_iff_toNat_le.mpr (Nat.le_of_lt_succ ascii)

theorem utf8EncodeChar_of_isAscii (ascii : IsAscii char) :
    (String.utf8EncodeChar char).map (fun byte => Char.ofNat byte.toNat) = [char] := by
  have small : char.val.toNat ≤ 0x7f := Nat.le_of_lt_succ ascii
  have sameByte : (UInt8.ofNat char.val.toNat).toNat = char.toNat :=
    UInt8.toNat_ofNat_of_lt (Nat.lt_of_le_of_lt small (by decide))
  simp only [String.utf8EncodeChar, small, if_true, List.map_cons, List.map_nil, sameByte]
  rw [Char.ofNat_toNat]

/-- All bytes of a character beyond the ASCII range are beyond the ASCII range. -/
theorem high_of_mem_utf8EncodeChar (notAscii : ¬IsAscii char) :
    ∀ byte ∈ String.utf8EncodeChar char, 128 ≤ byte.toNat := by
  have large : ¬char.val.toNat ≤ 0x7f := fun small => notAscii (Nat.lt_succ_of_le small)
  have high {value : Nat} (low : 128 ≤ value % 256) : 128 ≤ (UInt8.ofNat value).toNat := low
  have small : char.val.toNat < 0x110000 := by
    rcases char.valid with less | ⟨-, less⟩
    · exact Nat.lt_trans less (by decide)
    · exact less
  simp only [String.utf8EncodeChar, large, if_false]
  split
  · simp only [List.forall_mem_cons]
    refine ⟨high ?_, high ?_, by simp⟩ <;> omega
  · split
    · simp only [List.forall_mem_cons]
      refine ⟨high ?_, high ?_, high ?_, by simp⟩ <;> omega
    · simp only [List.forall_mem_cons]
      refine ⟨high ?_, high ?_, high ?_, high ?_, by simp⟩ <;> omega

/-! ## Standing at an offset -/

/-- The rest of the code from an offset on is a text. -/
def StandsAt (code : Text) (offset : Nat) (rest : Text) : Prop :=
  ∃ before, code = before ++ rest ∧ utf8Length before = offset

namespace StandsAt

theorem start (code : Text) : StandsAt code 0 code :=
  ⟨[], rfl, rfl⟩

theorem append (first : Text) (stands : StandsAt code offset (first ++ rest)) :
    StandsAt code (offset + utf8Length first) rest := by
  obtain ⟨before, rfl, rfl⟩ := stands
  exact ⟨before ++ first, (List.append_assoc _ _ _).symm, utf8Length_append _ _⟩

theorem behind (stands : StandsAt code offset (char :: rest)) :
    StandsAt code (offset + char.utf8Size) rest :=
  stands.append [char]

theorem cons (stands : StandsAt code offset (char :: rest)) (ascii : IsAscii char) :
    StandsAt code (offset + 1) rest :=
  utf8Size_of_isAscii ascii ▸ stands.behind

theorem add_utf8Length (stands : StandsAt code offset rest) :
    offset + utf8Length rest = utf8Length code := by
  obtain ⟨before, rfl, rfl⟩ := stands
  exact (utf8Length_append _ _).symm

/-- A text stands at one offset only. -/
theorem unique (stands : StandsAt code offset rest) (also : StandsAt code other rest) :
    offset = other :=
  Nat.add_right_cancel (stands.add_utf8Length.trans also.add_utf8Length.symm)

/-- The offset behind a text is its own offset and its length. -/
theorem eq_add_utf8Length (stands : StandsAt code offset (first ++ rest))
    (behind : StandsAt code other rest) : other = offset + utf8Length first :=
  behind.unique (stands.append first)

theorem getElem?_utf8 (stands : StandsAt code offset rest) (index : Nat) :
    (utf8 code)[offset + index]? = (utf8 rest)[index]? := by
  obtain ⟨before, rfl, rfl⟩ := stands
  rw [utf8_append, List.getElem?_append_right (length_utf8 before ▸ Nat.le_add_right _ _),
    length_utf8, Nat.add_sub_cancel_left]

theorem byteAt?_eq_none (bound : utf8Length code ≤ offset) : byteAt? code offset = none := by
  rw [byteAt?, List.getElem?_eq_none (length_utf8 code ▸ bound), Option.map_none]

theorem byteAt?_nil (stands : StandsAt code offset []) : byteAt? code offset = none :=
  byteAt?_eq_none (Nat.le_of_eq stands.add_utf8Length.symm)

theorem byteAt?_char (stands : StandsAt code offset (char :: rest)) (ascii : IsAscii char) :
    byteAt? code offset = some char := by
  have isFirst := stands.getElem?_utf8 0
  have bytes := utf8EncodeChar_of_isAscii ascii
  rw [Nat.add_zero] at isFirst
  rw [byteAt?, isFirst, utf8, List.flatMap_cons]
  cases encoded : String.utf8EncodeChar char with
  | nil =>
    rw [encoded] at bytes
    cases bytes
  | cons byte others =>
    rw [encoded] at bytes
    exact congrArg some (List.cons.inj bytes).1

theorem byteAt_char (stands : StandsAt code offset (char :: rest)) (ascii : IsAscii char) :
    byteAt code offset = .ok char := by
  rw [byteAt, stands.byteAt?_char ascii]

/-- Within a character beyond the ASCII range, all bytes are beyond it. -/
theorem byteAt?_high (stands : StandsAt code offset (char :: rest)) (notAscii : ¬IsAscii char)
    {index : Nat} (within : index < char.utf8Size) :
    ∃ byte, byteAt? code (offset + index) = some byte ∧ ¬IsAscii byte := by
  have inRange : index < (String.utf8EncodeChar char).length := by
    rwa [String.length_utf8EncodeChar]
  have isByte : (utf8 code)[offset + index]? = some (String.utf8EncodeChar char)[index] := by
    rw [stands.getElem?_utf8, utf8, List.flatMap_cons, List.getElem?_append_left inRange,
      List.getElem?_eq_getElem inRange]
  have high := high_of_mem_utf8EncodeChar notAscii _ (List.getElem_mem inRange)
  refine ⟨Char.ofNat (String.utf8EncodeChar char)[index].toNat, by rw [byteAt?, isByte]; rfl, ?_⟩
  have isValid : (String.utf8EncodeChar char)[index].toNat.isValidChar :=
    .inl (Nat.lt_trans (UInt8.toNat_lt _) (by decide))
  rw [IsAscii, Char.ofNat, dif_pos isValid]
  exact Nat.not_lt.mpr high

end StandsAt

/-! ## Cuts -/

theorem cutFrom_append (before rest : Text) :
    cutFrom (utf8Length before) (before ++ rest) = .ok rest := by
  induction before with
  | nil => cases rest <;> rfl
  | cons char before ih =>
    obtain ⟨size, isSize⟩ := Nat.exists_eq_succ_of_ne_zero (Nat.ne_of_gt char.utf8Size_pos)
    rw [utf8Length_cons, List.cons_append, isSize, Nat.succ_add, cutFrom, isSize, if_pos (by omega)]
    rw [show size + utf8Length before + 1 - size.succ = utf8Length before by omega, ih]

theorem cutUpTo_append (before rest : Text) :
    cutUpTo (utf8Length before) (before ++ rest) = .ok before := by
  induction before with
  | nil => cases rest <;> rfl
  | cons char before ih =>
    obtain ⟨size, isSize⟩ := Nat.exists_eq_succ_of_ne_zero (Nat.ne_of_gt char.utf8Size_pos)
    rw [utf8Length_cons, List.cons_append, isSize, Nat.succ_add, cutUpTo, isSize,
      if_pos (by omega)]
    rw [show size + utf8Length before + 1 - size.succ = utf8Length before by omega, ih]
    rfl

theorem StandsAt.cutFrom (stands : StandsAt code offset rest) :
    Bytewise.cutFrom offset code = .ok rest := by
  obtain ⟨before, rfl, rfl⟩ := stands
  exact cutFrom_append before rest

theorem StandsAt.cut (stands : StandsAt code offset (inner ++ rest)) :
    Bytewise.cut code offset (offset + utf8Length inner) = .ok inner := by
  rw [Bytewise.cut, if_neg (by omega), stands.cutFrom, Nat.add_sub_cancel_left]
  exact cutUpTo_append inner rest

end MdxBuild.Generated.Bytewise

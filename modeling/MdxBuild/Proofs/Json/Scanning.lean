import MdxBuild.Json.Scanner

/-!
# Scanning what was printed

The printed forms of strings and integers are read back as what they were printed from, with the
text behind them as the rest. A string ends at its quote; an integer ends where nothing follows
that would go on with a number.
-/

namespace MdxBuild.Json

/-! ## Strings -/

@[simp]
theorem escape_nil : escape [] = [] :=
  rfl

@[simp]
theorem escape_cons (char : Char) (value : Text) :
    escape (char :: value) = escapeChar char ++ escape value :=
  rfl

/-- The two digits of a control character stand for its number. -/
theorem hexNumber?_control :
    ∀ value < 32, hexNumber? ['0', '0', hexDigit (value / 16), hexDigit (value % 16)] =
      some value := by
  decide

/-- The digits that printing uses take a byte each. -/
theorem utf8Size_hexDigit : ∀ value < 16, (hexDigit value).utf8Size = 1 := by
  decide

/-- The long escape of a control character is read as the character. -/
theorem readEscape_control {char : Char} (control : char.toNat < 32) (rest : Text) :
    readEscape ('u' :: '0' :: '0' :: hexDigit (char.toNat / 16) ::
      hexDigit (char.toNat % 16) :: rest) = .ok (char, 5) := by
  have high : (hexDigit (char.toNat / 16)).utf8Size = 1 := utf8Size_hexDigit _ (by omega)
  have low : (hexDigit (char.toNat % 16)).utf8Size = 1 := utf8Size_hexDigit _ (by omega)
  have zero : ('0' : Char).utf8Size = 1 := by decide
  have digits : readHex ('0' :: '0' :: hexDigit (char.toNat / 16) ::
      hexDigit (char.toNat % 16) :: rest) = .ok char.toNat := by
    simp [readHex, high, low, zero, hexNumber?_control _ control]
  have noSurrogate : ¬0xDC00 ≤ char.toNat := by omega
  have noPair : char.toNat < 0xD800 := by omega
  simp only [readEscape, if_true, digits]
  change (readUnit char.toNat rest).bind _ = _
  simp [readUnit, noSurrogate, noPair, Except.bind, Char.ofNat_toNat]

/-- A short escape is read as the character that its letter stands for. -/
theorem readStringFrom_shortEscape {letter char : Char} (short : simpleEscape? letter = some char)
    (rest : Text) :
    readStringFrom 0 ('\\' :: letter :: rest) =
      (readStringFrom 0 rest).map fun (value, after) => (char :: value, after) := by
  have noUnit : letter ≠ 'u' := by
    rintro rfl
    exact absurd short (by simp [simpleEscape?])
  simp [readStringFrom, readEscape, short, noUnit]

/-- A printed character is read as the character, before anything that follows it. -/
theorem readStringFrom_escapeChar (char : Char) (rest : Text) :
    readStringFrom 0 (escapeChar char ++ rest) =
      (readStringFrom 0 rest).map fun (value, after) => (char :: value, after) := by
  unfold escapeChar
  split
  · next quote => exact readStringFrom_shortEscape (by rw [quote]; rfl) rest
  split
  · next backslash => exact readStringFrom_shortEscape (by rw [backslash]; rfl) rest
  split
  · next backspace => exact readStringFrom_shortEscape (by rw [backspace]; rfl) rest
  split
  · next formFeed => exact readStringFrom_shortEscape (by rw [formFeed]; rfl) rest
  split
  · next lineFeed => exact readStringFrom_shortEscape (by rw [lineFeed]; rfl) rest
  split
  · next carriageReturn => exact readStringFrom_shortEscape (by rw [carriageReturn]; rfl) rest
  split
  · next tab => exact readStringFrom_shortEscape (by rw [tab]; rfl) rest
  split
  · next control =>
    simp [readStringFrom, readEscape_control control]
  · next noQuote noBackslash _ _ _ _ _ noControl =>
    simp [readStringFrom, noQuote, noBackslash, noControl]

/-- A printed string is read as the string. -/
@[simp]
theorem readString_escape (value rest : Text) :
    readString (escape value ++ '"' :: rest) = .ok (value, rest) := by
  rw [readString]
  induction value with
  | nil => simp [readStringFrom]
  | cons char others ih =>
    rw [escape_cons, List.append_assoc, readStringFrom_escapeChar, ih]
    rfl

/-! ## Integers -/

/-- A number at whose end the text stands ends there. -/
def endsNumber (text : Text) : Bool :=
  !startsDigit text && !startsExponent text && text.head? != some '.'

theorem isDigit_of_mem_ofNat {char : Char} (number : Nat) (member : char ∈ Text.ofNat number) :
    char.isDigit = true :=
  Nat.isDigit_of_mem_toDigits (by decide) (by decide) member

/-- More digits never make a number smaller. -/
theorem le_ofDigitChars (digits : Text) (start : Nat) :
    start ≤ Nat.ofDigitChars 10 digits start := by
  induction digits generalizing start with
  | nil => simp
  | cons char others ih =>
    rw [Nat.ofDigitChars_cons]
    have further := ih (10 * start + (char.toNat - '0'.toNat))
    omega

/-- Digits are taken whole if their number fits 64 bits. -/
theorem takeDigits_append {digits rest : Text} (allDigits : ∀ char ∈ digits, char.isDigit = true)
    (ended : startsDigit rest = false) {start : Nat}
    (fits : Nat.ofDigitChars 10 digits start ≤ greatestUnsigned) :
    takeDigits start (digits ++ rest) =
      (Nat.ofDigitChars 10 digits start, digits.length, rest) := by
  induction digits generalizing start with
  | nil =>
    cases rest with
    | nil => rfl
    | cons char others =>
      have noDigit : char.isDigit = false := by simpa [startsDigit] using ended
      simp [takeDigits, noDigit]
  | cons char others ih =>
    rw [Nat.ofDigitChars_cons, Nat.mul_comm] at fits
    have extended := Nat.le_trans (le_ofDigitChars others _) fits
    have isDigit := allDigits char List.mem_cons_self
    have taken := ih (fun other member => allDigits other (List.mem_cons_of_mem _ member)) fits
    simp only [List.cons_append, takeDigits, isDigit, extended, decide_true, Bool.and_self, if_true,
      taken, Nat.ofDigitChars_cons, List.length_cons, Nat.mul_comm 10]

/-- Of digits whose number does not fit 64 bits some are left, whatever follows them. -/
theorem takeDigits_of_large {digits : Text} (allDigits : ∀ char ∈ digits, char.isDigit = true)
    {start : Nat} (small : start ≤ greatestUnsigned)
    (large : greatestUnsigned < Nat.ofDigitChars 10 digits start) :
    ∃ significand count left, left ≠ [] ∧ (∀ char ∈ left, char.isDigit = true) ∧
      ∀ rest, takeDigits start (digits ++ rest) = (significand, count, left ++ rest) := by
  induction digits generalizing start with
  | nil => exact absurd small (Nat.not_le.mpr large)
  | cons char others ih =>
    have isDigit := allDigits char List.mem_cons_self
    rw [Nat.ofDigitChars_cons, Nat.mul_comm] at large
    by_cases extended : start * 10 + (char.toNat - '0'.toNat) ≤ greatestUnsigned
    · obtain ⟨significand, count, left, some', leftDigits, taken⟩ :=
        ih (fun other member => allDigits other (List.mem_cons_of_mem _ member)) extended large
      refine ⟨significand, count + 1, left, some', leftDigits, ?_⟩
      intro rest
      simp only [List.cons_append, takeDigits, isDigit, extended, decide_true, Bool.and_self,
        if_true, taken]
    · refine ⟨start, 0, char :: others, List.cons_ne_nil _ _, allDigits, ?_⟩
      intro rest
      simp only [List.cons_append, takeDigits, extended, decide_false, Bool.and_false,
        Bool.false_eq_true, if_false]

/-- Only the number zero is written with a zero in front. -/
theorem ofNat_eq_cons (number : Nat) :
    ∃ first others, Text.ofNat number = first :: others ∧ first.isDigit = true ∧
      (first = '0' → number = 0 ∧ others = []) := by
  induction number using Nat.base_induction 10 (by decide) with
  | single digit small =>
    refine ⟨digit.digitChar, [], Nat.toDigits_of_lt_base small, ?_, ?_⟩
    · simpa using small
    · simp
  | digit head last lastSmall headPositive ih =>
    obtain ⟨first, others, written, isDigit, onlyZero⟩ := ih
    refine ⟨first, others ++ [last.digitChar], ?_, isDigit, ?_⟩
    · rw [Text.ofNat, ← Nat.toDigits_append_toDigits (by decide) headPositive lastSmall,
        Nat.toDigits_of_lt_base lastSmall, ← List.cons_append, ← written, Text.ofNat]
    · intro zero
      exact absurd (onlyZero zero).1 (Nat.ne_of_gt headPositive)

/-- What remains of a number behind its digits is nothing. -/
theorem readFraction_of_endsNumber {rest : Text} (ended : endsNumber rest = true)
    (positive : Bool) (significand : Nat) :
    readFraction positive significand rest =
      if positive then .ok (.integer significand, rest)
      else if 1 ≤ significand && significand ≤ Nat.pow 2 63 then
        .ok (.integer (-significand), rest)
      else .ok (.double (-(Float.ofNat significand)).toBits, rest) := by
  simp only [endsNumber, Bool.and_eq_true, Bool.not_eq_true', bne_iff_ne] at ended
  obtain ⟨⟨noDigit, noExponent⟩, noPoint⟩ := ended
  simp [readFraction, noDigit, noExponent, noPoint]

/-- The digits of a number of 64 bits are read as its significand. -/
theorem readNumber_ofNat {number : Nat} (fits : number ≤ greatestUnsigned) {rest : Text}
    (ended : endsNumber rest = true) (positive : Bool) :
    readNumber positive (Text.ofNat number ++ rest) = readFraction positive number rest := by
  have noDigit : startsDigit rest = false := by
    simp only [endsNumber, Bool.and_eq_true, Bool.not_eq_true'] at ended
    exact ended.1.1
  obtain ⟨first, others, written, isDigit, onlyZero⟩ := ofNat_eq_cons number
  have value : Nat.ofDigitChars 10 others (first.toNat - '0'.toNat) = number := by
    have whole := Nat.ofDigitChars_ten_toDigits (n := number)
    rw [← Text.ofNat, written, Nat.ofDigitChars_cons] at whole
    simpa using whole
  rw [written, List.cons_append, readNumber]
  by_cases zero : first = '0'
  · obtain ⟨rfl, rfl⟩ := onlyZero zero
    simp [zero, noDigit]
  · have othersDigits : ∀ char ∈ others, char.isDigit = true := fun char member =>
      isDigit_of_mem_ofNat number (by rw [written]; exact List.mem_cons_of_mem _ member)
    rw [if_neg zero, if_pos isDigit,
      takeDigits_append othersDigits noDigit (by rw [value]; exact fits), value]

/-- A number beyond 64 bits is read as a double, if at all. -/
theorem readNumber_of_large {number : Nat} (large : greatestUnsigned < number) (positive : Bool) :
    ∃ outcome : Except Fault UInt64, ∀ rest, endsNumber rest = true →
      readNumber positive (Text.ofNat number ++ rest) =
        outcome.map fun bits => (.double bits, rest) := by
  obtain ⟨first, others, written, isDigit, onlyZero⟩ := ofNat_eq_cons number
  have nonzero : first ≠ '0' := by
    intro zero
    rw [(onlyZero zero).1] at large
    exact absurd large (Nat.not_lt_zero _)
  have whole := Nat.ofDigitChars_ten_toDigits (n := number)
  rw [← Text.ofNat, written, Nat.ofDigitChars_cons] at whole
  have small : first.toNat - '0'.toNat ≤ greatestUnsigned := by
    have digit := (Char.isDigit_iff_toNat.mp isDigit).2
    have nine : '9'.toNat - '0'.toNat ≤ greatestUnsigned := by decide
    exact Nat.le_trans (Nat.sub_le_sub_right digit _) nine
  have othersDigits : ∀ char ∈ others, char.isDigit = true := fun char member =>
    isDigit_of_mem_ofNat number (by rw [written]; exact List.mem_cons_of_mem _ member)
  obtain ⟨significand, count, left, some', leftDigits, taken⟩ :=
    takeDigits_of_large othersDigits small (by rw [← whole] at large; simpa using large)
  -- How large the number is decides the outcome whatever follows it.
  let outcome : Except Fault UInt64 :=
    (Decimal.scale? significand left.length).elim (.error .numberOutOfRange)
      fun value => .ok (if positive then value else -value).toBits
  refine ⟨outcome, ?_⟩
  intro rest ended
  simp only [endsNumber, Bool.and_eq_true, Bool.not_eq_true', bne_iff_ne] at ended
  obtain ⟨⟨noDigit, noExponent⟩, noPoint⟩ := ended
  have digitsLeft : startsDigit (left ++ rest) = true := by
    obtain ⟨digit, more, rfl⟩ := List.exists_cons_of_ne_nil some'
    simpa [startsDigit] using leftDigits digit List.mem_cons_self
  have dropped : (left ++ rest).dropWhile Char.isDigit = rest := by
    rw [List.dropWhile_append_of_pos leftDigits]
    cases rest with
    | nil => rfl
    | cons char more =>
      have : char.isDigit = false := by simpa [startsDigit] using noDigit
      simp [this]
  rw [written, List.cons_append, readNumber, if_neg nonzero, if_pos isDigit, taken]
  simp only [readFraction, digitsLeft, if_true, dropped, noPoint, if_false, finishDouble,
    noExponent, Bool.false_eq_true, double, List.length_append]
  rw [show ((left.length + rest.length : Nat) : Int) - rest.length = left.length by omega]
  cases scaled : Decimal.scale? significand left.length with
  | none => simp [outcome, scaled, Except.map]
  | some value => simp [outcome, scaled, Except.map]

end MdxBuild.Json

import MdxBuild.Proofs.Heading.Header
import MdxBuild.Proofs.Heading.Offset

/-!
# Loops over the bytes of code

Each loop goes over the bytes in the units of balanced code: it passes over the bytes of a plain
character one by one, over a literal at once, and over a bracketed part from inside to outside. So a
loop that starts at a character stops at a character, where the scanner of texts stops, and it needs
no more turns than there are bytes behind its start.
-/

namespace MdxBuild.Generated.Bytewise

open Text

variable {code text inner inside after rest outer : Text} {offset limit turns depth : Nat}
  {char quote : Char}

/-! ## Characters -/

theorem isAscii_of_not_isPlain (isMark : isPlain char = false) : IsAscii char := by
  by_contra notAscii
  have allAscii : (marks.all fun mark => decide (IsAscii mark)) = true := by decide
  refine Bool.eq_false_iff.mp isMark (isPlain_of_notMem_marks fun member => notAscii ?_)
  exact of_decide_eq_true (List.all_eq_true.mp allAscii char member)

/-- A byte beyond the ASCII range is no mark. -/
theorem isPlain_of_not_isAscii (notAscii : ¬IsAscii char) : isPlain char = true := by
  by_contra isMark
  exact notAscii (isAscii_of_not_isPlain (Bool.eq_false_iff.mpr isMark))

/-- The first byte of a character is the character, or both are beyond the ASCII range. -/
theorem StandsAt.byteAt?_cons (stands : StandsAt code offset (char :: rest)) :
    ∃ byte, byteAt? code offset = some byte ∧ (byte = char ∨ ¬IsAscii byte ∧ ¬IsAscii char) := by
  by_cases ascii : IsAscii char
  · exact ⟨char, stands.byteAt?_char ascii, .inl rfl⟩
  · obtain ⟨byte, isByte, high⟩ := stands.byteAt?_high ascii char.utf8Size_pos
    exact ⟨byte, isByte, .inr ⟨high, ascii⟩⟩

/-- Behind its first byte, all bytes of a character are beyond the ASCII range. -/
theorem StandsAt.byteAt?_inner (stands : StandsAt code offset (char :: rest)) {index : Nat}
    (behind : 0 < index) (within : index < char.utf8Size) :
    ∃ byte, byteAt? code (offset + index) = some byte ∧ ¬IsAscii byte := by
  refine stands.byteAt?_high (fun ascii => ?_) within
  rw [utf8Size_of_isAscii ascii] at within
  omega

/-- A loop that goes on behind each byte of a kind goes on behind several of them. -/
theorem pass_bytes {α : Type} {passes : Char → Prop} (loop : Nat → Nat → Except Fault α)
    (count offset turns : Nat)
    (bytes : ∀ index < count, ∃ byte, byteAt? code (offset + index) = some byte ∧ passes byte)
    (step : ∀ turns place byte, place < offset + count → byteAt? code place = some byte →
      passes byte → loop (turns + 1) place = loop turns (place + 1)) :
    loop (turns + count) offset = loop turns (offset + count) := by
  induction count generalizing offset with
  | zero => rfl
  | succ count ih =>
    obtain ⟨byte, isByte, passed⟩ := bytes 0 (Nat.succ_pos count)
    rw [← Nat.add_assoc, step _ offset byte (by omega) isByte passed, ih (offset + 1)]
    · rw [Nat.add_assoc, Nat.add_comm 1]
    · intro index less
      obtain ⟨byte, isByte, passed⟩ := bytes (index + 1) (Nat.succ_lt_succ less)
      rw [Nat.add_comm index, ← Nat.add_assoc] at isByte
      exact ⟨byte, isByte, passed⟩
    · intro turns place byte less
      exact step turns place byte (by omega)

/-- A loop that goes on behind a character and behind bytes beyond the ASCII range goes on behind
the whole character. -/
theorem StandsAt.pass {α : Type} (loop : Nat → Nat → Except Fault α) (passes : Char → Prop)
    (stands : StandsAt code offset (char :: rest)) (own : passes char)
    (high : ∀ byte, ¬IsAscii byte → passes byte) (turns : Nat)
    (step : ∀ turns place byte, place < offset + char.utf8Size → byteAt? code place = some byte →
      passes byte → loop (turns + 1) place = loop turns (place + 1)) :
    loop (turns + char.utf8Size) offset = loop turns (offset + char.utf8Size) := by
  refine pass_bytes _ _ _ _ (fun index within => ?_) step
  cases index with
  | zero =>
    obtain ⟨byte, isByte, rfl | ⟨notAscii, -⟩⟩ := stands.byteAt?_cons
    · exact ⟨byte, isByte, own⟩
    · exact ⟨byte, isByte, high byte notAscii⟩
  | succ index =>
    obtain ⟨byte, isByte, notAscii⟩ := stands.byteAt?_inner (Nat.succ_pos index) within
    exact ⟨byte, isByte, high byte notAscii⟩

/-- Turns that suffice for a character and what is behind it. -/
theorem exists_turns (enough : utf8Length (char :: rest) < turns) :
    ∃ fewer, turns = fewer + char.utf8Size ∧ utf8Length rest < fewer := by
  rw [utf8Length_cons] at enough
  exact ⟨turns - char.utf8Size, by omega, by omega⟩

/-! ## Classes -/

theorem passAt_eq (inClass : Char → Bool) (isAscii : ∀ byte, inClass byte = true → IsAscii byte)
    (stands : StandsAt code offset text) (enough : utf8Length text < turns) :
    ∃ next, passAt code inClass turns offset = .ok next ∧
      StandsAt code next (text.dropWhile inClass) := by
  induction text generalizing offset turns with
  | nil =>
    cases turns with
    | zero => cases enough
    | succ turns => exact ⟨offset, by rw [passAt, stands.byteAt?_nil], stands⟩
  | cons char rest ih =>
    obtain ⟨turns, rfl⟩ := Nat.exists_eq_add_one.mpr (Nat.zero_lt_of_lt enough)
    obtain ⟨byte, isByte, isChar⟩ := stands.byteAt?_cons
    by_cases member : inClass char = true
    · have ascii := isAscii char member
      obtain rfl : byte = char := isChar.resolve_right fun high => high.2 ascii
      rw [utf8Length_cons, utf8Size_of_isAscii ascii] at enough
      have fewer : utf8Length rest < turns := by omega
      obtain ⟨next, found, standsNext⟩ := ih (stands.cons ascii) fewer
      refine ⟨next, ?_, by rwa [List.dropWhile_cons_of_pos member]⟩
      rw [passAt, isByte]
      exact (if_pos member).trans found
    · have notMember : inClass byte ≠ true := by
        rcases isChar with rfl | ⟨high, -⟩
        · exact member
        · exact fun isIn => high (isAscii byte isIn)
      refine ⟨offset, ?_, by rwa [List.dropWhile_cons_of_neg member]⟩
      rw [passAt, isByte]
      exact if_neg notMember

theorem skipBlanksAt_eq (stands : StandsAt code offset text) (enough : utf8Length text < turns) :
    ∃ next, skipBlanksAt code turns offset = .ok next ∧ StandsAt code next (skipBlanks text) := by
  refine passAt_eq isAsciiBlank (fun byte isBlank => ?_) stands enough
  simp only [isAsciiBlank, Bool.or_eq_true, decide_eq_true_eq] at isBlank
  rcases isBlank with (((rfl | rfl) | rfl) | rfl) | rfl <;> decide

/-! ## Literals -/

theorem ne_quote_of_not_isAscii (isQuote : isQuote quote = true) (notAscii : ¬IsAscii char) :
    char ≠ '\\' ∧ char ≠ quote := by
  constructor
  · rintro rfl
    exact notAscii (by decide)
  · rintro rfl
    exact notAscii (isAscii_of_not_isPlain (not_isPlain_of_isQuote isQuote))

/-- The loop over a literal goes on behind a byte that is neither a backslash nor the quote. -/
theorem quoteEndAt_step (turns : Nat) {byte : Char} (isByte : byteAt? code offset = some byte)
    (isOther : byte ≠ '\\' ∧ byte ≠ quote) :
    quoteEndAt code quote (turns + 1) offset = quoteEndAt code quote turns (offset + 1) := by
  rw [quoteEndAt, isByte]
  exact (if_neg isOther.1).trans (if_neg isOther.2)

section Literals

variable (isQuote : isQuote quote = true)

include isQuote

/-- The loop over a literal goes on behind a character that is neither a backslash nor the quote. -/
theorem quoteEndAt_char (stands : StandsAt code offset (char :: rest)) (isOther : char ≠ '\\')
    (notQuote : char ≠ quote) (turns : Nat) :
    quoteEndAt code quote (turns + char.utf8Size) offset =
      quoteEndAt code quote turns (offset + char.utf8Size) :=
  stands.pass (quoteEndAt code quote) (fun byte => byte ≠ '\\' ∧ byte ≠ quote) ⟨isOther, notQuote⟩
    (fun _ => ne_quote_of_not_isAscii isQuote) turns
    fun turns _ _ _ isByte => quoteEndAt_step turns isByte

/-- A backslash hides the first byte of a character, and its other bytes are no quotes. -/
theorem quoteEndAt_hidden (stands : StandsAt code offset ('\\' :: char :: rest)) (turns : Nat) :
    quoteEndAt code quote (turns + char.utf8Size) offset =
      quoteEndAt code quote turns (offset + 1 + char.utf8Size) := by
  have atChar := stands.cons (by decide)
  obtain ⟨more, size⟩ := Nat.exists_eq_succ_of_ne_zero (Nat.ne_of_gt char.utf8Size_pos)
  have first : quoteEndAt code quote (turns + more + 1) offset =
      quoteEndAt code quote (turns + more) (offset + 1 + 1) := by
    rw [quoteEndAt, stands.byteAt?_char (by decide)]
    rfl
  have others := pass_bytes (quoteEndAt code quote) more (offset + 1 + 1) turns
    (fun index less => by
      have inner := atChar.byteAt?_inner (Nat.succ_pos index) (size ▸ Nat.succ_lt_succ less)
      rwa [Nat.succ_eq_add_one, Nat.add_comm index, ← Nat.add_assoc] at inner)
    fun turns _ _ _ isByte high =>
      quoteEndAt_step turns isByte (ne_quote_of_not_isAscii isQuote high)
  rw [size, Nat.add_succ, first, others, Nat.add_assoc (offset + 1), Nat.add_comm 1]

/-- The loop over a literal ends behind its quote. -/
theorem quoteEndAt_of_body (body : LiteralBody quote inner)
    (stands : StandsAt code offset (inner ++ quote :: after))
    (enough : utf8Length (inner ++ quote :: after) < turns) :
    quoteEndAt code quote turns offset = .ok (some (offset + utf8Length inner + 1)) := by
  induction body generalizing offset turns with
  | nil =>
    have ascii : IsAscii quote := isAscii_of_not_isPlain (not_isPlain_of_isQuote isQuote)
    obtain ⟨turns, rfl⟩ := Nat.exists_eq_add_one.mpr (Nat.zero_lt_of_lt enough)
    rw [quoteEndAt, stands.byteAt?_char ascii]
    exact (if_neg (ne_backslash_of_isQuote isQuote)).trans (if_pos rfl)
  | hidden char rest _ ih =>
    rw [List.cons_append, List.cons_append] at stands enough
    rw [utf8Length_cons, show ('\\' : Char).utf8Size = 1 from rfl] at enough
    obtain ⟨turns, rfl, fewer⟩ := exists_turns (Nat.lt_of_add_left_lt enough)
    rw [quoteEndAt_hidden isQuote stands, ih (stands.cons (by decide)).behind fewer]
    simp only [utf8Length_cons, show ('\\' : Char).utf8Size = 1 from rfl]
    congr 3
    omega
  | char char rest isOther notQuote _ ih =>
    rw [List.cons_append] at stands enough
    obtain ⟨turns, rfl, fewer⟩ := exists_turns enough
    rw [quoteEndAt_char isQuote stands isOther notQuote, ih stands.behind fewer]
    simp only [utf8Length_cons]
    congr 3
    omega

theorem quoteEndAt_of_endless (endless : literal? quote text = none)
    (stands : StandsAt code offset text) (enough : utf8Length text < turns) :
    quoteEndAt code quote turns offset = .ok none := by
  fun_induction literal? quote text generalizing offset turns with
  | case1 =>
    obtain ⟨turns, rfl⟩ := Nat.exists_eq_add_one.mpr (Nat.zero_lt_of_lt enough)
    rw [quoteEndAt, stands.byteAt?_nil]
  | case2 char rest ih =>
    rw [utf8Length_cons, show ('\\' : Char).utf8Size = 1 from rfl] at enough
    obtain ⟨turns, rfl, fewer⟩ := exists_turns (Nat.lt_of_add_left_lt enough)
    rw [quoteEndAt_hidden isQuote stands]
    exact ih (Option.map_eq_none_iff.mp endless) (stands.cons (by decide)).behind fewer
  | case3 rest isLast =>
    -- The backslash is the last byte, so the loop goes on beyond the end.
    obtain rfl : rest = [] := by
      cases rest with
      | nil => rfl
      | cons hidden rest => exact absurd rfl (isLast hidden rest rfl)
    obtain ⟨turns, rfl⟩ : ∃ fewer, turns = fewer + 1 + 1 :=
      Nat.exists_eq_add_of_le' (Nat.succ_le_of_lt enough)
    have beyond : byteAt? code (offset + 2) = none :=
      StandsAt.byteAt?_eq_none (Nat.le_succ_of_le (Nat.le_of_eq stands.add_utf8Length.symm))
    rw [quoteEndAt, stands.byteAt?_char (by decide)]
    exact (if_pos rfl).trans (by rw [quoteEndAt, beyond])
  | case4 => cases endless
  | case5 char rest _ isOther notQuote ih =>
    obtain ⟨turns, rfl, fewer⟩ := exists_turns enough
    rw [quoteEndAt_char isQuote stands isOther notQuote]
    exact ih (Option.map_eq_none_iff.mp endless) stands.behind fewer

end Literals

theorem isAscii_of_isQuote (isQuote : isQuote quote = true) : IsAscii quote :=
  isAscii_of_not_isPlain (not_isPlain_of_isQuote isQuote)

theorem isAscii_of_isOpening (opens : isOpening char = true) : IsAscii char :=
  isAscii_of_not_isPlain (by simp [isPlain, opens])

theorem isAscii_of_isClosing (closes : isClosing char = true) : IsAscii char :=
  isAscii_of_not_isPlain (by simp [isPlain, closes])

theorem literalEndAt_of_body (isQuote : isQuote quote = true) (body : LiteralBody quote inner)
    (stands : StandsAt code offset (quote :: (inner ++ quote :: after)))
    (enough : utf8Length (inner ++ quote :: after) < turns) :
    literalEndAt code turns offset = .ok (some (offset + 1 + utf8Length inner + 1)) ∧
      StandsAt code (offset + 1 + utf8Length inner + 1) after := by
  have ascii := isAscii_of_isQuote isQuote
  have inside := stands.cons ascii
  refine ⟨?_, (inside.append inner).cons ascii⟩
  rw [literalEndAt, stands.byteAt_char ascii]
  exact quoteEndAt_of_body isQuote body inside enough

theorem literalEndAt_of_endless (isQuote : isQuote quote = true)
    (endless : literal? quote rest = none) (stands : StandsAt code offset (quote :: rest))
    (enough : utf8Length rest < turns) : literalEndAt code turns offset = .ok none := by
  have ascii := isAscii_of_isQuote isQuote
  rw [literalEndAt, stands.byteAt_char ascii]
  exact quoteEndAt_of_endless isQuote endless (stands.cons ascii) enough

/-! ## Balanced code -/

/-- A scan with a count of open brackets passes, inside of brackets and before a limit, over plain
bytes, literals and brackets. -/
structure Walks {α : Type} (code : Text) (limit : Nat) (scan : Nat → Nat → Nat → Except Fault α) :
    Prop where
  plain : ∀ turns depth place byte, place < limit → byteAt? code place = some byte →
    isPlain byte = true → scan (turns + 1) (depth + 1) place = scan turns (depth + 1) (place + 1)
  quote : ∀ turns depth place byte next, place < limit → byteAt? code place = some byte →
    isQuote byte = true → literalEndAt code turns place = .ok (some next) →
    scan (turns + 1) (depth + 1) place = scan turns (depth + 1) next
  opening : ∀ turns depth place byte, place < limit → byteAt? code place = some byte →
    isOpening byte = true → scan (turns + 1) (depth + 1) place = scan turns (depth + 2) (place + 1)
  closing : ∀ turns depth place byte, place < limit → byteAt? code place = some byte →
    isClosing byte = true → scan (turns + 1) (depth + 2) place = scan turns (depth + 1) (place + 1)

/-- Inside of brackets, such a scan passes over balanced code. -/
theorem Walks.balanced {α : Type} {scan : Nat → Nat → Nat → Except Fault α}
    (walks : Walks code limit scan) (balanced : Balanced text) (depth : Nat)
    (stands : StandsAt code offset (text ++ rest)) (inRange : offset + utf8Length text ≤ limit)
    (enough : utf8Length (text ++ rest) < turns) :
    ∃ left, utf8Length rest < left ∧
      scan turns (depth + 1) offset = scan left (depth + 1) (offset + utf8Length text) := by
  induction balanced generalizing depth offset turns rest with
  | nil => exact ⟨turns, enough, rfl⟩
  | plain char others isPlain _ ih =>
    rw [List.cons_append] at stands enough
    rw [utf8Length_cons] at inRange
    obtain ⟨turns, rfl, fewer⟩ := exists_turns enough
    have passed := stands.pass (scan · (depth + 1) ·) (Generated.isPlain · = true) isPlain
      (fun _ => isPlain_of_not_isAscii) turns
      fun turns place byte less => walks.plain turns depth place byte (by omega)
    obtain ⟨left, leftEnough, same⟩ := ih depth stands.behind (by omega) fewer
    refine ⟨left, leftEnough, passed.trans (same.trans ?_)⟩
    rw [utf8Length_cons, Nat.add_assoc]
  | literal quote inner others isQuote body _ ih =>
    rw [List.cons_append, List.append_assoc, List.cons_append] at stands enough
    have ascii := isAscii_of_isQuote isQuote
    have length : utf8Length (quote :: (inner ++ quote :: others)) =
        1 + utf8Length inner + 1 + utf8Length others := by
      simp only [utf8Length_cons, utf8Length_append, utf8Size_of_isAscii ascii]
      omega
    rw [length] at inRange
    obtain ⟨turns, rfl, fewer⟩ := exists_turns enough
    obtain ⟨found, standsBehind⟩ := literalEndAt_of_body isQuote body stands fewer
    have fewerBehind : utf8Length (others ++ rest) < turns := by
      rw [utf8Length_append, utf8Length_cons] at fewer
      omega
    obtain ⟨left, leftEnough, same⟩ := ih depth standsBehind (by omega) fewerBehind
    refine ⟨left, leftEnough, ?_⟩
    rw [utf8Size_of_isAscii ascii, length, walks.quote turns depth offset quote _ (by omega)
      (stands.byteAt?_char ascii) isQuote found, same]
    congr 1
    omega
  | bracket opening closing inside others opens closes _ _ ihInside ih =>
    rw [List.cons_append, List.append_assoc, List.cons_append] at stands enough
    have openingAscii := isAscii_of_isOpening opens
    have closingAscii := isAscii_of_isClosing closes
    have length : utf8Length (opening :: (inside ++ closing :: others)) =
        1 + utf8Length inside + 1 + utf8Length others := by
      simp only [utf8Length_cons, utf8Length_append, utf8Size_of_isAscii openingAscii,
        utf8Size_of_isAscii closingAscii]
      omega
    rw [length] at inRange
    obtain ⟨turns, rfl, fewer⟩ := exists_turns enough
    have inner := stands.cons openingAscii
    have atClosing := inner.append inside
    obtain ⟨left, leftEnough, sameInside⟩ := ihInside (depth + 1) inner (by omega) fewer
    obtain ⟨left, rfl, leftBehind⟩ := exists_turns leftEnough
    obtain ⟨last, lastEnough, same⟩ :=
      ih depth (atClosing.cons closingAscii) (by omega) leftBehind
    refine ⟨last, lastEnough, ?_⟩
    have opened := walks.opening turns depth offset opening (by omega)
      (stands.byteAt?_char openingAscii) opens
    have closed := walks.closing left depth _ closing (by omega)
      (atClosing.byteAt?_char closingAscii) closes
    rw [utf8Size_of_isAscii openingAscii, length, opened, sameInside,
      utf8Size_of_isAscii closingAscii, closed, same]
    congr 1
    omega

/-! ## Closing brackets -/

theorem closingAtFrom_plain (isByte : byteAt? code offset = some char)
    (isPlain : isPlain char = true) (turns : Nat) :
    closingAtFrom code (turns + 1) depth offset = closingAtFrom code turns depth (offset + 1) := by
  obtain ⟨notQuote, notOpening, notClosing⟩ := isPlain_iff.mp isPlain
  simp only [closingAtFrom, isByte, notQuote, notOpening, notClosing, Bool.false_eq_true, if_false]

theorem closingAtFrom_opening (isByte : byteAt? code offset = some char)
    (opens : isOpening char = true) (turns : Nat) :
    closingAtFrom code (turns + 1) depth offset =
      closingAtFrom code turns (depth + 1) (offset + 1) := by
  simp only [closingAtFrom, isByte, (opening_iff_of_isOpening opens).1, opens, Bool.false_eq_true,
    if_false, if_true]

theorem closingAtFrom_closing (isByte : byteAt? code offset = some char)
    (closes : isClosing char = true) (turns : Nat) :
    closingAtFrom code (turns + 1) (depth + 1) offset =
      if depth = 0 then .ok (some offset) else closingAtFrom code turns depth (offset + 1) := by
  obtain ⟨notQuote, notOpening⟩ := closing_of_isClosing closes
  simp only [closingAtFrom, isByte, notQuote, notOpening, closes, Bool.false_eq_true, if_false,
    if_true]
  cases depth <;> rfl

theorem closingAtFrom_quote (isByte : byteAt? code offset = some quote)
    (isQuote : isQuote quote = true) (turns : Nat) {next : Option Nat}
    (found : literalEndAt code turns offset = .ok next) :
    closingAtFrom code (turns + 1) depth offset =
      match next with
      | none => .ok none
      | some next => closingAtFrom code turns depth next := by
  simp only [closingAtFrom, isByte, isQuote, if_true, found]
  cases next <;> rfl

theorem walks_closingAtFrom (code : Text) (limit : Nat) :
    Walks code limit (closingAtFrom code) where
  plain turns _ _ _ _ isByte isPlain := closingAtFrom_plain isByte isPlain turns
  quote turns _ _ _ _ _ isByte isQuote found := closingAtFrom_quote isByte isQuote turns found
  opening turns _ _ _ _ isByte opens := closingAtFrom_opening isByte opens turns
  closing turns depth _ _ _ isByte closes :=
    (closingAtFrom_closing isByte closes turns).trans (if_neg (Nat.succ_ne_zero depth))

theorem closingAtFrom_balanced (balanced : Balanced text) (depth : Nat)
    (stands : StandsAt code offset (text ++ rest)) (enough : utf8Length (text ++ rest) < turns) :
    ∃ left, utf8Length rest < left ∧ closingAtFrom code turns (depth + 1) offset =
      closingAtFrom code left (depth + 1) (offset + utf8Length text) :=
  (walks_closingAtFrom code _).balanced balanced depth stands (Nat.le_refl _) enough

theorem closingAtFrom_stuck (stuck : Stuck text) (depth : Nat)
    (stands : StandsAt code offset text) (enough : utf8Length text < turns) :
    closingAtFrom code turns depth offset = .ok none := by
  induction stuck generalizing depth offset turns with
  | nil =>
    obtain ⟨turns, rfl⟩ := Nat.exists_eq_add_one.mpr (Nat.zero_lt_of_lt enough)
    simp only [closingAtFrom, stands.byteAt?_nil]
  | literal quote rest isQuote endless =>
    have ascii := isAscii_of_isQuote isQuote
    obtain ⟨turns, rfl, fewer⟩ := exists_turns enough
    rw [utf8Size_of_isAscii ascii, closingAtFrom_quote (stands.byteAt?_char ascii) isQuote _
      (literalEndAt_of_endless isQuote endless stands fewer)]
  | bracket opening inside rest opens balanced _ ih =>
    have ascii := isAscii_of_isOpening opens
    obtain ⟨turns, rfl, fewer⟩ := exists_turns enough
    have inner := stands.cons ascii
    obtain ⟨left, leftEnough, same⟩ := closingAtFrom_balanced balanced depth inner fewer
    rw [utf8Size_of_isAscii ascii, closingAtFrom_opening (stands.byteAt?_char ascii) opens, same]
    exact ih (depth + 1) (inner.append inside) leftEnough

/-- A bracket is closed where the scan of the text closes it. -/
theorem closingAt_of_balanced {opening closing : Char} (opens : isOpening opening = true)
    (closes : isClosing closing = true) (balanced : Balanced inside)
    (stands : StandsAt code offset (opening :: (inside ++ closing :: after)))
    (enough : utf8Length (opening :: (inside ++ closing :: after)) < turns) :
    closingAt code turns offset = .ok (some (offset + 1 + utf8Length inside)) := by
  obtain ⟨turns, rfl, fewer⟩ := exists_turns enough
  have openingAscii := isAscii_of_isOpening opens
  have closingAscii := isAscii_of_isClosing closes
  have inner := stands.cons openingAscii
  have atClosing := inner.append inside
  obtain ⟨left, leftEnough, same⟩ := closingAtFrom_balanced balanced 0 inner fewer
  obtain ⟨left, rfl, -⟩ := exists_turns leftEnough
  rw [closingAt, utf8Size_of_isAscii openingAscii,
    closingAtFrom_opening (stands.byteAt?_char openingAscii) opens, same,
    utf8Size_of_isAscii closingAscii,
    closingAtFrom_closing (atClosing.byteAt?_char closingAscii) closes, if_pos rfl]

/-- A bracket that is not closed is found not to be. -/
theorem closingAt_of_none {opening : Char} (opens : isOpening opening = true)
    (notClosed : bracketed? rest = none) (stands : StandsAt code offset (opening :: rest))
    (enough : utf8Length (opening :: rest) < turns) : closingAt code turns offset = .ok none := by
  obtain ⟨inside, others, rfl, balanced, stuck | ⟨closing, after, closes, rfl⟩⟩ :=
    exists_balanced rest
  · exact closingAtFrom_stuck (.bracket opening inside others opens balanced stuck) 0 stands enough
  · rw [bracketed?_eq_some_iff.mpr ⟨balanced, closing, closes, rfl⟩] at notClosed
    cases notClosed

/-! ## Delimiters -/

section Delimiters

variable (before : offset < limit)

include before

theorem delimiterAtFrom_quote (isByte : byteAt? code offset = some quote)
    (isQuote : isQuote quote = true) (turns : Nat) {next : Nat}
    (found : literalEndAt code turns offset = .ok (some next)) :
    delimiterAtFrom code limit (turns + 1) depth offset =
      delimiterAtFrom code limit turns depth next := by
  simp only [delimiterAtFrom, Nat.not_le.mpr before, byteAt, isByte, if_false]
  simp [isQuote, found]

theorem delimiterAtFrom_plain (isByte : byteAt? code offset = some char)
    (isPlain : isPlain char = true) (passed : char = ',' → depth ≠ 0) (turns : Nat) :
    delimiterAtFrom code limit (turns + 1) depth offset =
      delimiterAtFrom code limit turns depth (offset + 1) := by
  obtain ⟨notQuote, notOpening, notClosing⟩ := isPlain_iff.mp isPlain
  have notStop : ¬(char = ',' ∧ depth = 0) := fun stop => passed stop.1 stop.2
  simp only [delimiterAtFrom, Nat.not_le.mpr before, byteAt, isByte, if_false]
  simp [notQuote, notOpening, notClosing, notStop]

theorem delimiterAtFrom_opening (isByte : byteAt? code offset = some char)
    (opens : isOpening char = true) (turns : Nat) :
    delimiterAtFrom code limit (turns + 1) depth offset =
      delimiterAtFrom code limit turns (depth + 1) (offset + 1) := by
  simp only [delimiterAtFrom, Nat.not_le.mpr before, byteAt, isByte, if_false]
  simp [(opening_iff_of_isOpening opens).1, opens]

theorem delimiterAtFrom_closing (isByte : byteAt? code offset = some char)
    (closes : isClosing char = true) (turns : Nat) :
    delimiterAtFrom code limit (turns + 1) (depth + 1) offset =
      delimiterAtFrom code limit turns depth (offset + 1) := by
  simp only [delimiterAtFrom, Nat.not_le.mpr before, byteAt, isByte, if_false]
  simp [closing_of_isClosing closes, closes]

theorem delimiterAtFrom_comma (isByte : byteAt? code offset = some ',') (turns : Nat) :
    delimiterAtFrom code limit (turns + 1) 0 offset = .ok offset := by
  simp only [delimiterAtFrom, Nat.not_le.mpr before, byteAt, isByte, if_false]
  rfl

end Delimiters

theorem walks_delimiterAtFrom (code : Text) (limit : Nat) :
    Walks code limit (delimiterAtFrom code limit) where
  plain turns depth _ _ before isByte isPlain :=
    delimiterAtFrom_plain before isByte isPlain (fun _ => Nat.succ_ne_zero depth) turns
  quote turns _ _ _ _ before isByte isQuote found :=
    delimiterAtFrom_quote before isByte isQuote turns found
  opening turns _ _ _ before isByte opens := delimiterAtFrom_opening before isByte opens turns
  closing turns _ _ _ before isByte closes := delimiterAtFrom_closing before isByte closes turns

/-- The next delimiter of balanced code before a limit stands where the scan of the text finds it,
or at the limit. -/
theorem delimiterAt_eq (balanced : Balanced text) (stands : StandsAt code offset (text ++ outer))
    (atLimit : StandsAt code limit outer) (enough : utf8Length (text ++ outer) < turns) :
    ∃ next, delimiterAt code turns offset limit = .ok next ∧
      StandsAt code next (toDelimiter text ++ outer) := by
  induction balanced generalizing offset turns with
  | nil =>
    obtain ⟨turns, rfl⟩ := Nat.exists_eq_add_one.mpr (Nat.zero_lt_of_lt enough)
    have atEnd : limit ≤ offset := Nat.le_of_eq (atLimit.unique stands)
    refine ⟨limit, ?_, atLimit⟩
    rw [delimiterAt, delimiterAtFrom, if_pos atEnd]
  | plain char rest isPlain _ ih =>
    have limitIs := stands.eq_add_utf8Length atLimit
    rw [List.cons_append] at stands enough
    rw [utf8Length_cons] at limitIs
    have positive := char.utf8Size_pos
    obtain ⟨turns, rfl, fewer⟩ := exists_turns enough
    by_cases isComma : char = ','
    · subst isComma
      refine ⟨offset, ?_, by rwa [toDelimiter_comma]⟩
      exact delimiterAtFrom_comma (by omega) (stands.byteAt?_char (by decide)) turns
    · have passed := stands.pass (delimiterAtFrom code limit · 0 ·)
        (fun byte => Generated.isPlain byte = true ∧ byte ≠ ',') ⟨isPlain, isComma⟩
        (fun byte high => ⟨isPlain_of_not_isAscii high, by rintro rfl; exact high (by decide)⟩)
        turns fun turns place byte less isByte plainByte => delimiterAtFrom_plain (by omega) isByte
          plainByte.1 (fun comma => absurd comma plainByte.2) turns
      obtain ⟨next, found, standsNext⟩ := ih stands.behind fewer
      refine ⟨next, passed.trans found, ?_⟩
      rwa [toDelimiter, toDelimiterFrom_plain isPlain 0 fun comma => absurd comma isComma]
  | literal quote inner rest isQuote body _ ih =>
    have limitIs := stands.eq_add_utf8Length atLimit
    rw [List.cons_append, List.append_assoc, List.cons_append] at stands enough
    have ascii := isAscii_of_isQuote isQuote
    rw [utf8Length_cons, utf8Size_of_isAscii ascii] at limitIs
    obtain ⟨turns, rfl, fewer⟩ := exists_turns enough
    obtain ⟨found, standsBehind⟩ := literalEndAt_of_body isQuote body stands fewer
    have fewerBehind : utf8Length (rest ++ outer) < turns := by
      rw [utf8Length_append, utf8Length_cons] at fewer
      omega
    obtain ⟨next, foundNext, standsNext⟩ := ih standsBehind fewerBehind
    refine ⟨next, ?_, ?_⟩
    · rw [delimiterAt, utf8Size_of_isAscii ascii,
        delimiterAtFrom_quote (by omega) (stands.byteAt?_char ascii) isQuote turns found]
      exact foundNext
    · rwa [toDelimiter, toDelimiterFrom_literal isQuote body]
  | bracket opening closing inside rest opens closes balancedInside _ _ ih =>
    have limitIs := stands.eq_add_utf8Length atLimit
    rw [List.cons_append, List.append_assoc, List.cons_append] at stands enough
    have openingAscii := isAscii_of_isOpening opens
    have closingAscii := isAscii_of_isClosing closes
    simp only [utf8Length_cons, utf8Length_append, utf8Size_of_isAscii openingAscii,
      utf8Size_of_isAscii closingAscii] at limitIs
    obtain ⟨turns, rfl, fewer⟩ := exists_turns enough
    have inner := stands.cons openingAscii
    have atClosing := inner.append inside
    obtain ⟨left, leftEnough, sameInside⟩ := (walks_delimiterAtFrom code limit).balanced
      balancedInside 0 inner (by omega) fewer
    obtain ⟨left, rfl, leftBehind⟩ := exists_turns leftEnough
    obtain ⟨next, foundNext, standsNext⟩ := ih (atClosing.cons closingAscii) leftBehind
    refine ⟨next, ?_, by rwa [toDelimiter_bracket opens closes balancedInside]⟩
    rw [delimiterAt, utf8Size_of_isAscii openingAscii,
      delimiterAtFrom_opening (by omega) (stands.byteAt?_char openingAscii) opens, sameInside,
      utf8Size_of_isAscii closingAscii,
      delimiterAtFrom_closing (by omega) (atClosing.byteAt?_char closingAscii) closes]
    exact foundNext

end MdxBuild.Generated.Bytewise

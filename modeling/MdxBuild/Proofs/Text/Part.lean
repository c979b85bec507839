import Mathlib.Data.List.Basic
import MdxBuild.Text.Blank

/-!
# Parts of a text

What the operations on texts take out of a text stood in it before.
-/

namespace MdxBuild.Text

variable {text part rest separator : Text} {char : Char}

/-- The rest of a text behind its first part. -/
theorem after?_eq_some_iff : after? part text = some rest ↔ text = part ++ rest := by
  rw [after?, List.isPrefixOf?_eq_some_iff_append_eq, eq_comm]

theorem subset_of_after? (found : after? part text = some rest) : rest ⊆ text := by
  rw [after?_eq_some_iff.mp found]
  exact List.subset_append_right part rest

theorem subset_trimEnd (text : Text) : trimEnd text ⊆ text :=
  ( trimEndBy_prefix isBlank text).subset

theorem subset_trim (text : Text) : trim text ⊆ text :=
  List.Subset.trans (subset_trimEnd _) (List.dropWhile_subset _)

/-- The head of a text in a class reaches up to the first character outside. -/
theorem takeWhile_append_cons {inClass : Char → Bool} (all : ∀ char ∈ part, inClass char = true)
    (stop : inClass char = false) (rest : Text) :
    (part ++ char :: rest).takeWhile inClass = part := by
  rw [List.takeWhile_append_of_pos all, List.takeWhile_cons_of_neg (by simp [stop]),
    List.append_nil]

theorem dropWhile_append_cons {inClass : Char → Bool} (all : ∀ char ∈ part, inClass char = true)
    (stop : inClass char = false) (rest : Text) :
    (part ++ char :: rest).dropWhile inClass = char :: rest := by
  rw [List.dropWhile_append_of_pos all, List.dropWhile_cons_of_neg (by simp [stop])]

/-- What is joined with a separator holds nothing beside the parts and the separator. -/
theorem mem_of_mem_intercalate {parts : List Text}
    (member : char ∈ separator.intercalate parts) :
    char ∈ separator ∨ ∃ part ∈ parts, char ∈ part := by
  rw [List.intercalate, List.mem_flatten] at member
  obtain ⟨piece, isPiece, inPiece⟩ := member
  induction parts with
  | nil => cases isPiece
  | cons first others ih =>
    cases others with
    | nil =>
      obtain rfl := List.mem_singleton.mp isPiece
      exact .inr ⟨piece, List.mem_cons_self, inPiece⟩
    | cons second others =>
      rw [List.intersperse_cons_cons, List.mem_cons, List.mem_cons] at isPiece
      rcases isPiece with rfl | rfl | isLater
      · exact .inr ⟨piece, List.mem_cons_self, inPiece⟩
      · exact .inl inPiece
      · rcases ih isLater with inSeparator | ⟨part, isPart, inPart⟩
        · exact .inl inSeparator
        · exact .inr ⟨part, List.mem_cons_of_mem first isPart, inPart⟩

/-- Lower case turns letters into letters. -/
theorem newline_notMem_asciiLower (noBreak : '\n' ∉ text) : '\n' ∉ asciiLower text := by
  intro member
  obtain ⟨char, isChar, isBreak⟩ := List.mem_map.mp member
  delta Char.toLower at isBreak
  split at isBreak
  · next isUpper =>
    have shifted : char.val + ('a'.val - 'A'.val) = 10 := congrArg Char.val isBreak
    have sum := congrArg UInt32.toNat shifted
    have lower := UInt32.le_iff_toNat_le.mp isUpper.1
    have upper := UInt32.le_iff_toNat_le.mp isUpper.2
    rw [UInt32.toNat_add] at sum
    simp only [UInt32.toNat_sub, UInt32.reduceToNat, Char.reduceVal] at sum lower upper
    omega
  · exact noBreak (isBreak ▸ isChar)

/-- Letters and digits are of the ASCII range. -/
theorem toNat_lt_of_isAlphanum (isAlphanum : char.isAlphanum = true) : char.toNat < 128 := by
  have atMost (high : Char) (isLow : high.toNat < 128) (within : char.val ≤ high.val) :
      char.toNat < 128 :=
    Nat.lt_of_le_of_lt (UInt32.le_iff_toNat_le.mp within) isLow
  rcases Bool.or_eq_true_iff.mp isAlphanum with isAlpha | isDigit
  · rcases Bool.or_eq_true_iff.mp isAlpha with isUpper | isLower
    · exact atMost 'Z' (by decide) (of_decide_eq_true isUpper).2
    · exact atMost 'z' (by decide) (of_decide_eq_true (Bool.and_eq_true_iff.mp isLower).2)
  · exact atMost '9' (by decide) (of_decide_eq_true (Bool.and_eq_true_iff.mp isDigit).2)

end MdxBuild.Text

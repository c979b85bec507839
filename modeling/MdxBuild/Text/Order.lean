import MdxBuild.Text.Basic

/-!
# The order of texts

Texts are ordered by their code points, which is the order of their UTF-8 bytes. The module holds
the facts that sorted containers need, and sorted lists of texts without repetition.
-/

namespace MdxBuild.Text

/-- The first text comes before the second one: it is a proper beginning of the second, or has the
smaller code point where they first differ. -/
def isBefore : Text → Text → Bool
  | _, [] => false
  | [], _ :: _ => true
  | first :: others, second :: rest =>
    if first = second then isBefore others rest else decide (first.toNat < second.toNat)

@[simp]
theorem isBefore_nil_right (text : Text) : isBefore text [] = false := by
  cases text <;> rfl

theorem isBefore_irrefl (text : Text) : isBefore text text = false := by
  induction text with
  | nil => rfl
  | cons first others ih => simpa [isBefore] using ih

theorem isBefore_trans {first second third : Text} (left : isBefore first second = true)
    (right : isBefore second third = true) : isBefore first third = true := by
  induction first generalizing second third with
  | nil =>
    cases third with
    | nil => simp at right
    | cons _ _ => rfl
  | cons char others ih =>
    match second, third with
    | [], _ => simp at left
    | _ :: _, [] => simp at right
    | middle :: rest, last :: tail =>
      simp only [isBefore] at left right ⊢
      by_cases low : char = middle
      · subst low
        rw [if_pos rfl] at left
        by_cases high : char = last
        · rw [if_pos high] at right ⊢
          exact ih left right
        · rw [if_neg high] at right ⊢
          exact right
      · rw [if_neg low, decide_eq_true_eq] at left
        by_cases high : middle = last
        · subst high
          rw [if_neg low, decide_eq_true_eq]
          exact left
        · rw [if_neg high, decide_eq_true_eq] at right
          have less := Nat.lt_trans left right
          have apart : char ≠ last := fun same => by simp [same] at less
          rw [if_neg apart, decide_eq_true_eq]
          exact less

/-- Of two different texts one comes before the other. -/
theorem isBefore_of_ne {first second : Text} (different : first ≠ second)
    (notBefore : isBefore first second = false) : isBefore second first = true := by
  induction first generalizing second with
  | nil =>
    cases second with
    | nil => exact absurd rfl different
    | cons _ _ => simp [isBefore] at notBefore
  | cons char others ih =>
    cases second with
    | nil => rfl
    | cons other rest =>
      simp only [isBefore] at notBefore ⊢
      by_cases same : char = other
      · subst same
        rw [if_pos rfl] at notBefore ⊢
        exact ih (fun equal => different (by rw [equal])) notBefore
      · rw [if_neg same, decide_eq_false_iff_not] at notBefore
        rw [if_neg (Ne.symm same), decide_eq_true_eq]
        have apart : char.toNat ≠ other.toNat := fun equal =>
          same (Char.ext (UInt32.toNat_inj.mp equal))
        exact Nat.lt_of_le_of_ne (Nat.le_of_not_lt notBefore) (Ne.symm apart)

/-- The first text is not after the second one. -/
def precedes (first second : Text) : Bool :=
  !isBefore second first

/-- A sorted list of texts with one more member. -/
def insertSorted (text : Text) : List Text → List Text
  | [] => [text]
  | first :: others =>
    if text = first then first :: others
    else if isBefore text first then text :: first :: others
    else first :: insertSorted text others

/-- The texts of a list, sorted and each once. -/
def sortedSet (texts : List Text) : List Text :=
  texts.foldr insertSorted []

@[simp]
theorem mem_insertSorted {text : Text} {other : Text} {sorted : List Text} :
    other ∈ insertSorted text sorted ↔ other = text ∨ other ∈ sorted := by
  induction sorted with
  | nil => simp [insertSorted]
  | cons first others ih =>
    by_cases same : text = first
    · simp [insertSorted, same]
    · by_cases less : isBefore text first = true
      · simp [insertSorted, same, less]
      · simp [insertSorted, same, less, ih, or_left_comm]

@[simp]
theorem mem_sortedSet {text : Text} {texts : List Text} :
    text ∈ sortedSet texts ↔ text ∈ texts := by
  induction texts with
  | nil => simp [sortedSet]
  | cons first others ih =>
    change text ∈ insertSorted first (sortedSet others) ↔ _
    simp [ih]

end MdxBuild.Text

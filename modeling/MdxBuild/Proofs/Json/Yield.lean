import MdxBuild.Json.Record

/-!
# What readers answer with

A condition on the values that a reader may answer with, whatever the text. It passes from the steps
of a reader to the reader: an invariant of the draft of a record holds once the record was read.
-/

namespace MdxBuild.Json

/-- If there is a value, then it satisfies the condition. -/
def Yields {α : Type} (outcome : Except Fault (α × Text)) (valid : α → Prop) : Prop :=
  ∀ value rest, outcome = .ok (value, rest) → valid value

namespace Yields

variable {α β : Type} {valid : α → Prop} {accepted : β → Prop}

theorem error (fault : Fault) : Yields (.error fault) valid := by
  intro value rest found
  cases found

theorem ok {value : α} (isValid : valid value) (rest : Text) :
    Yields (.ok (value, rest)) valid := by
  rintro _ _ ⟨⟩
  exact isValid

theorem bind {outcome : Except Fault (α × Text)} {next : α × Text → Except Fault (β × Text)}
    (yields : Yields outcome valid)
    (continues : ∀ value rest, valid value → Yields (next (value, rest)) accepted) :
    Yields (outcome >>= next) accepted := by
  cases outcome with
  | error fault => exact error fault
  | ok answer => exact continues answer.1 answer.2 (yields answer.1 answer.2 rfl)

/-- What comes first need not answer with anything in particular. -/
theorem bind_any {outcome : Except Fault α} {next : α → Except Fault (β × Text)}
    (continues : ∀ value, Yields (next value) accepted) : Yields (outcome >>= next) accepted := by
  cases outcome with
  | error fault => exact error fault
  | ok value => exact continues value

theorem map {outcome : Except Fault (α × Text)} {change : α → β} (yields : Yields outcome valid)
    (changes : ∀ value, valid value → accepted (change value)) :
    Yields (outcome.map fun (value, rest) => (change value, rest)) accepted := by
  cases outcome with
  | error fault => exact error fault
  | ok answer => exact ok (changes answer.1 (yields answer.1 answer.2 rfl)) answer.2

end Yields

/-! ## Numbers -/

/-- An integer is at most the greatest one of 64 bits. -/
def Number.IsBounded : Number → Prop
  | .integer value => value ≤ (greatestUnsigned : Int)
  | .double _ => True

theorem Number.isBounded_of_le {value : Int} (fits : value ≤ (greatestUnsigned : Int)) :
    (Number.integer value).IsBounded :=
  fits

theorem takeDigits_le {significand : Nat} (fits : significand ≤ greatestUnsigned) (text : Text) :
    (takeDigits significand text).1 ≤ greatestUnsigned := by
  induction text generalizing significand with
  | nil => exact fits
  | cons char rest ih =>
    simp only [takeDigits]
    split
    · next taken =>
      have : significand * 10 + (char.toNat - '0'.toNat) ≤ greatestUnsigned := by
        simp only [Bool.and_eq_true, decide_eq_true_eq] at taken
        exact taken.2
      exact ih this
    · exact fits

theorem yields_double (positive : Bool) (significand : Nat) (exponent : Int) (text : Text) :
    Yields (double positive significand exponent text) Number.IsBounded := by
  unfold double
  split
  · exact .ok trivial _
  · exact .error _

theorem yields_readExponent (positive : Bool) (significand : Nat) (start : Int) (text : Text) :
    Yields (readExponent positive significand start text) Number.IsBounded := by
  unfold readExponent
  split
  next exponentPositive afterSign _ =>
    split
    · exact .error _
    · split
      · split
        · exact yields_double _ _ _ _
        · split
          · exact .error _
          · exact .ok trivial _
      · exact .error _

theorem yields_finishDouble (positive : Bool) (significand : Nat) (exponent : Int) (text : Text) :
    Yields (finishDouble positive significand exponent text) Number.IsBounded := by
  unfold finishDouble
  split
  · exact yields_readExponent _ _ _ _
  · exact yields_double _ _ _ _

theorem yields_readDecimals (positive : Bool) (significand : Nat) (exponent : Int) (text : Text) :
    Yields (readDecimals positive significand exponent text) Number.IsBounded := by
  simp only [readDecimals]
  split
  · exact yields_finishDouble _ _ _ _
  · split
    · exact .error _
    · exact yields_finishDouble _ _ _ _

theorem yields_readFraction (positive : Bool) {significand : Nat}
    (fits : significand ≤ greatestUnsigned) (text : Text) :
    Yields (readFraction positive significand text) Number.IsBounded := by
  simp only [readFraction]
  split
  · split
    · exact yields_readDecimals _ _ _ _
    · exact yields_finishDouble _ _ _ _
  · split
    · exact yields_readDecimals _ _ _ _
    · split
      · exact yields_readExponent _ _ _ _
      · split
        · exact .ok (Number.isBounded_of_le (Int.ofNat_le.mpr fits)) _
        · split
          · exact .ok (Number.isBounded_of_le (by omega)) _
          · exact .ok trivial _

/-- The integers that are read fit 64 bits. -/
theorem yields_readNumber (positive : Bool) (text : Text) :
    Yields (readNumber positive text) Number.IsBounded := by
  unfold readNumber
  split
  · exact .error _
  · next first rest =>
    split
    · split
      · exact .error _
      · exact yields_readFraction positive (Nat.zero_le _) rest
    · split
      · next isDigit =>
        have small : first.toNat - '0'.toNat ≤ greatestUnsigned := by
          simp only [Char.isDigit, Bool.and_eq_true, decide_eq_true_eq] at isDigit
          have : first.toNat ≤ 57 := isDigit.2
          exact Nat.le_trans (Nat.sub_le_of_le_add this) (by decide)
        exact yields_readFraction positive (takeDigits_le small rest) _
      · exact .error _

theorem yields_unsigned (expected text : Text) :
    Yields (readUnsigned expected text) fun value => value ≤ greatestUnsigned := by
  have accepts (number : Number) (rest : Text) (bounded : number.IsBounded) :
      Yields (do .ok (← unsignedOf expected number, rest))
        fun value => value ≤ greatestUnsigned := by
    cases number with
    | double bits => exact .error _
    | integer value =>
      have fits : value.toNat ≤ greatestUnsigned := Int.toNat_le.mpr bounded
      by_cases natural : 0 ≤ value
      · simp only [unsignedOf, if_pos natural]
        intro read after same
        cases same
        exact fits
      · simp only [unsignedOf, if_neg natural]
        exact .error _
  unfold readUnsigned
  split
  · exact .error _
  · split
    · exact (yields_readNumber _ _).bind accepts
    · split
      · exact (yields_readNumber _ _).bind accepts
      · exact .error _

/-! ## Records -/

/-- A field keeps an invariant of the draft if the values that may be read for it do. -/
theorem yields_fill {σ β : Type} {name : Text} {required : Bool} {get : σ → Option β}
    {set : σ → β → σ} {readField : Text → Except Fault (β × Text)} {valid : β → Prop}
    {invariant : σ → Prop} {draft : σ} (reads : ∀ text, Yields (readField text) valid)
    (keeps : ∀ value, valid value → invariant (set draft value)) (text : Text) :
    Yields ((Field.of name required get set readField).fill draft text) invariant :=
  (reads text).map keeps

/-- A field that an invariant does not speak of keeps it. -/
theorem yields_fill_of_forall {σ β : Type} {name : Text} {required : Bool} {get : σ → Option β}
    {set : σ → β → σ} {readField : Text → Except Fault (β × Text)} {invariant : σ → Prop}
    {draft : σ} (keeps : ∀ value, invariant (set draft value)) (text : Text) :
    Yields ((Field.of name required get set readField).fill draft text) invariant :=
  have reads (text : Text) : Yields (readField text) fun _ => True := fun _ _ _ => trivial
  yields_fill reads (fun value _ => keeps value) text

/-- An invariant of the state holds behind the members of an object. -/
theorem yields_readMembers {σ : Type} {step : σ → Text → Text → Except Fault (σ × Text)}
    {invariant : σ → Prop}
    (keeps : ∀ state key text, invariant state → Yields (step state key text) invariant)
    (bound : Nat) (first : Bool) {state : σ} (holds : invariant state) (text : Text) :
    Yields (readMembers step bound first state text) invariant := by
  induction bound generalizing first state text with
  | zero => exact .error _
  | succ bound ih =>
    have continues (text : Text) : Yields ((readString text).bind fun read =>
        (step state read.1 read.2).bind fun made =>
          readMembers step bound false made.1 made.2) invariant :=
      .bind_any fun read => (keeps state read.1 read.2 holds).bind fun next after holdsNext =>
        ih false holdsNext after
    unfold readMembers
    split
    · exact .error _
    · split
      · exact .ok holds _
      · split
        · split
          · exact continues _
          · exact .error _
        · split
          · split
            · exact .error _
            · split
              · exact continues _
              · split <;> exact .error _
          · exact .error _

namespace Record

variable {σ α : Type} {record : Record σ α} {invariant : σ → Prop} {valid : α → Prop}

/-- Every field keeps an invariant of the draft. -/
def Keeps (record : Record σ α) (invariant : σ → Prop) : Prop :=
  ∀ field ∈ record.fields, ∀ draft text, invariant draft → Yields (field.fill draft text) invariant

theorem yields_member (keeps : record.Keeps invariant) {draft : σ} (holds : invariant draft)
    (key text : Text) : Yields (record.member draft key text) invariant := by
  unfold member
  split
  · next field found =>
    split
    · exact .error _
    · exact .bind_any fun value => keeps field (List.mem_of_find?_eq_some found) draft value holds
  · exact .bind_any fun _ => .bind_any fun _ => .ok holds _

theorem yields_items (keeps : record.Keeps invariant) {remaining : List (Field σ)}
    (ofRecord : ∀ field ∈ remaining, field ∈ record.fields) (index : Nat) {draft : σ}
    (holds : invariant draft) (text : Text) :
    Yields (record.items remaining index draft text) invariant := by
  induction remaining generalizing index draft text with
  | nil => exact .ok holds text
  | cons field others ih =>
    have ofOthers := fun field member => ofRecord field (List.mem_cons_of_mem _ member)
    have fills (text : Text) : Yields (do
        let (next, after) ← field.fill draft text
        record.items others (index + 1) next after) invariant :=
      (keeps field (ofRecord field List.mem_cons_self) draft text holds).bind
        fun next after holdsNext => ih ofOthers (index + 1) holdsNext after
    unfold items
    split
    · exact .error _
    · split
      · split
        · exact .error _
        · exact ih ofOthers (index + 1) holds _
      · split
        · exact fills _
        · split
          · split
            · exact .error _
            · split
              · exact .error _
              · exact fills _
          · exact .error _

/-- What is read was finished from a draft that satisfies the invariant. -/
theorem yields (keeps : record.Keeps invariant) (blank : invariant record.blank)
    (finishes : ∀ draft value, invariant draft → record.finish draft = .ok value → valid value)
    (text : Text) : Yields (record.read text) valid := by
  have completes (draft : σ) (holds : invariant draft) (close : Except Fault Text) :
      Yields (do
        let value ← record.finish draft
        .ok (value, ← close)) valid := by
    cases finished : record.finish draft with
    | error fault => exact .error fault
    | ok value =>
      have isValid := finishes draft value holds finished
      cases close with
      | error fault => exact .error fault
      | ok rest => exact .ok isValid rest
  unfold read
  split
  · exact .error _
  · split
    · exact (yields_readMembers (fun draft key text holds => yields_member keeps holds key text)
        _ _ blank _).bind fun draft after holds => completes draft holds (.ok after)
    · split
      · exact (yields_items keeps (fun _ member => member) _ blank _).bind
          fun draft after holds => completes draft holds (closeArray after)
      · exact .error _

end Record

end MdxBuild.Json

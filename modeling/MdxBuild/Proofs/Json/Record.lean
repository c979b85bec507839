import Mathlib.Tactic.Choose
import MdxBuild.Json.Record
import MdxBuild.Proofs.Json.Reading

/-!
# Reading printed records

A reader reads a printed value back if, whatever follows the value, it answers with the value and
that rest. Some values are printed that the reader then refuses, such as a number beyond the bound
of its field; what matters is that no reader takes a printed value for another one.

In the indented form every member of an object stands on a line of its own and its value behind a
blank. The readers pass over blanks, so a walk over the lines takes in the same members as one over
the compact form.
-/

namespace MdxBuild.Json

/-- Whatever follows the printed form of a value, the reader answers with the value, unless there is
a refusal. -/
def ReadsUnless {α : Type} (refusal : Except Fault Unit)
    (readItem : Text → Except Fault (α × Text)) (printed : Text) (value : α) : Prop :=
  ∀ rest, endsNumber rest = true → readItem (printed ++ rest) = refusal.map fun _ => (value, rest)

/-- Whatever follows the printed form of a value, the reader answers with the value, or it refuses
the form with one and the same fault. -/
def ReadsBack {α : Type} (readItem : Text → Except Fault (α × Text)) (printed : Text)
    (value : α) : Prop :=
  ∃ refusal : Except Fault Unit, ∀ rest, endsNumber rest = true →
    readItem (printed ++ rest) = refusal.map fun _ => (value, rest)

/-! ## Scalars -/

@[simp]
theorem readText_render (expected value rest : Text) :
    readText expected ((string value).render ++ rest) = .ok (value, rest) := by
  simp [render, renderScalar, quote, readText, skipBlanks_quote]

@[simp]
theorem readOptional_render (expected : Text) (value : Option Text) (rest : Text) :
    readOptional (readText expected) ((ofOption string value).render ++ rest) =
      .ok (value, rest) := by
  cases value with
  | none =>
    simp [ofOption, render, renderScalar, readOptional, skipBlanks_cons, isJsonBlank, readWord,
      Except.map]
  | some value =>
    have readsText := readText_render expected value rest
    simp only [render, renderScalar, quote_append] at readsText
    simp only [ofOption, render, renderScalar, quote_append, readOptional, skipBlanks_quote,
      Char.reduceEq, if_false, readsText]
    rfl

theorem readsUnless_text (expected value : Text) :
    ReadsUnless (.ok ()) (readText expected) (string value).render value := by
  intro rest ended
  exact readText_render expected value rest

theorem readsUnless_optional (expected : Text) (value : Option Text) :
    ReadsUnless (.ok ()) (readOptional (readText expected)) (ofOption string value).render
      value := by
  intro rest ended
  exact readOptional_render expected value rest

theorem readsUnless_bool (value : Bool) :
    ReadsUnless (.ok ()) readBool (bool value).render value := by
  intro rest ended
  cases value <;>
    simp [render, renderScalar, readBool, skipBlanks_cons, isJsonBlank, readWord, Except.map]

section Variants

variable {α : Type} {variants : List (Text × α)} {name : Text} {value : α}

/-- The name of an alternative is read as the alternative. -/
theorem readsUnless_variantName
    (known : (variants.find? fun variant => variant.1 == name) = some (name, value)) :
    ReadsUnless (.ok ()) (readVariantName variants) (string name).render value := by
  intro rest ended
  rw [readVariantName, readText_render]
  simp only [bind, Except.bind, known]
  rfl

/-- One of several alternatives is read back from its name. -/
theorem readsUnless_variant
    (known : (variants.find? fun variant => variant.1 == name) = some (name, value)) :
    ReadsUnless (.ok ()) (readVariant variants) (string name).render value := by
  intro rest ended
  have readsName := readsUnless_variantName known rest ended
  simp only [render, renderScalar, quote_append] at readsName ⊢
  simp only [readVariant, skipBlanks_quote, if_true, readsName]

end Variants

/-- A whole value is read back if it is not too deep. -/
theorem readsUnless_value {value : Json} (whole : value.isWhole = true) (bound : Nat) :
    ReadsUnless (if value.depth ≤ bound then .ok () else .error .tooDeep) (readValue bound)
      value.render value := by
  intro rest ended
  rw [readValue_render whole bound ended, within]
  split <;> rfl

theorem render_ofNat (number : Nat) : (Json.ofNat number).render = Text.ofNat number := by
  simp [Json.ofNat, render, renderScalar, Number.render, integerText]

/-- A number of 64 bits is read back. -/
theorem readsUnless_unsigned {expected : Text} {number : Nat} (fits : number ≤ greatestUnsigned) :
    ReadsUnless (.ok ()) (readUnsigned expected) (Text.ofNat number) number := by
  intro rest ended
  obtain ⟨first, others, written, isDigit, _⟩ := ofNat_eq_cons number
  have readsNumber := readNumber_ofNat fits ended true
  rw [readFraction_of_endsNumber ended] at readsNumber
  rw [written, List.cons_append] at readsNumber ⊢
  rw [readUnsigned, skipBlanks_cons (isJsonBlank_of_isDigit isDigit)]
  simp only [ne_of_isDigit isDigit '-' rfl, isDigit, if_true, if_false, readsNumber]
  simp [bind, Except.bind, unsignedOf, Except.map]

/-- The number of a digit text is the number that was printed, or there is none. -/
theorem readsBack_readNumber (number : Nat) :
    ∃ outcome : Except Fault Number,
      (∀ value, outcome = .ok (.integer value) → value = number) ∧
      ∀ rest, endsNumber rest = true →
        readNumber true (Text.ofNat number ++ rest) = outcome.map (·, rest) := by
  by_cases fits : number ≤ greatestUnsigned
  · refine ⟨.ok (.integer number), ?_⟩
    constructor
    · intro value same
      simpa using same.symm
    · intro rest ended
      rw [readNumber_ofNat fits ended, readFraction_of_endsNumber ended]
      rfl
  · obtain ⟨outcome, reads⟩ := readNumber_of_large (Nat.not_le.mp fits) true
    refine ⟨outcome.map .double, ?_⟩
    constructor
    · intro value same
      cases outcome <;> simp [Except.map] at same
    · intro rest ended
      rw [reads rest ended]
      cases outcome <;> rfl

/-! ## Arrays -/

/-- Items that are read back one by one, or refused, are all read back or one of them refused. -/
theorem mapM_refusals {α : Type} (refusal : α → Except Fault Unit) (items : List α) :
    ∃ refused : Except Fault Unit,
      items.mapM (fun item => (refusal item).map fun _ => item) = refused.map fun _ => items := by
  induction items with
  | nil => exact ⟨.ok (), rfl⟩
  | cons item others ih =>
    obtain ⟨refused, answer⟩ := ih
    rw [List.mapM_cons, answer]
    cases refusal item with
    | error fault => exact ⟨.error fault, rfl⟩
    | ok _ => exact ⟨refused, by cases refused <;> rfl⟩

/-- An array is read item by item. -/
theorem readList_render {α : Type} {readItem : Text → Except Fault (α × Text)} {encode : α → Json}
    {refusal : α → Except Fault Unit} {items : List α}
    (starts : ∀ item ∈ items, StartsItem (encode item).render)
    (reads : ∀ item ∈ items, ReadsUnless (refusal item) readItem (encode item).render item)
    (rest : Text) :
    readList readItem ((array (items.map encode)).render ++ rest) =
      (items.mapM fun item => (refusal item).map fun _ => item).map (·, rest) := by
  let print : α → Text := fun item => (encode item).render
  have printed : renderItems (items.map encode) = separated print items := by
    rw [renderItems_eq_separated, separated_map]
  have enough : items.length < (separated print items ++ ']' :: rest).length + 1 := by
    have : items.length ≤ (separated print items).length :=
      length_le_separated fun item member => StartsItem.ne_nil (starts item member)
    simp only [List.length_append]
    omega
  have readsAnswer : ∀ item ∈ items, ∀ rest, endsNumber rest = true →
      readItem (print item ++ rest) =
        ((refusal item).map fun _ => item).map (·, rest) := by
    intro item member rest ended
    rw [reads item member rest ended]
    cases refusal item <;> rfl
  rw [render, printed, List.append_assoc, List.append_assoc, readList, List.singleton_append,
    skipBlanks_cons rfl]
  simp only [reduceIte, List.singleton_append]
  exact readItems_print readsAnswer starts enough rest

/-- An array is read back if its items are. -/
theorem readsBack_list {α : Type} {readItem : Text → Except Fault (α × Text)} {encode : α → Json}
    {items : List α} (starts : ∀ item ∈ items, StartsItem (encode item).render)
    (reads : ∀ item ∈ items, ReadsBack readItem (encode item).render item) :
    ReadsBack (readList readItem) (array (items.map encode)).render items := by
  choose! refusal readsItem using reads
  obtain ⟨refused, answer⟩ := mapM_refusals refusal items
  refine ⟨refused, ?_⟩
  intro rest ended
  rw [readList_render starts readsItem, answer]
  cases refused <;> rfl

/-- An array is read back if none of its items is refused. -/
theorem readsUnless_list {α : Type} {readItem : Text → Except Fault (α × Text)}
    {encode : α → Json} {items : List α}
    (starts : ∀ item ∈ items, StartsItem (encode item).render)
    (reads : ∀ item ∈ items, ReadsUnless (.ok ()) readItem (encode item).render item) :
    ReadsUnless (.ok ()) (readList readItem) (array (items.map encode)).render items := by
  intro rest ended
  rw [readList_render starts reads]
  change (items.mapM fun item => (pure item : Except Fault α)).map (·, rest) = _
  rw [List.mapM_pure]
  simp [pure, Except.pure, Except.map]

/-! ## Members -/

/-- Members of an object are taken into a state one after the other, unless there is a refusal: that
of a single member. -/
inductive Takes {σ : Type} (step : σ → Text → Text → Except Fault (σ × Text)) :
    σ → List (Text × Json) → Except Fault Unit → σ → Prop
  | done (state : σ) : Takes step state [] (.ok ()) state
  | next {state middle final : σ} {key : Text} {value : Json} {others : List (Text × Json)}
      {refusal : Except Fault Unit}
      (reads : ReadsUnless (.ok ()) (fun text => step state key (':' :: text)) value.render middle)
      (takes : Takes step middle others refusal final) :
      Takes step state ((key, value) :: others) refusal final
  | deciding {state middle final : σ} {key : Text} {value : Json} {others : List (Text × Json)}
      {refusal : Except Fault Unit}
      (reads : ReadsUnless refusal (fun text => step state key (':' :: text)) value.render middle)
      (takes : Takes step middle others (.ok ()) final) :
      Takes step state ((key, value) :: others) refusal final

namespace Takes

variable {σ : Type} {step : σ → Text → Text → Except Fault (σ × Text)} {state final : σ}
  {members : List (Text × Json)} {refusal : Except Fault Unit}

/-- Members behind a comma each are read up to the closing brace. -/
theorem readMembers_behindCommas (takes : Takes step state members refusal final) {bound : Nat}
    (enough : members.length < bound) (rest : Text) :
    readMembers step bound false state
        (members.flatMap (fun member => ',' :: printMember render member) ++ '\x7d' :: rest) =
      refusal.map fun _ => (final, rest) := by
  have ended (others : List (Text × Json)) : endsNumber (others.flatMap
      (fun member => ',' :: printMember render member) ++ '\x7d' :: rest) = true :=
    endsNumber_behindCommas rfl others
  induction takes generalizing bound with
  | done state =>
    obtain ⟨bound, rfl⟩ := Nat.exists_eq_succ_of_ne_zero (Nat.ne_of_gt enough)
    exact readMembers_close bound false state rest
  | @next state middle final key value others refusal reads takes ih =>
    obtain ⟨bound, rfl⟩ := Nat.exists_eq_succ_of_ne_zero (Nat.ne_of_gt (Nat.zero_lt_of_lt enough))
    have readsValue := reads _ (ended others)
    simp only at readsValue
    rw [List.flatMap_cons, List.append_assoc, List.cons_append, printMember_append,
      readMembers_next, readsValue]
    exact ih (by simpa using enough)
  | @deciding state middle final key value others refusal reads takes ih =>
    obtain ⟨bound, rfl⟩ := Nat.exists_eq_succ_of_ne_zero (Nat.ne_of_gt (Nat.zero_lt_of_lt enough))
    have readsValue := reads _ (ended others)
    simp only at readsValue
    rw [List.flatMap_cons, List.append_assoc, List.cons_append, printMember_append,
      readMembers_next, readsValue]
    cases refusal with
    | error fault => rfl
    | ok _ => exact ih (by simpa using enough)

/-- A comma in front of the members stands for their not being the first ones. -/
theorem readMembers_comma (bound : Nat) (member : Text × Json) (others : List (Text × Json))
    (rest : Text) :
    readMembers step (bound + 1) true state
        (separated (printMember render) (member :: others) ++ '\x7d' :: rest) =
      readMembers step (bound + 1) false state
        ((member :: others).flatMap (fun member => ',' :: printMember render member) ++
          '\x7d' :: rest) := by
  obtain ⟨key, value⟩ := member
  rw [separated, List.append_assoc, printMember_append, readMembers_first, List.flatMap_cons,
    List.append_assoc, List.cons_append, printMember_append, readMembers_next]

/-- The members of an object are read up to the closing brace. -/
theorem readMembers_object (takes : Takes step state members refusal final) {bound : Nat}
    (enough : members.length < bound) (rest : Text) :
    readMembers step bound true state (renderMembers members ++ '\x7d' :: rest) =
      refusal.map fun _ => (final, rest) := by
  obtain ⟨bound, rfl⟩ := Nat.exists_eq_succ_of_ne_zero (Nat.ne_of_gt (Nat.zero_lt_of_lt enough))
  rw [renderMembers_eq_separated, ← takes.readMembers_behindCommas enough rest]
  cases members with
  | nil =>
    change readMembers step (bound + 1) true state ('\x7d' :: rest) =
      readMembers step (bound + 1) false state ('\x7d' :: rest)
    rw [readMembers_close, readMembers_close]
  | cons member others => exact readMembers_comma bound member others rest

/-- The text of an object is long enough for the walk over its members. -/
theorem length_lt_renderMembers (members : List (Text × Json)) (rest : Text) :
    members.length < (renderMembers members ++ '\x7d' :: rest).length + 1 := by
  have : members.length ≤ (separated (printMember render) members).length :=
    length_le_separated fun member _ => printMember_ne_nil render member
  rw [renderMembers_eq_separated]
  simp only [List.length_append]
  omega

end Takes

/-! ## Records -/

theorem Field.fill_of {σ β : Type} (name : Text) (required : Bool) (get : σ → Option β)
    (set : σ → β → σ) (readField : Text → Except Fault (β × Text)) (draft : σ) (text : Text) :
    (Field.of name required get set readField).fill draft text =
      (readField text).map fun (value, after) => (set draft value, after) :=
  rfl

theorem startsItem_object (members : List (Text × Json)) : StartsItem (object members).render :=
  ⟨'\x7b', _, rfl, rfl, by decide⟩

theorem object_append (members : List (Text × Json)) (rest : Text) :
    (object members).render ++ rest = '\x7b' :: (renderMembers members ++ '\x7d' :: rest) := by
  simp [render]

namespace Record

variable {σ α β : Type} {record : Record σ α}

/-- A record is read from the members of an object. -/
theorem read_object (rest : Text) :
    record.read ('{' :: rest) =
      (readMembers record.member (rest.length + 1) true record.blank rest).bind
        fun (draft, after) => (record.finish draft).map (·, after) := by
  rw [read, skipBlanks_cons rfl]
  rfl

/-- A member fills its field. -/
theorem member_of_field {field : Field σ} {draft : σ} {key : Text}
    (found : record.fields.find? (fun field => field.name == key) = some field)
    (unfilled : field.isFilled draft = false) (text : Text) :
    record.member draft key (':' :: text) = field.fill draft text := by
  simp only [member, found, unfilled, Bool.false_eq_true, if_false, afterColon_cons]
  rfl

/-- A member whose value is read back fills its field. -/
theorem readsUnless_member {name key printed : Text} {required : Bool} {get : σ → Option β}
    {set : σ → β → σ} {readField : Text → Except Fault (β × Text)} {draft : σ} {value : β}
    {refusal : Except Fault Unit}
    (found : record.fields.find? (fun field => field.name == key) =
      some (.of name required get set readField))
    (unfilled : get draft = none) (reads : ReadsUnless refusal readField printed value) :
    ReadsUnless refusal (fun text => record.member draft key (':' :: text)) printed
      (set draft value) := by
  intro rest ended
  have isUnfilled : (Field.of name required get set readField).isFilled draft = false :=
    congrArg Option.isSome unfilled
  simp only [member_of_field found isUnfilled, Field.fill_of, reads rest ended]
  cases refusal <;> rfl

/-- A record is read back from an object whose members fill its draft. -/
theorem readsUnless_object {members : List (Text × Json)} {final : σ} {value : α}
    {refusal : Except Fault Unit} (takes : Takes record.member record.blank members refusal final)
    (finishes : record.finish final = .ok value) :
    ReadsUnless refusal record.read (object members).render value := by
  intro rest ended
  rw [object_append, read_object,
    takes.readMembers_object (Takes.length_lt_renderMembers members rest)]
  cases refusal with
  | error fault => rfl
  | ok _ => simp only [Except.map, Except.bind, finishes]

end Record

/-- A whole text that was printed is read as the value that it was printed from. -/
theorem parseAs_of_readsUnless {α : Type} {readWhole : Text → Except Fault (α × Text)}
    {printed : Text} {value : α} {refusal : Except Fault Unit}
    (reads : ReadsUnless refusal readWhole printed value) :
    parseAs readWhole printed = refusal.map fun _ => value := by
  have readsWhole := reads [] rfl
  rw [List.append_nil] at readsWhole
  rw [parseAs, readsWhole]
  cases refusal <;> rfl

/-- What a whole text is read as is what stands at its start. -/
theorem exists_of_parseAs {α : Type} {readWhole : Text → Except Fault (α × Text)} {text : Text}
    {value : α} (parsed : parseAs readWhole text = .ok value) :
    ∃ rest, readWhole text = .ok (value, rest) := by
  rw [parseAs] at parsed
  cases found : readWhole text with
  | error fault =>
    rw [found] at parsed
    cases parsed
  | ok answer =>
    simp only [found, bind, Except.bind] at parsed
    split at parsed
    · exact ⟨answer.2, by rw [← Except.ok.inj parsed]⟩
    · cases parsed

/-! ## The indented form -/

theorem isBlank_indentation {char : Char} (level : Nat) (member : char ∈ indentation level) :
    isJsonBlank char = true := by
  rcases List.mem_cons.mp member with rfl | inSpaces
  · rfl
  · rw [List.eq_of_mem_replicate inSpaces]
    rfl

/-- The value of a member as it stands behind the colon. -/
def behindBlank {β : Type} (print : β → Text) (value : β) : Text :=
  ' ' :: print value

/-- A member of an object on its line. -/
def memberLine {β : Type} (level : Nat) (print : β → Text) (member : Text × β) : Text :=
  indentation level ++ printMember (behindBlank print) member

/-- What stands in front of the closing brace of an object. -/
def closing {β : Type} (level : Nat) (members : List (Text × β)) : Text :=
  if members.isEmpty then [] else indentation level

theorem isBlank_closing {β : Type} {level : Nat} {members : List (Text × β)} {char : Char}
    (member : char ∈ closing level members) : isJsonBlank char = true := by
  rw [closing] at member
  split at member
  · cases member
  · exact isBlank_indentation level member

theorem indentMembers_eq_separated (level : Nat) (members : List (Text × Json)) :
    indentMembers level members = separated (memberLine level (renderIndented level)) members := by
  induction members with
  | nil => rfl
  | cons member others ih =>
    obtain ⟨key, value⟩ := member
    cases others with
    | nil => simp [indentMembers, separated, memberLine, printMember, behindBlank]
    | cons next more => simp [indentMembers, separated, memberLine, printMember, behindBlank, ih]

/-- The indented form of an object whose values are given by way of another form. -/
theorem renderIndented_object {β : Type} (level : Nat) (encode : β → Json)
    (members : List (Text × β)) :
    renderIndented level (object (members.map fun member => (member.1, encode member.2))) =
      '{' :: (separated
        (memberLine (level + 1) fun value => renderIndented (level + 1) (encode value)) members ++
          (closing level members ++ ['\x7d'])) := by
  cases members with
  | nil => rfl
  | cons member others =>
    rw [List.map_cons, renderIndented, ← List.map_cons (f := fun member : Text × β =>
      (member.1, encode member.2)), indentMembers_eq_separated, separated_map]
    · simp only [closing, List.isEmpty_cons, Bool.false_eq_true, if_false, List.append_assoc,
        List.singleton_append]
      rfl
    · exact List.cons_ne_nil _ _

section Lines

variable {σ β : Type} {step : σ → Text → Text → Except Fault (σ × Text)} {print : β → Text}
  {members : List (Text × β)} {level : Nat}

/-- The members of an object are taken into a state, line by line. -/
theorem readMembers_lines (next : σ → Text → β → σ)
    (reads : ∀ member ∈ members, ∀ state rest, endsNumber rest = true →
      step state member.1 (':' :: ' ' :: (print member.2 ++ rest)) =
        .ok (next state member.1 member.2, rest))
    (state : σ) (rest : Text) :
    let text := separated (memberLine (level + 1) print) members ++
      (closing level members ++ '\x7d' :: rest)
    readMembers step (text.length + 1) true state text =
      .ok (members.foldl (fun state member => next state member.1 member.2) state, rest) := by
  intro text
  have nonempty : ∀ member ∈ members, memberLine (level + 1) print member ≠ [] :=
    fun member _ => List.cons_ne_nil _ _
  have enough : members.length < text.length + 1 := by
    have := length_le_separated nonempty
    simp only [text, List.length_append]
    omega
  let take : σ → Text → β → Except Fault σ := fun state key value => .ok (next state key value)
  have takes : ∀ member ∈ members, ∀ state rest, endsNumber rest = true →
      step state member.1 (':' :: behindBlank print member.2 ++ rest) =
        (take state member.1 member.2).map (·, rest) := by
    intro member isMember state rest ended
    exact reads member isMember state rest ended
  refine (readMembers_spaced (fun char => isBlank_indentation (level + 1))
    (fun char => isBlank_closing) takes enough state rest).trans ?_
  have taken : (fun state (member : Text × β) => take state member.1 member.2) =
      fun state member => pure (next state member.1 member.2) := rfl
  rw [taken, List.foldlM_pure]
  rfl

end Lines

end MdxBuild.Json

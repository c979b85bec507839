import MdxBuild.Json.Reader
import MdxBuild.Proofs.Dictionary
import MdxBuild.Proofs.Json.Scanning

/-!
# Reading what was printed

Values in which every number is an integer are read back from their compact form as they are,
unless they nest deeper than the reader goes; then the reading fails and nothing else is read in
their place. The walks over items and members are stated for any printer and reader, since the
readers of records use them as well.
-/

namespace MdxBuild.Json

/-! ## Walks over items and members -/

theorem skipBlanks_cons {char : Char} {rest : Text} (solid : isJsonBlank char = false) :
    skipBlanks (char :: rest) = char :: rest := by
  simp [skipBlanks, solid]

theorem skipBlanks_quote (rest : Text) : skipBlanks ('"' :: rest) = '"' :: rest :=
  skipBlanks_cons rfl

/-- Blanks in front of a text are passed over. -/
theorem skipBlanks_append {blanks : Text} (blank : ∀ char ∈ blanks, isJsonBlank char = true)
    (rest : Text) : skipBlanks (blanks ++ rest) = skipBlanks rest :=
  List.dropWhile_append_of_pos blank

/-- A number ends in front of blanks. -/
theorem endsNumber_blanks {blanks rest : Text} (blank : ∀ char ∈ blanks, isJsonBlank char = true)
    (ended : endsNumber rest = true) : endsNumber (blanks ++ rest) = true := by
  cases blanks with
  | nil => exact ended
  | cons char others =>
    have isBlank := blank char List.mem_cons_self
    simp only [isJsonBlank, Bool.or_eq_true, decide_eq_true_eq] at isBlank
    rcases isBlank with ((rfl | rfl) | rfl) | rfl <;> rfl

theorem quote_append (value text : Text) :
    quote value ++ text = '"' :: (escape value ++ '"' :: text) := by
  simp [quote]

/-- A printed form that a reader of items takes for the start of one. -/
def StartsItem (printed : Text) : Prop :=
  ∃ first rest, printed = first :: rest ∧ isJsonBlank first = false ∧ first ≠ ']'

theorem StartsItem.ne_nil {printed : Text} (starts : StartsItem printed) : printed ≠ [] := by
  obtain ⟨first, rest, rfl, -⟩ := starts
  exact List.cons_ne_nil _ _

/-- Printed items with commas between them. -/
def separated {α : Type} (print : α → Text) : List α → Text
  | [] => []
  | item :: others => print item ++ others.flatMap fun other => ',' :: print other

/-- Items behind a comma each end the number in front of them. -/
theorem endsNumber_behindCommas {α : Type} {print : α → Text} {rest : Text}
    (ended : endsNumber rest = true) (items : List α) :
    endsNumber (items.flatMap (fun item => ',' :: print item) ++ rest) = true := by
  cases items with
  | nil => exact ended
  | cons item others => rfl

theorem length_le_separated {α : Type} {print : α → Text} {items : List α}
    (nonempty : ∀ item ∈ items, print item ≠ []) :
    items.length ≤ (separated print items).length := by
  have behindComma (others : List α) :
      others.length ≤ (others.flatMap fun other => ',' :: print other).length := by
    induction others with
    | nil => simp
    | cons other more ih =>
      simp only [List.flatMap_cons, List.length_append, List.length_cons]
      omega
  cases items with
  | nil => simp
  | cons item others =>
    have := behindComma others
    have := List.length_pos_iff.mpr (nonempty item List.mem_cons_self)
    simp only [separated, List.length_append, List.length_cons]
    omega

/-- Items may be printed by way of another form. -/
theorem separated_map {α β : Type} (print : β → Text) (encode : α → β) (items : List α) :
    separated print (items.map encode) = separated (fun item => print (encode item)) items := by
  cases items with
  | nil => rfl
  | cons item others => simp [separated, List.flatMap_map]

section Items

variable {α : Type} {readItem : Text → Except Fault (α × Text)} {print : α → Text}
  {answer : α → Except Fault α} {items : List α}

/-- One item and the items behind it are read as their list. -/
theorem bind_readItems {item : α} {others : List α} {middle rest : Text}
    {first : Except Fault (α × Text)} {remaining : Text → Except Fault (List α × Text)}
    (readsItem : first = (answer item).map (·, middle))
    (readsOthers : remaining middle = (others.mapM answer).map (·, rest)) :
    (do
      let (item, after) ← first
      let (items, final) ← remaining after
      Except.ok (item :: items, final)) = ((item :: others).mapM answer).map (·, rest) := by
  rw [readsItem, List.mapM_cons]
  cases answer item with
  | error fault => rfl
  | ok read =>
    change (remaining middle).bind _ = _
    rw [readsOthers]
    cases others.mapM answer <;> rfl

/-- Items behind a comma each are read one after the other, up to the closing bracket. -/
theorem readItems_separated
    (reads : ∀ item ∈ items, ∀ rest, endsNumber rest = true →
      readItem (print item ++ rest) = (answer item).map (·, rest))
    (starts : ∀ item ∈ items, StartsItem (print item)) {bound : Nat}
    (enough : items.length < bound) (rest : Text) :
    readItems readItem bound false (items.flatMap (fun item => ',' :: print item) ++ ']' :: rest) =
      (items.mapM answer).map (·, rest) := by
  induction items generalizing bound with
  | nil =>
    obtain ⟨bound, rfl⟩ := Nat.exists_eq_succ_of_ne_zero (Nat.ne_of_gt enough)
    simp [readItems, skipBlanks_cons, isJsonBlank, pure, Except.pure, Except.map]
  | cons item others ih =>
    obtain ⟨bound, rfl⟩ := Nat.exists_eq_succ_of_ne_zero (Nat.ne_of_gt (Nat.zero_lt_of_lt enough))
    obtain ⟨first, printed, written, solid, noBracket⟩ := starts item List.mem_cons_self
    have ended : endsNumber (others.flatMap (fun item => ',' :: print item) ++ ']' :: rest) =
        true := by
      cases others <;> rfl
    have readsItem := reads item List.mem_cons_self _ ended
    have fewer : others.length < bound := by simpa using enough
    have readsOthers := ih (fun other member => reads other (List.mem_cons_of_mem _ member))
      (fun other member => starts other (List.mem_cons_of_mem _ member)) fewer
    rw [written, List.cons_append] at readsItem
    rw [List.flatMap_cons, written, List.cons_append, List.cons_append, List.append_assoc,
      readItems, skipBlanks_cons rfl, List.cons_append]
    simp only [skipBlanks_cons solid, noBracket, reduceIte, Char.reduceEq, Bool.false_eq_true]
    exact bind_readItems readsItem readsOthers

/-- The items of an array are read up to the closing bracket. -/
theorem readItems_print
    (reads : ∀ item ∈ items, ∀ rest, endsNumber rest = true →
      readItem (print item ++ rest) = (answer item).map (·, rest))
    (starts : ∀ item ∈ items, StartsItem (print item)) {bound : Nat}
    (enough : items.length < bound) (rest : Text) :
    readItems readItem bound true (separated print items ++ ']' :: rest) =
      (items.mapM answer).map (·, rest) := by
  cases items with
  | nil =>
    obtain ⟨bound, rfl⟩ := Nat.exists_eq_succ_of_ne_zero (Nat.ne_of_gt enough)
    simp [separated, readItems, skipBlanks_cons, isJsonBlank, pure, Except.pure, Except.map]
  | cons item others =>
    obtain ⟨bound, rfl⟩ := Nat.exists_eq_succ_of_ne_zero (Nat.ne_of_gt (Nat.zero_lt_of_lt enough))
    obtain ⟨first, printed, written, solid, noBracket⟩ := starts item List.mem_cons_self
    have ended : endsNumber (others.flatMap (fun item => ',' :: print item) ++ ']' :: rest) =
        true := by
      cases others <;> rfl
    have readsItem := reads item List.mem_cons_self _ ended
    have fewer : others.length < bound := by simpa using enough
    have readsOthers := readItems_separated
      (fun other member => reads other (List.mem_cons_of_mem _ member))
      (fun other member => starts other (List.mem_cons_of_mem _ member)) fewer rest
    rw [written, List.cons_append] at readsItem
    rw [separated, written, List.cons_append, List.cons_append, List.append_assoc, readItems,
      skipBlanks_cons solid]
    simp only [noBracket, reduceIte]
    exact bind_readItems readsItem readsOthers

end Items

/-- A member of an object as it is printed. -/
def printMember {β : Type} (print : β → Text) (member : Text × β) : Text :=
  quote member.1 ++ ':' :: print member.2

theorem printMember_append {β : Type} (print : β → Text) (key : Text) (value : β) (rest : Text) :
    printMember print (key, value) ++ rest =
      quote key ++ ':' :: (print value ++ rest) := by
  simp [printMember]

theorem printMember_ne_nil {β : Type} (print : β → Text) (member : Text × β) :
    printMember print member ≠ [] :=
  List.cons_ne_nil _ _

section Members

variable {σ β : Type} {step : σ → Text → Text → Except Fault (σ × Text)} {print : β → Text}
  {take : σ → Text → β → Except Fault σ} {members : List (Text × β)}

/-- The walk over the members ends at the closing brace. -/
theorem readMembers_close (bound : Nat) (first : Bool) (state : σ) (rest : Text) :
    readMembers step (bound + 1) first state ('\x7d' :: rest) = .ok (state, rest) := by
  simp [readMembers, skipBlanks_cons, isJsonBlank]

/-- The first member is taken into the state; the walk goes on behind it. -/
theorem readMembers_first (bound : Nat) (state : σ) (key text : Text) :
    readMembers step (bound + 1) true state (quote key ++ ':' :: text) =
      (step state key (':' :: text)).bind fun (next, after) =>
        readMembers step bound false next after := by
  have readsKey := readString_escape key (':' :: text)
  rw [quote_append, readMembers, skipBlanks_quote]
  simp only [reduceIte, Char.reduceEq, readsKey]
  rfl

/-- A member behind a comma is taken into the state; the walk goes on behind it. -/
theorem readMembers_next (bound : Nat) (state : σ) (key text : Text) :
    readMembers step (bound + 1) false state (',' :: (quote key ++ ':' :: text)) =
      (step state key (':' :: text)).bind fun (next, after) =>
        readMembers step bound false next after := by
  have readsKey := readString_escape key (':' :: text)
  rw [quote_append, readMembers, skipBlanks_cons rfl]
  simp only [skipBlanks_quote, reduceIte, Char.reduceEq, Bool.false_eq_true, readsKey]
  rfl

/-- Blanks in front of the members are passed over. -/
theorem readMembers_blanks {blanks : Text} (blank : ∀ char ∈ blanks, isJsonBlank char = true)
    (bound : Nat) (first : Bool) (state : σ) (text : Text) :
    readMembers step bound first state (blanks ++ text) =
      readMembers step bound first state text := by
  cases bound with
  | zero => rfl
  | succ bound => rw [readMembers, readMembers, skipBlanks_append blank]

/-- Blanks behind a comma are passed over. -/
theorem readMembers_comma_blanks {blanks : Text} (blank : ∀ char ∈ blanks, isJsonBlank char = true)
    (bound : Nat) (state : σ) (text : Text) :
    readMembers step bound false state (',' :: (blanks ++ text)) =
      readMembers step bound false state (',' :: text) := by
  cases bound with
  | zero => rfl
  | succ bound =>
    rw [readMembers, readMembers, skipBlanks_cons rfl, skipBlanks_cons rfl]
    simp only [skipBlanks_append blank, Char.reduceEq, Bool.false_eq_true, reduceIte]

/-- One member and the members behind it are taken into the state in order. -/
theorem bind_readMembers {state : σ} {key : Text} {value : β} {others : List (Text × β)}
    {text middle rest : Text} {remaining : σ → Text → Except Fault (σ × Text)}
    (readsValue : step state key text = (take state key value).map (·, middle))
    (readsOthers : ∀ next, remaining next middle =
      (others.foldlM (fun state member => take state member.1 member.2) next).map (·, rest)) :
    ((step state key text).bind fun (next, after) => remaining next after) =
      (((key, value) :: others).foldlM (fun state member => take state member.1 member.2)
        state).map (·, rest) := by
  rw [readsValue, List.foldlM_cons]
  cases take state key value with
  | error fault => rfl
  | ok next => exact readsOthers next

section Spaced

variable {gap closing : Text} (blank : ∀ char ∈ gap, isJsonBlank char = true)
  (blankClosing : ∀ char ∈ closing, isJsonBlank char = true)
  (reads : ∀ member ∈ members, ∀ state rest, endsNumber rest = true →
    step state member.1 (':' :: print member.2 ++ rest) =
      (take state member.1 member.2).map (·, rest))

include blank blankClosing reads

/-- Members behind a comma and blanks each are taken into the state in order, up to the closing
brace. -/
theorem readMembers_separated {bound : Nat} (enough : members.length < bound) (state : σ)
    (rest : Text) :
    readMembers step bound false state
        (members.flatMap (fun member => ',' :: (gap ++ printMember print member)) ++
          (closing ++ '\x7d' :: rest)) =
      (members.foldlM (fun state member => take state member.1 member.2) state).map
        (·, rest) := by
  induction members generalizing bound state with
  | nil =>
    obtain ⟨bound, rfl⟩ := Nat.exists_eq_succ_of_ne_zero (Nat.ne_of_gt enough)
    rw [List.flatMap_nil, List.nil_append, readMembers_blanks blankClosing]
    exact readMembers_close bound false state rest
  | cons member others ih =>
    obtain ⟨key, value⟩ := member
    obtain ⟨bound, rfl⟩ := Nat.exists_eq_succ_of_ne_zero (Nat.ne_of_gt (Nat.zero_lt_of_lt enough))
    have ended : endsNumber (others.flatMap
        (fun member => ',' :: (gap ++ printMember print member)) ++
          (closing ++ '\x7d' :: rest)) = true :=
      endsNumber_behindCommas (endsNumber_blanks blankClosing rfl) others
    have readsValue := reads (key, value) List.mem_cons_self state _ ended
    have fewer : others.length < bound := by simpa using enough
    have readsOthers := ih (fun other member => reads other (List.mem_cons_of_mem _ member)) fewer
    rw [List.flatMap_cons, List.append_assoc, List.cons_append, List.append_assoc,
      printMember_append, readMembers_comma_blanks blank, readMembers_next]
    exact bind_readMembers readsValue readsOthers

/-- The members of an object, with blanks in front of each, are taken into a state up to the closing
brace. -/
theorem readMembers_spaced {bound : Nat} (enough : members.length < bound) (state : σ)
    (rest : Text) :
    readMembers step bound true state
        (separated (fun member => gap ++ printMember print member) members ++
          (closing ++ '\x7d' :: rest)) =
      (members.foldlM (fun state member => take state member.1 member.2) state).map
        (·, rest) := by
  cases members with
  | nil =>
    obtain ⟨bound, rfl⟩ := Nat.exists_eq_succ_of_ne_zero (Nat.ne_of_gt enough)
    rw [separated, List.nil_append, readMembers_blanks blankClosing]
    exact readMembers_close bound true state rest
  | cons member others =>
    obtain ⟨key, value⟩ := member
    obtain ⟨bound, rfl⟩ := Nat.exists_eq_succ_of_ne_zero (Nat.ne_of_gt (Nat.zero_lt_of_lt enough))
    have ended : endsNumber (others.flatMap
        (fun member => ',' :: (gap ++ printMember print member)) ++
          (closing ++ '\x7d' :: rest)) = true :=
      endsNumber_behindCommas (endsNumber_blanks blankClosing rfl) others
    have readsValue := reads (key, value) List.mem_cons_self state _ ended
    have fewer : others.length < bound := by simpa using enough
    have readsOthers := fun next => readMembers_separated blank blankClosing
      (fun other member => reads other (List.mem_cons_of_mem _ member)) fewer next rest
    rw [separated, List.append_assoc, List.append_assoc, readMembers_blanks blank,
      printMember_append, readMembers_first]
    exact bind_readMembers readsValue readsOthers

end Spaced

/-- The members of an object are taken into a state up to the closing brace. -/
theorem readMembers_print
    (reads : ∀ member ∈ members, ∀ state rest, endsNumber rest = true →
      step state member.1 (':' :: print member.2 ++ rest) =
        (take state member.1 member.2).map (·, rest))
    {bound : Nat} (enough : members.length < bound) (state : σ) (rest : Text) :
    readMembers step bound true state
        (separated (printMember print) members ++ '\x7d' :: rest) =
      (members.foldlM (fun state member => take state member.1 member.2) state).map
        (·, rest) := by
  have noBlank : ∀ char ∈ ([] : Text), isJsonBlank char = true := by simp
  exact readMembers_spaced noBlank noBlank reads enough state rest

end Members

/-! ## Values -/

mutual

/-- The depth of arrays and objects in a value. -/
def depth : Json → Nat
  | .array items => itemsDepth items + 1
  | .object members => membersDepth members + 1
  | _ => 0

/-- The greatest depth of a list of items. -/
def itemsDepth : List Json → Nat
  | [] => 0
  | item :: others => max item.depth (itemsDepth others)

/-- The greatest depth of a list of members. -/
def membersDepth : List (Text × Json) → Nat
  | [] => 0
  | (_, value) :: others => max value.depth (membersDepth others)

end

mutual

/-- A value as data holds it in which no number is a fraction: integers are those of 64 bits, and
the members of an object are sorted by key, each key once. -/
def isWhole : Json → Bool
  | .number (.integer value) => decide (-(Nat.pow 2 63 : Int) ≤ value ∧ value ≤ greatestUnsigned)
  | .number (.double _) => false
  | .array items => itemsWhole items
  | .object members =>
    decide ((members.map Prod.fst).Pairwise (Text.isBefore · ·)) && membersWhole members
  | _ => true

/-- Items that are whole. -/
def itemsWhole : List Json → Bool
  | [] => true
  | item :: others => item.isWhole && itemsWhole others

/-- Members with values that are whole. -/
def membersWhole : List (Text × Json) → Bool
  | [] => true
  | (_, value) :: others => value.isWhole && membersWhole others

end

theorem renderItems_eq_separated (items : List Json) :
    renderItems items = separated render items := by
  induction items with
  | nil => rfl
  | cons item others ih =>
    cases others with
    | nil => simp [renderItems, separated]
    | cons next more => simp [renderItems, separated, ih]

theorem renderMembers_eq_separated (members : List (Text × Json)) :
    renderMembers members = separated (printMember render) members := by
  induction members with
  | nil => rfl
  | cons member others ih =>
    obtain ⟨key, value⟩ := member
    cases others with
    | nil => simp [renderMembers, separated, printMember]
    | cons next more => simp [renderMembers, separated, printMember, ih]

/-- The value, if its depth is within a bound. -/
def within (bound : Nat) (value : Json) : Except Fault Json :=
  if value.depth ≤ bound then .ok value else .error .tooDeep

theorem mapM_within (bound : Nat) (items : List Json) :
    items.mapM (within bound) =
      if itemsDepth items ≤ bound then .ok items else .error .tooDeep := by
  induction items with
  | nil => rfl
  | cons item others ih =>
    rw [List.mapM_cons, ih, itemsDepth, within]
    simp only [Nat.max_le]
    by_cases itemFits : item.depth ≤ bound <;> by_cases othersFit : itemsDepth others ≤ bound <;>
      simp [itemFits, othersFit, bind, Except.bind, pure, Except.pure]

/-- Reads the value of a member into the members read before. -/
def readMember (bound : Nat) (members : List (Text × Json)) (key afterKey : Text) :
    Except Fault (List (Text × Json) × Text) := do
  let (value, after) ← readValue bound (← afterColon afterKey)
  .ok (insertMember members key value, after)

/-- Takes the value of a member into the members read before, if its depth is within a bound. -/
def takeMember (bound : Nat) (members : List (Text × Json)) (key : Text) (value : Json) :
    Except Fault (List (Text × Json)) :=
  (value.within bound).map (insertMember members key ·)

/-- Members in order are taken behind members that are before all of them. -/
theorem foldlM_takeMember (bound : Nat) {taken members : List (Text × Json)}
    (sorted : ((taken ++ members).map Prod.fst).Pairwise (Text.isBefore · ·)) :
    members.foldlM (fun state member => takeMember bound state member.1 member.2) taken =
      if membersDepth members ≤ bound then .ok (taken ++ members) else .error .tooDeep := by
  induction members generalizing taken with
  | nil => simp [membersDepth, pure, Except.pure]
  | cons member others ih =>
    obtain ⟨key, value⟩ := member
    have before : ∀ other ∈ taken.map Prod.fst, other.isBefore key = true := by
      rw [List.map_append, List.pairwise_append] at sorted
      intro other member
      exact sorted.2.2 other member key (by simp)
    rw [List.foldlM_cons, membersDepth, takeMember, within]
    simp only [Nat.max_le]
    by_cases valueFits : value.depth ≤ bound
    · have sortedTaken : ((taken ++ [(key, value)] ++ others).map Prod.fst).Pairwise
          (Text.isBefore · ·) := by simpa using sorted
      have inserted := ih sortedTaken
      simp only [valueFits, if_true, true_and, Except.map, insertMember,
        Dictionary.insertEntry_append value before]
      change List.foldlM _ _ _ = _
      rw [inserted]
      simp
    · simp [valueFits, Except.map, bind, Except.bind]

theorem ne_of_isDigit {char : Char} (isDigit : char.isDigit = true) (other : Char)
    (noDigit : other.isDigit = false) : char ≠ other := by
  rintro rfl
  exact absurd isDigit (by simp [noDigit])

theorem isJsonBlank_of_isDigit {char : Char} (isDigit : char.isDigit = true) :
    isJsonBlank char = false := by
  simp [isJsonBlank, ne_of_isDigit isDigit ' ' rfl,
    ne_of_isDigit isDigit '\n' rfl, ne_of_isDigit isDigit '\t' rfl,
    ne_of_isDigit isDigit '\r' rfl]

/-- The form of a whole value starts with no blank and no closing bracket. -/
theorem startsItem_render {value : Json} (whole : value.isWhole = true) :
    StartsItem value.render := by
  cases value with
  | null => exact ⟨'n', _, rfl, rfl, by decide⟩
  | bool value => cases value <;> exact ⟨_, _, rfl, rfl, by decide⟩
  | number value =>
    cases value with
    | double bits => simp [isWhole] at whole
    | integer value =>
      obtain ⟨first, others, written, isDigit, _⟩ := ofNat_eq_cons value.natAbs
      simp only [render, renderScalar, Number.render, integerText, written]
      split
      · exact ⟨'-', _, rfl, rfl, by decide⟩
      · exact ⟨first, others, rfl, isJsonBlank_of_isDigit isDigit,
          ne_of_isDigit isDigit ']' rfl⟩
  | string value => exact ⟨'"', _, rfl, rfl, by decide⟩
  | array items => exact ⟨'[', _, rfl, rfl, by decide⟩
  | object members => exact ⟨'{', _, rfl, rfl, by decide⟩

/-- Integers of 64 bits are read from their digits. -/
theorem readNumber_integer {value : Int} (low : -(Nat.pow 2 63 : Int) ≤ value)
    (high : value ≤ greatestUnsigned) {rest : Text} (ended : endsNumber rest = true) :
    readNumber (decide (0 ≤ value)) (Text.ofNat value.natAbs ++ rest) =
      .ok (.integer value, rest) := by
  have fits : value.natAbs ≤ greatestUnsigned := by
    have : Nat.pow 2 63 ≤ greatestUnsigned := by decide
    omega
  rw [readNumber_ofNat fits ended, readFraction_of_endsNumber ended]
  by_cases positive : 0 ≤ value
  · simp [positive, Int.natAbs_of_nonneg positive]
  · have small : 1 ≤ value.natAbs ∧ value.natAbs ≤ Nat.pow 2 63 := by omega
    have opposite : -(value.natAbs : Int) = value := by omega
    simp only [positive, small, opposite, decide_true, decide_false, Bool.and_self, reduceIte,
      Bool.false_eq_true]

theorem isWhole_of_mem {item : Json} {items : List Json} (whole : itemsWhole items = true)
    (member : item ∈ items) : item.isWhole = true := by
  induction items with
  | nil => simp at member
  | cons first others ih =>
    simp only [itemsWhole, Bool.and_eq_true] at whole
    rcases List.mem_cons.mp member with rfl | later
    · exact whole.1
    · exact ih whole.2 later

theorem isWhole_of_mem_members {entry : Text × Json} {members : List (Text × Json)}
    (whole : membersWhole members = true) (member : entry ∈ members) :
    entry.2.isWhole = true := by
  induction members with
  | nil => simp at member
  | cons first others ih =>
    simp only [membersWhole, Bool.and_eq_true] at whole
    rcases List.mem_cons.mp member with rfl | later
    · exact whole.1
    · exact ih whole.2 later

theorem sizeOf_lt_array {item : Json} {items : List Json} (member : item ∈ items) :
    sizeOf item < sizeOf (array items) := by
  have smaller := List.sizeOf_lt_of_mem member
  simp only [Json.array.sizeOf_spec]
  omega

theorem sizeOf_lt_object {entry : Text × Json} {members : List (Text × Json)}
    (member : entry ∈ members) : sizeOf entry.2 < sizeOf (object members) := by
  obtain ⟨key, value⟩ := entry
  have smaller := List.sizeOf_lt_of_mem member
  simp only [Prod.mk.sizeOf_spec] at smaller
  simp only [Json.object.sizeOf_spec]
  omega

theorem afterColon_cons (rest : Text) : afterColon (':' :: rest) = .ok rest := by
  simp [afterColon, skipBlanks_cons, isJsonBlank]

theorem readValue_integer {value : Int} (low : -(Nat.pow 2 63 : Int) ≤ value)
    (high : value ≤ greatestUnsigned) (bound : Nat) {rest : Text}
    (ended : endsNumber rest = true) :
    readValue bound (integerText value ++ rest) = .ok (.number (.integer value), rest) := by
  have readsNumber := readNumber_integer low high ended
  rw [integerText]
  by_cases negative : value < 0
  · have notPositive : decide (0 ≤ value) = false := by simpa using negative
    rw [notPositive] at readsNumber
    rw [if_pos negative, List.cons_append, readValue, skipBlanks_cons rfl]
    simp [readsNumber, Except.map]
  · have positive : decide (0 ≤ value) = true := by simpa using negative
    rw [positive] at readsNumber
    obtain ⟨first, others, written, isDigit, _⟩ := ofNat_eq_cons value.natAbs
    rw [if_neg negative]
    rw [written, List.cons_append] at readsNumber ⊢
    rw [readValue, skipBlanks_cons (isJsonBlank_of_isDigit isDigit)]
    simp only [ne_of_isDigit isDigit 'n' rfl, ne_of_isDigit isDigit 't' rfl,
      ne_of_isDigit isDigit 'f' rfl, ne_of_isDigit isDigit '-' rfl, isDigit,
      reduceIte, readsNumber]
    simp [Except.map]

/-- An array is read back unless it is too deep if its items are, one level deeper. -/
theorem readValue_array {items : List Json} (starts : ∀ item ∈ items, StartsItem item.render)
    (reads : ∀ bound, ∀ item ∈ items, ∀ rest, endsNumber rest = true →
      readValue bound (item.render ++ rest) = (item.within bound).map (·, rest))
    (bound : Nat) (rest : Text) :
    readValue bound ((array items).render ++ rest) =
      ((array items).within bound).map (·, rest) := by
  have enough : items.length < (separated render items ++ ']' :: rest).length + 1 := by
    have := length_le_separated fun item member => StartsItem.ne_nil (starts item member)
    simp only [List.length_append]
    omega
  rw [render, renderItems_eq_separated, List.append_assoc, List.append_assoc, readValue,
    List.singleton_append, skipBlanks_cons rfl]
  simp only [List.singleton_append, reduceIte, Char.reduceEq, Char.reduceIsDigit,
    Bool.false_eq_true]
  cases bound with
  | zero => simp [within, depth, Except.map]
  | succ bound =>
    change Except.map _ (readItems (readValue bound) _ _ _) = _
    rw [readItems_print (reads bound) starts enough, mapM_within]
    simp only [within, depth, Nat.add_le_add_iff_right]
    split <;> rfl

/-- An object with sorted members is read back unless it is too deep if the values of its members
are, one level deeper. -/
theorem readValue_object {members : List (Text × Json)}
    (sorted : (members.map Prod.fst).Pairwise (Text.isBefore · ·))
    (reads : ∀ bound, ∀ member ∈ members, ∀ rest, endsNumber rest = true →
      readValue bound (member.2.render ++ rest) = (member.2.within bound).map (·, rest))
    (bound : Nat) (rest : Text) :
    readValue bound ((object members).render ++ rest) =
      ((object members).within bound).map (·, rest) := by
  have enough : members.length <
      (separated (printMember render) members ++ '\x7d' :: rest).length + 1 := by
    have := length_le_separated fun member (_ : member ∈ members) =>
      printMember_ne_nil render member
    simp only [List.length_append]
    omega
  rw [render, renderMembers_eq_separated, List.append_assoc, List.append_assoc, readValue,
    List.singleton_append, skipBlanks_cons rfl]
  simp only [List.singleton_append, reduceIte, Char.reduceEq, Char.reduceIsDigit,
    Bool.false_eq_true]
  cases bound with
  | zero => simp [within, depth, Except.map]
  | succ bound =>
    have readsMember : ∀ member ∈ members, ∀ state rest, endsNumber rest = true →
        readMember bound state member.1 (':' :: member.2.render ++ rest) =
          (takeMember bound state member.1 member.2).map (·, rest) := by
      intro member isMember state rest ended
      rw [readMember, List.cons_append, afterColon_cons]
      change (readValue bound (member.2.render ++ rest)).bind _ = _
      rw [reads bound member isMember rest ended, takeMember]
      cases member.2.within bound <;> rfl
    change Except.map _ (readMembers (readMember bound) _ _ _ _) = _
    rw [readMembers_print readsMember enough, foldlM_takeMember bound (by simpa using sorted)]
    simp only [within, depth, Nat.add_le_add_iff_right, List.nil_append]
    split <;> rfl

/-- A whole value is read back from its compact form unless it is too deep. -/
theorem readValue_render {value : Json} (whole : value.isWhole = true) (bound : Nat)
    {rest : Text} (ended : endsNumber rest = true) :
    readValue bound (value.render ++ rest) = (value.within bound).map (·, rest) := by
  match value with
  | .null =>
    simp [render, renderScalar, readValue, skipBlanks_cons, isJsonBlank, readWord, Except.map,
      within, depth]
  | .bool true =>
    simp [render, renderScalar, readValue, skipBlanks_cons, isJsonBlank, readWord, Except.map,
      within, depth]
  | .bool false =>
    simp [render, renderScalar, readValue, skipBlanks_cons, isJsonBlank, readWord, Except.map,
      within, depth]
  | .number (.double bits) => simp [isWhole] at whole
  | .number (.integer value) =>
    simp only [isWhole, decide_eq_true_eq] at whole
    simp [render, renderScalar, Number.render, readValue_integer whole.1 whole.2 bound ended,
      within, depth, Except.map]
  | .string value =>
    simp [render, renderScalar, quote, readValue, skipBlanks_cons, isJsonBlank, Except.map, within,
      depth]
  | .array items =>
    rw [isWhole] at whole
    apply readValue_array
    · intro item member
      exact startsItem_render (isWhole_of_mem whole member)
    · intro bound item member rest ended
      exact readValue_render (isWhole_of_mem whole member) bound ended
  | .object members =>
    simp only [isWhole, Bool.and_eq_true, decide_eq_true_eq] at whole
    apply readValue_object whole.1
    intro bound member isMember rest ended
    exact readValue_render (isWhole_of_mem_members whole.2 isMember) bound ended
termination_by sizeOf value
decreasing_by
  · exact sizeOf_lt_array member
  · exact sizeOf_lt_object isMember

end MdxBuild.Json

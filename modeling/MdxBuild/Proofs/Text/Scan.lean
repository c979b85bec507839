import MdxBuild.Proofs.Text.Line

/-!
# Searching at line starts

A search at line starts goes on behind what it has found, so it passes over the line starts inside.
Nothing is lost by this if whatever begins at these yields the same thing as the form around it, and
what is found comes in the order of the text if each form holds the place of what it yields.
-/

namespace MdxBuild.Text

variable {α : Type} {find : Text → Option (α × Nat)} {isStart : Bool} {skip length : Nat}
  {text before rest : Text} {found : α}

/-! ## Line starts -/

/-- A line begins behind `before`; `isStart` tells whether one begins in front of it. -/
def startsLine (isStart : Bool) : Text → Bool
  | [] => isStart
  | char :: rest => startsLine (char = '\n') rest

theorem startsLine_eq_endsLine (isStart : Bool) {char : Char} :
    startsLine isStart (char :: rest) = endsLine (char :: rest) := by
  rw [startsLine]
  induction rest generalizing char with
  | nil => rw [startsLine, endsLine, List.getLast?_singleton, Option.some_beq_some, beq_eq_decide]
  | cons next rest ih =>
    rw [startsLine, ih, endsLine, endsLine, List.getLast?_cons_cons]

theorem startsLine_append (isStart : Bool) (first second : Text) :
    startsLine isStart (first ++ second) = startsLine (startsLine isStart first) second := by
  induction first generalizing isStart with
  | nil => rfl
  | cons char rest ih => exact ih _

theorem startsLine_iff : startsLine true before = true ↔ IsComplete before := by
  cases before with
  | nil => exact iff_of_true rfl isComplete_nil
  | cons char rest =>
    rw [startsLine_eq_endsLine, isComplete_iff, List.isEmpty_cons, Bool.false_or]

/-! ## What is found -/

/-- `find` yields something at a line start of the text, in front of `rest`. -/
structure YieldsAt (find : Text → Option (α × Nat)) (text rest : Text) (found : α) : Prop where
  isRest : ∃ before, text = before ++ rest ∧ IsComplete before
  isFound : ∃ length, find rest = some (found, length)

theorem atLineStartsFrom_map {β : Type} (change : α → β) (isStart : Bool) (skip : Nat)
    (text : Text) :
    atLineStartsFrom (fun rest => (find rest).map (Prod.map change id)) isStart skip text =
      (atLineStartsFrom find isStart skip text).map change := by
  fun_induction atLineStartsFrom find isStart skip text with
  | case1 => simp only [atLineStartsFrom, List.map_nil]
  | case2 isStart skip char rest ih => rw [atLineStartsFrom, ih]
  | case3 char rest ih => rw [atLineStartsFrom, ih]
  | case4 char rest found length isFound ih =>
    rw [atLineStartsFrom, isFound, Option.map_some, List.map_cons, ← ih]
    rfl
  | case5 char rest notFound ih => rw [atLineStartsFrom, notFound, Option.map_none, ih]

/-- The search changes what it yields where its form does. -/
theorem atLineStarts_map {β : Type} (change : α → β) (text : Text) :
    atLineStarts (fun rest => (find rest).map (Prod.map change id)) text =
      (atLineStarts find text).map change :=
  atLineStartsFrom_map change true 0 text

/-- What a search has found begins at a line start, behind the characters to be passed over. -/
theorem exists_of_mem_atLineStartsFrom (member : found ∈ atLineStartsFrom find isStart skip text) :
    ∃ before rest length, text = before ++ rest ∧ skip ≤ before.length ∧
      startsLine isStart before = true ∧ find rest = some (found, length) := by
  fun_induction atLineStartsFrom find isStart skip text with
  | case1 => cases member
  | case2 isStart skip char rest ih =>
    obtain ⟨before, last, length, rfl, passed, starts, isFound⟩ := ih member
    exact ⟨char :: before, last, length, rfl, Nat.succ_le_succ passed, starts, isFound⟩
  | case3 char rest ih =>
    obtain ⟨before, last, length, rfl, -, starts, isFound⟩ := ih member
    exact ⟨char :: before, last, length, rfl, Nat.zero_le _, starts, isFound⟩
  | case4 char rest first length isFirst ih =>
    rcases List.mem_cons.mp member with rfl | member
    · exact ⟨[], char :: rest, length, rfl, Nat.le_refl 0, rfl, isFirst⟩
    · obtain ⟨before, last, length, rfl, -, starts, isFound⟩ := ih member
      exact ⟨char :: before, last, length, rfl, Nat.zero_le _, starts, isFound⟩
  | case5 char rest notFound ih =>
    obtain ⟨before, last, length, rfl, -, starts, isFound⟩ := ih member
    exact ⟨char :: before, last, length, rfl, Nat.zero_le _, starts, isFound⟩

/-- Whatever begins at a line start inside a form that `find` yields, yields the same. -/
def AgreesInside (find : Text → Option (α × Nat)) : Prop :=
  ∀ between rest outer inner length size, between.length < length → between ≠ [] →
    IsComplete between → find (between ++ rest) = some (outer, length) →
    find rest = some (inner, size) → inner = outer

/-- A search without loss: what begins at a line start is found there, or with the form around it. -/
theorem mem_atLineStartsFrom (agrees : AgreesInside find) (char : Char)
    (isFound : find (char :: rest) = some (found, length)) (passed : skip ≤ before.length)
    (starts : startsLine isStart before = true) :
    found ∈ atLineStartsFrom find isStart skip (before ++ char :: rest) := by
  induction before generalizing isStart skip with
  | nil =>
    obtain rfl : skip = 0 := Nat.le_zero.mp passed
    rw [startsLine] at starts
    rw [starts, List.nil_append, atLineStartsFrom, isFound]
    exact List.mem_cons_self
  | cons first before ih =>
    rw [List.cons_append]
    cases skip with
    | succ skip => exact ih (Nat.le_of_succ_le_succ passed) starts
    | zero =>
      cases isStart with
      | false => exact ih (Nat.zero_le _) starts
      | true =>
        rw [atLineStartsFrom]
        split
        · next outer reach isOuter =>
          by_cases isInside : reach - 1 ≤ before.length
          · exact List.mem_cons_of_mem outer (ih isInside starts)
          · have isSame : found = outer := by
              refine agrees (first :: before) (char :: rest) outer found reach length ?_
                (List.cons_ne_nil first before) (startsLine_iff.mp starts) isOuter isFound
              rw [List.length_cons]
              omega
            rw [isSame]
            exact List.mem_cons_self
        · exact ih (Nat.zero_le _) starts

/-- A search whose forms agree with those inside finds what begins at any line start. -/
theorem mem_atLineStarts_iff (agrees : AgreesInside find) (notAtEnd : find [] = none) :
    found ∈ atLineStarts find text ↔ ∃ rest, YieldsAt find text rest found := by
  constructor
  · intro member
    obtain ⟨before, rest, length, rfl, -, starts, isFound⟩ := exists_of_mem_atLineStartsFrom member
    exact ⟨rest, ⟨before, rfl, startsLine_iff.mp starts⟩, length, isFound⟩
  · rintro ⟨rest, ⟨before, rfl, complete⟩, length, isFound⟩
    cases rest with
    | nil =>
      rw [notAtEnd] at isFound
      cases isFound
    | cons char rest =>
      exact mem_atLineStartsFrom agrees char isFound (Nat.zero_le _) (startsLine_iff.mpr complete)

/-! ## The order of what is found -/

/-- The place of what is found lies inside the form; places are counted from the end of the text. -/
def HoldsPlace (find : Text → Option (α × Nat)) (place : α → Nat) : Prop :=
  ∀ text found length, find text = some (found, length) →
    place found ≤ text.length ∧ text.length < place found + length

theorem place_le_of_mem {place : α → Nat} (holds : HoldsPlace find place)
    (member : found ∈ atLineStartsFrom find isStart skip text) :
    place found + skip ≤ text.length := by
  obtain ⟨before, rest, length, rfl, passed, -, isFound⟩ := exists_of_mem_atLineStartsFrom member
  have inForm := (holds rest found length isFound).1
  rw [List.length_append]
  omega

theorem pairwise_atLineStartsFrom {place : α → Nat} (holds : HoldsPlace find place)
    (isStart : Bool) (skip : Nat) (text : Text) :
    (atLineStartsFrom find isStart skip text).Pairwise (place · > place ·) := by
  fun_induction atLineStartsFrom find isStart skip text with
  | case1 => exact .nil
  | case2 isStart skip char rest ih => exact ih
  | case3 char rest ih => exact ih
  | case4 char rest found length isFound ih =>
    refine List.pairwise_cons.mpr ⟨fun other member => ?_, ih⟩
    have inForm := holds _ found length isFound
    have isBehind := place_le_of_mem holds member
    rw [List.length_cons] at inForm
    omega
  | case5 char rest notFound ih => exact ih

/-- What is found comes in the order of its places. -/
theorem pairwise_atLineStarts {place : α → Nat} (holds : HoldsPlace find place) (text : Text) :
    (atLineStarts find text).Pairwise (place · > place ·) :=
  pairwise_atLineStartsFrom holds true 0 text

/-! ## Searches of parts -/

/-- The text behind its first line. -/
def behindFirstLine (text : Text) : Text :=
  (lines text).tail.flatten

@[simp]
theorem behindFirstLine_nil : behindFirstLine [] = [] :=
  rfl

theorem behindFirstLine_newline (rest : Text) : behindFirstLine ('\n' :: rest) = rest := by
  rw [behindFirstLine, lines_newline_cons, List.tail_cons, flatten_lines]

theorem behindFirstLine_cons {char : Char} (noBreak : char ≠ '\n') (rest : Text) :
    behindFirstLine (char :: rest) = behindFirstLine rest := by
  rw [behindFirstLine, lines, if_neg noBreak]
  split
  · next noLine =>
    rw [lines_eq_nil_iff.mp noLine]
    rfl
  · next line others isLines => rw [behindFirstLine, isLines, List.tail_cons, List.tail_cons]

/-- Behind a line of its own stands whatever was put there. -/
theorem behindFirstLine_append {first : Text} (complete : IsComplete first)
    (isLine : lines first = [first]) (second : Text) :
    behindFirstLine (first ++ second) = second := by
  rw [behindFirstLine, lines_append complete, isLine, List.singleton_append, List.tail_cons,
    flatten_lines]

/-- From the middle of a line, a search goes on at the next one. -/
theorem atLineStartsFrom_false (find : Text → Option (α × Nat)) (text : Text) :
    atLineStartsFrom find false 0 text = atLineStarts find (behindFirstLine text) := by
  induction text with
  | nil => rfl
  | cons char rest ih =>
    rw [atLineStartsFrom]
    by_cases isBreak : char = '\n'
    · rw [decide_eq_true isBreak, isBreak, behindFirstLine_newline, atLineStarts]
    · rw [decide_eq_false isBreak, behindFirstLine_cons isBreak, ih]

/-- A search passes over a line at which nothing begins. -/
theorem atLineStarts_of_eq_none (notFound : find text = none) :
    atLineStarts find text = atLineStarts find (behindFirstLine text) := by
  cases text with
  | nil => rfl
  | cons char rest =>
    rw [← atLineStartsFrom_false, atLineStarts, atLineStartsFrom, atLineStartsFrom, notFound]

/-- Forms lie inside the text. -/
def IsBounded (find : Text → Option (α × Nat)) : Prop :=
  ∀ text found length, find text = some (found, length) → length ≤ text.length

/-- Whether something begins at a line start of the first text does not depend on the second one
behind it. -/
def IsApart (find : Text → Option (α × Nat)) (isStart : Bool) (first second : Text) : Prop :=
  ∀ before rest, first = before ++ rest → rest ≠ [] → startsLine isStart before = true →
    find (rest ++ second) = find rest

theorem IsApart.of_cons {char : Char} {first second : Text}
    (apart : IsApart find isStart (char :: first) second) :
    IsApart find (char = '\n') first second := by
  intro before rest isSplit nonempty starts
  apply apart (char :: before) rest _ nonempty starts
  rw [isSplit, List.cons_append]

theorem atLineStartsFrom_append {first second : Text} (bounded : IsBounded find)
    (apart : IsApart find isStart first second) (passed : skip ≤ first.length) :
    atLineStartsFrom find isStart skip (first ++ second) =
      atLineStartsFrom find isStart skip first ++
        atLineStartsFrom find (startsLine isStart first) 0 second := by
  induction first generalizing isStart skip with
  | nil =>
    rw [List.length_nil, Nat.le_zero] at passed
    rw [passed, startsLine, List.nil_append, atLineStartsFrom, List.nil_append]
  | cons char rest ih =>
    rw [List.cons_append, startsLine]
    cases skip with
    | succ skip =>
      rw [atLineStartsFrom, atLineStartsFrom]
      exact ih apart.of_cons (Nat.le_of_succ_le_succ passed)
    | zero =>
      cases isStart with
      | false =>
        rw [atLineStartsFrom, atLineStartsFrom]
        exact ih apart.of_cons (Nat.zero_le _)
      | true =>
        have same : find (char :: (rest ++ second)) = find (char :: rest) :=
          apart [] (char :: rest) rfl (List.cons_ne_nil char rest) rfl
        rw [atLineStartsFrom, atLineStartsFrom, same]
        cases isFound : find (char :: rest) with
        | none => exact ih apart.of_cons (Nat.zero_le _)
        | some form =>
          rcases form with ⟨found, length⟩
          have inside : length ≤ rest.length + 1 := bounded _ found length isFound
          exact congrArg (found :: ·) (ih apart.of_cons (Nat.sub_le_of_le_add inside))

/-- A search of complete lines that stand apart from what follows. -/
theorem atLineStarts_append {first second : Text} (bounded : IsBounded find)
    (apart : IsApart find true first second) (complete : IsComplete first) :
    atLineStarts find (first ++ second) = atLineStarts find first ++ atLineStarts find second := by
  rw [atLineStarts, atLineStartsFrom_append bounded apart (Nat.zero_le _),
    startsLine_iff.mpr complete]
  rfl

/-- In one line a search finds what begins the line. -/
theorem atLineStarts_of_line (notAtEnd : find [] = none) (isLine : lines text = [text]) :
    atLineStarts find text = ((find text).map Prod.fst).toList := by
  cases isFound : find text with
  | none =>
    rw [atLineStarts_of_eq_none isFound, behindFirstLine, isLine]
    rfl
  | some form =>
    rcases form with ⟨found, length⟩
    cases text with
    | nil => cases isLine
    | cons char rest =>
      rw [atLineStarts, atLineStartsFrom, isFound]
      apply congrArg (found :: ·)
      rw [List.eq_nil_iff_forall_not_mem]
      intro later member
      rcases exists_of_mem_atLineStartsFrom member with
        ⟨before, last, size, rfl, -, starts, isLater⟩
      have complete : IsComplete (char :: before) := startsLine_iff.mp starts
      have nonempty : last ≠ [] := by
        rintro rfl
        rw [notAtEnd] at isLater
        cases isLater
      cases eq_nil_of_lines_append isLine complete nonempty

end MdxBuild.Text

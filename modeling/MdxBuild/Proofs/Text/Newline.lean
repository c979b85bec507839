import MdxBuild.Proofs.Digest.Content
import MdxBuild.Proofs.Text.Scan

/-!
# Line breaks of two characters

`withReturns` is the copy of a text for platforms that end lines with a carriage return and a line
feed. Lines, contents and endings of the copy are those of the text, and unifying its line breaks
gives the text back. `Returned` relates texts of which the second has carriage returns that the
first one lacks; there an empty line may do without.
-/

namespace MdxBuild.Text

variable {text first second line : Text} {others : List Text} {char : Char}

/-! ## The copy of a text -/

/-- The text with a carriage return in front of every line feed. -/
def withReturns (text : Text) : Text :=
  text.flatMap fun char => if char = '\n' then ['\r', '\n'] else [char]

@[simp]
theorem withReturns_nil : withReturns [] = [] :=
  rfl

@[simp]
theorem withReturns_append (first second : Text) :
    withReturns (first ++ second) = withReturns first ++ withReturns second :=
  List.flatMap_append

theorem withReturns_newline_cons (rest : Text) :
    withReturns ('\n' :: rest) = '\r' :: '\n' :: withReturns rest :=
  rfl

theorem withReturns_cons (noBreak : char ≠ '\n') (rest : Text) :
    withReturns (char :: rest) = char :: withReturns rest := by
  rw [withReturns, List.flatMap_cons, if_neg noBreak]
  rfl

theorem withReturns_of_notMem (noBreak : '\n' ∉ text) : withReturns text = text := by
  induction text with
  | nil => rfl
  | cons char rest ih =>
    rw [List.mem_cons, not_or] at noBreak
    rw [withReturns_cons (Ne.symm noBreak.1), ih noBreak.2]

theorem flatten_map_withReturns (all : List Text) :
    (all.map withReturns).flatten = withReturns all.flatten := by
  induction all with
  | nil => rfl
  | cons line others ih => rw [List.map_cons, List.flatten_cons, ih, List.flatten_cons,
      withReturns_append]

/-- The lines of the copy are the copies of the lines. -/
theorem lines_withReturns (text : Text) :
    lines (withReturns text) = (lines text).map withReturns := by
  induction text with
  | nil => rfl
  | cons char rest ih =>
    by_cases isBreak : char = '\n'
    · rw [isBreak, withReturns_newline_cons, lines_newline_cons,
        lines_cons_of_cons (by decide) (lines_newline_cons _), ih]
      rfl
    · rw [withReturns_cons isBreak]
      cases isLines : lines rest with
      | nil =>
        rw [lines_eq_nil_iff.mp isLines, withReturns_nil, lines, if_neg isBreak, lines_nil,
          List.map_singleton, withReturns_cons isBreak, withReturns_nil]
      | cons line others =>
        rw [isLines, List.map_cons] at ih
        rw [lines_cons_of_cons isBreak isLines, lines_cons_of_cons isBreak ih, List.map_cons,
          withReturns_cons isBreak]

theorem getLast?_withReturns (text : Text) : (withReturns text).getLast? = text.getLast? := by
  cases text using List.reverseRecOn with
  | nil => rfl
  | append_singleton text char =>
    rw [withReturns_append, List.getLast?_concat]
    by_cases isBreak : char = '\n'
    · rw [isBreak, withReturns_newline_cons, withReturns_nil, List.getLast?_append_of_ne_nil]
      · rfl
      · exact List.cons_ne_nil _ _
    · rw [withReturns_cons isBreak, withReturns_nil, List.getLast?_concat]

theorem endsLine_withReturns (text : Text) : endsLine (withReturns text) = endsLine text := by
  rw [endsLine, getLast?_withReturns, endsLine]

/-- The copy of a line has the content of the line. -/
theorem content_withReturns (areLines : AreLines (line :: others)) :
    content (withReturns line) = content line := by
  cases areLines with
  | last _ _ noBreak => rw [withReturns_of_notMem noBreak]
  | line body _ noBreak =>
    rw [withReturns_append, withReturns_of_notMem noBreak]
    have returned : ∀ char ∈ withReturns ['\n'], isLineBreak char = true :=
      List.all_eq_true.mp (by decide)
    have plain : ∀ char ∈ ['\n'], isLineBreak char = true := List.all_eq_true.mp (by decide)
    rw [content_append returned, content_append plain]

theorem ending_withReturns (areLines : AreLines (line :: others)) :
    ending (withReturns line) = withReturns (ending line) := by
  have isCopy : withReturns line = content line ++ withReturns (ending line) := by
    rw [← withReturns_of_notMem areLines.of_cons.2.1, ← withReturns_append, content_append_ending]
  have isSplit := content_append_ending (withReturns line)
  rw [content_withReturns areLines] at isSplit
  exact List.append_cancel_left (isSplit.trans isCopy)

theorem occursIn_append_left {part : Text} (front : Text) (occurs : occursIn part text = true) :
    occursIn part (front ++ text) = true := by
  induction front with
  | nil => exact occurs
  | cons char rest ih => rw [List.cons_append, occursIn, ih, Bool.or_true]

/-- The copy of a text with line breaks has those of two characters. -/
theorem newlineOf_withReturns (hasBreak : '\n' ∈ text) :
    newlineOf (withReturns text) = ['\r', '\n'] := by
  rcases List.append_of_mem hasBreak with ⟨front, rest, rfl⟩
  rw [newlineOf, if_pos]
  rw [withReturns_append, withReturns_newline_cons]
  apply occursIn_append_left
  rfl

/-! ## Unified line breaks -/

/-- Line breaks are unified part by part, unless a cut goes through one. -/
theorem unifyNewlines_append (noReturn : first.getLast? ≠ some '\r') (second : Text) :
    unifyNewlines (first ++ second) = unifyNewlines first ++ unifyNewlines second := by
  fun_induction unifyNewlines first with
  | case1 => rfl
  | case2 rest ih =>
    rw [List.cons_append, List.cons_append, unifyNewlines, List.cons_append, ih]
    intro isReturn
    apply noReturn
    rw [List.getLast?_cons, List.getLast?_cons, isReturn]
    rfl
  | case3 char rest notBreak ih =>
    rw [List.cons_append, unifyNewlines, List.cons_append, ih]
    · intro isReturn
      apply noReturn
      rw [List.getLast?_cons, isReturn]
      rfl
    · intro more isReturn isRest
      cases rest with
      | nil =>
        rw [isReturn] at noReturn
        exact noReturn rfl
      | cons next rest =>
        rw [List.cons_append, List.cons.injEq] at isRest
        exact notBreak rest isReturn (by rw [isRest.1])

theorem unifyNewlines_cons_ne_nil (char : Char) (rest : Text) :
    unifyNewlines (char :: rest) ≠ [] := by
  unfold unifyNewlines
  split <;> simp_all

theorem IsComplete.unifyNewlines (complete : IsComplete text) :
    IsComplete (Text.unifyNewlines text) := by
  fun_induction Text.unifyNewlines text with
  | case1 => exact isComplete_nil
  | case2 rest ih => exact .append (isComplete_concat []) (ih complete.of_cons.of_cons)
  | case3 char rest notBreak ih =>
    cases rest with
    | nil =>
      rcases complete with isNil | isBreak
      · cases isNil
      · obtain rfl : char = '\n' := Option.some.inj isBreak
        exact isComplete_concat []
    | cons next others =>
      rcases ih complete.of_cons with isNil | isBreak
      · exact absurd isNil (unifyNewlines_cons_ne_nil next others)
      · exact .inr (by rw [List.getLast?_cons, isBreak]; rfl)

/-- The last two lines of a text are those of its form with unified line breaks. -/
theorem lines_unifyNewlines {front body last : Text} (complete : IsComplete front)
    (plainBody : '\r' ∉ body) (plainLast : '\r' ∉ last) (noBreakBody : '\n' ∉ body)
    (noBreakLast : '\n' ∉ last) :
    lines (unifyNewlines (front ++ (body ++ ['\n'] ++ (last ++ ['\n'])))) =
      lines (unifyNewlines front) ++ [body ++ ['\n'], last ++ ['\n']] := by
  have noReturn : front.getLast? ≠ some '\r' := by
    rcases complete with rfl | isBreak
    · simp
    · rw [isBreak]
      decide
  have plain : '\r' ∉ body ++ ['\n'] ++ (last ++ ['\n']) := by
    simp [plainBody, plainLast]
  rw [unifyNewlines_append noReturn, unifyNewlines_of_notMem plain,
    lines_append complete.unifyNewlines, List.append_assoc, List.singleton_append,
    lines_append_newline noBreakBody, lines_append_newline noBreakLast, lines_nil]

/-- Unifying its line breaks turns the copy back. -/
theorem unifyNewlines_withReturns (plain : '\r' ∉ text) :
    unifyNewlines (withReturns text) = text := by
  induction text with
  | nil => rfl
  | cons char rest ih =>
    rw [List.mem_cons, not_or] at plain
    by_cases isBreak : char = '\n'
    · rw [isBreak, withReturns_newline_cons, unifyNewlines, ih plain.2]
    · rw [withReturns_cons isBreak, unifyNewlines, if_neg (Ne.symm plain.1), ih plain.2]
      rintro _ rfl
      exact absurd rfl plain.1

/-! ## Texts with some of the returns -/

/-- The second text has carriage returns in front of line feeds of the first one. An empty line may
do without; `isStart` tells whether a line begins in front of the texts. -/
inductive Returned : Bool → Text → Text → Prop
  | nil (isStart : Bool) : Returned isStart [] []
  | char (isStart : Bool) (char : Char) (first second : Text) (noBreak : isLineBreak char = false)
      (rest : Returned false first second) : Returned isStart (char :: first) (char :: second)
  | returned (isStart : Bool) (first second : Text) (rest : Returned true first second) :
      Returned isStart ('\n' :: first) ('\r' :: '\n' :: second)
  | kept (first second : Text) (rest : Returned true first second) :
      Returned true ('\n' :: first) ('\n' :: second)

theorem isLineBreak_eq_false (noBreak : char ≠ '\n') (noReturn : char ≠ '\r') :
    isLineBreak char = false := by
  rw [isLineBreak, decide_eq_false noBreak, decide_eq_false noReturn]
  rfl

theorem decide_eq_newline (noBreak : isLineBreak char = false) : decide (char = '\n') = false := by
  apply decide_eq_false
  rintro rfl
  cases noBreak

theorem Returned.append {isStart : Bool} {third fourth : Text}
    (front : Returned isStart first second)
    (rest : Returned (startsLine isStart first) third fourth) :
    Returned isStart (first ++ third) (second ++ fourth) := by
  induction front with
  | nil isStart => exact rest
  | char isStart char first second noBreak _ ih =>
    have isOther := decide_eq_newline noBreak
    rw [startsLine, isOther] at rest
    exact .char isStart char _ _ noBreak (ih rest)
  | returned isStart first second _ ih => exact .returned isStart _ _ (ih rest)
  | kept first second _ ih => exact .kept _ _ (ih rest)

theorem returned_withReturns (plain : '\r' ∉ text) (isStart : Bool) :
    Returned isStart text (withReturns text) := by
  induction text generalizing isStart with
  | nil => exact .nil isStart
  | cons char rest ih =>
    rw [List.mem_cons, not_or] at plain
    by_cases isBreak : char = '\n'
    · subst isBreak
      exact .returned isStart _ _ (ih plain.2 true)
    · rw [withReturns_cons isBreak]
      exact .char isStart char _ _ (isLineBreak_eq_false isBreak (Ne.symm plain.1)) (ih plain.2 false)

/-! ## Parts of such texts -/

section Parts

variable {isStart : Bool} {front rest : Text}

theorem Returned.subset (returned : Returned isStart first second) : first ⊆ second := by
  induction returned with
  | nil => exact List.Subset.refl []
  | char _ char _ _ _ _ ih => exact List.cons_subset_cons char ih
  | returned _ _ _ _ ih =>
    exact List.Subset.trans (List.cons_subset_cons '\n' ih) (List.subset_cons_self _ _)
  | kept _ _ _ ih => exact List.cons_subset_cons '\n' ih

/-- Only carriage returns come in. -/
theorem Returned.mem_or_eq (returned : Returned isStart first second) (member : char ∈ second) :
    char ∈ first ∨ char = '\r' := by
  induction returned with
  | nil => cases member
  | char _ other _ _ _ _ ih =>
    rcases List.mem_cons.mp member with rfl | member
    · exact .inl List.mem_cons_self
    · exact (ih member).imp_left (List.mem_cons_of_mem other)
  | returned _ _ _ _ ih =>
    rcases List.mem_cons.mp member with rfl | member
    · exact .inr rfl
    rcases List.mem_cons.mp member with rfl | member
    · exact .inl List.mem_cons_self
    · exact (ih member).imp_left (List.mem_cons_of_mem '\n')
  | kept _ _ _ ih =>
    rcases List.mem_cons.mp member with rfl | member
    · exact .inl List.mem_cons_self
    · exact (ih member).imp_left (List.mem_cons_of_mem '\n')

theorem Returned.length_le (returned : Returned isStart first second) :
    first.length ≤ second.length := by
  induction returned with
  | nil => exact Nat.le_refl 0
  | char _ _ _ _ _ _ ih => exact Nat.succ_le_succ ih
  | returned _ _ _ _ ih => exact Nat.le_succ_of_le (Nat.succ_le_succ ih)
  | kept _ _ _ ih => exact Nat.succ_le_succ ih

/-- Inside a line nothing comes in. -/
theorem Returned.eq_of_notMem (returned : Returned isStart first second)
    (noBreak : '\n' ∉ first) : second = first := by
  induction returned with
  | nil => rfl
  | char _ char _ _ _ _ ih => rw [ih fun member => noBreak (List.mem_cons_of_mem char member)]
  | returned => exact absurd List.mem_cons_self noBreak
  | kept => exact absurd List.mem_cons_self noBreak

theorem Returned.eq_of_notMem_returned (returned : Returned isStart first second)
    (noBreak : '\n' ∉ second) : second = first :=
  returned.eq_of_notMem fun member => noBreak (returned.subset member)

/-- Behind the start of a line, the first line feed has a carriage return in front of it. -/
theorem Returned.length_lt (returned : Returned false first second) (isBroken : '\n' ∈ first) :
    first.length < second.length := by
  generalize inLine : false = isStart at returned
  induction returned with
  | nil => cases isBroken
  | char _ char _ _ noBreak _ ih =>
    rcases List.mem_cons.mp isBroken with rfl | isBroken
    · cases noBreak
    · exact Nat.succ_lt_succ (ih isBroken rfl)
  | returned _ _ _ returned _ => exact Nat.succ_lt_succ (Nat.lt_succ_of_le returned.length_le)
  | kept => cases inLine

theorem Returned.getLast?_eq (returned : Returned isStart first second) :
    second.getLast? = first.getLast? := by
  induction returned with
  | nil => rfl
  | char _ _ _ _ _ _ ih => rw [List.getLast?_cons, ih, List.getLast?_cons]
  | returned _ _ _ _ ih => rw [List.getLast?_cons_cons, List.getLast?_cons, ih, List.getLast?_cons]
  | kept _ _ _ ih => rw [List.getLast?_cons, ih, List.getLast?_cons]

theorem Returned.startsLine_eq (returned : Returned isStart first second) :
    startsLine isStart second = startsLine isStart first := by
  induction returned with
  | nil => rfl
  | char _ char _ _ noBreak _ ih =>
    have isOther := decide_eq_newline noBreak
    rw [startsLine, isOther, ih, startsLine, isOther]
  | returned _ _ _ _ ih => exact ih
  | kept _ _ _ ih => exact ih

theorem Returned.of_cons (returned : Returned isStart (char :: first) second)
    (noBreak : isLineBreak char = false) :
    ∃ rest, second = char :: rest ∧ Returned false first rest := by
  cases returned with
  | char _ _ _ rest _ returned => exact ⟨rest, rfl, returned⟩
  | returned => cases noBreak
  | kept => cases noBreak

theorem Returned.of_cons_returned (returned : Returned isStart first (char :: second))
    (noBreak : isLineBreak char = false) :
    ∃ rest, first = char :: rest ∧ Returned false rest second := by
  cases returned with
  | char _ _ rest _ _ returned => exact ⟨rest, rfl, returned⟩
  | returned => cases noBreak
  | kept => cases noBreak

/-- A cut of the first text cuts the second one. -/
theorem Returned.exists_of_append (returned : Returned isStart (front ++ rest) second) :
    ∃ frontReturned restReturned, second = frontReturned ++ restReturned ∧
      Returned isStart front frontReturned ∧
      Returned (startsLine isStart front) rest restReturned := by
  induction front generalizing isStart second with
  | nil => exact ⟨[], second, rfl, .nil isStart, returned⟩
  | cons first front ih =>
    cases returned with
    | char _ char _ second noBreak returned =>
      have isOther := decide_eq_newline noBreak
      rcases ih returned with ⟨frontReturned, restReturned, rfl, isFront, isRest⟩
      rw [← isOther] at isRest
      exact ⟨first :: frontReturned, restReturned, rfl, .char _ _ _ _ noBreak isFront, isRest⟩
    | returned _ _ second returned =>
      rcases ih returned with ⟨frontReturned, restReturned, rfl, isFront, isRest⟩
      exact ⟨'\r' :: '\n' :: frontReturned, restReturned, rfl, .returned _ _ _ isFront, isRest⟩
    | kept _ second returned =>
      rcases ih returned with ⟨frontReturned, restReturned, rfl, isFront, isRest⟩
      exact ⟨'\n' :: frontReturned, restReturned, rfl, .kept _ _ isFront, isRest⟩

/-- A cut of the second text cuts the first one, unless it goes through a line break. -/
theorem Returned.exists_of_append_right (returned : Returned isStart first (front ++ rest))
    (uncut : front.getLast? = some '\r' → rest.head? ≠ some '\n') :
    ∃ frontPlain restPlain, first = frontPlain ++ restPlain ∧ Returned isStart frontPlain front ∧
      Returned (startsLine isStart frontPlain) restPlain rest := by
  generalize isSecond : front ++ rest = second at returned
  have uncutBehind {char : Char} {behind : Text}
      (uncut : (char :: behind).getLast? = some '\r' → rest.head? ≠ some '\n') :
      behind.getLast? = some '\r' → rest.head? ≠ some '\n' := by
    intro isReturn
    apply uncut
    rw [List.getLast?_cons, isReturn]
    rfl
  induction returned generalizing front with
  | nil isStart =>
    rcases List.append_eq_nil_iff.mp isSecond with ⟨rfl, rfl⟩
    exact ⟨[], [], rfl, .nil isStart, .nil isStart⟩
  | char isStart char first second noBreak returned ih =>
    rcases List.append_eq_cons_iff.mp isSecond with ⟨rfl, rfl⟩ | ⟨front, rfl, isBehind⟩
    · exact ⟨[], char :: first, rfl, .nil isStart, .char _ _ _ _ noBreak returned⟩
    have isOther := decide_eq_newline noBreak
    rcases ih (uncutBehind uncut) isBehind.symm with ⟨frontPlain, restPlain, rfl, isFront, isRest⟩
    rw [← isOther] at isRest
    exact ⟨char :: frontPlain, restPlain, rfl, .char _ _ _ _ noBreak isFront, isRest⟩
  | returned isStart first second returned ih =>
    rcases List.append_eq_cons_iff.mp isSecond with ⟨rfl, rfl⟩ | ⟨front, rfl, isBehind⟩
    · exact ⟨[], '\n' :: first, rfl, .nil isStart, .returned _ _ _ returned⟩
    rcases List.append_eq_cons_iff.mp isBehind.symm with ⟨rfl, rfl⟩ | ⟨front, rfl, isFurther⟩
    · exact absurd rfl (uncut rfl)
    rcases ih (uncutBehind (uncutBehind uncut)) isFurther.symm with
      ⟨frontPlain, restPlain, rfl, isFront, isRest⟩
    exact ⟨'\n' :: frontPlain, restPlain, rfl, .returned _ _ _ isFront, isRest⟩
  | kept first second returned ih =>
    rcases List.append_eq_cons_iff.mp isSecond with ⟨rfl, rfl⟩ | ⟨front, rfl, isBehind⟩
    · exact ⟨[], '\n' :: first, rfl, .nil true, .kept _ _ returned⟩
    rcases ih (uncutBehind uncut) isBehind.symm with ⟨frontPlain, restPlain, rfl, isFront, isRest⟩
    exact ⟨'\n' :: frontPlain, restPlain, rfl, .kept _ _ isFront, isRest⟩

end Parts

/-! ## Searches of such texts -/

section Searches

variable {α : Type} {find findReturned : Text → Option (α × Nat)}

/-- At the start of both texts begins the same, or nothing. -/
inductive FoundAlike (find findReturned : Text → Option (α × Nat)) : Text → Text → Prop
  | none (first second : Text) (notFound : find first = none)
      (notReturned : findReturned second = none) : FoundAlike find findReturned first second
  | found (form formReturned rest restReturned : Text) (found : α) (nonempty : form ≠ [])
      (returned : Returned true form formReturned)
      (returnedRest : Returned (startsLine true form) rest restReturned)
      (isFound : find (form ++ rest) = some (found, form.length))
      (isReturned : findReturned (formReturned ++ restReturned) =
        some (found, formReturned.length)) :
      FoundAlike find findReturned (form ++ rest) (formReturned ++ restReturned)

theorem atLineStartsFrom_passed (find : Text → Option (α × Nat)) (isStart : Bool)
    (front rest : Text) :
    atLineStartsFrom find isStart front.length (front ++ rest) =
      atLineStartsFrom find (startsLine isStart front) 0 rest := by
  induction front generalizing isStart with
  | nil => rfl
  | cons char front ih =>
    rw [List.length_cons, List.cons_append, atLineStartsFrom, ih, startsLine]

theorem atLineStartsFrom_of_notFound {isStart : Bool} {char : Char} {rest : Text}
    (notFound : isStart = true → find (char :: rest) = none) :
    atLineStartsFrom find isStart 0 (char :: rest) =
      atLineStartsFrom find (char = '\n') 0 rest := by
  cases isStart with
  | false => rw [atLineStartsFrom]
  | true => rw [atLineStartsFrom, notFound rfl]

/-- Behind a form the search goes on. -/
theorem atLineStartsFrom_of_found {form rest : Text} {found : α} (nonempty : form ≠ [])
    (isFound : find (form ++ rest) = some (found, form.length)) :
    atLineStartsFrom find true 0 (form ++ rest) =
      found :: atLineStartsFrom find (startsLine true form) 0 rest := by
  cases form with
  | nil => exact absurd rfl nonempty
  | cons char form =>
    rw [List.cons_append] at isFound ⊢
    rw [atLineStartsFrom, isFound]
    exact congrArg (found :: ·) (atLineStartsFrom_passed find _ form rest)

/-- If the same begins at the start of texts that differ in carriage returns, then searches of these
texts find the same. -/
theorem atLineStarts_returned
    (alike : ∀ first second, Returned true first second → FoundAlike find findReturned first second)
    (returned : Returned true first second) :
    atLineStarts find first = atLineStarts findReturned second := by
  have each (size : Nat) : ∀ isStart first second, first.length = size →
      Returned isStart first second →
      atLineStartsFrom find isStart 0 first = atLineStartsFrom findReturned isStart 0 second := by
    induction size using Nat.strongRecOn with
    | ind size ih =>
      intro isStart first second isSize returned
      by_cases begins : isStart = true ∧ (find first).isSome = true
      · rcases begins with ⟨rfl, isFound⟩
        cases alike first second returned with
        | none _ _ notFound =>
          rw [notFound] at isFound
          cases isFound
        | found form formReturned rest restReturned found nonempty returnedForm returnedRest isForm
            isReturned =>
          have shorter : rest.length < size := by
            have counted := List.length_pos_iff.mpr nonempty
            rw [List.length_append] at isSize
            omega
          have nonemptyReturned : formReturned ≠ [] := by
            rintro rfl
            exact nonempty (List.length_eq_zero_iff.mp (Nat.le_zero.mp returnedForm.length_le))
          rw [atLineStartsFrom_of_found nonempty isForm,
            atLineStartsFrom_of_found nonemptyReturned isReturned, returnedForm.startsLine_eq,
            ih rest.length shorter _ rest restReturned rfl returnedRest]
      · have notFound : isStart = true → find first = none ∧ findReturned second = none := by
          rintro rfl
          cases alike first second returned with
          | none _ _ notFound notReturned => exact ⟨notFound, notReturned⟩
          | found _ _ _ _ _ _ _ _ isFound => exact absurd ⟨rfl, isFound ▸ rfl⟩ begins
        cases returned with
        | nil => rfl
        | char _ char first second noBreak returned =>
          have isOther := decide_eq_newline noBreak
          rw [atLineStartsFrom_of_notFound fun starts => (notFound starts).1,
            atLineStartsFrom_of_notFound fun starts => (notFound starts).2, isOther]
          exact ih first.length (isSize ▸ Nat.lt_succ_self _) false first second rfl returned
        | returned _ first second returned =>
          rw [atLineStartsFrom_of_notFound fun starts => (notFound starts).1,
            atLineStartsFrom_of_notFound fun starts => (notFound starts).2]
          exact ih first.length (isSize ▸ Nat.lt_succ_self _) true first second rfl returned
        | kept first second returned =>
          rw [atLineStartsFrom_of_notFound fun starts => (notFound starts).1,
            atLineStartsFrom_of_notFound fun starts => (notFound starts).2]
          exact ih first.length (isSize ▸ Nat.lt_succ_self _) true first second rfl returned
  exact each _ true first second rfl returned

end Searches

end MdxBuild.Text

import MdxBuild.Proofs.Import.Inventory
import MdxBuild.Proofs.Text.Newline

/-!
# Import statements across line breaks of two characters

The blanks of a head may hold line breaks. With carriage returns in front of its line feeds, a head
stays a head, and one more form becomes one: two blanks, one of them a line feed, in front of the
word `from`. The blanks are then three, so there is a clause among them.
-/

namespace MdxBuild.Import

open Text

variable {text between betweenReturned before first second rest restReturned specifier after : Text}
  {isStart : Bool}

/-! ## Heads -/

/-- Two blanks in front of the word `from`, one of them a line feed. -/
def IsBrokenHead (between : Text) : Prop :=
  ∃ before last, between = before ++ ("from".toList ++ last) ∧ before.length = 2 ∧
    allBlank before = true ∧ '\n' ∈ before ∧ allBlank last = true

/-- A head, once its line feeds have carriage returns. -/
def IsReturnedHead (between : Text) : Prop :=
  IsHead between ∨ IsBrokenHead between

/-- The reader's test for heads of two blanks. -/
def isBrokenHead (between : Text) : Bool :=
  (after? "from".toList.reverse (trimEnd between).reverse).any fun reversed =>
    reversed.length = 2 && allBlank reversed && reversed.contains '\n'

/-- The reader's test for heads that may lack carriage returns. -/
def isReturnedHead (between : Text) : Bool :=
  isStatementHead between || isBrokenHead between

theorem isBrokenHead_iff : IsBrokenHead between ↔ isBrokenHead between = true := by
  have blank_reverse (text : Text) : allBlank text.reverse = allBlank text := List.all_reverse
  rw [isBrokenHead, Option.any_eq_true]
  simp only [after?_eq_some_iff, List.reverse_eq_append_iff, List.reverse_reverse,
    trimEnd_eq_append_from_iff, Bool.and_eq_true, decide_eq_true_eq, List.contains_iff_mem]
  constructor
  · rintro ⟨before, last, rfl, short, blank, broken, blankLast⟩
    refine ⟨before.reverse, ⟨last, by rw [List.reverse_reverse], blankLast⟩, ⟨?_, ?_⟩, ?_⟩
    · rwa [List.length_reverse]
    · rwa [blank_reverse]
    · rwa [List.mem_reverse]
  · rintro ⟨reversed, ⟨last, rfl, blankLast⟩, ⟨short, blank⟩, broken⟩
    refine ⟨reversed.reverse, last, rfl, ?_, ?_, ?_, blankLast⟩
    · rwa [List.length_reverse]
    · rwa [blank_reverse]
    · rwa [List.mem_reverse]

theorem all_isClauseChar_of_isBrokenHead (isBroken : IsBrokenHead between) :
    between.all isClauseChar = true := by
  rcases isBroken with ⟨before, last, rfl, -, blank, -, blankLast⟩
  rw [List.all_append, List.all_append, all_isClauseChar_of_allBlank blank,
    all_isClauseChar_of_allBlank blankLast]
  decide

theorem decides_isBrokenHead : Decides isBrokenHead IsBrokenHead := by
  intro between
  rw [← isBrokenHead_iff]
  exact ⟨fun isBroken => ⟨all_isClauseChar_of_isBrokenHead isBroken, isBroken⟩, And.right⟩

theorem decides_isReturnedHead : Decides isReturnedHead IsReturnedHead := by
  intro between
  rw [IsReturnedHead, decides_isStatementHead, decides_isBrokenHead, isReturnedHead,
    Bool.or_eq_true, and_or_left]

theorem all_returned {inClass : Char → Bool} (inReturn : inClass '\r' = true)
    (returned : Returned isStart first second) : second.all inClass = first.all inClass := by
  rw [Bool.eq_iff_iff, List.all_eq_true, List.all_eq_true]
  constructor
  · exact fun all char member => all char (returned.subset member)
  · intro all char member
    rcases returned.mem_or_eq member with member | rfl
    · exact all char member
    · exact inReturn

theorem head?_any_isBlank_returned (returned : Returned isStart first second) :
    second.head?.any isBlank = first.head?.any isBlank := by
  cases returned <;> rfl

/-- Behind the start of a line, carriage returns make a text of two characters one of three. -/
theorem three_le_length_returned_iff (returned : Returned false first second) :
    3 ≤ second.length ↔ 3 ≤ first.length ∨ (first.length = 2 ∧ '\n' ∈ first) := by
  by_cases isBroken : '\n' ∈ first
  · have longer := returned.length_lt isBroken
    have nonempty := List.length_pos_of_mem isBroken
    constructor
    · intro long
      by_cases single : first.length = 1
      · rcases List.length_eq_one_iff.mp single with ⟨char, rfl⟩
        obtain rfl := List.mem_singleton.mp isBroken
        cases returned with
        | char _ _ _ _ noBreak => cases noBreak
        | returned _ _ _ none =>
          cases none
          exact absurd long (by decide)
      · have long : 3 ≤ first.length ∨ first.length = 2 := by omega
        exact long.imp_right fun short => ⟨short, isBroken⟩
    · rintro (long | ⟨short, -⟩) <;> omega
  · rw [returned.eq_of_notMem isBroken]
    exact ⟨.inl, fun long => long.resolve_right fun broken => isBroken broken.2⟩

/-- With carriage returns, a clause between blanks stays one, and two blanks with a line feed become
one. -/
theorem isSpacedClause_returned_iff (returned : Returned false first second) :
    IsSpacedClause second ↔ IsSpacedClause first ∨
      (first.length = 2 ∧ allBlank first = true ∧ '\n' ∈ first) := by
  rw [isSpacedClause_iff, isSpacedClause_iff, all_returned (by decide) returned,
    three_le_length_returned_iff returned, head?_any_isBlank_returned returned,
    returned.getLast?_eq]
  constructor
  · rintro ⟨isClause, long | ⟨short, isBroken⟩, opens, closes⟩
    · exact .inl ⟨isClause, long, opens, closes⟩
    · rcases List.length_eq_two.mp short with ⟨start, stop, rfl⟩
      refine .inr ⟨rfl, ?_, isBroken⟩
      rw [allBlank, List.all_cons, List.all_cons, List.all_nil, Bool.and_true, Bool.and_eq_true]
      exact ⟨opens, closes⟩
  · rintro (⟨isClause, long, opens, closes⟩ | ⟨short, blank, isBroken⟩)
    · exact ⟨isClause, .inl long, opens, closes⟩
    · refine ⟨all_isClauseChar_of_allBlank blank, .inr ⟨short, isBroken⟩, ?_⟩
      rcases List.length_eq_two.mp short with ⟨start, stop, rfl⟩
      rw [allBlank, List.all_cons, List.all_cons, List.all_nil, Bool.and_true,
        Bool.and_eq_true] at blank
      exact blank

/-- What a head becomes with carriage returns. -/
theorem isHead_returned_iff (returned : Returned false between betweenReturned) :
    IsHead betweenReturned ↔ IsReturnedHead between := by
  have blank_iff {isStart : Bool} {first second : Text} (returned : Returned isStart first second) :
      allBlank second = allBlank first := all_returned (by decide) returned
  constructor
  · rintro (⟨before, last, rfl, spaced, blank⟩ | blank)
    · have uncut : ("from".toList ++ last).head? ≠ some '\n' := by
        rw [List.head?_append_of_ne_nil _ (by decide)]
        decide
      rcases returned.exists_of_append_right fun _ => uncut with
        ⟨beforePlain, restPlain, rfl, isBefore, returnedRest⟩
      have noReturn : "from".toList.getLast? ≠ some '\r' := by decide
      rcases returnedRest.exists_of_append_right fun isReturn => absurd isReturn noReturn with
        ⟨word, lastPlain, rfl, isWord, isLast⟩
      rw [blank_iff isLast] at blank
      rw [← isWord.eq_of_notMem_returned (by decide)]
      rcases (isSpacedClause_returned_iff isBefore).mp spaced with
        spacedPlain | ⟨short, blankBefore, isBroken⟩
      · exact .inl (.inl ⟨beforePlain, lastPlain, rfl, spacedPlain, blank⟩)
      · exact .inr ⟨beforePlain, lastPlain, rfl, short, blankBefore, isBroken, blank⟩
    · exact .inl (.inr ((blank_iff returned).symm.trans blank))
  · have clause {before last : Text}
        (returned : Returned false (before ++ ("from".toList ++ last)) betweenReturned)
        (spaced : IsSpacedClause before ∨
          (before.length = 2 ∧ allBlank before = true ∧ '\n' ∈ before))
        (blank : allBlank last = true) : IsHead betweenReturned := by
      rcases returned.exists_of_append with ⟨beforeReturned, rest, rfl, isBefore, returnedRest⟩
      rcases returnedRest.exists_of_append with ⟨word, lastReturned, rfl, isWord, isLast⟩
      rw [isWord.eq_of_notMem (by decide)]
      exact .inl ⟨beforeReturned, lastReturned, rfl,
        (isSpacedClause_returned_iff isBefore).mpr spaced, (blank_iff isLast).trans blank⟩
    rintro ((⟨before, last, rfl, spaced, blank⟩ | blank) |
      ⟨before, last, rfl, short, blankBefore, isBroken, blank⟩)
    · exact clause returned (.inl spaced) blank
    · exact .inr ((blank_iff returned).trans blank)
    · exact clause returned (.inr ⟨short, blankBefore, isBroken⟩) blank

/-! ## Statements -/

theorem not_isLineBreak_of_isQuote {quote : Char} (opens : isQuote quote = true) :
    isLineBreak quote = false := by
  rw [isQuote, Bool.or_eq_true, decide_eq_true_eq, decide_eq_true_eq] at opens
  rcases opens with rfl | rfl <;> decide

theorem head?_ne_newline {char : Char} (noBreak : isLineBreak char = false) (rest : Text) :
    (char :: rest).head? ≠ some '\n' := by
  intro isBreak
  rw [Option.some.inj isBreak] at noBreak
  cases noBreak

theorem newline_notMem_of_all_isSpaceOrTab {indent : Text}
    (indented : indent.all isSpaceOrTab = true) : '\n' ∉ indent :=
  fun member => absurd (List.all_eq_true.mp indented _ member) (by decide)

/-- With carriage returns, a text that begins with the word `import`, a head and a quote still begins
so. -/
theorem exists_head?_returned (returned : Returned true first second)
    (isRead : head? first = some (between, rest)) :
    ∃ lead leadReturned betweenReturned restReturned, first = lead ++ rest ∧
      second = leadReturned ++ restReturned ∧ lead ≠ [] ∧ Returned true lead leadReturned ∧
      startsLine true lead = false ∧ Returned false rest restReturned ∧
      Returned false between betweenReturned ∧
      head? second = some (betweenReturned, restReturned) := by
  rcases head?_eq_some_iff.mp isRead with ⟨isClause, indent, quote, rfl, indented, opens⟩
  have noBreak := not_isLineBreak_of_isQuote opens
  rcases returned.exists_of_append with ⟨indentReturned, afterIndent, rfl, isIndent, returned⟩
  rcases returned.exists_of_append with ⟨word, afterImport, rfl, isWord, returned⟩
  rcases returned.exists_of_append with ⟨betweenReturned, afterHead, rfl, isBetween, returned⟩
  rcases returned.of_cons noBreak with ⟨restReturned, rfl, isRest⟩
  obtain rfl := isIndent.eq_of_notMem (newline_notMem_of_all_isSpaceOrTab indented)
  obtain rfl := isWord.eq_of_notMem (by decide)
  have isQuote : Returned (startsLine false between) [quote] [quote] :=
    .char _ quote [] [] noBreak (.nil false)
  refine ⟨indentReturned ++ ("import".toList ++ (between ++ [quote])),
    indentReturned ++ ("import".toList ++ (betweenReturned ++ [quote])), betweenReturned,
    restReturned, ?_, ?_, ?_, isIndent.append (isWord.append (isBetween.append isQuote)), ?_,
    isRest, isBetween, head?_eq_some_iff.mpr ⟨?_, indentReturned, quote, rfl, indented, opens⟩⟩
  · simp only [List.append_assoc, List.singleton_append]
  · simp only [List.append_assoc, List.singleton_append]
  · simp
  · rw [← List.append_assoc, ← List.append_assoc, startsLine_append]
    exact decide_eq_newline noBreak
  · exact (all_returned (by decide) isBetween).trans isClause

/-- Carriage returns do not make a text begin with the word `import`, a head and a quote. -/
theorem head?_returned_eq_none (returned : Returned true first second)
    (notRead : head? first = none) : head? second = none := by
  rw [Option.eq_none_iff_forall_ne_some]
  rintro ⟨betweenReturned, restReturned⟩ isRead
  rcases head?_eq_some_iff.mp isRead with ⟨isClause, indent, quote, rfl, indented, opens⟩
  have noBreak := not_isLineBreak_of_isQuote opens
  have uncut : indent.getLast? = some '\r' →
      ("import".toList ++ (betweenReturned ++ quote :: restReturned)).head? ≠ some '\n' := by
    intro _
    rw [List.head?_append_of_ne_nil _ (by decide)]
    decide
  rcases returned.exists_of_append_right uncut with ⟨indentPlain, afterIndent, rfl, isIndent, returned⟩
  have noReturn : "import".toList.getLast? ≠ some '\r' := by decide
  rcases returned.exists_of_append_right fun isReturn => absurd isReturn noReturn with
    ⟨word, afterImport, rfl, isWord, returned⟩
  rcases returned.exists_of_append_right fun _ => head?_ne_newline noBreak restReturned with
    ⟨between, afterHead, rfl, isBetween, returned⟩
  rcases returned.of_cons_returned noBreak with ⟨rest, rfl, -⟩
  obtain rfl := isIndent.eq_of_notMem_returned (newline_notMem_of_all_isSpaceOrTab indented)
  obtain rfl := isWord.eq_of_notMem_returned (by decide)
  rw [all_returned (by decide) isBetween] at isClause
  rw [head?_eq_some_iff.mpr ⟨isClause, indent, quote, rfl, indented, opens⟩] at notRead
  cases notRead

/-- What carriage returns leave of a specifier at the start of a text. -/
theorem exists_specifier?_returned (returned : Returned false first second)
    (isRead : specifier? first = some (specifier, rest)) :
    ∃ form restReturned, first = form ++ rest ∧ second = form ++ restReturned ∧
      Returned false form form ∧ startsLine false form = false ∧
      Returned false rest restReturned ∧ specifier? second = some (specifier, restReturned) := by
  rcases specifier?_eq_some_iff.mp isRead with ⟨isSpecifier, quote, rfl, closes⟩
  have noBreak := not_isLineBreak_of_isQuote closes
  rcases returned.exists_of_append with ⟨specifierReturned, after, rfl, isSame, returned⟩
  rcases returned.of_cons noBreak with ⟨restReturned, rfl, isRest⟩
  obtain rfl := isSame.eq_of_notMem fun member => (isSpecifier.2 _ member).2 rfl
  refine ⟨specifierReturned ++ [quote], restReturned, ?_, ?_,
    isSame.append (.char _ quote [] [] noBreak (.nil false)), ?_, isRest,
    specifier?_eq_some_iff.mpr ⟨isSpecifier, quote, rfl, closes⟩⟩
  · rw [List.append_assoc, List.singleton_append]
  · rw [List.append_assoc, List.singleton_append]
  · rw [startsLine_append]
    exact decide_eq_newline noBreak

theorem specifier?_returned_eq_none (returned : Returned false first second)
    (notRead : specifier? first = none) : specifier? second = none := by
  rw [Option.eq_none_iff_forall_ne_some]
  rintro ⟨specifier, restReturned⟩ isRead
  rcases specifier?_eq_some_iff.mp isRead with ⟨isSpecifier, quote, rfl, closes⟩
  have noBreak := not_isLineBreak_of_isQuote closes
  rcases returned.exists_of_append_right fun _ => head?_ne_newline noBreak restReturned with
    ⟨specifierPlain, after, rfl, isSame, returned⟩
  rcases returned.of_cons_returned noBreak with ⟨rest, rfl, -⟩
  obtain rfl := isSame.eq_of_notMem_returned fun member => (isSpecifier.2 _ member).2 rfl
  rw [specifier?_eq_some_iff.mpr ⟨isSpecifier, quote, rfl, closes⟩] at notRead
  cases notRead

/-- The specifier of the import statement at the start of a text whose head has a form, and the
statement's length. -/
def statementBy? (isForm : Text → Bool) (text : Text) : Option (Text × Nat) :=
  (appearance? isForm text).map (Prod.map Appearance.specifier id)

theorem statementBy?_eq (isForm : Text → Bool) (text : Text) :
    statementBy? isForm text = (head? text).bind fun head =>
      if isForm head.1 = true then (specifier? head.2).map fun found =>
        (found.1, text.length - found.2.length)
      else none := by
  rw [statementBy?, appearance?]
  cases head? text with
  | none => rfl
  | some head =>
    simp only [Option.bind_eq_bind, Option.bind_some]
    split
    · rw [Option.map_bind]
      cases specifier? head.2 <;> rfl
    · rfl

theorem isStatementHead_returned (returned : Returned false between betweenReturned)
    (isClause : between.all isClauseChar = true) :
    isStatementHead betweenReturned = isReturnedHead between := by
  have isClauseReturned := (all_returned (by decide) returned).trans isClause
  have sameHead := isHead_returned_iff returned
  rw [decides_isStatementHead, decides_isReturnedHead, and_iff_right isClauseReturned,
    and_iff_right isClause] at sameHead
  exact Bool.eq_iff_iff.mpr sameHead

/-- With its carriage returns, a text begins with the same statement. -/
theorem foundAlike_statementBy? (returned : Returned true first second) :
    FoundAlike (statementBy? isReturnedHead) (statementBy? isStatementHead) first second := by
  cases isRead : head? first with
  | none =>
    have notRead := head?_returned_eq_none returned isRead
    apply FoundAlike.none
    · rw [statementBy?_eq, isRead, Option.bind_none]
    · rw [statementBy?_eq, notRead, Option.bind_none]
  | some head =>
    rcases head with ⟨between, rest⟩
    have isClause := (head?_eq_some_iff.mp isRead).1
    rcases exists_head?_returned returned isRead with ⟨lead, leadReturned, betweenReturned,
      restReturned, rfl, rfl, nonempty, isLead, inLine, isRest, isBetween, isReadReturned⟩
    have isFirst := statementBy?_eq isReturnedHead (lead ++ rest)
    have isSecond := statementBy?_eq isStatementHead (leadReturned ++ restReturned)
    rw [isRead, Option.bind_some] at isFirst
    rw [isReadReturned, Option.bind_some, isStatementHead_returned isBetween isClause] at isSecond
    dsimp only at isFirst isSecond
    by_cases isForm : isReturnedHead between = true
    · rw [if_pos isForm] at isFirst isSecond
      cases isSpecifier : specifier? rest with
      | none =>
        rw [isSpecifier] at isFirst
        rw [specifier?_returned_eq_none isRest isSpecifier] at isSecond
        exact .none _ _ isFirst isSecond
      | some found =>
        rcases found with ⟨specifier, after⟩
        rcases exists_specifier?_returned isRest isSpecifier with
          ⟨form, afterReturned, rfl, rfl, isSame, inSpecifier, isAfter, isSpecifierReturned⟩
        rw [isSpecifier, Option.map_some] at isFirst
        rw [isSpecifierReturned, Option.map_some] at isSecond
        rw [← List.append_assoc, List.length_append, Nat.add_sub_cancel] at isFirst isSecond
        rw [← List.append_assoc, ← List.append_assoc]
        have inLineBehind : startsLine true (lead ++ form) = false := by
          rw [startsLine_append, inLine, inSpecifier]
        apply FoundAlike.found _ _ _ _ specifier (List.append_ne_nil_of_left_ne_nil nonempty _)
        · exact isLead.append (inLine ▸ isSame)
        · exact inLineBehind ▸ isAfter
        · exact isFirst
        · exact isSecond
    · rw [if_neg isForm] at isFirst isSecond
      exact .none _ _ isFirst isSecond

/-- With its carriage returns, a text imports as if heads could lack them. -/
theorem specifiers_returned (returned : Returned true first second) :
    specifiers second =
      ((appearances isReturnedHead first).map Appearance.specifier).eraseDups := by
  have isSame := atLineStarts_returned (fun _ _ => foundAlike_statementBy?) returned
  rw [appearances, ← atLineStarts_map]
  rw [specifiers_eq, appearances, ← atLineStarts_map]
  exact congrArg List.eraseDups isSame.symm

theorem isListing_specifiers_returned (returned : Returned true first second) :
    IsListing IsReturnedHead first (specifiers second) := by
  rw [specifiers_returned returned]
  exact isListing_appearances decides_isReturnedHead first

end MdxBuild.Import

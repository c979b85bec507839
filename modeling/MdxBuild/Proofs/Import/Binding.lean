import MdxBuild.Import.Binding
import MdxBuild.Proofs.Import.Statement

/-!
# Reading bindings

What import clauses bind is made of the characters of clauses. A text that cannot be the beginning
of an unfinished clause stands apart from what follows, so its bindings can be read on their own; and
a statement for one name, or for names between braces, binds these names.
-/

namespace MdxBuild.Import

open Text

variable {text before between rest clause name part first second : Text} {names : List Text}
  {found : Text} {length : Nat} {char : Char}

/-! ## The characters of bindings -/

theorem subset_intercalate (separator : Text) {parts : List Text} (member : part ∈ parts) :
    part ⊆ separator.intercalate parts := by
  induction parts with
  | nil => cases member
  | cons head others ih =>
    cases others with
    | nil =>
      obtain rfl := List.mem_singleton.mp member
      rw [List.intercalate_singleton]
      exact List.Subset.refl _
    | cons next others =>
      rw [List.intercalate_cons_cons]
      rcases List.mem_cons.mp member with rfl | member
      · rw [List.append_assoc]
        exact List.subset_append_left _ _
      · exact List.Subset.trans (ih member) (List.subset_append_right _ _)

theorem subset_of_mem_splitOn (member : part ∈ text.splitOn ',') : part ⊆ text := by
  have subset := subset_intercalate [','] member
  rwa [List.intercalate_splitOn] at subset

theorem append_of_splitLast? {after : Text} (isSplit : splitLast? part text = some (before, after)) :
    text = before ++ (part ++ after) := by
  induction text generalizing before with
  | nil =>
    rw [splitLast?, Option.ite_none_right_eq_some] at isSplit
    rcases isSplit with ⟨isNil, same⟩
    cases same
    rw [List.isEmpty_iff.mp isNil]
    rfl
  | cons char rest ih =>
    rw [splitLast?] at isSplit
    split at isSplit
    · next behind after isLast =>
      cases isSplit
      rw [ih isLast]
      rfl
    · rw [Option.map_eq_some_iff] at isSplit
      rcases isSplit with ⟨remainder, isHere, same⟩
      cases same
      rw [List.nil_append]
      exact after?_eq_some_iff.mp isHere

theorem subset_of_leadingClause? (isClause : leadingClause? text = some clause) :
    clause ⊆ text := by
  rw [leadingClause?, Option.ite_none_right_eq_some] at isClause
  rcases isClause with ⟨-, isClause⟩
  split at isClause
  · cases isClause
    exact List.take_subset 1 text
  · cases isClause
    exact subset_trimEnd text

theorem subset_of_afterBlanks? {attempt : Text → Option Text}
    (subset : ∀ text clause, attempt text = some clause → clause ⊆ text)
    (isClause : afterBlanks? attempt text = some clause) : clause ⊆ text := by
  induction text with
  | nil => cases isClause
  | cons char rest ih =>
    rw [afterBlanks?, Option.ite_none_right_eq_some] at isClause
    rcases isClause with ⟨-, isClause⟩
    have inRest : clause ⊆ rest := by
      split at isClause
      · next later isLater => exact ih (isLater.trans isClause)
      · exact subset rest clause isClause
    exact List.subset_cons_of_subset char inRest

theorem subset_of_clause? (isClause : clause? before = some clause) : clause ⊆ before := by
  apply subset_of_afterBlanks? _ isClause
  intro text clause isAttempt
  split at isAttempt
  · next typed isTyped =>
    cases isAttempt
    rcases Option.bind_eq_some_iff.mp isTyped with ⟨behind, isBehind, isLeading⟩
    exact List.Subset.trans
      (subset_of_afterBlanks? (fun _ _ => subset_of_leadingClause?) isLeading)
      (subset_of_after? isBehind)
  · exact subset_of_leadingClause? isAttempt

theorem clauseStatement?_eq_some_iff : clauseStatement? text = some (clause, length) ↔
    ∃ between rest before, head? text = some (between, rest) ∧ beforeFrom? between = some before ∧
      clause? before = some clause ∧ length = text.length - rest.length := by
  simp only [clauseStatement?, Option.bind_eq_bind, Option.bind_eq_some_iff, Prod.exists,
    Option.some.injEq, Prod.mk.injEq]
  constructor
  · rintro ⟨between, rest, isRead, before, isBefore, clause, isClause, rfl, rfl⟩
    exact ⟨between, rest, before, isRead, isBefore, isClause, rfl⟩
  · rintro ⟨between, rest, before, isRead, isBefore, isClause, rfl⟩
    exact ⟨between, rest, isRead, before, isBefore, clause, isClause, rfl, rfl⟩

/-- A clause is made of the characters of clauses. -/
theorem all_isClauseChar_of_clauseStatement? (isRead : clauseStatement? text = some (clause, length)) :
    clause.all isClauseChar = true := by
  rcases clauseStatement?_eq_some_iff.mp isRead with
    ⟨between, rest, before, isHead, isBefore, isClause, -⟩
  rcases (beforeFrom?_eq_some_iff.mp isBefore).1 with ⟨last, rfl, -⟩
  have all := (head?_eq_some_iff.mp isHead).1
  rw [List.all_append, Bool.and_eq_true, List.all_eq_true] at all
  exact List.all_eq_true.mpr fun char member => all.1 char (subset_of_clause? isClause member)

theorem subset_of_splitBraces (clause : Text) :
    (splitBraces clause).1 ⊆ clause ∧ ∀ named, (splitBraces clause).2 = some named →
      named ⊆ clause := by
  have isClause := List.takeWhile_append_dropWhile (p := (· != '{')) (l := clause)
  rw [splitBraces]
  split
  · exact ⟨List.Subset.refl _, fun _ isNone => by cases isNone⟩
  · next brace rest isRest =>
    rw [isRest] at isClause
    split
    · exact ⟨List.Subset.refl _, fun _ isNone => by cases isNone⟩
    · next named after isSplit =>
      rw [append_of_splitLast? isSplit] at isClause
      constructor
      · intro char member
        rw [← isClause]
        rcases List.mem_append.mp member with inFront | inBack
        · exact List.mem_append_left _ inFront
        · simp [inBack]
      · intro inner isInner char member
        obtain rfl : named = inner := Option.some.inj isInner
        rw [← isClause]
        simp [member]

theorem subset_of_outerBinding (isBinding : outerBinding part = some name) : name ⊆ part := by
  rw [outerBinding] at isBinding
  split at isBinding
  · cases isBinding
  · cases isBinding
    apply List.Subset.trans _ (subset_trim part)
    rw [lastWord, tailBy]
    intro char member
    exact List.mem_reverse.mp (List.takeWhile_subset _ (List.mem_reverse.mp member))

theorem subset_of_splitLast? {separator shown : Text}
    (isSplit : splitLast? separator text = some (before, shown)) : shown ⊆ text := by
  rw [append_of_splitLast? isSplit]
  exact List.Subset.trans (List.subset_append_right _ _) (List.subset_append_right _ _)

/-- The name in a part between the braces under which the module knows it. -/
def shownName (part : Text) : Text :=
  ((splitLast? " as ".toList (trim part)).map Prod.snd).getD (trim part)

/-- A name without the word `type` before it. -/
def untyped (shown : Text) : Text :=
  ((after? "type ".toList (trim shown)).map trim).getD (trim shown)

theorem namedBinding_eq (part : Text) : namedBinding part =
    if (untyped (shownName part)).isEmpty then none else some (untyped (shownName part)) := by
  rw [namedBinding, shownName]
  rcases Option.eq_none_or_eq_some (splitLast? " as ".toList (trim part)) with
    isSplit | ⟨found, isSplit⟩
  · rw [isSplit, Option.map_none, Option.getD_none]
    rcases Option.eq_none_or_eq_some (after? "type ".toList (trim (trim part))) with
      isTyped | ⟨typed, isTyped⟩ <;>
      simp only [untyped, isTyped, Option.map, Option.getD]
  · rw [isSplit, Option.map_some, Option.getD_some]
    rcases Option.eq_none_or_eq_some (after? "type ".toList (trim found.2)) with
      isTyped | ⟨typed, isTyped⟩ <;>
      simp only [untyped, isTyped, Option.map, Option.getD]

theorem subset_shownName (part : Text) : shownName part ⊆ part := by
  rw [shownName]
  cases isSplit : splitLast? " as ".toList (trim part) with
  | none => exact subset_trim part
  | some found => exact List.Subset.trans (subset_of_splitLast? isSplit) (subset_trim part)

theorem subset_untyped (shown : Text) : untyped shown ⊆ shown := by
  rw [untyped]
  cases isTyped : after? "type ".toList (trim shown) with
  | none => exact subset_trim shown
  | some typed =>
    exact List.Subset.trans (subset_trim typed)
      (List.Subset.trans (subset_of_after? isTyped) (subset_trim shown))

theorem subset_of_namedBinding (isBinding : namedBinding part = some name) : name ⊆ part := by
  rw [namedBinding_eq, Option.ite_none_left_eq_some, Option.some.injEq] at isBinding
  rw [← isBinding.2]
  exact List.Subset.trans (subset_untyped _) (subset_shownName part)

theorem subset_of_mem_clauseBindings (member : name ∈ clauseBindings clause) : name ⊆ clause := by
  have inClause := subset_of_splitBraces clause
  rw [clauseBindings, List.mem_append, List.mem_filterMap, List.mem_filterMap] at member
  rcases member with ⟨part, isPart, isBinding⟩ | ⟨part, isPart, isBinding⟩
  · exact List.Subset.trans (subset_of_outerBinding isBinding)
      (List.Subset.trans (subset_of_mem_splitOn isPart) inClause.1)
  · cases isNamed : (splitBraces clause).2 with
    | none =>
      rw [isNamed] at isPart
      cases isPart
    | some named =>
      rw [isNamed] at isPart
      exact List.Subset.trans (subset_of_namedBinding isBinding)
        (List.Subset.trans (subset_of_mem_splitOn isPart) (inClause.2 named isNamed))

/-- A name that is bound is made of the characters of clauses. -/
theorem all_isClauseChar_of_mem_bindings {code : Text} (member : name ∈ bindings code) :
    name.all isClauseChar = true := by
  rcases List.mem_flatMap.mp member with ⟨clause, isClause, isName⟩
  rcases exists_of_mem_atLineStartsFrom isClause with ⟨-, text, length, -, -, -, isRead⟩
  have all := List.all_eq_true.mp (all_isClauseChar_of_clauseStatement? isRead)
  exact List.all_eq_true.mpr fun char inName => all char (subset_of_mem_clauseBindings isName inName)

/-! ## Texts that stand apart -/

/-- Some character of the text ends a clause. -/
def HasStop (text : Text) : Prop :=
  ∃ stop ∈ text, isClauseChar stop = false

theorem all_isClauseChar_of_not_hasStop (noStop : ¬HasStop text) :
    text.all isClauseChar = true := by
  rw [List.all_eq_true]
  intro char member
  by_contra isStop
  exact noStop ⟨char, member, Bool.eq_false_iff.mpr isStop⟩

theorem all_isClauseChar_of_all_isSpaceOrTab (isSpace : text.all isSpaceOrTab = true) :
    text.all isClauseChar = true := by
  rw [List.all_eq_true] at isSpace ⊢
  intro char member
  have isOne := isSpace char member
  rw [isSpaceOrTab, Bool.or_eq_true, decide_eq_true_eq, decide_eq_true_eq] at isOne
  rcases isOne with rfl | rfl <;> decide

/-- Whether a text with a stop begins with a head and a quote is settled inside. -/
theorem head?_append_of_hasStop (stops : HasStop text) (second : Text) :
    head? (text ++ second) = (head? text).map (Prod.map id (· ++ second)) := by
  apply Option.ext
  rintro ⟨between, after⟩
  rw [Option.map_eq_some_iff, Prod.exists]
  constructor
  · intro isRead
    rcases head?_eq_some_iff.mp isRead with ⟨isClause, indent, quote, isText, indented, opens⟩
    rcases stops with ⟨stop, member, isStop⟩
    have inLead : stop ∉ indent ++ ("import".toList ++ between) := by
      intro inLead
      rcases List.mem_append.mp inLead with inIndent | inLead
      · have all := all_isClauseChar_of_all_isSpaceOrTab indented
        rw [List.all_eq_true.mp all stop inIndent] at isStop
        cases isStop
      rcases List.mem_append.mp inLead with inWord | inBetween
      · have all : "import".toList.all isClauseChar = true := by decide
        rw [List.all_eq_true.mp all stop inWord] at isStop
        cases isStop
      · rw [List.all_eq_true.mp isClause stop inBetween] at isStop
        cases isStop
    have isLead : text ++ second = (indent ++ ("import".toList ++ between)) ++ quote :: after := by
      rw [isText, List.append_assoc, List.append_assoc]
    rcases List.append_eq_append_iff.mp isLead with ⟨more, isMore, -⟩ | ⟨more, isMore, isAfter⟩
    · rw [isMore] at inLead
      exact absurd (List.mem_append_left more member) inLead
    · cases more with
      | nil =>
        rw [isMore, List.append_nil] at member
        exact absurd member inLead
      | cons first more =>
        rcases List.cons.inj isAfter with ⟨rfl, rfl⟩
        refine ⟨between, more, head?_eq_some_iff.mpr ⟨isClause, indent, quote, ?_, indented, opens⟩,
          rfl⟩
        rw [isMore, List.append_assoc, List.append_assoc]
  · rintro ⟨between, rest, isRead, same⟩
    cases same
    rcases head?_eq_some_iff.mp isRead with ⟨isClause, indent, quote, rfl, indented, opens⟩
    refine head?_eq_some_iff.mpr ⟨isClause, indent, quote, ?_, indented, opens⟩
    simp only [List.append_assoc, List.cons_append, id]

theorem clauseStatement?_append_of_hasStop (stops : HasStop text) (second : Text) :
    clauseStatement? (text ++ second) = clauseStatement? text := by
  rw [clauseStatement?, head?_append_of_hasStop stops, clauseStatement?]
  cases head? text with
  | none => rfl
  | some head =>
    have sameLength : (text ++ second).length - (head.2 ++ second).length =
        text.length - head.2.length := by
      rw [List.length_append, List.length_append]
      omega
    simp only [Option.map_some, Prod.map_fst, Prod.map_snd, Option.bind_eq_bind, Option.bind_some,
      sameLength, id]

/-- Behind each line start of the text stands a character that ends a clause. -/
def EndsClauses (text : Text) : Prop :=
  ∀ before rest, text = before ++ rest → rest ≠ [] → IsComplete before → HasStop rest

/-- A text whose last line has a stop. -/
theorem endsClauses_append {line : Text} (isLine : lines line = [line]) (stops : HasStop line)
    (front : Text) : EndsClauses (front ++ line) := by
  intro before rest isText nonempty complete
  rcases stops with ⟨stop, member, isStop⟩
  rcases List.append_eq_append_iff.mp isText with ⟨more, rfl, rfl⟩ | ⟨more, rfl, rfl⟩
  · obtain rfl := eq_nil_of_lines_append isLine complete.of_append nonempty
    exact ⟨stop, member, isStop⟩
  · exact ⟨stop, List.mem_append_right more member, isStop⟩

theorem isApart_of_endsClauses (ends : EndsClauses first) (second : Text) :
    IsApart clauseStatement? true first second := by
  intro before rest isSplit nonempty starts
  exact clauseStatement?_append_of_hasStop
    (ends before rest isSplit nonempty (startsLine_iff.mp starts)) second

theorem head?_eq_none_of_all (isClause : text.all isClauseChar = true) : head? text = none := by
  rw [Option.eq_none_iff_forall_ne_some]
  rintro ⟨between, after⟩ isRead
  rcases head?_eq_some_iff.mp isRead with ⟨-, indent, quote, rfl, -, opens⟩
  have isQuote := List.all_eq_true.mp isClause quote (by simp)
  rw [not_isClauseChar_of_isQuote opens] at isQuote
  cases isQuote

theorem head?_cons_of_isLineBreak (isBreak : isLineBreak char = true) (rest : Text) :
    head? (char :: rest) = none := by
  have noImport : char ≠ 'i' := by
    rintro rfl
    cases isBreak
  rw [Option.eq_none_iff_forall_ne_some]
  rintro ⟨between, after⟩ isRead
  rcases head?_eq_some_iff.mp isRead with ⟨-, indent, quote, isText, indented, -⟩
  cases indent with
  | nil => exact noImport (List.cons.inj isText).1
  | cons space indent =>
    rw [← (List.cons.inj isText).1, List.all_cons, Bool.and_eq_true, isSpaceOrTab, Bool.or_eq_true,
      decide_eq_true_eq, decide_eq_true_eq] at indented
    rcases indented.1 with rfl | rfl <;> cases isBreak

/-- The first character of the text that could not stand in a clause is no quote. -/
def StartsWithStop (text : Text) : Prop :=
  ∃ front stop behind, text = front ++ stop :: behind ∧ front.all isClauseChar = true ∧
    isClauseChar stop = false ∧ isQuote stop = false

/-- A head is not carried on by a text that starts with a stop. -/
theorem head?_append_eq_none (isClause : text.all isClauseChar = true)
    (starts : StartsWithStop second) : head? (text ++ second) = none := by
  rw [Option.eq_none_iff_forall_ne_some]
  rintro ⟨between, after⟩ isRead
  rcases starts with ⟨front, stop, behind, rfl, isFront, isStop, noQuote⟩
  rcases head?_eq_some_iff.mp isRead with ⟨isBetween, indent, quote, isText, indented, opens⟩
  have isLead : ∀ char ∈ indent ++ ("import".toList ++ between), isClauseChar char = true := by
    rw [← List.all_eq_true, List.all_append, List.all_append, isBetween, Bool.and_true,
      Bool.and_eq_true]
    exact ⟨all_isClauseChar_of_all_isSpaceOrTab indented, by decide⟩
  have isFrontClause : ∀ char ∈ text ++ front, isClauseChar char = true := by
    rw [← List.all_eq_true, List.all_append, isClause, isFront]
    rfl
  have isSame : (text ++ front) ++ stop :: behind =
      (indent ++ ("import".toList ++ between)) ++ quote :: after := by
    rw [List.append_assoc, isText, List.append_assoc, List.append_assoc]
  have sameRest := congrArg (List.dropWhile isClauseChar) isSame
  rw [dropWhile_append_cons isFrontClause isStop,
    dropWhile_append_cons isLead (not_isClauseChar_of_isQuote opens)] at sameRest
  rw [(List.cons.inj sameRest).1, opens] at noQuote
  cases noQuote

theorem isApart_of_startsWithStop (first : Text) (starts : StartsWithStop second) :
    IsApart clauseStatement? true first second := by
  intro before rest isSplit nonempty lineStarts
  by_cases stops : HasStop rest
  · exact clauseStatement?_append_of_hasStop stops second
  · have isClause := all_isClauseChar_of_not_hasStop stops
    rw [clauseStatement?, head?_append_eq_none isClause starts, clauseStatement?,
      head?_eq_none_of_all isClause]
    rfl

theorem isBounded_clauseStatement? : IsBounded clauseStatement? := by
  intro text clause length isRead
  rcases clauseStatement?_eq_some_iff.mp isRead with ⟨_, rest, _, _, _, _, rfl⟩
  exact Nat.sub_le _ _

/-- Bindings are read part by part. -/
theorem bindings_append (complete : IsComplete first)
    (apart : IsApart clauseStatement? true first second) :
    bindings (first ++ second) = bindings first ++ bindings second := by
  rw [bindings, atLineStarts_append isBounded_clauseStatement? apart complete, List.flatMap_append]
  rfl

end MdxBuild.Import

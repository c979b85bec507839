import MdxBuild.Proofs.Heading.Header

/-!
# Literals of a module

A module text that has no open literal at its end is a list of lexemes: literals, and characters
outside of them. A position in the text lies between two lexemes or inside a literal, and the mode
of a scan tells which. A header of a heading call does not change whether a position lies inside a
literal: the quotes of its tag come in a pair.
-/

namespace MdxBuild.Generated

open Text

/-- A literal, or a character outside of all literals. -/
inductive Lexeme where
  | other (char : Char) (notQuote : isQuote char = false)
  | literal (quote : Char) (inner : Text) (quotes : isQuote quote = true)
      (body : LiteralBody quote inner)

namespace Lexeme

/-- The text of a lexeme, with the quotes of a literal. -/
def text : Lexeme → Text
  | other char _ => [char]
  | literal quote inner _ _ => quote :: (inner ++ [quote])

/-- The lexeme is a literal. -/
def IsLiteral : Lexeme → Prop
  | other .. => False
  | literal .. => True

/-- The text that consists of the lexemes. -/
def spell (lexemes : List Lexeme) : Text :=
  lexemes.flatMap text

/-- The offset, which counts bytes, lies inside a literal, behind its first quote and not behind its
last one. -/
def IsInside (lexemes : List Lexeme) (offset : Nat) : Prop :=
  ∃ before literal after, lexemes = before ++ literal :: after ∧ literal.IsLiteral ∧
    utf8Length (spell before) < offset ∧
    offset < utf8Length (spell before) + utf8Length literal.text

end Lexeme

variable {text rest before after inner : Text} {quote : Char} {mode : ScanMode}
  {lexemes first second : List Lexeme} {offset : Nat}

/-! ## Modes of a scan -/

namespace ScanMode

/-- The mode of a scan behind a text. -/
def behind (mode : ScanMode) (text : Text) : ScanMode :=
  text.foldl next mode

@[simp]
theorem behind_nil (mode : ScanMode) : mode.behind [] = mode :=
  rfl

theorem behind_cons (mode : ScanMode) (char : Char) (rest : Text) :
    mode.behind (char :: rest) = (mode.next char).behind rest :=
  rfl

theorem behind_append (mode : ScanMode) (first second : Text) :
    mode.behind (first ++ second) = (mode.behind first).behind second :=
  List.foldl_append

theorem next_quote (notBackslash : quote ≠ '\\') : (inside quote).next quote = .code := by
  rw [next, if_neg notBackslash, if_pos rfl]

/-- Within a literal, the scan is inside its quotes or behind a backslash. -/
theorem behind_start_of_body (body : LiteralBody quote (before ++ after)) :
    (inside quote).behind before = .inside quote ∨ (inside quote).behind before = .hidden quote := by
  generalize whole : before ++ after = inner at body
  induction body generalizing before with
  | nil =>
    obtain ⟨rfl, -⟩ := List.append_eq_nil_iff.mp whole
    exact .inl rfl
  | hidden char rest _ ih =>
    cases before with
    | nil => exact .inl rfl
    | cons first more =>
      rw [List.cons_append, List.cons.injEq] at whole
      obtain ⟨rfl, whole⟩ := whole
      cases more with
      | nil => exact .inr rfl
      | cons second more =>
        have continued := ih (List.cons.inj whole).2
        exact continued
  | char char rest notBackslash notQuote _ ih =>
    cases before with
    | nil => exact .inl rfl
    | cons first more =>
      rw [List.cons_append, List.cons.injEq] at whole
      obtain ⟨rfl, whole⟩ := whole
      rw [behind_cons, next, if_neg notBackslash, if_neg notQuote]
      exact ih whole

/-- A whole body leaves the scan inside the quotes, ready for the last one. -/
theorem behind_of_body (body : LiteralBody quote inner) :
    (inside quote).behind inner = .inside quote := by
  induction body with
  | nil => rfl
  | hidden char rest _ ih => exact ih
  | char char rest notBackslash notQuote _ ih =>
    rw [behind_cons, next, if_neg notBackslash, if_neg notQuote]
    exact ih

/-! ## Headers -/

/-- The character is neither a quote nor a backslash. -/
def isQuiet (char : Char) : Bool :=
  !isQuote char && char != '\\'

theorem isQuiet_of_class {inClass : Char → Bool}
    (noMark : ['"', '\'', '`', '\\'].any inClass = false) {char : Char}
    (member : inClass char = true) : isQuiet char = true := by
  have notMark : char ∉ ['"', '\'', '`', '\\'] := fun isMark =>
    List.any_eq_false.mp noMark char isMark member
  simpa [isQuiet, isQuote, and_assoc] using notMark

theorem behind_quiet_code (quiet : ∀ char ∈ text, isQuiet char = true) :
    code.behind text = .code := by
  induction text with
  | nil => rfl
  | cons char rest ih =>
    rw [List.forall_mem_cons] at quiet
    have notQuote : isQuote char = false := by
      have isQuiet := quiet.1
      rw [ScanMode.isQuiet, Bool.and_eq_true, Bool.not_eq_true'] at isQuiet
      exact isQuiet.1
    rw [behind_cons, next, notQuote]
    exact ih quiet.2

theorem behind_quiet_inside (quotes : isQuote quote = true)
    (quiet : ∀ char ∈ text, isQuiet char = true) :
    (inside quote).behind text = .inside quote := by
  induction text with
  | nil => rfl
  | cons char rest ih =>
    rw [List.forall_mem_cons, isQuiet, Bool.and_eq_true, Bool.not_eq_true', bne_iff_ne] at quiet
    obtain ⟨⟨notQuote, notBackslash⟩, quiet⟩ := quiet
    have differs : char ≠ quote := by
      rintro rfl
      rw [quotes] at notQuote
      cases notQuote
    rw [behind_cons, next, if_neg notBackslash, if_neg differs]
    exact ih quiet

theorem isQuiet_of_callee {callee : Text} (isCallee : callee ∈ callees) :
    ∀ char ∈ callee ++ ['('], isQuiet char = true := by
  have allQuiet : callees.all (fun callee => (callee ++ ['(']).all isQuiet) = true := by decide
  exact List.all_eq_true.mp (List.all_eq_true.mp allQuiet callee isCallee)

/-- Behind the name of a render function and its parenthesis, the scan goes on inside the quotes. -/
theorem behind_callee {callee : Text} (isCallee : callee ∈ callees) (quotes : isQuote quote = true)
    (within : mode = .inside quote ∨ mode = .hidden quote) :
    mode.behind (callee ++ ['(']) = .inside quote := by
  have quiet := isQuiet_of_callee isCallee
  rcases within with rfl | rfl
  · exact behind_quiet_inside quotes quiet
  · cases isNil : callee ++ ['('] with
    | nil => simp at isNil
    | cons first more =>
      rw [isNil, List.forall_mem_cons] at quiet
      exact behind_quiet_inside quotes quiet.2

theorem isQuiet_of_allBlank (blank : allBlank text = true) : ∀ char ∈ text, isQuiet char = true :=
  fun char member => isQuiet_of_class (by decide) (List.all_eq_true.mp blank char member)

theorem isQuiet_of_depthOf? {digit : Char} (isDepth : (depthOf? digit).isSome = true) :
    isQuiet digit = true :=
  @isQuiet_of_class (fun digit => (depthOf? digit).isSome) (by decide) digit isDepth

/-- The tag of a heading is quiet, or it has a pair of double quotes. -/
theorem behind_headingTag {tag : Text} (isTag : IsHeadingTag tag) :
    code.behind tag = .code ∧
      ∀ quote, isQuote quote = true → (inside quote).behind tag = .inside quote := by
  cases isTag with
  | member digit isDepth =>
    have quiet : ∀ char ∈ "_components.h".toList ++ [digit], isQuiet char = true := by
      rw [List.forall_mem_append, List.forall_mem_singleton]
      exact ⟨List.all_eq_true.mp (by decide), isQuiet_of_depthOf? isDepth⟩
    exact ⟨behind_quiet_code quiet, fun quote quotes => behind_quiet_inside quotes quiet⟩
  | quoted digit isDepth =>
    have quiet : ∀ char ∈ ['h', digit], isQuiet char = true := by
      rw [List.forall_mem_cons, List.forall_mem_singleton]
      exact ⟨by decide, isQuiet_of_depthOf? isDepth⟩
    show code.behind ('"' :: (['h', digit] ++ ['"'])) = .code ∧ ∀ quote, isQuote quote = true →
      (inside quote).behind ('"' :: (['h', digit] ++ ['"'])) = .inside quote
    constructor
    · have within : (inside '"').behind ['h', digit] = .inside '"' :=
        behind_quiet_inside (by decide) quiet
      rw [behind_cons, behind_append]
      exact congrArg (behind · ['"']) within
    · intro quote quotes
      have opened : ('"' : Char) ≠ '\\' := by decide
      rw [behind_cons, behind_append, next, if_neg opened]
      by_cases isSame : '"' = quote
      · subst isSame
        rw [if_pos rfl, behind_quiet_code quiet]
        rfl
      · rw [if_neg isSame, behind_quiet_inside quotes quiet, behind_cons, next, if_neg opened,
          if_neg isSame]
        rfl

/-- A header of a heading call takes the scan neither into a literal nor out of one. -/
theorem behind_headingHeader {header : Text} (isHeader : IsHeadingHeader header) :
    code.behind header = .code ∧ ∀ mode quote, isQuote quote = true →
      mode = .inside quote ∨ mode = .hidden quote → behind mode header = .inside quote := by
  cases isHeader with
  | intro callee blanks tag before behind isCallee blank isTag blankBefore blankBehind =>
    have quietBlanks := isQuiet_of_allBlank blank
    have quietEnd : ∀ char ∈ before ++ ',' :: behind, isQuiet char = true := by
      rw [List.forall_mem_append, List.forall_mem_cons]
      exact ⟨isQuiet_of_allBlank blankBefore, by decide, isQuiet_of_allBlank blankBehind⟩
    have parts : callee ++ '(' :: (blanks ++ (tag ++ (before ++ ',' :: behind))) =
        (callee ++ ['(']) ++ (blanks ++ (tag ++ (before ++ ',' :: behind))) := by
      rw [List.append_assoc, List.singleton_append]
    obtain ⟨tagInCode, tagInside⟩ := behind_headingTag isTag
    rw [parts]
    simp only [behind_append _ (callee ++ ['(']), behind_append _ blanks, behind_append _ tag]
    constructor
    · have quietCallee : ∀ char ∈ callee ++ ['('], isQuiet char = true :=
        isQuiet_of_callee isCallee
      rw [behind_quiet_code quietCallee, behind_quiet_code quietBlanks, tagInCode,
        behind_quiet_code quietEnd]
    · intro mode quote quotes within
      rw [behind_callee isCallee quotes within, behind_quiet_inside quotes quietBlanks,
        tagInside quote quotes, behind_quiet_inside quotes quietEnd]

end ScanMode

namespace Lexeme

/-! ## Positions among lexemes -/

@[simp]
theorem spell_nil : spell [] = [] :=
  rfl

@[simp]
theorem spell_cons (lexeme : Lexeme) (others : List Lexeme) :
    spell (lexeme :: others) = lexeme.text ++ spell others :=
  rfl

@[simp]
theorem spell_append (first second : List Lexeme) :
    spell (first ++ second) = spell first ++ spell second :=
  List.flatMap_append

/-- No literal is open behind lexemes. -/
theorem behind_spell (lexemes : List Lexeme) : ScanMode.code.behind (spell lexemes) = .code := by
  induction lexemes with
  | nil => rfl
  | cons lexeme others ih =>
    rw [spell_cons, ScanMode.behind_append]
    cases lexeme with
    | other char notQuote =>
      rw [text, ScanMode.behind_cons, ScanMode.next, notQuote]
      exact ih
    | literal quote inner quotes body =>
      rw [text, ScanMode.behind_cons, ScanMode.next, if_pos quotes, ScanMode.behind_append,
        ScanMode.behind_of_body body, ScanMode.behind_cons,
        ScanMode.next_quote (ne_backslash_of_isQuote quotes)]
      exact ih

/-- The places where the text of lexemes can be cut in two: between two lexemes, or within a
literal. -/
inductive Cut (lexemes : List Lexeme) : Text → Text → Prop
  | between (first second : List Lexeme) (isSplit : lexemes = first ++ second) :
      Cut lexemes (spell first) (spell second)
  | within (first : List Lexeme) (quote : Char) (before after : Text)
      (quotes : isQuote quote = true) (body : LiteralBody quote (before ++ after))
      (second : List Lexeme)
      (isSplit : lexemes = first ++ .literal quote (before ++ after) quotes body :: second) :
      Cut lexemes (spell first ++ quote :: before) (after ++ quote :: spell second)

theorem Cut.cons (cut : Cut lexemes text rest) (lexeme : Lexeme) :
    Cut (lexeme :: lexemes) (lexeme.text ++ text) rest := by
  cases cut with
  | between first second isSplit =>
    rw [← spell_cons]
    exact .between (lexeme :: first) second (congrArg _ isSplit)
  | within first quote before after quotes body second isSplit =>
    rw [← List.append_assoc, ← spell_cons]
    exact .within (lexeme :: first) quote before after quotes body second (congrArg _ isSplit)

theorem cut_of_spell (same : spell lexemes = text ++ rest) : Cut lexemes text rest := by
  induction lexemes generalizing text with
  | nil =>
    obtain ⟨rfl, rfl⟩ := List.append_eq_nil_iff.mp same.symm
    exact .between [] [] rfl
  | cons lexeme others ih =>
    cases text with
    | nil =>
      rw [List.nil_append] at same
      subst same
      exact .between [] (lexeme :: others) rfl
    | cons char more =>
      cases lexeme with
      | other _ notQuote =>
        obtain ⟨rfl, sameRest⟩ := List.cons.inj same
        exact (ih sameRest).cons (.other _ notQuote)
      | literal quote inner quotes body =>
        rw [spell_cons, Lexeme.text, List.cons_append, List.append_assoc, List.singleton_append]
          at same
        obtain ⟨rfl, sameRest⟩ := List.cons.inj same
        rcases List.append_eq_append_iff.mp sameRest with
          ⟨between, rfl, sameEnd⟩ | ⟨after, rfl, rfl⟩
        · cases between with
          | nil =>
            obtain rfl : quote :: spell others = rest := sameEnd
            have whole : inner = inner ++ [] := (List.append_nil inner).symm
            rw [← whole]
            exact .within [] quote inner [] quotes (whole ▸ body) others (by simp)
          | cons first between =>
            obtain ⟨rfl, sameOthers⟩ := List.cons.inj sameEnd
            have cut := (ih sameOthers).cons (.literal quote inner quotes body)
            rwa [Lexeme.text, List.cons_append, List.append_assoc, List.singleton_append] at cut
        · exact .within [] quote more after quotes body others rfl

theorem behind_within (lexemes : List Lexeme) (quotes : isQuote quote = true)
    (body : LiteralBody quote (before ++ after)) :
    ScanMode.code.behind (spell lexemes ++ quote :: before) = .inside quote ∨
      ScanMode.code.behind (spell lexemes ++ quote :: before) = .hidden quote := by
  rw [ScanMode.behind_append, behind_spell, ScanMode.behind_cons, ScanMode.next, if_pos quotes]
  exact ScanMode.behind_start_of_body body

/-- The mode of a scan that begins in code. -/
theorem behind_cases (same : spell lexemes = text ++ rest) :
    (∃ first second, lexemes = first ++ second ∧ text = spell first ∧ rest = spell second ∧
        ScanMode.code.behind text = .code) ∨
      ∃ quote, isQuote quote = true ∧ (ScanMode.code.behind text = .inside quote ∨
        ScanMode.code.behind text = .hidden quote) := by
  cases cut_of_spell same with
  | between first second isSplit =>
    exact .inl ⟨first, second, isSplit, rfl, rfl, behind_spell first⟩
  | within first quote before after quotes body second isSplit =>
    exact .inr ⟨quote, quotes, behind_within first quotes body⟩

theorem ne_code_of_within (within : mode = .inside quote ∨ mode = .hidden quote) :
    mode ≠ .code := by
  rcases within with rfl | rfl <;> exact ScanMode.noConfusion

/-- A position is inside a literal exactly if a scan up to there is not in code. -/
theorem isInside_iff (same : spell lexemes = text ++ rest) :
    IsInside lexemes (utf8Length text) ↔ ScanMode.code.behind text ≠ .code := by
  cases cut_of_spell same with
  | between first second isSplit =>
    refine iff_of_false ?_ (not_not.mpr (behind_spell first))
    rintro ⟨before, literal, after, isOther, -, above, below⟩
    rw [isSplit, List.append_eq_append_iff] at isOther
    rcases isOther with ⟨more, rfl, -⟩ | ⟨more, rfl, isRest⟩
    · rw [spell_append, utf8Length_append] at above
      exact absurd above (Nat.not_lt.mpr (Nat.le_add_right _ _))
    · cases more with
      | nil =>
        rw [List.append_nil] at above
        exact absurd above (Nat.lt_irrefl _)
      | cons lexeme more =>
        obtain ⟨rfl, -⟩ := List.cons.inj isRest
        rw [spell_append, spell_cons, utf8Length_append, utf8Length_append, ← Nat.add_assoc] at below
        exact absurd below (Nat.not_lt.mpr (Nat.le_add_right _ _))
  | within first quote before after quotes body second isSplit =>
    refine iff_of_true ?_ (ne_code_of_within (behind_within first quotes body))
    have size := quote.utf8Size_pos
    refine ⟨first, _, second, isSplit, trivial, ?_, ?_⟩
    · rw [utf8Length_append, utf8Length_cons]
      omega
    · simp only [Lexeme.text, utf8Length_append, utf8Length_cons, utf8Length_nil]
      omega

/-- At a position outside of all literals the lexemes are cut in two. -/
theorem exists_of_not_isInside (same : spell lexemes = text ++ rest)
    (outside : ¬IsInside lexemes (utf8Length text)) :
    ∃ first second, lexemes = first ++ second ∧ text = spell first ∧ rest = spell second := by
  rw [isInside_iff same, not_not] at outside
  rcases behind_cases same with ⟨first, second, isSplit, isFirst, isSecond, -⟩ | ⟨quote, -, within⟩
  · exact ⟨first, second, isSplit, isFirst, isSecond⟩
  · exact absurd outside (ne_code_of_within within)

/-- A position inside a literal of some lexemes stays so behind others. -/
theorem IsInside.append (isInside : IsInside second offset) (first : List Lexeme) :
    IsInside (first ++ second) (utf8Length (spell first) + offset) := by
  obtain ⟨before, literal, after, rfl, isLiteral, above, below⟩ := isInside
  refine ⟨first ++ before, literal, after, (List.append_assoc _ _ _).symm, isLiteral, ?_, ?_⟩
  · rw [spell_append, utf8Length_append]
    exact Nat.add_lt_add_left above _
  · rw [spell_append, utf8Length_append, Nat.add_assoc]
    exact Nat.add_lt_add_left below _

/-- The position behind the brace of a header is inside a literal exactly if the header begins
inside one. -/
theorem isInside_behind_header {header props : Text}
    (same : spell lexemes = before ++ header ++ '{' :: props) (isHeader : IsHeadingHeader header) :
    IsInside lexemes (utf8Length (before ++ header) + 1) ↔ IsInside lexemes (utf8Length before) := by
  have atBrace : spell lexemes = (before ++ header ++ ['{']) ++ props := by
    rw [same, List.append_assoc _ ['{'], List.singleton_append]
  have atStart : spell lexemes = before ++ (header ++ '{' :: props) := by
    rw [same, List.append_assoc]
  have size : utf8Length (before ++ header) + 1 = utf8Length (before ++ header ++ ['{']) := by
    rw [utf8Length_append _ ['{']]
    rfl
  rw [size, isInside_iff atBrace, isInside_iff atStart, ScanMode.behind_append,
    ScanMode.behind_append]
  rcases behind_cases atStart with ⟨first, second, -, -, -, inCode⟩ | ⟨quote, quotes, within⟩
  · rw [inCode, (ScanMode.behind_headingHeader isHeader).1]
    exact iff_of_false (not_not.mpr rfl) (not_not.mpr rfl)
  · rw [(ScanMode.behind_headingHeader isHeader).2 _ quote quotes within]
    have brace : (ScanMode.inside quote).behind ['{'] = .inside quote :=
      ScanMode.behind_quiet_inside quotes (List.all_eq_true.mp (by decide))
    rw [brace]
    exact iff_of_true ScanMode.noConfusion (ne_code_of_within within)

end Lexeme

end MdxBuild.Generated

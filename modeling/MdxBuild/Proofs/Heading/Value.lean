import MdxBuild.Proofs.Heading.Header

/-!
# Values in balanced code

In balanced code, the value at a place is a literal, an array, a render call or unknown, and what is
behind it is balanced again. All brackets that such a value opens are closed, so that reading it
never gets beyond the code. The same holds of the keys and the values of properties.
-/

namespace MdxBuild.Generated

open Text

variable {text rest start after value : Text} {depth bound : Nat}

/-! ## Properties -/

theorem Balanced.passes_key (balanced : Balanced text) : Passes text (readKey text).2 := by
  cases text with
  | nil => exact .refl balanced
  | cons first rest =>
    rw [readKey]
    split
    next isKeyQuote =>
      have isQuote := isQuote_of_isKeyQuote isKeyQuote
      obtain ⟨inner, after, body, rfl, behind⟩ := balanced.exists_literal isQuote
      rw [body.literal? (ne_backslash_of_isQuote isQuote)]
      exact .literal isQuote body behind
    next =>
      split
      next isStart =>
        have isPlain := isPlain_of_isNameStart isStart
        have behind := balanced.of_cons_plain isPlain
        exact (Passes.plain isPlain behind).trans (.dropWhile behind fun _ => isPlain_of_isKeyPart)
      next => exact .refl balanced

theorem Balanced.passes_blanks (balanced : Balanced text) : Passes text (skipBlanks text) :=
  .dropWhile balanced fun _ => isPlain_of_isAsciiBlank

theorem Balanced.passes_delimiter (balanced : Balanced text) : Passes text (toDelimiter text) := by
  rcases balanced.toDelimiter_cases with nothing | ⟨others, comma, passes⟩
  · rw [nothing]
    exact ⟨.nil, text, balanced, (List.append_nil _).symm⟩
  · rwa [comma]

/-- The text at the colon of the property that comes first. -/
def atColon (text : Text) : Text :=
  skipBlanks (readKey (skipBlanks text)).2

theorem Balanced.passes_name (balanced : Balanced text) : Passes text (atColon text) :=
  have skipped := balanced.passes_blanks
  have behindKey := skipped.balanced.passes_key
  (skipped.trans behindKey).trans behindKey.balanced.passes_blanks

/-- The property that comes first has a key. -/
def Names (key text rest : Text) : Prop :=
  (readKey (skipBlanks text)).1 = key ∧ atColon text = ':' :: rest

theorem propertyFrom?_of_nil {key : Text} (nothing : skipBlanks text = []) :
    propertyFrom? key bound text = none := by
  cases bound with
  | zero => rfl
  | succ bound => rw [propertyFrom?, nothing]

theorem propertyFrom?_of_names {key : Text} (isProperty : skipBlanks text ≠ [])
    (names : Names key text rest) :
    propertyFrom? key (bound + 1) text = some (skipBlanks rest) := by
  obtain ⟨isKey, isColon⟩ := names
  rw [atColon] at isColon
  have isValue : after? [':'] (':' :: rest) = some rest := after?_eq_some_iff.mpr rfl
  cases property : skipBlanks text with
  | nil => exact absurd property isProperty
  | cons first others =>
    rw [property] at isKey isColon
    simp only [propertyFrom?, property, isKey, isColon, isValue, if_true]

theorem valueFrom_of_not {key : Text} (others : ∀ rest, ¬Names key text rest) :
    (if (readKey (skipBlanks text)).1 = key then after? [':'] (atColon text) else none) =
      none := by
  rw [Option.eq_none_iff_forall_ne_some]
  intro rest found
  rw [Option.ite_none_right_eq_some, after?_eq_some_iff] at found
  exact others rest found

/-- A property that comes first, but does not have the key, may be the last one. -/
theorem propertyFrom?_of_end {key : Text} (isProperty : skipBlanks text ≠ [])
    (others : ∀ rest, ¬Names key text rest) (isEnd : toDelimiter (atColon text) = []) :
    propertyFrom? key (bound + 1) text = none := by
  have noValue := valueFrom_of_not others
  rw [atColon] at noValue isEnd
  cases property : skipBlanks text with
  | nil => exact absurd property isProperty
  | cons first rest =>
    rw [property] at noValue isEnd
    simp only [propertyFrom?, property, noValue, isEnd]

/-- A property that comes first, but does not have the key, may have others behind it. -/
theorem propertyFrom?_of_comma {key : Text} (isProperty : skipBlanks text ≠ [])
    (others : ∀ rest, ¬Names key text rest) (comma : toDelimiter (atColon text) = ',' :: after) :
    propertyFrom? key (bound + 1) text = propertyFrom? key bound after := by
  have noValue := valueFrom_of_not others
  rw [atColon] at noValue comma
  cases property : skipBlanks text with
  | nil => exact absurd property isProperty
  | cons first rest =>
    rw [property] at noValue comma
    simp only [propertyFrom?, property, noValue, comma]

/-- The value of a property is the start of what is behind it, and this is balanced. -/
theorem Balanced.passes_property {key : Text} (balanced : Balanced text)
    (found : propertyFrom? key bound text = some value) : Passes text value := by
  induction bound generalizing text with
  | zero => cases found
  | succ bound ih =>
    have passes := balanced.passes_name
    by_cases nothing : skipBlanks text = []
    · rw [propertyFrom?_of_nil nothing] at found
      cases found
    · by_cases names : ∃ rest, Names key text rest
      · obtain ⟨rest, names⟩ := names
        rw [propertyFrom?_of_names nothing names, Option.some.injEq] at found
        rw [names.2] at passes
        have behind := passes.balanced.of_cons_plain (by decide)
        rw [← found]
        exact (passes.trans (.plain (by decide) behind)).trans behind.passes_blanks
      · have others := not_exists.mp names
        rcases passes.balanced.toDelimiter_cases with none | ⟨rest, comma, passesComma⟩
        · rw [propertyFrom?_of_end nothing others none] at found
          cases found
        · rw [propertyFrom?_of_comma nothing others comma] at found
          have behind := (passes.trans passesComma).comma
          exact behind.trans (ih behind.balanced found)

/-! ## Calls -/

section Calls

variable {tag arguments props : Text} (balanced : Balanced text)
  (header : renderHeader? text = some (tag, arguments, props))

include balanced header

/-- In balanced code, the parenthesis of a call is closed. -/
theorem Balanced.exists_arguments : ∃ inside closing after, isClosing closing = true ∧
    arguments = inside ++ closing :: after ∧ Balanced inside ∧ Balanced after := by
  obtain ⟨callee, before, rfl, plainCallee, -⟩ := exists_renderHeader header
  exact (balanced.of_append_plain plainCallee).exists_bracket (by decide)

/-- In balanced code, the brace of the props of a call is closed. -/
theorem Balanced.exists_props : ∃ inside closing others, isClosing closing = true ∧
    Balanced inside ∧ props = inside ++ closing :: others := by
  obtain ⟨inside, closing, after, closes, same, balancedInside, -⟩ :=
    balanced.exists_arguments header
  obtain ⟨callee, before, -, -, rfl, balancedBefore⟩ := exists_renderHeader header
  exact balancedBefore.exists_bracketed (by decide)
    (bracketed?_eq_some_iff.mpr ⟨balancedInside, closing, closes, same⟩)

end Calls

/-! ## Values -/

/-- What the value at the start of a text is, and the text behind it. -/
inductive ValueAt (depth : Nat) (start : Text) : Children × Text → Prop
  | literal (quote : Char) (inner after : Text) (isQuote : isQuote quote = true)
      (body : LiteralBody quote inner) (behind : Balanced after)
      (same : start = quote :: (inner ++ quote :: after))
      (noTemplate : (quote = '`' && occursIn ['$', '{'] inner) = false) :
      ValueAt depth start (.text (decode inner), after)
  | template (quote : Char) (inner after : Text) (isQuote : isQuote quote = true)
      (body : LiteralBody quote inner) (same : start = quote :: (inner ++ quote :: after))
      (isTemplate : (quote = '`' && occursIn ['$', '{'] inner) = true) :
      ValueAt depth start (.unknown, toDelimiter start)
  | array (inside : Text) (closing : Char) (after : Text) (closes : isClosing closing = true)
      (balancedInside : Balanced inside) (behind : Balanced after)
      (same : start = '[' :: (inside ++ closing :: after)) :
      ValueAt depth start
        (.array (readItemsWith (readChildren depth) (inside.length + 1) inside), after)
  | call (tag arguments props : Text) (header : renderHeader? start = some (tag, arguments, props))
      (inside : Text) (closing : Char) (others : Text) (closes : isClosing closing = true)
      (balancedInside : Balanced inside) (isProps : props = inside ++ closing :: others)
      (insideArguments : Text) (closingArguments : Char) (after : Text)
      (closesArguments : isClosing closingArguments = true)
      (balancedArguments : Balanced insideArguments) (behind : Balanced after)
      (isArguments : arguments = insideArguments ++ closingArguments :: after) :
      ValueAt depth start (.call tag ((property? "children".toList inside).map fun value =>
        (readChildren depth value).1), after)
  | other (char : Char) (rest : Text) (same : start = char :: rest)
      (notQuote : isQuote char = false) (notBracket : char ≠ '[')
      (noHeader : renderHeader? start = none) : ValueAt depth start (.unknown, toDelimiter start)

theorem readChildren_of_nil (nothing : skipBlanks text = []) :
    readChildren (depth + 1) text = (.unknown, []) := by
  rw [readChildren, nothing]

theorem valueAt_readChildren (depth : Nat) (balanced : Balanced text)
    (isValue : skipBlanks text ≠ []) :
    ValueAt depth (skipBlanks text) (readChildren (depth + 1) text) := by
  have behindBlanks := balanced.passes_blanks.balanced
  cases start : skipBlanks text with
  | nil => exact absurd start isValue
  | cons first rest =>
    rw [start] at behindBlanks
    cases isQuote : isQuote first with
    | true =>
      obtain ⟨inner, after, body, rfl, behind⟩ := behindBlanks.exists_literal isQuote
      have isLiteral := body.literal? (ne_backslash_of_isQuote isQuote) after
      cases isTemplate : first = '`' && occursIn ['$', '{'] inner with
      | true =>
        simp only [readChildren, start, isQuote, if_true, isLiteral, isTemplate, Option.getD_none]
        exact .template first inner after isQuote body rfl isTemplate
      | false =>
        simp only [readChildren, start, isQuote, if_true, isLiteral, isTemplate, if_false,
          Bool.false_eq_true, Option.getD_some]
        exact .literal first inner after isQuote body behind rfl isTemplate
    | false =>
      by_cases isBracket : first = '['
      · subst isBracket
        obtain ⟨inside, closing, after, closes, rfl, balancedInside, behind⟩ :=
          behindBlanks.exists_bracket (by decide)
        have isBracketed : bracketed? (inside ++ closing :: after) = some (inside, after) :=
          bracketed?_eq_some_iff.mpr ⟨balancedInside, closing, closes, rfl⟩
        simp only [readChildren, start, isQuote, if_true, if_false, Bool.false_eq_true, isBracketed,
          Option.map_some, Option.getD_some]
        exact .array inside closing after closes balancedInside behind rfl
      · cases header : renderHeader? (first :: rest) with
        | none =>
          simp only [readChildren, start, isQuote, isBracket, if_false, Bool.false_eq_true, header,
            Option.getD_none]
          exact .other first rest rfl isQuote isBracket header
        | some parts =>
          obtain ⟨tag, arguments, props⟩ := parts
          obtain ⟨insideArguments, closingArguments, after, closesArguments, insideIs,
            balancedArguments, behind⟩ := behindBlanks.exists_arguments header
          obtain ⟨inside, closing, others, closes, balancedInside, isProps⟩ :=
            behindBlanks.exists_props header
          have callCloses : bracketed? arguments = some (insideArguments, after) :=
            bracketed?_eq_some_iff.mpr
              ⟨balancedArguments, closingArguments, closesArguments, insideIs⟩
          have propsClose : bracketed? props = some (inside, others) :=
            bracketed?_eq_some_iff.mpr ⟨balancedInside, closing, closes, isProps⟩
          simp only [readChildren, start, isQuote, isBracket, if_false, Bool.false_eq_true, header,
            propsClose, callCloses, Option.getD_some]
          exact .call tag arguments props header inside closing others closes balancedInside isProps
            insideArguments closingArguments after closesArguments balancedArguments behind insideIs

theorem readItemsWith_of_end {readItem : Text → Children × Text} (isItem : skipBlanks text ≠ [])
    (isEnd : toDelimiter (readItem (skipBlanks text)).2 = []) :
    readItemsWith readItem (bound + 1) text = [(readItem (skipBlanks text)).1] := by
  cases item : skipBlanks text with
  | nil => exact absurd item isItem
  | cons first rest =>
    rw [item] at isEnd
    simp only [readItemsWith, item, isEnd]

theorem readItemsWith_of_comma {readItem : Text → Children × Text} (isItem : skipBlanks text ≠ [])
    (comma : toDelimiter (readItem (skipBlanks text)).2 = ',' :: after) :
    readItemsWith readItem (bound + 1) text =
      (readItem (skipBlanks text)).1 :: readItemsWith readItem bound after := by
  cases item : skipBlanks text with
  | nil => exact absurd item isItem
  | cons first rest =>
    rw [item] at comma
    simp only [readItemsWith, item, comma]

/-- What is behind a value is balanced. -/
theorem Balanced.passes_value (balanced : Balanced text) (depth : Nat) :
    Passes text (readChildren depth text).2 := by
  have skipped := balanced.passes_blanks
  have toDelimiter := skipped.trans skipped.balanced.passes_delimiter
  cases depth with
  | zero => exact toDelimiter
  | succ depth =>
    by_cases nothing : skipBlanks text = []
    · rw [readChildren_of_nil nothing]
      exact nothing ▸ skipped
    · have isValue := valueAt_readChildren depth balanced nothing
      generalize readChildren (depth + 1) text = value at isValue
      cases isValue with
      | literal quote inner after isQuote body behind same =>
        exact skipped.trans (same ▸ .literal isQuote body behind)
      | template => exact toDelimiter
      | array inside closing after closes balancedInside behind same =>
        exact skipped.trans (same ▸ .bracket (by decide) closes balancedInside behind)
      | call tag arguments props header inside closing others closes balancedInside isProps
          insideArguments closingArguments after closesArguments balancedArguments behind
          isArguments =>
        obtain ⟨callee, before, same, plainCallee, -⟩ := exists_renderHeader header
        have atParenthesis : Passes (skipBlanks text) ('(' :: arguments) :=
          ⟨(same ▸ skipped.balanced).of_append_plain plainCallee, callee,
            .of_all_isPlain plainCallee, same⟩
        exact skipped.trans (atParenthesis.trans
          (isArguments ▸ .bracket (by decide) closesArguments balancedArguments behind))
      | other => exact toDelimiter

end MdxBuild.Generated

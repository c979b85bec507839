import MdxBuild.Proofs.Heading.Bytewise

/-!
# Readers in front of a closing bracket

A reader starts in balanced code in front of the closing bracket at a limit. What it finds there is
again such a place: behind what it has passed over, the same bracket is the limit, and inside of
brackets it is the closing one. The search for the closing bracket tells the same of a scan that has
nothing but an offset: where this search ends, no literal that it goes over ends behind.
-/

namespace MdxBuild.Generated.Bytewise

open Text

variable {code text outer name : Text} {wall turns depth offset limit close stop next : Nat}
  {byte closing : Char}

/-! ## Loops -/

theorem quoteEndAt_lt {quote : Char}
    (found : quoteEndAt code quote turns offset = .ok (some stop)) : offset < stop := by
  induction turns generalizing offset with
  | zero => cases found
  | succ turns ih =>
    rw [quoteEndAt] at found
    split at found
    next => cases found
    next byte _ =>
      split at found
      next => exact Nat.lt_of_add_right_lt (ih found)
      next =>
        split at found
        next =>
          cases found
          exact Nat.lt_succ_self offset
        next => exact Nat.lt_of_succ_lt (ih found)

theorem literalEndAt_lt (found : literalEndAt code turns offset = .ok (some stop)) :
    offset < stop := by
  rw [literalEndAt] at found
  cases isByte : byteAt code offset with
  | error fault =>
    rw [isByte] at found
    cases found
  | ok byte =>
    rw [isByte, ok_bind] at found
    exact Nat.lt_of_succ_lt (quoteEndAt_lt found)

/-- The search for a closing bracket goes behind a literal only if the literal ends. -/
theorem exists_literalEnd (isByte : byteAt? code offset = some byte) (isQuote : isQuote byte = true)
    (found : closingAtFrom code (turns + 1) depth offset = .ok (some close)) :
    ∃ next, literalEndAt code turns offset = .ok (some next) ∧
      closingAtFrom code turns depth next = .ok (some close) := by
  cases ends : literalEndAt code turns offset with
  | error fault =>
    simp only [closingAtFrom, isByte, isQuote, if_true, ends] at found
    cases found
  | ok next =>
    rw [closingAtFrom_quote isByte isQuote turns ends] at found
    cases next with
    | none => cases found
    | some next => exact ⟨next, rfl, found⟩

/-- The closing bracket is found where the search starts, or behind. -/
theorem closingAtFrom_le (found : closingAtFrom code turns depth offset = .ok (some close)) :
    offset ≤ close := by
  induction turns generalizing depth offset with
  | zero => cases found
  | succ turns ih =>
    cases isByte : byteAt? code offset with
    | none =>
      simp only [closingAtFrom, isByte] at found
      cases found
    | some byte =>
      rcases kind_cases byte with isPlain | isQuote | opens | closes
      · rw [closingAtFrom_plain isByte isPlain] at found
        exact Nat.le_of_succ_le (ih found)
      · obtain ⟨next, ends, found⟩ := exists_literalEnd isByte isQuote found
        exact Nat.le_trans (Nat.le_of_lt (literalEndAt_lt ends)) (ih found)
      · rw [closingAtFrom_opening isByte opens] at found
        exact Nat.le_of_succ_le (ih found)
      · cases depth with
        | zero =>
          obtain ⟨notQuote, notOpening⟩ := closing_of_isClosing closes
          simp only [closingAtFrom, isByte, notQuote, notOpening, closes, Bool.false_eq_true,
            if_false, if_true] at found
          cases found
        | succ depth =>
          rw [closingAtFrom_closing isByte closes] at found
          split at found
          next =>
            cases found
            exact Nat.le_refl _
          next => exact Nat.le_of_succ_le (ih found)

/-- A delimiter is looked for up to the limit only. -/
theorem delimiterAtFrom_le (found : delimiterAtFrom code limit turns depth offset = .ok stop) :
    stop ≤ limit := by
  induction turns generalizing depth offset with
  | zero => cases found
  | succ turns ih =>
    by_cases before : offset < limit
    · cases isByte : byteAt? code offset with
      | none =>
        simp only [delimiterAtFrom, Nat.not_le.mpr before, if_false, byteAt, isByte] at found
        cases found
      | some byte =>
        simp only [delimiterAtFrom, Nat.not_le.mpr before, if_false, byteAt, isByte,
          ok_bind] at found
        split at found
        next =>
          cases ends : literalEndAt code turns offset with
          | error fault =>
            rw [ends] at found
            cases found
          | ok next =>
            rw [ends, ok_bind] at found
            cases next with
            | none =>
              cases found
              exact Nat.le_refl limit
            | some next => exact ih found
        next =>
          split at found
          next => exact ih found
          next =>
            split at found
            next =>
              split at found
              next =>
                cases found
                exact Nat.le_of_lt before
              next => exact ih found
            next =>
              split at found
              next =>
                cases found
                exact Nat.le_of_lt before
              next => exact ih found
    · rw [delimiterAtFrom, if_pos (Nat.not_lt.mp before)] at found
      cases found
      exact Nat.le_refl limit

/-! ## Places in front of a closing bracket -/

/-- From an offset on, balanced code stands in front of the closing bracket at a limit, and this
bracket does not stand behind the wall. -/
structure Enclosed (code : Text) (wall offset limit : Nat) (text : Text) (closing : Char)
    (outer : Text) : Prop where
  closes : isClosing closing = true
  balanced : Balanced text
  stands : StandsAt code offset (text ++ closing :: outer)
  atLimit : StandsAt code limit (closing :: outer)
  limit_le : limit ≤ wall

namespace Enclosed

variable (enclosed : Enclosed code wall offset limit text closing outer)

include enclosed

theorem limit_eq : limit = offset + utf8Length text :=
  enclosed.stands.eq_add_utf8Length enclosed.atLimit

theorem le_wall : offset ≤ wall := by
  have isLimit := enclosed.limit_eq
  have atMost := enclosed.limit_le
  omega

/-- What is passed over ends in front of the same bracket. -/
theorem passes {after : Text} (passes : Passes text after)
    (stands : StandsAt code next (after ++ closing :: outer)) :
    Enclosed code wall next limit after closing outer :=
  ⟨enclosed.closes, passes.balanced, stands, enclosed.atLimit, enclosed.limit_le⟩

/-- The limit is behind an offset exactly if there is text left. -/
theorem lt_limit_iff : offset < limit ↔ text ≠ [] := by
  rw [← Nat.not_le, limit_le_iff enclosed.atLimit enclosed.stands]

/-- A quote or an opening bracket is the first character of the text. -/
theorem exists_cons (isByte : byteAt? code offset = some byte) (isMark : isPlain byte = false)
    (notClosing : isClosing byte = false) : ∃ rest, text = byte :: rest := by
  have ascii : IsAscii byte := isAscii_of_not_isPlain isMark
  cases text with
  | nil =>
    have isClosingByte := enclosed.stands.byteAt?_char (isAscii_of_isClosing enclosed.closes)
    rw [isByte] at isClosingByte
    obtain rfl := Option.some.inj isClosingByte
    rw [enclosed.closes] at notClosing
    cases notClosing
  | cons first rest =>
    obtain ⟨found, isFound, same⟩ := enclosed.stands.byteAt?_cons
    obtain rfl := Option.some.inj (isByte.symm.trans isFound)
    rcases same with rfl | high
    · exact ⟨rest, rfl⟩
    · exact absurd ascii high.1

/-- The literal that begins at the offset ends in front of the bracket. -/
theorem literal (isByte : byteAt? code offset = some byte) (isQuote : isQuote byte = true)
    (enough : utf8Length (text ++ closing :: outer) < turns) :
    ∃ stop, literalEndAt code turns offset = .ok (some stop) ∧ stop ≤ wall := by
  obtain ⟨rest, rfl⟩ := enclosed.exists_cons isByte (not_isPlain_of_isQuote isQuote)
    (by rcases isQuote_iff.mp isQuote with rfl | rfl | rfl <;> rfl)
  obtain ⟨inner, after, body, rfl, behind⟩ := enclosed.balanced.exists_literal isQuote
  have stands := enclosed.stands
  rw [List.cons_append, List.append_assoc, List.cons_append] at stands enough
  rw [utf8Length_cons] at enough
  obtain ⟨found, standsBehind⟩ :=
    literalEndAt_of_body isQuote body stands (Nat.lt_of_add_left_lt enough)
  exact ⟨_, found, (enclosed.passes (.literal isQuote body behind) standsBehind).le_wall⟩

/-- Behind one opening bracket, the search for the closing one finds the limit. -/
theorem closingAtFrom_eq (enough : utf8Length (text ++ closing :: outer) < turns) :
    closingAtFrom code turns 1 offset = .ok (some limit) := by
  have ascii := isAscii_of_isClosing enclosed.closes
  obtain ⟨left, leftEnough, same⟩ :=
    closingAtFrom_balanced enclosed.balanced 0 enclosed.stands enough
  obtain ⟨left, rfl, -⟩ := exists_turns leftEnough
  rw [same, utf8Size_of_isAscii ascii, ← enclosed.limit_eq,
    closingAtFrom_closing (enclosed.atLimit.byteAt?_char ascii) enclosed.closes, if_pos rfl]

theorem of_skipBlanksAt (found : skipBlanksAt code turns offset = .ok next)
    (enough : utf8Length (text ++ closing :: outer) < turns) :
    Enclosed code wall next limit (skipBlanks text) closing outer := by
  obtain ⟨place, same, stands⟩ := skipBlanksAt_closed enclosed.closes enclosed.stands enough
  obtain rfl := Except.ok.inj (found.symm.trans same)
  exact enclosed.passes enclosed.balanced.passes_blanks stands

theorem of_readKeyAt (isProperty : text ≠ [])
    (found : readKeyAt code turns offset = .ok (name, next))
    (enough : utf8Length (text ++ closing :: outer) < turns) :
    Enclosed code wall next limit (readKey text).2 closing outer := by
  obtain ⟨place, same, stands⟩ :=
    readKeyAt_eq enclosed.closes enclosed.balanced isProperty enclosed.stands enough
  obtain rfl := (Prod.mk.inj (Except.ok.inj (found.symm.trans same))).2
  exact enclosed.passes enclosed.balanced.passes_key stands

/-- The scan for the end of a property starts where its colon would stand. -/
theorem of_name {start behind colon : Nat} (blanks : skipBlanksAt code turns offset = .ok start)
    (before : start < limit) (isKey : readKeyAt code turns start = .ok (name, behind))
    (more : skipBlanksAt code turns behind = .ok colon)
    (enough : utf8Length (text ++ closing :: outer) < turns) :
    Enclosed code wall colon limit (atColon text) closing outer := by
  have skipped := enclosed.balanced.passes_blanks
  have named := skipped.trans skipped.balanced.passes_key
  have enoughKey := Nat.lt_of_le_of_lt (utf8Length_le_of_suffix skipped.suffix _) enough
  have enoughBehind := Nat.lt_of_le_of_lt (utf8Length_le_of_suffix named.suffix _) enough
  have atKey := enclosed.of_skipBlanksAt blanks enough
  have behindKey := atKey.of_readKeyAt (atKey.lt_limit_iff.mp before) isKey enoughKey
  exact behindKey.of_skipBlanksAt more enoughBehind

/-- Behind the next delimiter, which is a comma, there is less text. -/
theorem of_delimiterAt (found : delimiterAt code turns offset limit = .ok next)
    (inside : next < limit) (enough : utf8Length (text ++ closing :: outer) < turns) :
    ∃ others, Enclosed code wall (next + 1) limit others closing outer ∧
      utf8Length (others ++ closing :: outer) < utf8Length (text ++ closing :: outer) := by
  obtain ⟨place, same, ⟨-, atEnd⟩ | ⟨others, -, passes, -, -, stands⟩⟩ :=
    delimiterAt_cases enclosed.atLimit enclosed.balanced enclosed.stands enough
  all_goals obtain rfl := Except.ok.inj (found.symm.trans same)
  · exact absurd inside (Nat.not_lt.mpr atEnd)
  · exact ⟨others, enclosed.passes passes.comma stands, utf8Length_comma passes _⟩

theorem of_propertyAt {key : Text}
    (found : propertyAt code key limit turns offset = .ok (some next))
    (enough : utf8Length (text ++ closing :: outer) + 1 < turns) :
    ∃ value, Passes text value ∧ Enclosed code wall next limit value closing outer := by
  obtain ⟨place, same, rel⟩ := propertyAt_eq enclosed.closes enclosed.atLimit key enclosed.balanced
    enclosed.stands (Nat.lt_succ_self _) enough
  obtain rfl := Except.ok.inj (found.symm.trans same)
  cases isValue : propertyFrom? key (text.length + 1) text with
  | none =>
    rw [isValue] at rel
    cases rel
  | some value =>
    rw [isValue] at rel
    have passes := enclosed.balanced.passes_property isValue
    cases rel with
    | some stands => exact ⟨value, passes, enclosed.passes passes stands⟩

theorem of_valueAt {value : Children} (found : valueAt code turns offset limit = .ok (value, next))
    (enough : 2 * utf8Length (text ++ closing :: outer) + 5 ≤ turns) :
    ∃ after, Passes text after ∧ Enclosed code wall next limit after closing outer := by
  obtain ⟨place, same, stands⟩ := readsValues code (text.length + 1) enclosed.closes
    enclosed.atLimit enclosed.balanced enclosed.stands (Nat.lt_succ_self _) enough
  obtain rfl := (Prod.mk.inj (Except.ok.inj (found.symm.trans same))).2
  have passes := enclosed.balanced.passes_value (text.length + 1)
  exact ⟨_, passes, enclosed.passes passes stands⟩

/-- Brackets that stand in front of the limit are closed in front of it, and what they enclose is
enclosed by the closing one. -/
theorem bracket {opening other : Char} {inside after : Text} {place : Nat}
    (opens : isOpening opening = true) (closes : isClosing other = true)
    (balanced : Balanced inside)
    (stands : StandsAt code place (opening :: (inside ++ other :: (after ++ closing :: outer))))
    (enough : utf8Length (opening :: (inside ++ other :: (after ++ closing :: outer))) < turns) :
    ∃ close, closingAt code turns place = .ok (some close) ∧ close < limit ∧
      Enclosed code wall (place + 1) close inside other (after ++ closing :: outer) := by
  have found := closingAt_of_balanced opens closes balanced stands enough
  have insideStands := stands.cons (isAscii_of_isOpening opens)
  have atClose := insideStands.append inside
  have before : place + 1 + utf8Length inside < limit := by
    have isLimit := (atClose.cons (isAscii_of_isClosing closes)).eq_add_utf8Length enclosed.atLimit
    omega
  exact ⟨_, found, before, closes, balanced, insideStands, atClose,
    Nat.le_trans (Nat.le_of_lt before) enclosed.limit_le⟩

/-- The bracket that begins at the offset is closed in front of the limit. -/
theorem of_opening (isByte : byteAt? code offset = some byte) (opens : isOpening byte = true)
    (enough : utf8Length (text ++ closing :: outer) < turns) :
    ∃ close inside other rest, closingAt code turns offset = .ok (some close) ∧ close < limit ∧
      Enclosed code wall (offset + 1) close inside other rest ∧
      utf8Length (inside ++ other :: rest) < utf8Length (text ++ closing :: outer) := by
  obtain ⟨rest, rfl⟩ := enclosed.exists_cons isByte (by simp [isPlain, opens])
    (opening_iff_of_isOpening opens).2
  obtain ⟨inside, other, after, closes, rfl, balanced, -⟩ := enclosed.balanced.exists_bracket opens
  have stands := enclosed.stands
  rw [List.cons_append, List.append_assoc, List.cons_append] at stands enough ⊢
  obtain ⟨close, found, before, enclosedInside⟩ :=
    enclosed.bracket opens closes balanced stands enough
  refine ⟨close, inside, other, _, found, before, enclosedInside, ?_⟩
  rw [utf8Length_cons]
  exact Nat.lt_add_of_pos_left byte.utf8Size_pos

/-- The brackets of a call are closed in front of the limit, and its props are enclosed by the
closing brace. -/
theorem of_callHeaderAt {tag : Text} {parenthesis brace : Nat}
    (found : callHeaderAt code offset = .ok (some (tag, parenthesis, brace)))
    (enough : utf8Length (text ++ closing :: outer) < turns) :
    (∃ close, closingAt code turns parenthesis = .ok (some close) ∧ close < limit) ∧
      ∃ close props other rest, closingAt code turns brace = .ok (some close) ∧ close < limit ∧
        Enclosed code wall (brace + 1) close props other rest ∧
        utf8Length (props ++ other :: rest) < utf8Length (text ++ closing :: outer) := by
  cases header : renderHeader? text with
  | none =>
    rw [callHeaderAt_of_none enclosed.closes header enclosed.stands] at found
    cases found
  | some parts =>
    obtain ⟨ownTag, arguments, props⟩ := parts
    obtain ⟨atParenthesis, atBrace, same, standsArguments, standsProps⟩ :=
      callHeaderAt_of_some enclosed.closes header enclosed.stands
    cases found.symm.trans same
    obtain ⟨insideArguments, argumentsClosing, after, argumentsClose, rfl, balancedArguments, -⟩ :=
      enclosed.balanced.exists_arguments header
    obtain ⟨inside, propsClosing, others, propsClose, balancedInside, rfl⟩ :=
      enclosed.balanced.exists_props header
    obtain ⟨callee, before, rfl, -, isArguments, -⟩ := exists_renderHeader header
    have sizeArguments := congrArg utf8Length isArguments
    simp only [List.append_assoc, List.cons_append, utf8Length_append, utf8Length_cons]
      at standsArguments standsProps enough sizeArguments ⊢
    have enoughArguments : utf8Length ('(' ::
        (insideArguments ++ argumentsClosing :: (after ++ closing :: outer))) < turns := by
      simp only [utf8Length_append, utf8Length_cons]
      omega
    have enoughProps : utf8Length ('{' ::
        (inside ++ propsClosing :: (others ++ closing :: outer))) < turns := by
      simp only [utf8Length_append, utf8Length_cons]
      omega
    obtain ⟨callClose, foundCall, beforeCall, -⟩ := enclosed.bracket (by decide) argumentsClose
      balancedArguments standsArguments enoughArguments
    obtain ⟨close, foundProps, beforeProps, enclosedProps⟩ := enclosed.bracket (by decide)
      propsClose balancedInside standsProps enoughProps
    refine ⟨⟨callClose, foundCall, beforeCall⟩, close, inside, propsClosing, _, foundProps,
      beforeProps, enclosedProps, ?_⟩
    have braceSize : ('{' : Char).utf8Size = 1 := rfl
    simp only [utf8Length_append, utf8Length_cons]
    omega

/-- A call ends in front of the limit. -/
theorem of_callAt {call : Children} (found : callAt code turns offset = .ok (some (call, next)))
    (enough : 2 * utf8Length (text ++ closing :: outer) + 4 ≤ turns) : next ≤ wall := by
  cases header : renderHeader? text with
  | none =>
    rw [callAt_of_none enclosed.closes header enclosed.stands (by omega)] at found
    cases found
  | some parts =>
    obtain ⟨tag, arguments, props⟩ := parts
    obtain ⟨insideArguments, argumentsClosing, after, argumentsClose, isArguments,
      balancedArguments, -⟩ := enclosed.balanced.exists_arguments header
    obtain ⟨inside, propsClosing, others, propsClose, balancedInside, isProps⟩ :=
      enclosed.balanced.exists_props header
    obtain ⟨place, same, stands⟩ := callAt_of_some (readsValues code (inside.length + 1))
      enclosed.closes enclosed.stands header propsClose balancedInside isProps argumentsClose
      balancedArguments isArguments (Nat.lt_succ_self _) enough
    obtain rfl := (Prod.mk.inj (Option.some.inj (Except.ok.inj (found.symm.trans same)))).2
    have isLimit := stands.eq_add_utf8Length enclosed.atLimit
    have atMost := enclosed.limit_le
    omega

end Enclosed

end MdxBuild.Generated.Bytewise

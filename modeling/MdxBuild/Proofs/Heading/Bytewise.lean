import MdxBuild.Proofs.Heading.Loop
import MdxBuild.Proofs.Heading.Value

/-!
# Headings at byte offsets

Reading at offsets finds what reading the text finds. A reader of properties or of values starts in
balanced code in front of a closing bracket, and everything that it reads lies before this bracket,
although it works on the whole code. So it stops at an offset where the text that is left stands,
and it is never at fault.
-/

namespace MdxBuild.Generated.Bytewise

open Text

variable {code text outer value : Text} {offset limit turns bound depth : Nat} {closing : Char}

theorem utf8Length_le_of_suffix {part : Text} (suffix : part <:+ text) (behind : Text) :
    utf8Length (part ++ behind) ≤ utf8Length (text ++ behind) := by
  obtain ⟨before, rfl⟩ := suffix
  simp only [utf8Length_append]
  omega

theorem utf8Length_comma {rest : Text} (passes : Passes text (',' :: rest)) (behind : Text) :
    utf8Length (rest ++ behind) < utf8Length (text ++ behind) := by
  have size := utf8Length_le_of_suffix passes.suffix behind
  rw [List.cons_append, utf8Length_cons] at size
  exact Nat.lt_of_lt_of_le (Nat.lt_add_of_pos_left (',' : Char).utf8Size_pos) size

/-- The limit is reached where no text is left before it. -/
theorem limit_le_iff (atLimit : StandsAt code limit outer)
    (stands : StandsAt code offset (text ++ outer)) : limit ≤ offset ↔ text = [] := by
  rw [stands.eq_add_utf8Length atLimit]
  cases text with
  | nil => simp
  | cons char rest =>
    have positive := char.utf8Size_pos
    simp only [utf8Length_cons, reduceCtorEq, iff_false]
    omega

/-- The next delimiter before the limit is a comma, or there is none. -/
theorem delimiterAt_cases (atLimit : StandsAt code limit outer) (balanced : Balanced text)
    (stands : StandsAt code offset (text ++ outer)) (enough : utf8Length (text ++ outer) < turns) :
    ∃ next, delimiterAt code turns offset limit = .ok next ∧
      (toDelimiter text = [] ∧ limit ≤ next ∨
        ∃ others, toDelimiter text = ',' :: others ∧ Passes text (',' :: others) ∧ ¬limit ≤ next ∧
          byteAt code next = .ok ',' ∧ StandsAt code (next + 1) (others ++ outer)) := by
  obtain ⟨next, found, standsNext⟩ := delimiterAt_eq balanced stands atLimit enough
  refine ⟨next, found, ?_⟩
  have atEnd := limit_le_iff atLimit standsNext
  rcases balanced.toDelimiter_cases with nothing | ⟨others, comma, passes⟩
  · exact .inl ⟨nothing, atEnd.mpr nothing⟩
  · rw [comma] at standsNext atEnd
    have ascii : IsAscii ',' := by decide
    exact .inr ⟨others, comma, passes, atEnd.not.mpr (List.cons_ne_nil _ _),
      standsNext.byteAt_char ascii, standsNext.cons ascii⟩

theorem isAscii_of_isKeyPart {char : Char} (isPart : isKeyPart char = true) : IsAscii char := by
  simp only [isKeyPart, Bool.or_eq_true, decide_eq_true_eq] at isPart
  rcases isPart with (isAlphanum | rfl) | rfl
  · exact toNat_lt_of_isAlphanum isAlphanum
  · decide
  · decide

theorem isKeyPart_of_isNameStart {char : Char} (isStart : isNameStart char = true) :
    isKeyPart char = true := by
  simp only [isNameStart, isKeyPart, Bool.or_eq_true] at isStart ⊢
  exact isStart.imp_left (Or.imp_left fun isAlpha => Bool.or_eq_true_iff.mpr (.inl isAlpha))
/-! ## Properties -/

theorem readKeyAt_quoted {first : Char} {rest : Text}
    (isKeyQuote : (first = '"' || first = '\'') = true) (balanced : Balanced (first :: rest))
    (stands : StandsAt code offset (first :: rest ++ outer))
    (enough : utf8Length (first :: rest ++ outer) < turns) :
    ∃ next, readKeyAt code turns offset = .ok ((readKey (first :: rest)).1, next) ∧
      StandsAt code next ((readKey (first :: rest)).2 ++ outer) := by
  have isQuote := isQuote_of_isKeyQuote isKeyQuote
  have ascii := isAscii_of_isQuote isQuote
  obtain ⟨inner, after, body, rfl, behind⟩ := balanced.exists_literal isQuote
  rw [List.cons_append, List.append_assoc, List.cons_append] at stands enough
  rw [utf8Length_cons] at enough
  obtain ⟨found, standsBehind⟩ :=
    literalEndAt_of_body isQuote body stands (Nat.lt_of_add_left_lt enough)
  have isByte := stands.byteAt?_char ascii
  have isInner := (stands.cons ascii).cut
  have isLiteral := body.literal? (ne_backslash_of_isQuote isQuote)
  refine ⟨offset + 1 + utf8Length inner + 1, ?_, ?_⟩
  · simp only [readKeyAt, isByte, isKeyQuote, if_true, found, ok_bind, Nat.add_sub_cancel, isInner,
      readKey, isLiteral]
  · simpa only [readKey, isKeyQuote, if_true, isLiteral] using standsBehind

section Closed

variable (closes : isClosing closing = true)

include closes

theorem skipBlanksAt_closed (stands : StandsAt code offset (text ++ closing :: outer))
    (enough : utf8Length (text ++ closing :: outer) < turns) :
    ∃ next, skipBlanksAt code turns offset = .ok next ∧
      StandsAt code next (skipBlanks text ++ closing :: outer) := by
  obtain ⟨next, found, standsNext⟩ := skipBlanksAt_eq stands enough
  rw [skipBlanks, dropWhile_closed closes fun _ => isPlain_of_isAsciiBlank] at standsNext
  exact ⟨next, found, standsNext⟩

theorem readKeyAt_name {first : Char} {rest : Text}
    (notKeyQuote : ¬(first = '"' || first = '\'') = true) (isStart : isNameStart first = true)
    (stands : StandsAt code offset (first :: rest ++ closing :: outer))
    (enough : utf8Length (first :: rest ++ closing :: outer) < turns) :
    ∃ next, readKeyAt code turns offset = .ok ((readKey (first :: rest)).1, next) ∧
      StandsAt code next ((readKey (first :: rest)).2 ++ closing :: outer) := by
  have isPart := isKeyPart_of_isNameStart isStart
  have isByte := stands.byteAt?_char (isAscii_of_isKeyPart isPart)
  obtain ⟨next, found, standsNext⟩ :=
    passAt_eq isKeyPart (fun _ => isAscii_of_isKeyPart) stands enough
  rw [dropWhile_closed closes fun _ => isPlain_of_isKeyPart,
    List.dropWhile_cons_of_pos isPart] at standsNext
  have split : first :: rest ++ closing :: outer = (first :: rest.takeWhile isKeyPart) ++
      (rest.dropWhile isKeyPart ++ closing :: outer) := by
    rw [List.cons_append, List.cons_append, ← List.append_assoc, List.takeWhile_append_dropWhile]
  rw [split] at stands
  have isName := stands.cut
  rw [← stands.eq_add_utf8Length standsNext] at isName
  refine ⟨next, ?_, ?_⟩
  · simp only [readKeyAt, isByte, notKeyQuote, isStart, if_true, if_false, Bool.false_eq_true,
      found, ok_bind, isName, readKey]
  · simpa only [readKey, notKeyQuote, isStart, if_true, if_false, Bool.false_eq_true]
      using standsNext

/-- A key is read at an offset as it is in the text. -/
theorem readKeyAt_eq (balanced : Balanced text) (isProperty : text ≠ [])
    (stands : StandsAt code offset (text ++ closing :: outer))
    (enough : utf8Length (text ++ closing :: outer) < turns) :
    ∃ next, readKeyAt code turns offset = .ok ((readKey text).1, next) ∧
      StandsAt code next ((readKey text).2 ++ closing :: outer) := by
  cases text with
  | nil => exact absurd rfl isProperty
  | cons first rest =>
    by_cases isKeyQuote : (first = '"' || first = '\'') = true
    · exact readKeyAt_quoted isKeyQuote balanced stands enough
    by_cases isStart : isNameStart first = true
    · exact readKeyAt_name closes isKeyQuote isStart stands enough
    -- The byte may be the first one of a longer character, and then it is beyond the ASCII range.
    obtain ⟨byte, isByte, isFirst⟩ := stands.byteAt?_cons
    have notQuote : ¬(byte = '"' || byte = '\'') = true := by
      rcases isFirst with rfl | ⟨high, -⟩
      · exact isKeyQuote
      · simp only [Bool.or_eq_true, decide_eq_true_eq]
        rintro (rfl | rfl) <;> exact high (by decide)
    have notStart : ¬isNameStart byte = true := by
      rcases isFirst with rfl | ⟨high, -⟩
      · exact isStart
      · exact fun start => high (isAscii_of_isKeyPart (isKeyPart_of_isNameStart start))
    refine ⟨offset, ?_, ?_⟩
    · simp only [readKeyAt, isByte, notQuote, notStart, if_false, Bool.false_eq_true, readKey,
        isKeyQuote, isStart]
    · simpa only [readKey, isKeyQuote, isStart, if_false, Bool.false_eq_true] using stands

/-- A property that comes first is told by the byte at its colon. -/
theorem names_iff {key : Text} (stands : StandsAt code offset (atColon text ++ closing :: outer)) :
    ((readKey (skipBlanks text)).1 = key ∧ byteAt? code offset = some ':') ↔
      ∃ rest, Names key text rest := by
  simp only [Names, exists_and_left]
  refine and_congr_right fun _ => ?_
  cases colon : atColon text with
  | nil =>
    rw [colon, List.nil_append] at stands
    rw [stands.byteAt?_char (isAscii_of_isClosing closes)]
    simp only [Option.some.injEq, reduceCtorEq, exists_false, iff_false]
    rintro rfl
    cases closes
  | cons char rest =>
    rw [colon, List.cons_append] at stands
    obtain ⟨byte, isByte, rfl | ⟨high, highChar⟩⟩ := stands.byteAt?_cons
    · simp [isByte]
    · have notColon {char : Char} (high : ¬IsAscii char) : char ≠ ':' := by
        rintro rfl
        exact high (by decide)
      simp [isByte, notColon high, notColon highChar]

variable (atLimit : StandsAt code limit (closing :: outer))

include atLimit

/-- The value of a property is found at an offset where the text of the value stands. -/
theorem propertyAt_eq (key : Text) (balanced : Balanced text)
    (stands : StandsAt code offset (text ++ closing :: outer)) (enoughBound : text.length < bound)
    (enough : utf8Length (text ++ closing :: outer) + 1 < turns) :
    ∃ found, propertyAt code key limit turns offset = .ok found ∧
      Option.Rel (fun place value => StandsAt code place (value ++ closing :: outer)) found
        (propertyFrom? key bound text) := by
  induction bound generalizing text offset turns with
  | zero => cases enoughBound
  | succ bound ih =>
    obtain ⟨turns, rfl⟩ := Nat.exists_eq_add_one.mpr (Nat.zero_lt_of_lt enough)
    have fewer {part : Text} (suffix : part <:+ text) :
        utf8Length (part ++ closing :: outer) < turns :=
      Nat.lt_of_le_of_lt (utf8Length_le_of_suffix suffix _) (Nat.lt_of_succ_lt_succ enough)
    have skipped := balanced.passes_blanks
    have behindKey := skipped.trans skipped.balanced.passes_key
    have behindName := balanced.passes_name
    obtain ⟨start, foundStart, standsStart⟩ :=
      skipBlanksAt_closed closes stands (fewer (List.suffix_refl _))
    by_cases nothing : skipBlanks text = []
    · refine ⟨none, ?_, ?_⟩
      · simp only [propertyAt, foundStart, ok_bind, (limit_le_iff atLimit standsStart).mpr nothing,
          if_true]
      · rw [propertyFrom?_of_nil nothing]
        exact .none
    have inside : ¬limit ≤ start := (limit_le_iff atLimit standsStart).not.mpr nothing
    obtain ⟨behind, foundKey, standsBehind⟩ :=
      readKeyAt_eq closes skipped.balanced nothing standsStart (fewer skipped.suffix)
    obtain ⟨colon, foundColon, standsColon⟩ :=
      skipBlanksAt_closed closes standsBehind (fewer behindKey.suffix)
    by_cases names : ∃ rest, Names key text rest
    · have isFound := (names_iff closes standsColon).mpr names
      obtain ⟨rest, names⟩ := names
      have standsValue := standsColon
      rw [← atColon, names.2, List.cons_append] at standsValue
      have restSuffix : rest <:+ text := (List.suffix_cons _ _).trans (names.2 ▸ behindName.suffix)
      obtain ⟨value, foundValue, standsValue⟩ :=
        skipBlanksAt_closed closes (standsValue.cons (by decide)) (fewer restSuffix)
      refine ⟨some value, ?_, ?_⟩
      · simp only [propertyAt, foundStart, ok_bind, inside, if_false, foundKey, foundColon, isFound,
          and_self, if_true, foundValue]
      · rw [propertyFrom?_of_names nothing names]
        exact .some standsValue
    · have notFound : ¬((readKey (skipBlanks text)).1 = key ∧ byteAt? code colon = some ':') :=
        fun isFound => names ((names_iff closes standsColon).mp isFound)
      obtain ⟨next, foundNext, ⟨none, atEnd⟩ |
          ⟨others, comma, behindComma, before, isComma, standsOthers⟩⟩ :=
        delimiterAt_cases atLimit behindName.balanced standsColon (fewer behindName.suffix)
      · rw [propertyFrom?_of_end nothing (not_exists.mp names) none]
        refine ⟨Option.none, ?_, .none⟩
        simp only [propertyAt, foundStart, ok_bind, inside, if_false, foundKey, foundColon,
          if_neg notFound, foundNext, atEnd, if_true]
      · have passes := behindName.trans behindComma
        have shorter := passes.length_comma
        have size := utf8Length_comma passes (closing :: outer)
        have fewerOthers : utf8Length (others ++ closing :: outer) + 1 < turns := by omega
        obtain ⟨found, foundOthers, rel⟩ :=
          ih passes.comma.balanced standsOthers (by omega) fewerOthers
        rw [propertyFrom?_of_comma nothing (not_exists.mp names) comma]
        refine ⟨found, ?_, rel⟩
        simp only [propertyAt, foundStart, ok_bind, inside, if_false, foundKey, foundColon,
          if_neg notFound, foundNext, before, isComma, if_true, foundOthers]

end Closed

/-! ## Values -/

section Header

variable (closes : isClosing closing = true)

include closes

/-- The header of a call is found where the parenthesis and the brace stand. -/
theorem callHeaderAt_of_some {tag arguments props : Text}
    (header : renderHeader? text = some (tag, arguments, props))
    (stands : StandsAt code offset (text ++ closing :: outer)) :
    ∃ parenthesis brace, callHeaderAt code offset = .ok (some (tag, parenthesis, brace)) ∧
      StandsAt code parenthesis ('(' :: (arguments ++ closing :: outer)) ∧
      StandsAt code brace ('{' :: (props ++ closing :: outer)) := by
  have seen : renderHeader? (text ++ closing :: outer) = _ := renderHeader?_closed closes text
  rw [header, Option.map_some] at seen
  obtain ⟨callee, before, rfl, plainCallee, rfl, -⟩ := exists_renderHeader header
  have noParenthesis : ∀ char ∈ callee, (char != '(') = true := by
    intro char member
    rw [bne_iff_ne]
    rintro rfl
    exact absurd (plainCallee _ member) (by decide)
  have isCallee : (callee ++ '(' :: (before ++ '{' :: props) ++ closing :: outer).takeWhile
      (· != '(') = callee := by
    rw [List.append_assoc, List.takeWhile_append_of_pos noParenthesis, List.cons_append,
      List.takeWhile_cons_of_neg (by decide), List.append_nil]
  have standsArguments := stands
  rw [List.append_assoc, List.cons_append] at standsArguments
  have standsBrace := (standsArguments.append callee).cons (by decide)
  rw [List.append_assoc, List.cons_append] at standsBrace
  have atBrace := standsBrace.append before
  refine ⟨_, _, ?_, standsArguments.append callee, atBrace⟩
  simp only [callHeaderAt, stands.cutFrom, ok_bind, seen, isCallee]
  rw [if_pos (by simp)]
  congr 4
  simp only [utf8Length_append, utf8Length_cons]
  have parenthesisSize : ('(' : Char).utf8Size = 1 := rfl
  have braceSize : ('{' : Char).utf8Size = 1 := rfl
  omega

theorem callHeaderAt_of_none (noHeader : renderHeader? text = none)
    (stands : StandsAt code offset (text ++ closing :: outer)) :
    callHeaderAt code offset = .ok none := by
  have seen : renderHeader? (text ++ closing :: outer) = _ := renderHeader?_closed closes text
  rw [noHeader, Option.map_none] at seen
  simp only [callHeaderAt, stands.cutFrom, ok_bind, seen]

end Header

/-- Values of a nesting depth are read at offsets as they are in the text. -/
def ReadsValues (code : Text) (depth : Nat) : Prop :=
  ∀ {closing : Char} {outer text : Text} {limit offset turns : Nat}, isClosing closing = true →
    StandsAt code limit (closing :: outer) → Balanced text →
    StandsAt code offset (text ++ closing :: outer) → text.length < depth →
    2 * utf8Length (text ++ closing :: outer) + 5 ≤ turns →
    ∃ next, valueAt code turns offset limit = .ok ((readChildren depth text).1, next) ∧
      StandsAt code next ((readChildren depth text).2 ++ closing :: outer)

/-- The items of an array are read at offsets as they are in the text. -/
theorem itemsAt_eq (reads : ReadsValues code depth) (closes : isClosing closing = true)
    (atLimit : StandsAt code limit (closing :: outer)) (balanced : Balanced text)
    (stands : StandsAt code offset (text ++ closing :: outer)) (enoughDepth : text.length < depth)
    (enoughBound : text.length < bound)
    (enough : 2 * utf8Length (text ++ closing :: outer) + 6 ≤ turns) :
    itemsAt code turns offset limit = .ok (readItemsWith (readChildren depth) bound text) := by
  induction bound generalizing text offset turns with
  | zero => cases enoughBound
  | succ bound ih =>
    obtain ⟨turns, rfl⟩ := Nat.exists_eq_add_one.mpr (Nat.zero_lt_of_lt enough)
    have skipped := balanced.passes_blanks
    have behindItem := skipped.balanced.passes_value depth
    have size := utf8Length_le_of_suffix skipped.suffix (closing :: outer)
    have itemSize := utf8Length_le_of_suffix behindItem.suffix (closing :: outer)
    have fewer : utf8Length (text ++ closing :: outer) < turns := by omega
    have fewerBehind :
        utf8Length ((readChildren depth (skipBlanks text)).2 ++ closing :: outer) < turns := by
      omega
    have fewerItem : 2 * utf8Length (skipBlanks text ++ closing :: outer) + 5 ≤ turns := by omega
    obtain ⟨start, foundStart, standsStart⟩ := skipBlanksAt_closed closes stands fewer
    by_cases nothing : skipBlanks text = []
    · simp only [itemsAt, foundStart, ok_bind, (limit_le_iff atLimit standsStart).mpr nothing,
        if_true, readItemsWith, nothing]
    have inside : ¬limit ≤ start := (limit_le_iff atLimit standsStart).not.mpr nothing
    obtain ⟨behind, foundItem, standsBehind⟩ := reads closes atLimit skipped.balanced standsStart
      (Nat.lt_of_le_of_lt skipped.suffix.length_le enoughDepth) fewerItem
    obtain ⟨next, foundNext, ⟨none, atEnd⟩ |
        ⟨others, comma, behindComma, before, isComma, standsOthers⟩⟩ :=
      delimiterAt_cases atLimit behindItem.balanced standsBehind fewerBehind
    · rw [readItemsWith_of_end nothing none]
      simp only [itemsAt, foundStart, ok_bind, inside, if_false, foundItem,
        foundNext, atEnd, if_true]
    · have passes := skipped.trans (behindItem.trans behindComma)
      have shorter := passes.length_comma
      have othersSize := utf8Length_comma passes (closing :: outer)
      have fewerOthers : 2 * utf8Length (others ++ closing :: outer) + 6 ≤ turns := by omega
      have foundOthers :=
        ih passes.comma.balanced standsOthers (by omega) (by omega) fewerOthers
      rw [readItemsWith_of_comma nothing comma]
      simp only [itemsAt, foundStart, ok_bind, inside, if_false, foundItem,
        foundNext, before, isComma, if_true, foundOthers]

/-- The items of an array that begins at an offset are read as they are in the text. -/
theorem itemsAt_of_array (reads : ReadsValues code depth) {inside after : Text}
    (closes : isClosing closing = true) (balanced : Balanced inside)
    (stands : StandsAt code offset ('[' :: (inside ++ closing :: after)))
    (enoughDepth : inside.length < depth)
    (enough : 2 * utf8Length ('[' :: (inside ++ closing :: after)) + 4 ≤ turns) :
    ∃ close, closingAt code turns offset = .ok (some close) ∧
      itemsAt code turns (offset + 1) close =
        .ok (readItemsWith (readChildren depth) (inside.length + 1) inside) ∧
      StandsAt code (close + 1) after := by
  have ascii : IsAscii '[' := by decide
  have fewer : utf8Length ('[' :: (inside ++ closing :: after)) < turns := by omega
  have fewerInside : 2 * utf8Length (inside ++ closing :: after) + 6 ≤ turns := by
    rw [utf8Length_cons, utf8Size_of_isAscii ascii] at enough
    omega
  have insideStands := stands.cons ascii
  have atLimit := insideStands.append inside
  exact ⟨_, closingAt_of_balanced (by decide) closes balanced stands fewer,
    itemsAt_eq reads closes atLimit balanced insideStands enoughDepth
      (Nat.lt_succ_self inside.length) fewerInside,
    atLimit.cons (isAscii_of_isClosing closes)⟩

/-- The value of a property is read at offsets as it is in the text. Values may be read up to depths
of their own. -/
theorem propertyValueAt_eq {depth : Text → Nat} (reads : ∀ value, ReadsValues code (depth value))
    (key : Text) (closes : isClosing closing = true)
    (atLimit : StandsAt code limit (closing :: outer)) {brace : Nat} (balanced : Balanced text)
    (stands : StandsAt code (brace + 1) (text ++ closing :: outer))
    (enoughDepth : ∀ value, value.length ≤ text.length → value.length < depth value)
    (enough : 2 * utf8Length (text ++ closing :: outer) + 5 ≤ turns) :
    propertyValueAt code turns key brace limit =
      .ok ((property? key text).map fun value => (readChildren (depth value) value).1) := by
  have fewer : utf8Length (text ++ closing :: outer) + 1 < turns := by omega
  obtain ⟨found, foundProperty, rel⟩ := propertyAt_eq closes atLimit key balanced stands
    (Nat.lt_succ_self text.length) fewer
  rw [property?]
  cases isValue : propertyFrom? key (text.length + 1) text with
  | none =>
    rw [isValue] at rel
    cases rel
    simp only [propertyValueAt, foundProperty, ok_bind, Option.map_none]
  | some value =>
    rw [isValue] at rel
    cases rel with
    | some standsValue =>
      have behind := balanced.passes_property isValue
      have valueSize := utf8Length_le_of_suffix behind.suffix (closing :: outer)
      have fewerValue : 2 * utf8Length (value ++ closing :: outer) + 5 ≤ turns := by omega
      obtain ⟨next, foundValue, -⟩ := reads value closes atLimit behind.balanced standsValue
        (enoughDepth value behind.suffix.length_le) fewerValue
      simp only [propertyValueAt, foundProperty, ok_bind, foundValue, Option.map_some]

/-- A call whose brackets are closed has the value of its property `children`. -/
theorem callAt_of_closed {tag : Text} {parenthesis brace propsEnd callEnd : Nat}
    {children : Option Children}
    (header : callHeaderAt code offset = .ok (some (tag, parenthesis, brace)))
    (foundProps : closingAt code turns brace = .ok (some propsEnd))
    (foundArguments : closingAt code turns parenthesis = .ok (some callEnd))
    (foundValue : propertyValueAt code turns "children".toList brace propsEnd = .ok children) :
    callAt code (turns + 1) offset = .ok (some (.call tag children, callEnd + 1)) := by
  simp only [callAt, header, ok_bind, foundProps, foundArguments]
  rw [propertyValueAt] at foundValue
  cases property : propertyAt code "children".toList propsEnd turns (brace + 1) with
  | error fault =>
    rw [property] at foundValue
    cases foundValue
  | ok found =>
    rw [property, ok_bind] at foundValue
    rw [ok_bind]
    cases found with
    | none =>
      cases foundValue
      rfl
    | some value =>
      cases isValue : valueAt code turns value propsEnd with
      | error fault =>
        simp only [isValue] at foundValue
        cases foundValue
      | ok read =>
        simp only [isValue, ok_bind] at foundValue
        cases foundValue
        simp only [isValue, ok_bind]

/-- The children of a call are read at offsets as they are in the text. -/
theorem callAt_of_some (reads : ReadsValues code depth) (closes : isClosing closing = true)
    (stands : StandsAt code offset (text ++ closing :: outer)) {tag arguments props : Text}
    (header : renderHeader? text = some (tag, arguments, props)) {inside others : Text}
    {propsClosing : Char} (propsClose : isClosing propsClosing = true)
    (balancedInside : Balanced inside) (isProps : props = inside ++ propsClosing :: others)
    {insideArguments after : Text} {argumentsClosing : Char}
    (argumentsClose : isClosing argumentsClosing = true)
    (balancedArguments : Balanced insideArguments)
    (isArguments : arguments = insideArguments ++ argumentsClosing :: after)
    (enoughDepth : inside.length < depth)
    (enough : 2 * utf8Length (text ++ closing :: outer) + 4 ≤ turns) :
    ∃ next, callAt code turns offset = .ok (some (.call tag
      ((property? "children".toList inside).map fun value => (readChildren depth value).1), next)) ∧
      StandsAt code next (after ++ closing :: outer) := by
  obtain ⟨turns, rfl⟩ := Nat.exists_eq_add_one.mpr (Nat.zero_lt_of_lt enough)
  obtain ⟨parenthesis, brace, foundHeader, atParenthesis, atBrace⟩ :=
    callHeaderAt_of_some closes header stands
  have sizes : utf8Length ('(' :: (arguments ++ closing :: outer)) ≤
        utf8Length (text ++ closing :: outer) ∧
      utf8Length ('{' :: (props ++ closing :: outer)) ≤ utf8Length (text ++ closing :: outer) := by
    obtain ⟨callee, before, rfl, -, rfl, -⟩ := exists_renderHeader header
    simp only [utf8Length_append, utf8Length_cons]
    omega
  obtain ⟨argumentsSize, propsSize⟩ := sizes
  subst isProps isArguments
  rw [List.append_assoc, List.cons_append] at atParenthesis atBrace argumentsSize propsSize
  have fewerProps : utf8Length ('{' :: (inside ++ propsClosing :: (others ++ closing :: outer))) <
      turns := by
    omega
  have fewerArguments :
      utf8Length ('(' :: (insideArguments ++ argumentsClosing :: (after ++ closing :: outer))) <
        turns := by
    omega
  have braceSize : ('{' : Char).utf8Size = 1 := rfl
  have fewerInside :
      2 * utf8Length (inside ++ propsClosing :: (others ++ closing :: outer)) + 5 ≤ turns := by
    rw [utf8Length_cons] at propsSize
    omega
  have insideStands := atBrace.cons (by decide)
  have standsBehind := (((atParenthesis.cons (by decide)).append insideArguments).cons
    (isAscii_of_isClosing argumentsClose))
  refine ⟨_, callAt_of_closed foundHeader
    (closingAt_of_balanced (by decide) propsClose balancedInside atBrace fewerProps)
    (closingAt_of_balanced (by decide) argumentsClose balancedArguments atParenthesis
      fewerArguments)
    (propertyValueAt_eq (fun _ => reads) _ propsClose (insideStands.append inside) balancedInside
      insideStands (fun _ shorter => Nat.lt_of_le_of_lt shorter enoughDepth) fewerInside),
    standsBehind⟩

theorem callAt_of_none (closes : isClosing closing = true) (noHeader : renderHeader? text = none)
    (stands : StandsAt code offset (text ++ closing :: outer)) (some : 0 < turns) :
    callAt code turns offset = .ok none := by
  obtain ⟨turns, rfl⟩ := Nat.exists_eq_add_one.mpr some
  simp only [callAt, callHeaderAt_of_none closes noHeader stands, ok_bind]

/-- A literal is read at an offset as it is in the text. -/
theorem literalAt_eq {quote : Char} {inner after : Text} (isQuote : isQuote quote = true)
    (body : LiteralBody quote inner)
    (stands : StandsAt code offset (quote :: (inner ++ quote :: after)))
    (enough : utf8Length (inner ++ quote :: after) < turns) :
    literalAt code turns offset = .ok (if quote = '`' && occursIn ['$', '{'] inner then none
      else some (.text (decode inner), offset + 1 + utf8Length inner + 1)) := by
  have ascii := isAscii_of_isQuote isQuote
  obtain ⟨found, -⟩ := literalEndAt_of_body isQuote body stands enough
  simp only [literalAt, stands.byteAt_char ascii, ok_bind, found, Nat.add_sub_cancel,
    (stands.cons ascii).cut]
  split <;> rfl

/-- Where neither a literal nor an array begins in the text, none begins at the offset. -/
theorem exists_byte {char : Char} {rest : Text} (stands : StandsAt code offset (char :: rest))
    (notQuote : isQuote char = false) (notBracket : char ≠ '[') :
    ∃ byte, byteAt code offset = .ok byte ∧ isQuote byte = false ∧ byte ≠ '[' := by
  obtain ⟨byte, isByte, rfl | ⟨high, -⟩⟩ := stands.byteAt?_cons
  · exact ⟨byte, by rw [byteAt, isByte], notQuote, notBracket⟩
  · refine ⟨byte, by rw [byteAt, isByte], (isPlain_iff.mp (isPlain_of_not_isAscii high)).1, ?_⟩
    rintro rfl
    exact high (by decide)

/-- A call begins neither with a quote nor with a square bracket. -/
theorem exists_first_of_header {tag arguments props : Text}
    (header : renderHeader? text = some (tag, arguments, props)) :
    ∃ char rest, text = char :: rest ∧ isQuote char = false ∧ char ≠ '[' := by
  obtain ⟨callee, before, rfl, plainCallee, -⟩ := exists_renderHeader header
  cases callee with
  | nil => exact ⟨'(', arguments, rfl, rfl, by decide⟩
  | cons char rest =>
    have isPlain := plainCallee char List.mem_cons_self
    refine ⟨char, _, rfl, (isPlain_iff.mp isPlain).1, ?_⟩
    rintro rfl
    exact absurd isPlain (by decide)

/-- Values are read at offsets as they are in the text. -/
theorem readsValues (code : Text) (depth : Nat) : ReadsValues code depth := by
  induction depth with
  | zero =>
    intro _ _ _ _ _ _ _ _ _ _ noDepth
    cases noDepth
  | succ depth reads =>
    intro closing outer text limit offset turns closes atLimit balanced stands enoughDepth enough
    obtain ⟨turns, rfl⟩ := Nat.exists_eq_add_one.mpr (Nat.zero_lt_of_lt enough)
    have skipped := balanced.passes_blanks
    have size := utf8Length_le_of_suffix skipped.suffix (closing :: outer)
    have shorter := skipped.suffix.length_le
    have fewer : utf8Length (text ++ closing :: outer) < turns := by omega
    have fewerBehind : utf8Length (skipBlanks text ++ closing :: outer) < turns := by omega
    obtain ⟨start, foundStart, standsStart⟩ := skipBlanksAt_closed closes stands fewer
    by_cases nothing : skipBlanks text = []
    · refine ⟨limit, ?_, ?_⟩
      · simp only [valueAt, foundStart, ok_bind, (limit_le_iff atLimit standsStart).mpr nothing,
          if_true, readChildren_of_nil nothing]
      · rwa [readChildren_of_nil nothing]
    have inside : ¬limit ≤ start := (limit_le_iff atLimit standsStart).not.mpr nothing
    obtain ⟨next, foundNext, standsNext⟩ := delimiterAt_eq skipped.balanced standsStart
      atLimit fewerBehind
    have isValue := valueAt_readChildren depth balanced nothing
    generalize skipBlanks text = value at *
    generalize readChildren (depth + 1) text = result at *
    cases isValue with
    | literal quote inner after isQuote body behind same noTemplate =>
      subst same
      rw [List.cons_append, List.append_assoc, List.cons_append] at standsStart fewerBehind
      rw [utf8Length_cons] at fewerBehind
      have ascii := isAscii_of_isQuote isQuote
      have fewerInside := Nat.lt_of_add_left_lt fewerBehind
      have found := literalAt_eq isQuote body standsStart fewerInside
      refine ⟨start + 1 + utf8Length inner + 1, ?_,
        (literalEndAt_of_body isQuote body standsStart fewerInside).2⟩
      simp only [valueAt, foundStart, ok_bind, inside, if_false, standsStart.byteAt_char ascii,
        isQuote, if_true, found, noTemplate, Bool.false_eq_true]
    | template quote inner after isQuote body same isTemplate =>
      have standsLiteral := standsStart
      rw [same, List.cons_append, List.append_assoc, List.cons_append] at standsLiteral fewerBehind
      rw [utf8Length_cons] at fewerBehind
      have ascii := isAscii_of_isQuote isQuote
      have found :=
        literalAt_eq isQuote body standsLiteral (Nat.lt_of_add_left_lt fewerBehind)
      refine ⟨next, ?_, standsNext⟩
      simp only [valueAt, foundStart, ok_bind, inside, if_false, standsLiteral.byteAt_char ascii,
        isQuote, if_true, found, isTemplate, foundNext]
    | array insideArray arrayClosing after arrayCloses balancedInside behind same =>
      subst same
      rw [List.cons_append, List.append_assoc, List.cons_append] at standsStart size
      simp only [List.length_cons, List.length_append] at shorter
      have enoughArray : 2 * utf8Length
          ('[' :: (insideArray ++ arrayClosing :: (after ++ closing :: outer))) + 4 ≤ turns := by
        omega
      obtain ⟨close, foundClose, items, standsBehind⟩ := itemsAt_of_array reads arrayCloses
        balancedInside standsStart (by omega) enoughArray
      have isBracket := standsStart.byteAt_char (by decide)
      refine ⟨_, ?_, standsBehind⟩
      simp only [valueAt, foundStart, ok_bind, inside, if_false, isBracket,
        show isQuote '[' = false from rfl, Bool.false_eq_true, if_true, foundClose, items]
    | call tag arguments props header insideProps propsClosing others propsClose balancedProps
        isProps insideArguments argumentsClosing after argumentsClose balancedArguments behind
        isArguments =>
      obtain ⟨char, rest, same, notQuote, notBracket⟩ := exists_first_of_header header
      have standsFirst := standsStart
      rw [same, List.cons_append] at standsFirst
      obtain ⟨byte, isByte, notQuoteByte, notBracketByte⟩ :=
        exists_byte standsFirst notQuote notBracket
      have insideShorter : insideProps.length < value.length := by
        obtain ⟨callee, before, rfl, -, rfl, -⟩ := exists_renderHeader header
        simp only [isProps, List.length_append, List.length_cons]
        omega
      have enoughCall : 2 * utf8Length (value ++ closing :: outer) + 4 ≤ turns := by omega
      obtain ⟨next, found, standsBehind⟩ := callAt_of_some reads closes standsStart header
        propsClose balancedProps isProps argumentsClose balancedArguments isArguments (by omega)
        enoughCall
      refine ⟨next, ?_, standsBehind⟩
      simp only [valueAt, foundStart, ok_bind, inside, if_false, isByte, notQuoteByte,
        Bool.false_eq_true, notBracketByte, found]
    | other char rest same notQuote notBracket noHeader =>
      have standsFirst := standsStart
      rw [same, List.cons_append] at standsFirst
      obtain ⟨byte, isByte, notQuoteByte, notBracketByte⟩ :=
        exists_byte standsFirst notQuote notBracket
      have found : callAt code turns start = .ok none :=
        callAt_of_none closes noHeader standsStart (by omega)
      refine ⟨next, ?_, standsNext⟩
      simp only [valueAt, foundStart, ok_bind, inside, if_false, isByte, notQuoteByte,
        Bool.false_eq_true, notBracketByte, found, foundNext]

end MdxBuild.Generated.Bytewise

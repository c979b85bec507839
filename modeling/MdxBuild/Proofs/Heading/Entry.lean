import MdxBuild.Proofs.Heading.Value

/-!
# Properties outside of brackets

A property is found exactly if it is one of the props themselves: its key stands at the start or
behind a comma, outside of all brackets and literals, and a colon behind it. Keys in nested code and
in literals do not count.
-/

namespace MdxBuild.Generated

open Text

variable {key text inside before property rest : Text} {bound : Nat}

/-- Outside of all brackets and literals, a property with a key stands in the text. -/
inductive HasProperty (key text : Text) : Prop
  | first (rest : Text) (names : Names key text rest)
  | behind (before property rest : Text) (balanced : Balanced before)
      (same : text = before ++ ',' :: property) (names : Names key property rest)

theorem Names.isProperty (names : Names key text rest) : skipBlanks text ≠ [] := by
  intro nothing
  have isColon := names.2
  rw [atColon, nothing] at isColon
  cases isColon

theorem hasProperty_of_isSome (balanced : Balanced text)
    (found : (propertyFrom? key bound text).isSome = true) : HasProperty key text := by
  induction bound generalizing text with
  | zero => cases found
  | succ bound ih =>
    by_cases nothing : skipBlanks text = []
    · rw [propertyFrom?_of_nil nothing] at found
      cases found
    · by_cases names : ∃ rest, Names key text rest
      · obtain ⟨rest, names⟩ := names
        exact .first rest names
      · have passes := balanced.passes_name
        rcases passes.balanced.toDelimiter_cases with none | ⟨others, comma, passesComma⟩
        · rw [propertyFrom?_of_end nothing (not_exists.mp names) none] at found
          cases found
        · rw [propertyFrom?_of_comma nothing (not_exists.mp names) comma] at found
          obtain ⟨behindComma, before, balancedBefore, same⟩ := passes.trans passesComma
          rcases ih (behindComma.of_cons_plain (by decide)) found with
            ⟨rest, names⟩ | ⟨more, property, rest, balancedMore, rfl, names⟩
          · exact .behind before others rest balancedBefore same names
          · refine .behind (before ++ ',' :: more) property rest
              (balancedBefore.append (.plain ',' more (by decide) balancedMore)) ?_ names
            rw [same, List.append_assoc, List.cons_append]

/-! ## In front of a comma -/

theorem dropWhile_comma {inClass : Char → Bool} (notIn : inClass ',' = false) (before : Text) :
    (before ++ ',' :: property).dropWhile inClass =
      before.dropWhile inClass ++ ',' :: property := by
  induction before with
  | nil => rw [List.nil_append, List.dropWhile_cons_of_neg (by simp [notIn])]; rfl
  | cons char before ih =>
    rw [List.cons_append, List.dropWhile_cons, List.dropWhile_cons]
    split
    · exact ih
    · rfl

theorem skipBlanks_comma (before : Text) :
    skipBlanks (before ++ ',' :: property) = skipBlanks before ++ ',' :: property :=
  dropWhile_comma (by decide) before

theorem readKey_comma (balanced : Balanced before) :
    (readKey (before ++ ',' :: property)).2 = (readKey before).2 ++ ',' :: property := by
  cases before with
  | nil => rfl
  | cons first others =>
    rw [List.cons_append, readKey, readKey]
    split
    next isKeyQuote =>
      have isQuote := isQuote_of_isKeyQuote isKeyQuote
      have notBackslash := ne_backslash_of_isQuote isQuote
      obtain ⟨inner, after, body, rfl, -⟩ := balanced.exists_literal isQuote
      rw [List.append_assoc, List.cons_append, body.literal? notBackslash,
        body.literal? notBackslash]
    next =>
      split
      next => exact dropWhile_comma (by decide) others
      next => rfl

theorem atColon_comma (balanced : Balanced before) :
    atColon (before ++ ',' :: property) = atColon before ++ ',' :: property := by
  rw [atColon, atColon, skipBlanks_comma, readKey_comma balanced.passes_blanks.balanced,
    skipBlanks_comma]

theorem toDelimiter_append_comma (balanced : Balanced before) :
    toDelimiter (before ++ ',' :: property) = toDelimiter before ++ ',' :: property := by
  induction balanced with
  | nil => exact toDelimiter_comma property
  | plain char rest isPlain _ ih =>
    by_cases isComma : char = ','
    · rw [isComma, List.cons_append, toDelimiter_comma, toDelimiter_comma, List.cons_append]
    · have passed (text : Text) : toDelimiter (char :: text) = toDelimiter text :=
        toDelimiterFrom_plain isPlain 0 (fun comma => absurd comma isComma) text
      rw [List.cons_append, passed, passed, ih]
  | literal quote inner rest isQuote body _ ih =>
    rw [List.cons_append, List.append_assoc, List.cons_append, toDelimiter,
      toDelimiterFrom_literal isQuote body, toDelimiter, toDelimiterFrom_literal isQuote body]
    exact ih
  | bracket opening closing inside rest opens closes balancedInside _ _ ih =>
    have passed := toDelimiter_bracket opens closes balancedInside
    rw [List.cons_append, List.append_assoc, List.cons_append, passed, passed, ih]

theorem isSome_of_hasProperty (has : HasProperty key text) (enough : text.length < bound) :
    (propertyFrom? key bound text).isSome = true := by
  induction bound generalizing text with
  | zero => cases enough
  | succ bound ih =>
    by_cases names : ∃ rest, Names key text rest
    · obtain ⟨rest, names⟩ := names
      rw [propertyFrom?_of_names names.isProperty names]
      rfl
    · rcases has with ⟨rest, isFirst⟩ | ⟨before, property, rest, balanced, rfl, isNamed⟩
      · exact absurd ⟨rest, isFirst⟩ names
      · have isProperty : skipBlanks (before ++ ',' :: property) ≠ [] := by
          rw [skipBlanks_comma]
          simp
        have passes := balanced.passes_name
        rw [List.length_append, List.length_cons] at enough
        have toComma : toDelimiter (atColon (before ++ ',' :: property)) =
            toDelimiter (atColon before) ++ ',' :: property := by
          rw [atColon_comma balanced, toDelimiter_append_comma passes.balanced]
        rcases passes.balanced.toDelimiter_cases with none | ⟨others, comma, passesComma⟩
        · rw [none] at toComma
          rw [propertyFrom?_of_comma isProperty (not_exists.mp names) toComma]
          exact ih (.first rest isNamed) (by omega)
        · have shorter := (passes.trans passesComma).length_comma
          have fewer : (others ++ ',' :: property).length < bound := by
            rw [List.length_append, List.length_cons]
            omega
          rw [comma] at toComma
          rw [propertyFrom?_of_comma isProperty (not_exists.mp names) toComma]
          exact ih (.behind others property rest passesComma.comma.balanced rfl isNamed) fewer

/-- A property is found exactly if it is one of the props themselves. -/
theorem isSome_property?_iff (balanced : Balanced inside) :
    (property? key inside).isSome = true ↔ HasProperty key inside :=
  ⟨hasProperty_of_isSome balanced, fun has => isSome_of_hasProperty has (Nat.lt_succ_self _)⟩

end MdxBuild.Generated

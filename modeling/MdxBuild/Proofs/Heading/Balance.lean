import Mathlib.Data.List.TakeWhile
import MdxBuild.Heading.Call

/-!
# Balanced code

In balanced code all literals are terminated and all brackets are closed, where brackets of all
kinds count alike. Such code is built of characters, literals and bracketed parts, and the scanners
pass over it in these units. What a bracket encloses is exactly the balanced code up to the next
closing bracket. A text that has no balanced start up to a closing bracket gets stuck in an open
literal or in open brackets.
-/

namespace MdxBuild.Generated

open Text

/-! ## Literals -/

/-- What stands between the quotes of a literal: a quote of this kind only behind a backslash. -/
inductive LiteralBody (quote : Char) : Text → Prop
  | nil : LiteralBody quote []
  | hidden (char : Char) (rest : Text) (body : LiteralBody quote rest) :
      LiteralBody quote ('\\' :: char :: rest)
  | char (char : Char) (rest : Text) (notBackslash : char ≠ '\\') (notQuote : char ≠ quote)
      (body : LiteralBody quote rest) : LiteralBody quote (char :: rest)

theorem isQuote_iff {char : Char} :
    isQuote char = true ↔ char = '"' ∨ char = '\'' ∨ char = '`' := by
  simp [isQuote, or_assoc]

theorem isQuote_of_isKeyQuote {char : Char} (isKeyQuote : (char = '"' || char = '\'') = true) :
    isQuote char = true := by
  rw [isQuote_iff, ← or_assoc]
  exact .inl (by simpa using isKeyQuote)

theorem ne_backslash_of_isQuote {quote : Char} (isQuote : isQuote quote = true) :
    quote ≠ '\\' := by
  rcases isQuote_iff.mp isQuote with rfl | rfl | rfl <;> decide

variable {quote : Char} {text inner after inside rest : Text} {depth : Nat}

theorem literal?_hidden (char : Char) (rest : Text) : literal? quote ('\\' :: char :: rest) =
    (literal? quote rest).map fun (inner, after) => ('\\' :: char :: inner, after) := by
  rw [literal?]

theorem literal?_char {char : Char} (notBackslash : char ≠ '\\') (notQuote : char ≠ quote)
    (rest : Text) : literal? quote (char :: rest) =
      (literal? quote rest).map fun (inner, after) => (char :: inner, after) := by
  rw [literal?, if_neg notBackslash, if_neg notQuote]
  rintro _ _ rfl
  exact absurd rfl notBackslash

theorem literal?_quote (notBackslash : quote ≠ '\\') (rest : Text) :
    literal? quote (quote :: rest) = some ([], rest) := by
  rw [literal?, if_neg notBackslash, if_pos rfl]
  rintro _ _ rfl
  exact absurd rfl notBackslash

theorem LiteralBody.append {first second : Text} (body : LiteralBody quote first)
    (others : LiteralBody quote second) : LiteralBody quote (first ++ second) := by
  induction body with
  | nil => exact others
  | hidden char rest _ ih => exact .hidden char _ ih
  | char char rest notBackslash notQuote _ ih => exact .char char _ notBackslash notQuote ih

/-- A literal reaches up to the first quote that its body cannot hold. -/
theorem LiteralBody.literal? (body : LiteralBody quote inner) (notBackslash : quote ≠ '\\')
    (after : Text) : Generated.literal? quote (inner ++ quote :: after) = some (inner, after) := by
  induction body with
  | nil => exact literal?_quote notBackslash after
  | hidden char rest _ ih =>
    rw [List.cons_append, List.cons_append, literal?_hidden, ih, Option.map_some]
  | char char rest isOther notQuote _ ih =>
    rw [List.cons_append, literal?_char isOther notQuote, ih, Option.map_some]

theorem literalBody_of_literal? (found : literal? quote text = some (inner, after)) :
    LiteralBody quote inner ∧ text = inner ++ quote :: after := by
  fun_induction literal? quote text generalizing inner with
  | case1 => cases found
  | case2 hidden rest ih =>
    obtain ⟨⟨body, _⟩, isLiteral, same⟩ := Option.map_eq_some_iff.mp found
    cases same
    obtain ⟨isBody, rfl⟩ := ih isLiteral
    exact ⟨.hidden _ _ isBody, rfl⟩
  | case3 => cases found
  | case4 rest notBackslash =>
    cases found
    exact ⟨.nil, rfl⟩
  | case5 char rest _ notBackslash notQuote ih =>
    obtain ⟨⟨body, _⟩, isLiteral, same⟩ := Option.map_eq_some_iff.mp found
    cases same
    obtain ⟨isBody, rfl⟩ := ih isLiteral
    exact ⟨.char _ _ notBackslash notQuote isBody, rfl⟩

/-! ## Balanced code -/

/-- A character that is neither a quote nor a bracket. -/
def isPlain (char : Char) : Bool :=
  !isQuote char && !isOpening char && !isClosing char

/-- Code in which all literals are terminated and all brackets are closed. -/
inductive Balanced : Text → Prop
  | nil : Balanced []
  | plain (char : Char) (rest : Text) (isPlain : isPlain char = true) (balanced : Balanced rest) :
      Balanced (char :: rest)
  | literal (quote : Char) (inner rest : Text) (isQuote : isQuote quote = true)
      (body : LiteralBody quote inner) (balanced : Balanced rest) :
      Balanced (quote :: (inner ++ quote :: rest))
  | bracket (opening closing : Char) (inside rest : Text) (opens : isOpening opening = true)
      (closes : isClosing closing = true) (balancedInside : Balanced inside)
      (balanced : Balanced rest) : Balanced (opening :: (inside ++ closing :: rest))

/-- Code that ends in an open literal or in open brackets. -/
inductive Stuck : Text → Prop
  | nil : Stuck []
  | literal (quote : Char) (rest : Text) (isQuote : isQuote quote = true)
      (endless : literal? quote rest = none) : Stuck (quote :: rest)
  | bracket (opening : Char) (inside rest : Text) (opens : isOpening opening = true)
      (balanced : Balanced inside) (stuck : Stuck rest) : Stuck (opening :: (inside ++ rest))

theorem isOpening_iff {char : Char} :
    isOpening char = true ↔ char = '{' ∨ char = '[' ∨ char = '(' := by
  simp [isOpening, or_assoc]

theorem isClosing_iff {char : Char} :
    isClosing char = true ↔ char = '}' ∨ char = ']' ∨ char = ')' := by
  simp [isClosing, or_assoc]

theorem isPlain_iff {char : Char} : isPlain char = true ↔
    isQuote char = false ∧ isOpening char = false ∧ isClosing char = false := by
  simp [isPlain, and_assoc]

theorem not_isPlain_of_isQuote {char : Char} (isQuote : isQuote char = true) :
    isPlain char = false := by
  simp [isPlain, isQuote]

theorem opening_iff_of_isOpening {char : Char} (opens : isOpening char = true) :
    isQuote char = false ∧ isClosing char = false := by
  rcases isOpening_iff.mp opens with rfl | rfl | rfl <;> decide

theorem closing_of_isClosing {char : Char} (closes : isClosing char = true) :
    isQuote char = false ∧ isOpening char = false := by
  rcases isClosing_iff.mp closes with rfl | rfl | rfl <;> decide

/-- Every character is of one kind. -/
theorem kind_cases (char : Char) : isPlain char = true ∨ isQuote char = true ∨
    isOpening char = true ∨ isClosing char = true := by
  rw [isPlain_iff]
  cases isQuote char <;> cases isOpening char <;> cases isClosing char <;> simp

namespace Balanced

theorem append {first second : Text} (balanced : Balanced first) (others : Balanced second) :
    Balanced (first ++ second) := by
  induction balanced with
  | nil => exact others
  | plain char rest isPlain _ ih => exact .plain char _ isPlain ih
  | literal quote inner rest isQuote body _ ih =>
    rw [List.cons_append, List.append_assoc]
    exact .literal quote inner _ isQuote body ih
  | bracket opening closing inside rest opens closes balancedInside _ _ ih =>
    rw [List.cons_append, List.append_assoc]
    exact .bracket opening closing inside _ opens closes balancedInside ih

theorem of_all_isPlain (plain : ∀ char ∈ text, isPlain char = true) : Balanced text := by
  induction text with
  | nil => exact .nil
  | cons char rest ih =>
    rw [List.forall_mem_cons] at plain
    exact .plain char rest plain.1 (ih plain.2)

theorem of_cons_plain {char : Char} (balanced : Balanced (char :: rest))
    (isPlain : isPlain char = true) : Balanced rest := by
  rw [isPlain_iff] at isPlain
  cases balanced with
  | plain _ _ _ balanced => exact balanced
  | literal _ _ _ isQuote => rw [isQuote] at isPlain; cases isPlain.1
  | bracket _ _ _ _ opens => rw [opens] at isPlain; cases isPlain.2.1

theorem of_append_plain {before : Text} (balanced : Balanced (before ++ rest))
    (plain : ∀ char ∈ before, isPlain char = true) : Balanced rest := by
  induction before with
  | nil => exact balanced
  | cons char before ih =>
    rw [List.forall_mem_cons] at plain
    exact ih (balanced.of_cons_plain plain.1) plain.2

theorem of_dropWhile (balanced : Balanced text) {inClass : Char → Bool}
    (plain : ∀ char, inClass char = true → isPlain char = true) :
    Balanced (text.dropWhile inClass) := by
  rw [← List.takeWhile_append_dropWhile (p := inClass) (l := text)] at balanced
  exact balanced.of_append_plain fun char member => plain char (List.mem_takeWhile_imp member)

/-- Balanced code that begins with a quote begins with a literal. -/
theorem exists_literal (balanced : Balanced (quote :: rest)) (isQuote : isQuote quote = true) :
    ∃ inner after, LiteralBody quote inner ∧ rest = inner ++ quote :: after ∧ Balanced after := by
  cases balanced with
  | plain _ _ isPlain => rw [not_isPlain_of_isQuote isQuote] at isPlain; cases isPlain
  | literal _ inner after _ body balanced => exact ⟨inner, after, body, rfl, balanced⟩
  | bracket _ _ _ _ opens => rw [(opening_iff_of_isOpening opens).1] at isQuote; cases isQuote

/-- Balanced code that begins with an opening bracket begins with a bracketed part. -/
theorem exists_bracket {opening : Char} (balanced : Balanced (opening :: rest))
    (opens : isOpening opening = true) :
    ∃ inside closing after, isClosing closing = true ∧ rest = inside ++ closing :: after ∧
      Balanced inside ∧ Balanced after := by
  cases balanced with
  | plain _ _ isPlain => rw [isPlain_iff, opens] at isPlain; cases isPlain.2.1
  | literal _ _ _ isQuote => rw [(opening_iff_of_isOpening opens).1] at isQuote; cases isQuote
  | bracket _ closing inside after _ closes balancedInside balanced =>
    exact ⟨inside, closing, after, closes, rfl, balancedInside, balanced⟩

end Balanced

/-- A reader passes over balanced code up to balanced code. -/
structure Passes (text after : Text) : Prop where
  balanced : Balanced after
  skipped : ∃ before, Balanced before ∧ text = before ++ after

namespace Passes

theorem refl (balanced : Balanced text) : Passes text text :=
  ⟨balanced, [], .nil, rfl⟩

theorem trans {middle : Text} (passes : Passes text middle) (others : Passes middle after) :
    Passes text after := by
  obtain ⟨-, before, balanced, rfl⟩ := passes
  obtain ⟨behind, more, balancedMore, rfl⟩ := others
  exact ⟨behind, before ++ more, balanced.append balancedMore, (List.append_assoc _ _ _).symm⟩

theorem suffix (passes : Passes text after) : after <:+ text := by
  obtain ⟨-, before, -, same⟩ := passes
  exact ⟨before, same.symm⟩

theorem plain {char : Char} (isPlain : isPlain char = true) (balanced : Balanced rest) :
    Passes (char :: rest) rest :=
  ⟨balanced, [char], .plain char [] isPlain .nil, rfl⟩

theorem literal (isQuote : isQuote quote = true) (body : LiteralBody quote inner)
    (balanced : Balanced rest) : Passes (quote :: (inner ++ quote :: rest)) rest :=
  ⟨balanced, quote :: (inner ++ [quote]), .literal quote inner [] isQuote body .nil, by simp⟩

theorem bracket {opening closing : Char} (opens : isOpening opening = true)
    (closes : isClosing closing = true) (balancedInside : Balanced inside)
    (balanced : Balanced rest) : Passes (opening :: (inside ++ closing :: rest)) rest :=
  ⟨balanced, opening :: (inside ++ [closing]),
    .bracket opening closing inside [] opens closes balancedInside .nil, by simp⟩

theorem dropWhile (balanced : Balanced text) {inClass : Char → Bool}
    (isPlain : ∀ char, inClass char = true → isPlain char = true) :
    Passes text (text.dropWhile inClass) :=
  ⟨balanced.of_dropWhile isPlain, text.takeWhile inClass,
    .of_all_isPlain fun char member => isPlain char (List.mem_takeWhile_imp member),
    List.takeWhile_append_dropWhile.symm⟩

theorem comma (passes : Passes text (',' :: rest)) : Passes text rest :=
  passes.trans (.plain (by decide) (passes.balanced.of_cons_plain (by decide)))

theorem length_comma (passes : Passes text (',' :: rest)) : rest.length < text.length :=
  passes.suffix.length_le

end Passes

/-- Every text is balanced up to a closing bracket, or up to where it gets stuck. -/
theorem exists_balanced (text : Text) : ∃ before rest, text = before ++ rest ∧ Balanced before ∧
    (Stuck rest ∨ ∃ closing after, isClosing closing = true ∧ rest = closing :: after) := by
  induction size : text.length using Nat.strongRecOn generalizing text with
  | ind size ih =>
    subst size
    cases text with
    | nil => exact ⟨[], [], rfl, .nil, .inl .nil⟩
    | cons char others =>
      have shorter {part : Text} (suffix : part <:+ others) :
          part.length < (char :: others).length :=
        Nat.lt_succ_of_le suffix.length_le
      rcases kind_cases char with isPlain | isQuote | opens | closes
      · obtain ⟨before, rest, rfl, balanced, ending⟩ := ih _ (shorter (List.suffix_refl _)) _ rfl
        exact ⟨char :: before, rest, rfl, .plain char _ isPlain balanced, ending⟩
      · cases isLiteral : literal? char others with
        | none => exact ⟨[], char :: others, rfl, .nil, .inl (.literal char _ isQuote isLiteral)⟩
        | some parts =>
          obtain ⟨body, rfl⟩ := literalBody_of_literal? isLiteral
          obtain ⟨before, rest, same, balanced, ending⟩ :=
            ih _ (shorter ⟨parts.1 ++ [char], by simp⟩) parts.2 rfl
          refine ⟨char :: (parts.1 ++ char :: before), rest, ?_,
            .literal char _ _ isQuote body balanced, ending⟩
          simp [← same]
      · obtain ⟨inside, rest, rfl, balancedInside, stuck | ⟨closing, after, closes, rfl⟩⟩ :=
          ih _ (shorter (List.suffix_refl _)) _ rfl
        · exact ⟨[], _, rfl, .nil, .inl (.bracket char inside rest opens balancedInside stuck)⟩
        · obtain ⟨before, rest, same, balanced, ending⟩ :=
            ih _ (shorter ⟨inside ++ [closing], by simp⟩) after rfl
          refine ⟨char :: (inside ++ closing :: before), rest, ?_,
            .bracket char closing _ _ opens closes balancedInside balanced, ending⟩
          simp [← same]
      · exact ⟨[], char :: others, rfl, .nil, .inr ⟨char, others, closes, rfl⟩⟩

/-! ## Closing brackets -/

/-- A split with a text put in front. -/
def precede (text : Text) (split : Option (Text × Text)) : Option (Text × Text) :=
  split.map fun (inner, after) => (text ++ inner, after)

theorem precede_append (first second : Text) (split : Option (Text × Text)) :
    precede (first ++ second) split = precede first (precede second split) := by
  cases split <;> simp [precede]

theorem precede_eq_some {split : Option (Text × Text)} {before after : Text} :
    precede text split = some (before, after) ↔
      ∃ inner, split = some (inner, after) ∧ before = text ++ inner := by
  rw [precede, Option.map_eq_some_iff]
  constructor
  · rintro ⟨⟨inner, _⟩, rfl, same⟩
    cases same
    exact ⟨inner, rfl, rfl⟩
  · rintro ⟨inner, rfl, rfl⟩
    exact ⟨(inner, after), rfl, rfl⟩

theorem closingFrom?_plain {char : Char} (isPlain : isPlain char = true) (depth : Nat)
    (rest : Text) : closingFrom? .code depth (char :: rest) =
      precede [char] (closingFrom? .code depth rest) := by
  obtain ⟨notQuote, notOpening, notClosing⟩ := isPlain_iff.mp isPlain
  simp [closingFrom?, ScanMode.next, notQuote, notOpening, notClosing, precede]

theorem closingFrom?_opening {char : Char} (opens : isOpening char = true) (depth : Nat)
    (rest : Text) : closingFrom? .code depth (char :: rest) =
      precede [char] (closingFrom? .code (depth + 1) rest) := by
  obtain ⟨notQuote, notClosing⟩ := opening_iff_of_isOpening opens
  simp [closingFrom?, ScanMode.next, opens, notQuote, notClosing, precede]

theorem closingFrom?_closing {char : Char} (closes : isClosing char = true) (depth : Nat)
    (rest : Text) : closingFrom? .code (depth + 1) (char :: rest) =
      precede [char] (closingFrom? .code depth rest) := by
  simp [closingFrom?, closes, precede]

theorem closingFrom?_quote (isQuote : isQuote quote = true) (depth : Nat)
    (rest : Text) : closingFrom? .code depth (quote :: rest) =
      precede [quote] (closingFrom? (.inside quote) depth rest) := by
  have notPlain := not_isPlain_of_isQuote isQuote
  rcases isQuote_iff.mp isQuote with rfl | rfl | rfl <;>
    simp [closingFrom?, ScanMode.next, isOpening, isClosing, Generated.isQuote, precede]

/-- Inside a literal, brackets do not count. -/
theorem closingFrom?_inside {mode : ScanMode} (isInside : mode ≠ .code) (char : Char) (depth : Nat)
    (rest : Text) : closingFrom? mode depth (char :: rest) =
      precede [char] (closingFrom? (mode.next char) depth rest) := by
  simp [closingFrom?, isInside, precede]

theorem closingFrom?_body (body : LiteralBody quote inner) (notBackslash : quote ≠ '\\')
    (depth : Nat) (rest : Text) : closingFrom? (.inside quote) depth (inner ++ quote :: rest) =
      precede (inner ++ [quote]) (closingFrom? .code depth rest) := by
  induction body with
  | nil =>
    rw [List.nil_append, closingFrom?_inside (by simp), ScanMode.next, if_neg notBackslash,
      if_pos rfl, List.nil_append]
  | hidden char others _ ih =>
    rw [List.cons_append, List.cons_append, closingFrom?_inside (by simp), ScanMode.next,
      if_pos rfl, closingFrom?_inside (by simp), ScanMode.next, ih, ← precede_append,
      ← precede_append]
    rfl
  | char char others isOther notQuote _ ih =>
    rw [List.cons_append, closingFrom?_inside (by simp), ScanMode.next, if_neg isOther,
      if_neg notQuote, ih, ← precede_append]
    rfl

theorem closingFrom?_endless (endless : literal? quote text = none) (depth : Nat) :
    closingFrom? (.inside quote) depth text = none := by
  fun_induction literal? quote text with
  | case1 => rfl
  | case2 hidden rest ih =>
    rw [closingFrom?_inside (by simp), ScanMode.next, if_pos rfl, closingFrom?_inside (by simp),
      ScanMode.next, ih (Option.map_eq_none_iff.mp endless)]
    rfl
  | case3 rest isLast =>
    cases rest with
    | nil => simp [closingFrom?]
    | cons hidden rest => exact absurd rfl (isLast hidden rest rfl)
  | case4 => cases endless
  | case5 char rest _ notBackslash notQuote ih =>
    rw [closingFrom?_inside (by simp), ScanMode.next, if_neg notBackslash, if_neg notQuote,
      ih (Option.map_eq_none_iff.mp endless)]
    rfl

/-- The search for a closing bracket passes over balanced code. -/
theorem Balanced.closingFrom? (balanced : Balanced text) (depth : Nat) (rest : Text) :
    Generated.closingFrom? .code depth (text ++ rest) =
      precede text (Generated.closingFrom? .code depth rest) := by
  induction balanced generalizing depth rest with
  | nil => simp [precede]
  | plain char others isPlain _ ih =>
    rw [List.cons_append, closingFrom?_plain isPlain, ih, ← precede_append]
    rfl
  | literal quote inner others isQuote body _ ih =>
    rw [List.cons_append, List.append_assoc, List.cons_append, closingFrom?_quote isQuote,
      closingFrom?_body body (ne_backslash_of_isQuote isQuote), ih, ← precede_append,
      ← precede_append]
    simp
  | bracket opening closing inside others opens closes _ _ ihInside ih =>
    rw [List.cons_append, List.append_assoc, List.cons_append, closingFrom?_opening opens, ihInside,
      closingFrom?_closing closes, ih, ← precede_append, ← precede_append, ← precede_append]
    simp

theorem Stuck.closingFrom? (stuck : Stuck text) (depth : Nat) :
    Generated.closingFrom? .code depth text = none := by
  induction stuck generalizing depth with
  | nil => rfl
  | literal quote rest isQuote endless =>
    rw [closingFrom?_quote isQuote, closingFrom?_endless endless]
    rfl
  | bracket opening inside rest opens balanced _ ih =>
    rw [closingFrom?_opening opens, balanced.closingFrom?, ih]
    rfl

/-- What a bracket encloses is the balanced code up to the next closing bracket. -/
theorem bracketed?_eq_some_iff : bracketed? text = some (inside, after) ↔
    Balanced inside ∧ ∃ closing, isClosing closing = true ∧ text = inside ++ closing :: after := by
  have found {closing : Char} (closes : isClosing closing = true) (after : Text) :
      closingFrom? .code 0 (closing :: after) = some ([], after) := by
    simp [closingFrom?, closes]
  constructor
  · intro isBracketed
    obtain ⟨before, rest, rfl, balanced, stuck | ⟨closing, others, closes, rfl⟩⟩ :=
      exists_balanced text
    · rw [bracketed?, balanced.closingFrom?, stuck.closingFrom?] at isBracketed
      cases isBracketed
    · rw [bracketed?, balanced.closingFrom?, found closes, precede_eq_some] at isBracketed
      obtain ⟨inner, same, rfl⟩ := isBracketed
      cases same
      rw [List.append_nil]
      exact ⟨balanced, closing, closes, rfl⟩
  · rintro ⟨balanced, closing, closes, rfl⟩
    rw [bracketed?, balanced.closingFrom?, found closes, precede_eq_some]
    exact ⟨[], rfl, (List.append_nil _).symm⟩

/-- Where brackets are closed, those are closed that are opened behind balanced code. -/
theorem Balanced.exists_bracketed {opening : Char} (balanced : Balanced text)
    (opens : isOpening opening = true)
    (found : bracketed? (text ++ opening :: rest) = some (inside, after)) :
    ∃ inner closing others, isClosing closing = true ∧ Balanced inner ∧
      rest = inner ++ closing :: others := by
  obtain ⟨inner, others, rfl, balancedInner, stuck | ⟨closing, others, closes, rfl⟩⟩ :=
    exists_balanced rest
  · have isStuck := Stuck.bracket opening inner others opens balancedInner stuck
    rw [bracketed?, balanced.closingFrom?, isStuck.closingFrom?] at found
    cases found
  · exact ⟨inner, closing, others, closes, balancedInner, rfl⟩

/-! ## Delimiters -/

/-- Inside a literal, delimiters do not count. -/
theorem toDelimiterFrom_inside {mode : ScanMode} (isInside : mode ≠ .code) (char : Char)
    (depth : Nat) (rest : Text) :
    toDelimiterFrom mode depth (char :: rest) = toDelimiterFrom (mode.next char) depth rest := by
  simp [toDelimiterFrom, isInside]

theorem toDelimiterFrom_body (body : LiteralBody quote inner) (notBackslash : quote ≠ '\\')
    (depth : Nat) (rest : Text) : toDelimiterFrom (.inside quote) depth (inner ++ quote :: rest) =
      toDelimiterFrom .code depth rest := by
  induction body with
  | nil =>
    rw [List.nil_append, toDelimiterFrom_inside (by simp), ScanMode.next, if_neg notBackslash,
      if_pos rfl]
  | hidden char others _ ih =>
    rw [List.cons_append, List.cons_append, toDelimiterFrom_inside (by simp), ScanMode.next,
      if_pos rfl, toDelimiterFrom_inside (by simp), ScanMode.next, ih]
  | char char others isOther notQuote _ ih =>
    rw [List.cons_append, toDelimiterFrom_inside (by simp), ScanMode.next, if_neg isOther,
      if_neg notQuote, ih]

theorem toDelimiterFrom_plain {char : Char} (isPlain : isPlain char = true)
    (depth : Nat) (passed : char = ',' → depth ≠ 0) (rest : Text) :
    toDelimiterFrom .code depth (char :: rest) = toDelimiterFrom .code depth rest := by
  obtain ⟨notQuote, notOpening, notClosing⟩ := isPlain_iff.mp isPlain
  have notStop : ¬(depth = 0 ∧ char = ',') := fun stop => passed stop.2 stop.1
  simp [toDelimiterFrom, ScanMode.next, notQuote, notOpening, notClosing, notStop]

theorem toDelimiterFrom_literal (isQuote : isQuote quote = true) (body : LiteralBody quote inner)
    (depth : Nat) (rest : Text) : toDelimiterFrom .code depth (quote :: (inner ++ quote :: rest)) =
      toDelimiterFrom .code depth rest := by
  rw [← toDelimiterFrom_body body (ne_backslash_of_isQuote isQuote) depth rest]
  rcases isQuote_iff.mp isQuote with rfl | rfl | rfl <;>
    simp [toDelimiterFrom, ScanMode.next, isOpening, isClosing, Generated.isQuote]

theorem toDelimiterFrom_opening {char : Char} (opens : isOpening char = true) (rest : Text) :
    toDelimiterFrom .code depth (char :: rest) = toDelimiterFrom .code (depth + 1) rest := by
  rcases isOpening_iff.mp opens with rfl | rfl | rfl <;>
    simp [toDelimiterFrom, ScanMode.next, isOpening, isClosing, isQuote]

theorem toDelimiterFrom_closing {char : Char} (closes : isClosing char = true) (rest : Text) :
    toDelimiterFrom .code (depth + 1) (char :: rest) = toDelimiterFrom .code depth rest := by
  rcases isClosing_iff.mp closes with rfl | rfl | rfl <;>
    simp [toDelimiterFrom, ScanMode.next, isOpening, isClosing, isQuote]

/-- Inside brackets, the search for a delimiter passes over balanced code. -/
theorem Balanced.toDelimiterFrom (balanced : Balanced text) (depth : Nat) (rest : Text) :
    Generated.toDelimiterFrom .code (depth + 1) (text ++ rest) =
      Generated.toDelimiterFrom .code (depth + 1) rest := by
  induction balanced generalizing depth rest with
  | nil => rfl
  | plain char others isPlain _ ih =>
    rw [List.cons_append, toDelimiterFrom_plain isPlain _ fun _ => Nat.succ_ne_zero depth, ih]
  | literal quote inner others isQuote body _ ih =>
    rw [List.cons_append, List.append_assoc, List.cons_append,
      toDelimiterFrom_literal isQuote body, ih]
  | bracket opening closing inside others opens closes _ _ ihInside ih =>
    rw [List.cons_append, List.append_assoc, List.cons_append, toDelimiterFrom_opening opens,
      ihInside, toDelimiterFrom_closing closes, ih]

theorem toDelimiter_comma (rest : Text) : toDelimiter (',' :: rest) = ',' :: rest := by
  simp [toDelimiter, toDelimiterFrom]

theorem toDelimiter_bracket {opening closing : Char} (opens : isOpening opening = true)
    (closes : isClosing closing = true) (balanced : Balanced inside) (rest : Text) :
    toDelimiter (opening :: (inside ++ closing :: rest)) = toDelimiter rest := by
  rw [toDelimiter, toDelimiterFrom_opening opens, balanced.toDelimiterFrom,
    toDelimiterFrom_closing closes, toDelimiter]

/-- In balanced code, the next delimiter is a comma, if there is one. -/
theorem Balanced.toDelimiter_cases (balanced : Balanced text) : toDelimiter text = [] ∨
    ∃ others, toDelimiter text = ',' :: others ∧ Passes text (',' :: others) := by
  induction balanced with
  | nil => exact .inl rfl
  | plain char rest isPlain balanced ih =>
    by_cases isComma : char = ','
    · subst isComma
      exact .inr ⟨rest, toDelimiter_comma rest, .refl (.plain _ _ isPlain balanced)⟩
    · have passed : toDelimiter (char :: rest) = toDelimiter rest :=
        toDelimiterFrom_plain isPlain 0 (fun comma => absurd comma isComma) rest
      rw [passed]
      exact ih.imp_right fun ⟨others, comma, passes⟩ =>
        ⟨others, comma, (Passes.plain isPlain balanced).trans passes⟩
  | literal quote inner rest isQuote body balanced ih =>
    rw [toDelimiter, toDelimiterFrom_literal isQuote body]
    exact ih.imp_right fun ⟨others, comma, passes⟩ =>
      ⟨others, comma, (Passes.literal isQuote body balanced).trans passes⟩
  | bracket opening closing inside rest opens closes balancedInside balanced _ ih =>
    rw [toDelimiter_bracket opens closes balancedInside]
    exact ih.imp_right fun ⟨others, comma, passes⟩ =>
      ⟨others, comma, (Passes.bracket opens closes balancedInside balanced).trans passes⟩

end MdxBuild.Generated

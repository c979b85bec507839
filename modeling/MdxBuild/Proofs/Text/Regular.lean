import Mathlib.Data.List.Basic
import MdxBuild.Text.Regular

/-!
# Matching regular expressions

What the signs of a written expression are, and what its parts match from a place in a text on. The
trial engine finds, part by part, at which places of a text the parts match, so it conforms to the
notation.
-/

namespace MdxBuild.Regular

variable {atom : Atom} {parts : Expression} {before behind : Text}

/-! ## Notation -/

theorem ne_backslash_of_token? {char : Char} {token : Token} (isToken : token? char = some token) :
    char ≠ '\\' := by
  rintro rfl
  cases isToken

/-- A character that is no sign stands for itself. -/
theorem token?_of_not_isSign {char : Char} (plain : isSign char = false) :
    token? char = some (.atom (.literal char)) := by
  have differs : ∀ sign ∈ signs, char ≠ sign := by
    rintro sign member rfl
    rw [isSign, List.contains_iff_mem.mpr member] at plain
    cases plain
  rw [token?, if_neg (differs '^' (by decide)), if_neg (differs '$' (by decide)),
    if_neg (differs '.' (by decide)), if_neg (differs '*' (by decide)), plain]
  rfl

theorem tokens?_cons {char : Char} {token : Token} (isToken : token? char = some token)
    (rest : Text) : tokens? (char :: rest) = (tokens? rest).map (token :: ·) := by
  rw [tokens?, isToken]
  exact fun _ _ isBackslash _ => ne_backslash_of_token? isToken isBackslash

theorem tokens?_escaped {char : Char} (sign : isSign char = true) (rest : Text) :
    tokens? ('\\' :: char :: rest) = (tokens? rest).map (.atom (.literal char) :: ·) := by
  rw [tokens?, if_pos sign]

/-- The signs of a text that is read go on with those of what is behind it. -/
theorem tokens?_append {text : Text} {tokens : List Token} (read : tokens? text = some tokens)
    (rest : Text) : tokens? (text ++ rest) = (tokens? rest).map (tokens ++ ·) := by
  fun_induction tokens? text generalizing tokens with
  | case1 =>
    rw [← Option.some.inj read]
    simp
  | case2 char others sign ih =>
    obtain ⟨behind, readBehind, rfl⟩ := Option.map_eq_some_iff.mp read
    rw [List.cons_append, List.cons_append, tokens?_escaped sign, ih readBehind, Option.map_map]
    rfl
  | case3 => cases read
  | case4 => cases read
  | case5 char others _ token isToken ih =>
    obtain ⟨behind, readBehind, rfl⟩ := Option.map_eq_some_iff.mp read
    rw [List.cons_append, tokens?_cons isToken, ih readBehind, Option.map_map]
    rfl

/-- An atom with no repetition behind it matches once. -/
theorem parts?_atom_cons {tokens : List Token} (noMore : tokens.head? ≠ some .again) :
    parts? (.atom atom :: tokens) = (parts? tokens).map (.once atom :: ·) := by
  cases tokens with
  | nil => rfl
  | cons token others =>
    cases token with
    | again => exact absurd rfl noMore
    | _ => rfl

/-! ## Meaning -/

theorem matchesAt_start_iff :
    MatchesAt (.start :: parts) before behind ↔ before = [] ∧ MatchesAt parts [] behind := by
  constructor
  · rintro ⟨⟩
    next rest => exact ⟨rfl, rest⟩
  · rintro ⟨rfl, rest⟩
    exact .start rest

theorem matchesAt_finish_iff :
    MatchesAt (.finish :: parts) before behind ↔ behind = [] ∧ MatchesAt parts before [] := by
  constructor
  · rintro ⟨⟩
    next rest => exact ⟨rfl, rest⟩
  · rintro ⟨rfl, rest⟩
    exact .finish rest

theorem not_matchesAt_once_nil : ¬ MatchesAt (.once atom :: parts) before [] := by
  rintro ⟨⟩

theorem matchesAt_once_cons_iff {char : Char} {rest : Text} :
    MatchesAt (.once atom :: parts) before (char :: rest) ↔
      atom.accepts char = true ∧ MatchesAt parts (before ++ [char]) rest := by
  constructor
  · rintro ⟨⟩
    next accepts next => exact ⟨accepts, next⟩
  · rintro ⟨accepts, next⟩
    exact .once accepts next

theorem matchesAt_repeated_nil_iff :
    MatchesAt (.repeated atom :: parts) before [] ↔ MatchesAt parts before [] := by
  constructor
  · rintro ⟨⟩
    next rest => exact rest
  · exact .noMore

theorem matchesAt_repeated_cons_iff {char : Char} {rest : Text} :
    MatchesAt (.repeated atom :: parts) before (char :: rest) ↔
      MatchesAt parts before (char :: rest) ∨
        atom.accepts char = true ∧ MatchesAt (.repeated atom :: parts) (before ++ [char]) rest := by
  constructor
  · intro found
    cases found with
    | noMore next => exact .inl next
    | oneMore accepts next => exact .inr ⟨accepts, next⟩
  · rintro (next | ⟨accepts, next⟩)
    · exact .noMore next
    · exact .oneMore accepts next

/-- An expression that begins with the start of the text occurs there or not at all. -/
theorem occursIn_start_iff {text : Text} :
    OccursIn (.start :: parts) text ↔ MatchesAt parts [] text := by
  constructor
  · rintro ⟨before, behind, rfl, found⟩
    obtain ⟨rfl, rest⟩ := matchesAt_start_iff.mp found
    exact rest
  · intro found
    exact ⟨[], text, rfl, .start found⟩

end MdxBuild.Regular

namespace MdxBuild.Trial

open Regular

variable {atom : Atom} {parts : Expression} {before behind : Text}

/-! ## The trial engine -/

theorem tokens?_escape (text : Text) : tokens? (escape text) = some (literally text) := by
  induction text with
  | nil => rfl
  | cons char rest ih =>
    rw [escape, List.flatMap_cons, ← escape]
    split
    · next sign =>
      rw [List.cons_append, List.cons_append, List.nil_append, tokens?_escaped sign, ih]
      rfl
    · next plain =>
      rw [Bool.not_eq_true] at plain
      rw [List.cons_append, List.nil_append, tokens?_cons (token?_of_not_isSign plain), ih]
      rfl

/-- The flags say for each place of the text behind `before` whether the parts match there. -/
inductive AreFlags (parts : Expression) : (before text : Text) → List Bool → Prop
  | last {before : Text} {flag : Bool} (meaning : flag = true ↔ MatchesAt parts before []) :
    AreFlags parts before [] [flag]
  | next {before rest : Text} {char : Char} {flag : Bool} {flags : List Bool}
    (meaning : flag = true ↔ MatchesAt parts before (char :: rest))
    (behind : AreFlags parts (before ++ [char]) rest flags) :
    AreFlags parts before (char :: rest) (flag :: flags)

theorem AreFlags.headD_iff {flags : List Bool} (areFlags : AreFlags parts before behind flags) :
    flags.headD false = true ↔ MatchesAt parts before behind := by
  cases areFlags with
  | last meaning => exact meaning
  | next meaning _ => exact meaning

theorem areFlags_done (before text : Text) :
    AreFlags [] before text (text.map (fun _ => true) ++ [true]) := by
  induction text generalizing before with
  | nil => exact .last (iff_of_true rfl .done)
  | cons char rest ih => exact .next (iff_of_true rfl .done) (ih _)

/-- Behind the first place of a text nothing starts. -/
theorem areFlags_start_of_ne_nil {flags : List Bool} (later : before ≠ [])
    (areFlags : AreFlags parts before behind flags) :
    AreFlags (.start :: parts) before behind (flags.map fun _ => false) := by
  have noStart {before behind : Text} (later : before ≠ []) :
      false = true ↔ MatchesAt (.start :: parts) before behind :=
    iff_of_false Bool.false_ne_true fun found => later (matchesAt_start_iff.mp found).1
  induction areFlags with
  | last _ => exact .last (noStart later)
  | next _ _ ih =>
    exact .next (noStart later) (ih (List.append_ne_nil_of_right_ne_nil _ (List.cons_ne_nil _ _)))

/-- At the first place of a text its start is passed over. -/
theorem areFlags_start {flag : Bool} {flags : List Bool}
    (areFlags : AreFlags parts [] behind (flag :: flags)) :
    AreFlags (.start :: parts) [] behind (flag :: flags.map fun _ => false) := by
  have isStart {behind : Text} :
      MatchesAt parts [] behind ↔ MatchesAt (.start :: parts) [] behind := by
    rw [matchesAt_start_iff, and_iff_right rfl]
  cases areFlags with
  | last meaning => exact .last (meaning.trans isStart)
  | next meaning behind =>
    exact .next (meaning.trans isStart) (areFlags_start_of_ne_nil (List.cons_ne_nil _ _) behind)

theorem areFlags_finish {flags : List Bool} (areFlags : AreFlags parts before behind flags) :
    AreFlags (.finish :: parts) before behind (finishFlags flags) := by
  induction areFlags with
  | last meaning => exact .last (meaning.trans (by rw [matchesAt_finish_iff, and_iff_right rfl]))
  | next _ behind ih =>
    have noFinish {before rest : Text} {char : Char} :
        false = true ↔ MatchesAt (.finish :: parts) before (char :: rest) :=
      iff_of_false Bool.false_ne_true fun found =>
        List.cons_ne_nil _ _ (matchesAt_finish_iff.mp found).1
    -- Only the last flag of a row is kept, so the row behind must be known not to be empty.
    cases behind with
    | last _ => exact .next noFinish ih
    | next _ _ => exact .next noFinish ih

theorem areFlags_once {flags : List Bool} (areFlags : AreFlags parts before behind flags) :
    AreFlags (.once atom :: parts) before behind (onceFlags atom behind flags) := by
  induction areFlags with
  | last _ => exact .last (iff_of_false Bool.false_ne_true not_matchesAt_once_nil)
  | next _ behind ih =>
    refine .next ?_ ih
    rw [Bool.and_eq_true, matchesAt_once_cons_iff, behind.headD_iff]

theorem areFlags_repeated {flags : List Bool} (areFlags : AreFlags parts before behind flags) :
    AreFlags (.repeated atom :: parts) before behind (repeatedFlags atom behind flags) := by
  induction areFlags with
  | last meaning => exact .last (meaning.trans matchesAt_repeated_nil_iff.symm)
  | next meaning _ ih =>
    refine .next ?_ ih
    rw [Bool.or_eq_true, Bool.and_eq_true, matchesAt_repeated_cons_iff, meaning, ih.headD_iff]

theorem areFlags_flags (parts : Expression) (text : Text) :
    AreFlags parts [] text (flags parts text) := by
  induction parts with
  | nil => exact areFlags_done [] text
  | cons part parts ih =>
    cases part with
    | start =>
      rw [flags]
      cases areParts : flags parts text with
      | nil => rw [areParts] at ih; cases ih
      | cons flag others =>
        rw [areParts] at ih
        exact areFlags_start ih
    | finish => exact areFlags_finish ih
    | once atom => exact areFlags_once ih
    | repeated atom => exact areFlags_repeated ih

theorem AreFlags.any_iff {flags : List Bool} (areFlags : AreFlags parts before behind flags) :
    flags.any id = true ↔
      ∃ skipped rest, skipped ++ rest = behind ∧ MatchesAt parts (before ++ skipped) rest := by
  induction areFlags with
  | @last before flag meaning =>
    rw [List.any_cons, List.any_nil, Bool.or_false, id, meaning]
    constructor
    · intro found
      exact ⟨[], [], rfl, by rwa [List.append_nil]⟩
    · rintro ⟨skipped, rest, isNil, found⟩
      obtain ⟨rfl, rfl⟩ := List.append_eq_nil_iff.mp isNil
      rwa [List.append_nil] at found
  | @next before others char flag flags meaning _ ih =>
    rw [List.any_cons, Bool.or_eq_true, ih, id, meaning]
    constructor
    · rintro (found | ⟨skipped, rest, rfl, found⟩)
      · exact ⟨[], char :: others, rfl, by rwa [List.append_nil]⟩
      · exact ⟨char :: skipped, rest, rfl, by rwa [List.append_assoc] at found⟩
    · rintro ⟨skipped, rest, isText, found⟩
      cases skipped with
      | nil =>
        rw [← isText]
        exact .inl (by rwa [List.append_nil] at found)
      | cons first skipped =>
        obtain ⟨rfl, rfl⟩ := List.cons.inj isText
        exact .inr ⟨skipped, rest, rfl, by rwa [List.append_assoc]⟩

/-- The trial engine conforms to the notation. -/
theorem conforms_engine : engine.Conforms where
  tokens?_escape := tokens?_escape
  compiles {_ expression} read _ := ⟨expression, by simp only [engine, read]⟩
  occurs_iff := by
    intro text expression matcher read compiled subject
    have isExpression : expression = matcher := by
      simp only [engine, read] at compiled
      exact Except.ok.inj compiled
    subst isExpression
    exact (areFlags_flags expression subject).any_iff

end MdxBuild.Trial

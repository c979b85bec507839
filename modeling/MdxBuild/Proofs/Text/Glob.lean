import MdxBuild.Proofs.Text.Regular
import MdxBuild.Route.Compiled

/-!
# What globs accept

A glob accepts the texts that are its literal pieces, in order, with a text without line feeds in
the place of each star. As a regular expression it is read as these pieces and gaps, whatever
characters the pieces are made of, so an engine finds what the glob accepts.
-/

namespace MdxBuild.Glob

open Regular

/-! ## Pieces and fillings -/

/-- The glob with a text in the place of each star. -/
def filled (glob : Text) (fillings : List Text) : Text :=
  (List.zipWith (· ++ ·) (glob.splitOn '*') (fillings ++ [[]])).flatten

/-- The text is the glob with a text in the place of each of its stars. -/
def IsFilled (glob text : Text) : Prop :=
  ∃ fillings : List Text, fillings.length = glob.count '*' ∧ text = filled glob fillings

theorem splitOn_star_cons (glob : Text) :
    ('*' :: glob).splitOn '*' = [] :: glob.splitOn '*' := by
  rw [List.splitOn_eq_splitOnP, List.splitOnP_cons_eq_if_modifyHead, if_pos (beq_self_eq_true '*'),
    ← List.splitOn_eq_splitOnP]

theorem splitOn_char_cons {char : Char} (plain : char ≠ '*') (glob : Text) :
    (char :: glob).splitOn '*' = (glob.splitOn '*').modifyHead (List.cons char) := by
  rw [List.splitOn_eq_splitOnP, List.splitOnP_cons_eq_if_modifyHead,
    if_neg (by rwa [beq_iff_eq]), ← List.splitOn_eq_splitOnP]

@[simp]
theorem filled_nil : filled [] [] = [] :=
  rfl

/-- The first filling stands in the place of the first star. -/
theorem filled_star_cons (glob filling : Text) (fillings : List Text) :
    filled ('*' :: glob) (filling :: fillings) = filling ++ filled glob fillings := by
  rw [filled, splitOn_star_cons]
  rfl

/-- Every other character stands for itself. -/
theorem filled_char_cons {char : Char} (plain : char ≠ '*') (glob : Text) (fillings : List Text) :
    filled (char :: glob) fillings = char :: filled glob fillings := by
  rw [filled, splitOn_char_cons plain, filled]
  obtain ⟨piece, pieces, arePieces⟩ := List.exists_cons_of_ne_nil (List.splitOn_ne_nil '*' glob)
  obtain ⟨first, others, areFillings⟩ :=
    List.exists_cons_of_ne_nil
      (List.append_ne_nil_of_right_ne_nil fillings (List.cons_ne_nil [] []))
  rw [arePieces, areFillings]
  rfl

/-! ## What is accepted -/

/-- A star accepts any text without line feeds. -/
theorem accepts_star_iff {glob text : Text} :
    accepts ('*' :: glob) text = true ↔
      ∃ filling rest, filling ++ rest = text ∧ '\n' ∉ filling ∧ accepts glob rest = true := by
  induction text with
  | nil =>
    rw [accepts_star_nil]
    constructor
    · intro accepted
      exact ⟨[], [], rfl, List.not_mem_nil, accepted⟩
    · rintro ⟨filling, rest, isNil, -, accepted⟩
      rwa [(List.append_eq_nil_iff.mp isNil).2] at accepted
  | cons char others ih =>
    rw [accepts_star_cons, Bool.or_eq_true, Bool.and_eq_true, bne_iff_ne, ih]
    constructor
    · rintro (accepted | ⟨noBreak, filling, rest, rfl, noBreaks, accepted⟩)
      · exact ⟨[], char :: others, rfl, List.not_mem_nil, accepted⟩
      · exact ⟨char :: filling, rest, rfl, List.not_mem_cons_of_ne_of_not_mem noBreak.symm noBreaks,
          accepted⟩
    · rintro ⟨filling, rest, isText, noBreaks, accepted⟩
      cases filling with
      | nil =>
        rw [← isText]
        exact .inl accepted
      | cons first filling =>
        obtain ⟨rfl, rfl⟩ := List.cons.inj isText
        rw [List.mem_cons, not_or] at noBreaks
        exact .inr ⟨Ne.symm noBreaks.1, filling, rest, rfl, noBreaks.2, accepted⟩

theorem accepts_char_iff {char : Char} (plain : char ≠ '*') {glob text : Text} :
    accepts (char :: glob) text = true ↔
      ∃ rest, text = char :: rest ∧ accepts glob rest = true := by
  cases text with
  | nil => simp [accepts_char_nil plain]
  | cons first others =>
    rw [accepts_char_cons plain, Bool.and_eq_true, beq_iff_eq]
    constructor
    · rintro ⟨rfl, accepted⟩
      exact ⟨others, rfl, accepted⟩
    · rintro ⟨rest, isText, accepted⟩
      obtain ⟨rfl, rfl⟩ := List.cons.inj isText
      exact ⟨rfl, accepted⟩

/-- A glob accepts what it becomes with texts without line feeds in the place of its stars. -/
theorem accepts_iff_exists_filled {glob text : Text} :
    accepts glob text = true ↔ ∃ fillings : List Text, fillings.length = glob.count '*' ∧
      text = filled glob fillings ∧ ∀ filling ∈ fillings, '\n' ∉ filling := by
  induction glob generalizing text with
  | nil =>
    rw [accepts_nil, List.isEmpty_iff]
    constructor
    · rintro rfl
      exact ⟨[], rfl, rfl, fun _ member => absurd member List.not_mem_nil⟩
    · rintro ⟨fillings, noStar, rfl, -⟩
      rw [List.eq_nil_of_length_eq_zero noStar, filled_nil]
  | cons char glob ih =>
    by_cases star : char = '*'
    · rw [star, accepts_star_iff, List.count_cons_self]
      constructor
      · rintro ⟨filling, rest, rfl, noBreaks, accepted⟩
        obtain ⟨fillings, size, rfl, allFree⟩ := ih.mp accepted
        exact ⟨filling :: fillings, congrArg (· + 1) size, (filled_star_cons ..).symm,
          List.forall_mem_cons.mpr ⟨noBreaks, allFree⟩⟩
      · rintro ⟨fillings, size, rfl, allFree⟩
        obtain ⟨filling, fillings, rfl⟩ := List.exists_cons_of_length_eq_add_one size
        obtain ⟨noBreaks, othersFree⟩ := List.forall_mem_cons.mp allFree
        refine ⟨filling, filled glob fillings, (filled_star_cons ..).symm, noBreaks, ih.mpr ?_⟩
        exact ⟨fillings, Nat.succ.inj size, rfl, othersFree⟩
    · rw [accepts_char_iff star, List.count_cons_of_ne star]
      constructor
      · rintro ⟨rest, rfl, accepted⟩
        obtain ⟨fillings, size, rfl, allFree⟩ := ih.mp accepted
        exact ⟨fillings, size, (filled_char_cons star ..).symm, allFree⟩
      · rintro ⟨fillings, size, rfl, allFree⟩
        exact ⟨filled glob fillings, filled_char_cons star ..,
          ih.mpr ⟨fillings, size, rfl, allFree⟩⟩

/-- Each filling stands in the filled glob. -/
theorem subset_filled {glob : Text} {fillings : List Text}
    (size : fillings.length = glob.count '*') :
    ∀ filling ∈ fillings, filling ⊆ filled glob fillings := by
  induction glob generalizing fillings with
  | nil =>
    rw [List.eq_nil_of_length_eq_zero size]
    exact fun _ member => absurd member List.not_mem_nil
  | cons char glob ih =>
    by_cases star : char = '*'
    · rw [star, List.count_cons_self] at size
      obtain ⟨first, others, rfl⟩ := List.exists_cons_of_length_eq_add_one size
      rw [star, filled_star_cons]
      refine List.forall_mem_cons.mpr ⟨List.subset_append_left .., fun filling member => ?_⟩
      exact List.subset_append_of_subset_right _ (ih (Nat.succ.inj size) filling member)
    · rw [List.count_cons_of_ne star] at size
      rw [filled_char_cons star]
      exact fun filling member => List.subset_cons_of_subset _ (ih size filling member)

/-- Without line feeds in it, a text is accepted exactly if it is the filled glob. -/
theorem accepts_iff_isFilled {glob text : Text} (oneLine : '\n' ∉ text) :
    accepts glob text = true ↔ IsFilled glob text := by
  rw [accepts_iff_exists_filled]
  constructor
  · rintro ⟨fillings, size, isFilled, -⟩
    exact ⟨fillings, size, isFilled⟩
  · rintro ⟨fillings, size, rfl⟩
    exact ⟨fillings, size, rfl, fun filling member isBreak =>
      oneLine (subset_filled size filling member isBreak)⟩

/-! ## Globs as expressions -/

/-- The part of an expression that a character of a glob is. -/
def partOf (char : Char) : Part :=
  if char = '*' then .repeated .any else .once (.literal char)

/-- The signs that a character of a glob is written with. -/
def tokensOf (char : Char) : List Token :=
  if char = '*' then [.atom .any, .again] else [.atom (.literal char)]

/-- The parts of a glob match the rest of a text if and only if the glob accepts it. -/
theorem matchesAt_map_partOf_iff {glob before behind : Text} :
    MatchesAt (glob.map partOf ++ [.finish]) before behind ↔ accepts glob behind = true := by
  induction glob generalizing before behind with
  | nil =>
    rw [accepts_nil, List.isEmpty_iff, List.map_nil, List.nil_append, matchesAt_finish_iff]
    exact and_iff_left .done
  | cons char glob ih =>
    rw [List.map_cons, List.cons_append]
    by_cases star : char = '*'
    · -- A star is passed over or takes one more character, so here the text is gone along.
      rw [partOf, if_pos star, star]
      induction behind generalizing before with
      | nil => rw [matchesAt_repeated_nil_iff, ih, accepts_star_nil]
      | cons first others ihOthers =>
        rw [matchesAt_repeated_cons_iff, ih, ihOthers, accepts_star_cons, Bool.or_eq_true,
          Bool.and_eq_true]
        rfl
    · rw [partOf, if_neg star]
      cases behind with
      | nil =>
        rw [accepts_char_nil star]
        exact iff_of_false not_matchesAt_once_nil Bool.false_ne_true
      | cons first others =>
        rw [matchesAt_once_cons_iff, ih, accepts_char_cons star, Bool.and_eq_true]
        rfl

theorem head?_tokensOf_append_ne (glob : Text) :
    (glob.flatMap tokensOf ++ [Token.finish]).head? ≠ some .again := by
  cases glob with
  | nil => rintro ⟨⟩
  | cons char glob =>
    rw [List.flatMap_cons, tokensOf]
    split <;> rintro ⟨⟩

/-- The signs of a glob and of the end make its parts and the end. -/
theorem parts?_flatMap_tokensOf (glob : Text) :
    parts? (glob.flatMap tokensOf ++ [.finish]) = some (glob.map partOf ++ [.finish]) := by
  induction glob with
  | nil => rfl
  | cons char glob ih =>
    rw [List.flatMap_cons, List.append_assoc, List.map_cons, List.cons_append, tokensOf, partOf]
    split
    · rw [List.cons_append, List.cons_append, List.nil_append, parts?, ih]
      rfl
    · rw [List.cons_append, List.nil_append, parts?_atom_cons (head?_tokensOf_append_ne glob), ih]
      rfl

/-- What the first part of a sequence begins with is what the sequence begins with. -/
theorem intercalate_cons_cons_first {α : Type} (separator : List α) (first : α) (part : List α)
    (parts : List (List α)) :
    separator.intercalate ((first :: part) :: parts) =
      first :: separator.intercalate (part :: parts) := by
  cases parts with
  | nil => rw [List.intercalate_singleton, List.intercalate_singleton]
  | cons next others =>
    rw [List.intercalate_cons_cons, List.intercalate_cons_cons]
    rfl

/-- The signs of the pieces, with those of a star between them, are the signs of the glob. -/
theorem intercalate_literally_splitOn (glob : Text) :
    [.atom .any, .again].intercalate ((glob.splitOn '*').map literally) =
      glob.flatMap tokensOf := by
  induction glob with
  | nil => rfl
  | cons char glob ih =>
    -- A star puts an empty piece in front, any other character goes into the first piece.
    obtain ⟨piece, pieces, arePieces⟩ := List.exists_cons_of_ne_nil (List.splitOn_ne_nil '*' glob)
    rw [List.flatMap_cons, tokensOf, ← ih, arePieces]
    split
    · next star =>
      rw [star, splitOn_star_cons, arePieces, List.map_cons, List.map_cons,
        List.intercalate_cons_cons]
      rfl
    · next plain =>
      rw [splitOn_char_cons plain, arePieces, List.modifyHead_cons, List.map_cons, List.map_cons,
        literally, List.map_cons, intercalate_cons_cons_first]
      rfl

variable {engine : Engine}

/-- Escaped pieces, with the notation of a star between them, are read piece by piece. -/
theorem tokens?_intercalate_escape (conforms : engine.Conforms) (pieces : List Text) :
    tokens? (".*".toList.intercalate (pieces.map engine.escape)) =
      some ([.atom .any, .again].intercalate (pieces.map literally)) := by
  induction pieces with
  | nil => rfl
  | cons piece pieces ih =>
    have readPiece := conforms.tokens?_escape piece
    have readStar : tokens? ".*".toList = some [.atom .any, .again] := rfl
    by_cases isLast : pieces = []
    · rw [isLast, List.map_singleton, List.map_singleton, List.intercalate_singleton,
        List.intercalate_singleton, readPiece]
    · rw [List.map_cons, List.map_cons,
        List.intercalate_cons_of_ne_nil (mt List.map_eq_nil_iff.mp isLast),
        List.intercalate_cons_of_ne_nil (mt List.map_eq_nil_iff.mp isLast), List.append_assoc,
        tokens?_append readPiece, tokens?_append readStar, ih, List.append_assoc]
      rfl

/-- The notation of a glob is read as its parts between the ends of the text. -/
theorem read?_expression (conforms : engine.Conforms) (glob : Text) :
    read? (expression engine glob) = some (.start :: (glob.map partOf ++ [.finish])) := by
  have read : tokens? (".*".toList.intercalate ((glob.splitOn '*').map engine.escape)) =
      some (glob.flatMap tokensOf) := by
    rw [tokens?_intercalate_escape conforms, intercalate_literally_splitOn]
  have readEnd : tokens? ['$'] = some [.finish] := rfl
  have readStart : token? '^' = some .start := rfl
  rw [read?, expression, List.cons_append, tokens?_cons readStart, tokens?_append read, readEnd]
  change parts? (.start :: (glob.flatMap tokensOf ++ [.finish])) = _
  rw [parts?, parts?_flatMap_tokensOf]
  rfl

/-- What the engine compiles a glob to finds exactly the texts that the glob accepts. -/
theorem occurs_eq_accepts (conforms : engine.Conforms) {glob : Text} {matcher : engine.Matcher}
    (compiled : engine.compile (expression engine glob) = .ok matcher) (text : Text) :
    engine.occurs matcher text = accepts glob text := by
  rw [Bool.eq_iff_iff, conforms.occurs_iff (read?_expression conforms glob) compiled,
    occursIn_start_iff, matchesAt_map_partOf_iff]

end MdxBuild.Glob

import MdxBuild.Proofs.Directive.Expansion
import MdxBuild.Proofs.Text.Part

/-!
# Blocks of a document

The marker lines of a document are properly nested if they pair up to blocks, each with an opening
line, what is inside, and a closing line of its own. An opening line may name any directive; only
the registered ones are known to an expansion. Its stack does not see the others, so it answers a
closing line with the innermost registered block. This is the block that the line belongs to exactly
if no block of an unregistered directive stands inside a registered one.
-/

namespace MdxBuild

open Text Expansion

/-- The name that an opening line gives, in lower case. It need not be registered. -/
def named? (line : Text) : Option Text :=
  (OpeningLine.read? (trimEnd (lineRemainder (content line)))).map fun opening =>
    asciiLower opening.name

/-- The lines of a document whose marker lines are properly nested. A line that is not fenced and
belongs to no block directly is no marker line. -/
inductive Outline where
  | done
  | line (role : LineRole) (text : Text)
      (noMarker : role = .outside → ¬IsCloser text ∧ named? text = none) (others : Outline)
  | block (opening closing : Text) (isOpening : (named? opening).isSome = true)
      (isCloser : IsCloser closing) (inside others : Outline)

namespace Outline

/-- The lines with their roles. -/
def entries : Outline → List (LineRole × Text)
  | done => []
  | line role text _ others => (role, text) :: others.entries
  | block opening closing _ _ inside others =>
    (.outside, opening) :: (inside.entries ++ (.outside, closing) :: others.entries)

/-- The pieces in which the marker lines of each registered block are replaced by its own tags, and
every other line is kept. -/
def pieces (registry : Registry) : Outline → List Piece
  | done => []
  | line role text _ others => .copied role text :: others.pieces registry
  | block opening closing _ _ inside others =>
    match blockOf? registry opening with
    | some opened =>
      .opening opened (ending opening) ::
        (inside.pieces registry ++ .closing opened (ending closing) :: others.pieces registry)
    | none =>
      .copied .outside opening ::
        (inside.pieces registry ++ .copied .outside closing :: others.pieces registry)

/-- No unregistered block stands inside a registered one; nor is there any at all, if what the
outline describes is `enclosed` by a registered block. -/
def IsSeparated (registry : Registry) : (enclosed : Bool) → Outline → Prop
  | _, done => True
  | enclosed, line _ _ _ others => others.IsSeparated registry enclosed
  | enclosed, block opening _ _ _ inside others =>
    (if (blockOf? registry opening).isSome then inside.IsSeparated registry true
      else enclosed = false ∧ inside.IsSeparated registry enclosed) ∧
    others.IsSeparated registry enclosed

instance decidableIsSeparated (registry : Registry) :
    ∀ (enclosed : Bool) (outline : Outline), Decidable (outline.IsSeparated registry enclosed)
  | _, done => .isTrue trivial
  | enclosed, line _ _ _ others => decidableIsSeparated registry enclosed others
  | enclosed, block opening _ _ _ inside others =>
    have := decidableIsSeparated registry true inside
    have := decidableIsSeparated registry enclosed inside
    have := decidableIsSeparated registry enclosed others
    inferInstanceAs (Decidable ((if (blockOf? registry opening).isSome then _ else _ ∧ _) ∧ _))

end Outline

variable {registry : Registry} {text name : Text} {stack : List Block}

/-! ## Opening lines -/

theorem exists_of_read? {opening : OpeningLine} (isRead : OpeningLine.read? text = some opening) :
    ∃ first rest, first.isAlpha = true ∧ text = directiveMarker ++ first :: rest := by
  rw [OpeningLine.read?] at isRead
  split at isRead
  · cases isRead
  · next afterMarker isMarker =>
    rw [after?_eq_some_iff] at isMarker
    split at isRead
    · cases isRead
    · next first rest =>
      split at isRead
      · next isAlpha => exact ⟨first, rest, isAlpha, isMarker⟩
      · cases isRead

/-- A line that names a directive is no closing line. -/
theorem not_isCloser_of_named? {line : Text} (isNamed : (named? line).isSome = true) :
    ¬IsCloser line := by
  rw [named?, Option.isSome_map, Option.isSome_iff_exists] at isNamed
  obtain ⟨opening, isRead⟩ := isNamed
  obtain ⟨first, rest, -, isText⟩ := exists_of_read? isRead
  have isPrefix := trimEndBy_prefix isBlank (lineRemainder (content line))
  rw [← trimEnd, isText] at isPrefix
  obtain ⟨more, isLine⟩ := isPrefix
  -- the text begins with a colon, so trimming takes nothing off its start
  have noBlank : trimStart (lineRemainder (content line)) = lineRemainder (content line) := by
    rw [trimStart, ← isLine]
    rfl
  rw [IsCloser, trim, noBlank, isText]
  intro isMarker
  have length := congrArg List.length isMarker
  simp [directiveMarker] at length

/-- A line opens a block exactly if it names a registered directive. -/
theorem isSome_blockOf?_iff {line : Text} :
    (blockOf? registry line).isSome = true ↔
      ∃ name, named? line = some name ∧ (registry.directive? name).isSome = true := by
  rw [blockOf?, Block.open?, named?]
  cases OpeningLine.read? (trimEnd (lineRemainder (content line))) with
  | none => simp
  | some opening => cases isMapped : registry.directive? (asciiLower opening.name) <;> simp [isMapped]

theorem blockOf?_of_named?_eq_none {line : Text} (unnamed : named? line = none) :
    blockOf? registry line = none := by
  rw [← Option.not_isSome_iff_eq_none, isSome_blockOf?_iff]
  rintro ⟨name, isNamed, -⟩
  rw [unnamed] at isNamed
  cases isNamed

namespace Outline

/-! ## The expansion of nested lines -/

@[simp]
theorem length_pieces (registry : Registry) (outline : Outline) :
    (outline.pieces registry).length = outline.entries.length := by
  induction outline with
  | done => rfl
  | line role text _ others ih => simp [pieces, entries, ih]
  | block opening closing _ _ inside others insideIh othersIh =>
    cases isBlock : blockOf? registry opening <;>
      simp [pieces, entries, isBlock, insideIh, othersIh]

/-- The pieces of the lines inside a block and those behind them are compared one by one. -/
theorem pieces_inj {first second more others : List Piece} (outline : Outline)
    (same : first ++ more = second ++ others) (isFirst : first.length = outline.entries.length)
    (isSecond : second.length = outline.entries.length) : first = second ∧ more = others :=
  List.append_inj same (isFirst.trans isSecond.symm)

theorem step_line {role : LineRole}
    (noMarker : role = .outside → ¬IsCloser text ∧ named? text = none) :
    step registry stack role text = (.copied role text, stack) := by
  cases fenced : role.isFenced with
  | true => exact step_of_isFenced fenced
  | false =>
    obtain rfl := isFenced_eq_false_iff.mp fenced
    obtain ⟨noCloser, unnamed⟩ := noMarker rfl
    exact step_plain noCloser (blockOf?_of_named?_eq_none unnamed)

/-- Separated lines get the pieces of their outline, and the open blocks are the same behind them.
The closing line of a block finds the stack as the opening line left it. -/
theorem run_entries {outline : Outline}
    (separated : outline.IsSeparated registry (!stack.isEmpty)) :
    run registry stack outline.entries = (outline.pieces registry, stack) := by
  induction outline generalizing stack with
  | done => rfl
  | line role text noMarker others ih =>
    rw [entries, run_cons, step_line noMarker, ih separated]
    rfl
  | block opening closing isOpening isCloser inside others insideIh othersIh =>
    obtain ⟨insideSeparated, othersSeparated⟩ := separated
    have noCloser := not_isCloser_of_named? isOpening
    rw [entries, run_cons, pieces]
    cases isBlock : blockOf? registry opening with
    | some opened =>
      rw [isBlock, Option.isSome_some, if_pos rfl] at insideSeparated
      have isRun : run registry (opened :: stack) inside.entries = _ := insideIh insideSeparated
      rw [step_opening noCloser isBlock, run_append, isRun, run_cons, step_closer_cons isCloser,
        othersIh othersSeparated]
    | none =>
      rw [isBlock, Option.isSome_none, if_neg Bool.false_ne_true] at insideSeparated
      obtain ⟨atTop, insideSeparated⟩ := insideSeparated
      obtain rfl : stack = [] := by simpa using atTop
      rw [step_plain noCloser isBlock, run_append, insideIh insideSeparated, run_cons,
        step_closer_nil isCloser, othersIh othersSeparated]

/-- Lines that get the pieces of their outline are separated. A closing line of an unregistered
block inside a registered one would be answered with a tag. -/
theorem isSeparated_of_run {outline : Outline}
    (same : (run registry stack outline.entries).1 = outline.pieces registry) :
    outline.IsSeparated registry (!stack.isEmpty) := by
  induction outline generalizing stack with
  | done => trivial
  | line role text noMarker others ih =>
    rw [entries, run_cons, step_line noMarker, pieces, List.cons.injEq] at same
    exact ih same.2
  | block opening closing isOpening isCloser inside others insideIh othersIh =>
    have noCloser := not_isCloser_of_named? isOpening
    rw [entries, run_cons, pieces] at same
    cases isBlock : blockOf? registry opening with
    | some opened =>
      simp only [step_opening noCloser isBlock, isBlock, run_append, List.cons.injEq, true_and]
        at same
      obtain ⟨sameInside, sameRest⟩ :=
        pieces_inj inside same (length_run _ _ _) (length_pieces _ _)
      have insideSeparated := insideIh sameInside
      rw [run_entries insideSeparated, run_cons, step_closer_cons isCloser,
        List.cons.injEq] at sameRest
      refine ⟨?_, othersIh sameRest.2⟩
      rw [isBlock, Option.isSome_some, if_pos rfl]
      exact insideSeparated
    | none =>
      simp only [step_plain noCloser isBlock, isBlock, run_append, List.cons.injEq, true_and]
        at same
      obtain ⟨sameInside, sameRest⟩ :=
        pieces_inj inside same (length_run _ _ _) (length_pieces _ _)
      have insideSeparated := insideIh sameInside
      rw [run_entries insideSeparated, run_cons] at sameRest
      cases stack with
      | nil =>
        rw [step_closer_nil isCloser, List.cons.injEq] at sameRest
        refine ⟨?_, othersIh sameRest.2⟩
        rw [isBlock, Option.isSome_none, if_neg Bool.false_ne_true]
        exact ⟨rfl, insideSeparated⟩
      | cons innermost outer =>
        rw [step_closer_cons isCloser] at sameRest
        cases sameRest

/-- In a document with properly nested marker lines, an expansion replaces exactly the marker lines
of the registered blocks, each by the tag of its own block, if and only if no unregistered block
stands inside a registered one. -/
theorem pieces_eq_iff_isSeparated (registry : Registry) (useBuiltin : Bool) {source : Text}
    {outline : Outline} (isOutline : outline.entries = linesWithRoles source) :
    (expandDirectives registry useBuiltin source).pieces =
        outline.pieces (registry.withBuiltin useBuiltin) ↔
      outline.IsSeparated (registry.withBuiltin useBuiltin) false := by
  constructor
  · intro same
    rw [pieces_expandDirectives, ofLines, ← isOutline] at same
    rw [← List.append_nil (outline.pieces _)] at same
    exact isSeparated_of_run (pieces_inj outline same (length_run _ _ _) (length_pieces _ _)).1
  · intro separated
    have isRun : run _ [] outline.entries = (outline.pieces _, []) := run_entries separated
    rw [pieces_expandDirectives, ofLines, ← isOutline, isRun]
    exact List.append_nil _

/-- A block with one line of text. -/
def ofText (opening text : Text) (isOpening : (named? opening).isSome = true)
    (noMarker : ¬IsCloser text ∧ named? text = none) (others : Outline) : Outline :=
  .block opening ":::\n".toList isOpening (by decide) (.line .outside text (fun _ => noMarker) .done)
    others

/-- A registered block inside an unregistered one. -/
def Trial.separated : Outline :=
  .block ":::mystery\n".toList ":::\n".toList (by decide) (by decide)
    (.ofText ":::note\n".toList "text\n".toList (by decide) (by decide) .done) .done

/-- Where a registered block stands inside an unregistered one, its lines and no others are
replaced. -/
theorem pieces_of_separated :
    (expandDirectives {} true ":::mystery\n:::note\ntext\n:::\n:::\n".toList).pieces =
      Trial.separated.pieces (Registry.withBuiltin {} true) :=
  (pieces_eq_iff_isSeparated {} true (by decide +kernel)).mpr (by decide +kernel)

/-- An unregistered block inside a registered one. -/
def Trial.mixed : Outline :=
  .block ":::note\n".toList ":::\n".toList (by decide) (by decide)
    (.ofText ":::mystery\n".toList "text\n".toList (by decide) (by decide)
      (.line .outside "after\n".toList (by decide) .done)) .done

/-- Where an unregistered block stands inside a registered one, the closing line of the inner block
is replaced by the tag that closes the outer one, and that of the outer block is kept. -/
theorem pieces_ne_of_mixed :
    Trial.mixed.entries = linesWithRoles ":::note\n:::mystery\ntext\n:::\nafter\n:::\n".toList ∧
    (expandDirectives {} true ":::note\n:::mystery\ntext\n:::\nafter\n:::\n".toList).pieces ≠
      Trial.mixed.pieces (Registry.withBuiltin {} true) ∧
    (expandDirectives {} true ":::note\n:::mystery\ntext\n:::\nafter\n:::\n".toList).code =
      ("<Aside data-directive=\"note\" type=\"note\">\n\n:::mystery\ntext\n\n</Aside>\n" ++
        "after\n:::\n").toList := by
  decide +kernel

end Outline

end MdxBuild

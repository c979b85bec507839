import MdxBuild.Directive.Expansion
import MdxBuild.Proofs.Markdown.Fence

/-!
# Steps of an expansion

Outside fences, a line closes the innermost open block, opens a block of a registered directive, or
is copied; fenced lines are copied always. `Move` lists what a line can do to the open blocks and
which piece comes of it, and `Moves` puts lines one after the other. Everything about runs over the
lines of a document is derived from the two.
-/

namespace MdxBuild.Expansion

open Text

/-- The line, if it is not fenced, closes the innermost open block. -/
def IsCloser (line : Text) : Prop :=
  trim (lineRemainder (content line)) = directiveMarker

instance (line : Text) : Decidable (IsCloser line) :=
  inferInstanceAs (Decidable (_ = _))

/-- The block that the line, if it is not fenced and no closing line, opens. -/
def blockOf? (registry : Registry) (line : Text) : Option Block :=
  Block.open? registry (linePrefix (content line)) (lineRemainder (content line))

variable {registry : Registry} {stack outer : List Block} {block : Block} {role : LineRole}
  {line : Text}

theorem isFenced_eq_false_iff : role.isFenced = false ↔ role = .outside := by
  cases role <;> decide

/-! ## One line -/

theorem step_of_isFenced (fenced : role.isFenced = true) :
    step registry stack role line = (.copied role line, stack) := by
  simp [step, fenced]

theorem step_closer_nil (closes : IsCloser line) :
    step registry [] .outside line = (.copied .outside line, []) := by
  rw [IsCloser] at closes
  simp [step, LineRole.isFenced, closes]

theorem step_closer_cons (closes : IsCloser line) (block : Block) (outer : List Block) :
    step registry (block :: outer) .outside line = (.closing block (ending line), outer) := by
  rw [IsCloser] at closes
  simp [step, LineRole.isFenced, closes]

theorem step_opening (noCloser : ¬IsCloser line) (opens : blockOf? registry line = some block) :
    step registry stack .outside line = (.opening block (ending line), block :: stack) := by
  rw [IsCloser] at noCloser
  rw [blockOf?] at opens
  simp [step, LineRole.isFenced, noCloser, opens]

theorem step_plain (noCloser : ¬IsCloser line) (opensNone : blockOf? registry line = none) :
    step registry stack .outside line = (.copied .outside line, stack) := by
  rw [IsCloser] at noCloser
  rw [blockOf?] at opensNone
  simp [step, LineRole.isFenced, noCloser, opensNone]

/-- What a line can do: the open blocks before it, the piece that stands for it, and the open blocks
after it. -/
inductive Move (registry : Registry) (role : LineRole) (line : Text) :
    List Block → Piece → List Block → Prop
  | copied (stack : List Block)
      (marksNothing : role = .outside →
        (IsCloser line ∧ stack = []) ∨ (¬IsCloser line ∧ blockOf? registry line = none)) :
      Move registry role line stack (.copied role line) stack
  | closes (block : Block) (outer : List Block) (outside : role = .outside)
      (isCloser : IsCloser line) :
      Move registry role line (block :: outer) (.closing block (ending line)) outer
  | opens (block : Block) (stack : List Block) (outside : role = .outside)
      (noCloser : ¬IsCloser line) (isBlock : blockOf? registry line = some block) :
      Move registry role line stack (.opening block (ending line)) (block :: stack)

theorem move_step (registry : Registry) (stack : List Block) (role : LineRole) (line : Text) :
    Move registry role line stack (step registry stack role line).1
      (step registry stack role line).2 := by
  cases fenced : role.isFenced with
  | true =>
    rw [step_of_isFenced fenced]
    refine .copied stack ?_
    rintro rfl
    cases fenced
  | false =>
    obtain rfl := isFenced_eq_false_iff.mp fenced
    by_cases isCloser : IsCloser line
    · cases stack with
      | nil =>
        rw [step_closer_nil isCloser]
        exact .copied [] fun _ => .inl ⟨isCloser, rfl⟩
      | cons block outer =>
        rw [step_closer_cons isCloser]
        exact .closes block outer rfl isCloser
    · cases isBlock : blockOf? registry line with
      | none =>
        rw [step_plain isCloser isBlock]
        exact .copied stack fun _ => .inr ⟨isCloser, isBlock⟩
      | some block =>
        rw [step_opening isCloser isBlock]
        exact .opens block stack rfl isCloser isBlock

/-! ## Many lines -/

@[simp]
theorem run_nil (registry : Registry) (stack : List Block) :
    run registry stack [] = ([], stack) :=
  rfl

theorem run_cons (registry : Registry) (stack : List Block) (role : LineRole) (line : Text)
    (others : List (LineRole × Text)) :
    run registry stack ((role, line) :: others) =
      ((step registry stack role line).1 ::
          (run registry (step registry stack role line).2 others).1,
        (run registry (step registry stack role line).2 others).2) :=
  rfl

theorem run_append (registry : Registry) (stack : List Block)
    (first second : List (LineRole × Text)) :
    run registry stack (first ++ second) =
      ((run registry stack first).1 ++ (run registry (run registry stack first).2 second).1,
        (run registry (run registry stack first).2 second).2) := by
  induction first generalizing stack with
  | nil => rfl
  | cons entry others ih =>
    obtain ⟨role, line⟩ := entry
    rw [List.cons_append, run_cons, ih, run_cons]
    rfl

/-- What lines with their roles do one after the other: each is answered with one piece. -/
inductive Moves (registry : Registry) :
    List Block → List (LineRole × Text) → List Piece → List Block → Prop
  | nil (stack : List Block) : Moves registry stack [] [] stack
  | cons (stack between final : List Block) (role : LineRole) (line : Text) (piece : Piece)
      (others : List (LineRole × Text)) (pieces : List Piece)
      (move : Move registry role line stack piece between)
      (moves : Moves registry between others pieces final) :
      Moves registry stack ((role, line) :: others) (piece :: pieces) final

theorem moves_run (registry : Registry) (stack : List Block) (entries : List (LineRole × Text)) :
    Moves registry stack entries (run registry stack entries).1 (run registry stack entries).2 := by
  induction entries generalizing stack with
  | nil => exact .nil stack
  | cons entry others ih =>
    obtain ⟨role, line⟩ := entry
    exact .cons stack _ _ role line _ others _ (move_step registry stack role line) (ih _)

/-- Each line is answered by one piece. -/
@[simp]
theorem length_run (registry : Registry) (stack : List Block)
    (entries : List (LineRole × Text)) :
    (run registry stack entries).1.length = entries.length := by
  induction entries generalizing stack with
  | nil => rfl
  | cons entry others ih =>
    obtain ⟨role, line⟩ := entry
    rw [run_cons, List.length_cons, ih, List.length_cons]

/-! ## Lines with their roles -/

/-- The lines behind a place where `state` is the open fence, each with its role. -/
def entriesFrom (state : Option Fence) (all : List Text) : List (LineRole × Text) :=
  (Fence.rolesFrom state (all.map content)).zip all

theorem entriesFrom_cons (state : Option Fence) (line : Text) (others : List Text) :
    entriesFrom state (line :: others) =
      ((Fence.observe state (lineRemainder (content line))).1, line) ::
        entriesFrom (Fence.observe state (lineRemainder (content line))).2 others :=
  rfl

theorem entriesFrom_append (state : Option Fence) (first second : List Text) :
    entriesFrom state (first ++ second) =
      entriesFrom state first ++ entriesFrom (Fence.stateAfter state (first.map content)) second := by
  rw [entriesFrom, List.map_append, Fence.rolesFrom_append, List.zip_append]
  · rfl
  · rw [Fence.length_rolesFrom, List.length_map]

@[simp]
theorem map_snd_entriesFrom (state : Option Fence) (all : List Text) :
    (entriesFrom state all).map Prod.snd = all := by
  rw [entriesFrom, List.map_snd_zip]
  rw [Fence.length_rolesFrom, List.length_map]

theorem linesWithRoles_eq (source : Text) : linesWithRoles source = entriesFrom none (lines source) :=
  rfl

@[simp]
theorem map_snd_linesWithRoles (source : Text) :
    (linesWithRoles source).map Prod.snd = lines source :=
  map_snd_entriesFrom none (lines source)

@[simp]
theorem length_linesWithRoles (source : Text) :
    (linesWithRoles source).length = (lines source).length := by
  rw [← map_snd_linesWithRoles, List.length_map]

/-! ## Documents -/

/-- The pieces for the lines of a document, and the blocks that it leaves open. -/
def ofLines (registry : Registry) (useBuiltin : Bool) (source : Text) : List Piece × List Block :=
  run (registry.withBuiltin useBuiltin) [] (linesWithRoles source)

@[simp]
theorem length_ofLines (registry : Registry) (useBuiltin : Bool) (source : Text) :
    (ofLines registry useBuiltin source).1.length = (lines source).length := by
  rw [ofLines, length_run, length_linesWithRoles]

theorem pieces_expandDirectives (registry : Registry) (useBuiltin : Bool) (source : Text) :
    (expandDirectives registry useBuiltin source).pieces =
      (ofLines registry useBuiltin source).1 ++
        closers (newlineOf source)
          ((ofLines registry useBuiltin source).1.flatMap (Piece.render (newlineOf source)))
          (ofLines registry useBuiltin source).2 :=
  rfl

@[simp]
theorem newline_expandDirectives (registry : Registry) (useBuiltin : Bool) (source : Text) :
    (expandDirectives registry useBuiltin source).newline = newlineOf source :=
  rfl

theorem code_expandDirectives (registry : Registry) (useBuiltin : Bool) (source : Text) :
    (expandDirectives registry useBuiltin source).code =
      (ofLines registry useBuiltin source).1.flatMap (Piece.render (newlineOf source)) ++
        (closers (newlineOf source)
          ((ofLines registry useBuiltin source).1.flatMap (Piece.render (newlineOf source)))
          (ofLines registry useBuiltin source).2).flatMap (Piece.render (newlineOf source)) := by
  rw [code, pieces_expandDirectives, List.flatMap_append]
  rfl

end MdxBuild.Expansion

import MdxBuild.Proofs.Directive.Expansion
import MdxBuild.Proofs.Markdown.Newline

/-!
# Blanking and expansion

Two readers follow the fences of a document: blanking, which looks at lines with their breaks, and
expansion, which looks at their contents. Breaks do not matter to fences, so each line has the same
role for both, and the pieces of an expansion tell what blanking leaves of the document.
-/

namespace MdxBuild

open Text

/-- Blanking empties the line at a position. -/
def IsBlanked (source : Text) (position : Nat) : Prop :=
  ∃ role, (fenceRoles (lines source))[position]? = some role ∧ role.isFenced = true

/-- What is left of a line if it is emptied where the piece for it is a copy of fenced code. -/
def Piece.blanked : Piece → Text → Text
  | .copied role _, line => blankLine role line
  | _, line => line

namespace Expansion

/-- The expansion has the line at a position as a copy of fenced code. -/
def CopiesFenced (expansion : Expansion) (source : Text) (position : Nat) : Prop :=
  ∃ role line, (lines source)[position]? = some line ∧
    expansion.pieces[position]? = some (.copied role line) ∧ role.isFenced = true

variable {registry : Registry} {stack after : List Block} {role other : LineRole} {piece : Piece}
  {line first : Text}

/-! ## One line -/

/-- Of a line that is copied, blanking leaves what its role tells. Tags stand for lines outside
fences. -/
theorem Move.blanked_eq (move : Move registry role line stack piece after) :
    piece.blanked line = blankLine role line := by
  cases move with
  | copied => rfl
  | closes block outer outside =>
    rw [outside]
    rfl
  | opens block stack outside =>
    rw [outside]
    rfl

theorem Move.eq_of_copied (move : Move registry other first stack (.copied role line) after) :
    (other, first) = (role, line) := by
  cases move
  rfl

/-- A fenced line is copied with its role. -/
theorem step_eq_copied_iff (fenced : role.isFenced = true) :
    (step registry stack other first).1 = .copied role line ↔ (other, first) = (role, line) := by
  constructor
  · intro isCopy
    have move := move_step registry stack other first
    rw [isCopy] at move
    exact move.eq_of_copied
  · intro same
    obtain ⟨rfl, rfl⟩ := Prod.mk.inj same
    rw [step_of_isFenced fenced]

/-! ## Many lines -/

theorem zipWith_blanked_run (state : Option Fence) (stack : List Block) (all : List Text) :
    List.zipWith Piece.blanked (run registry stack (entriesFrom state all)).1 all =
      List.zipWith blankLine (Fence.rolesFrom state (all.map content)) all := by
  induction all generalizing state stack with
  | nil => exact List.zipWith_nil_right
  | cons line others ih =>
    rw [entriesFrom_cons, run_cons, List.zipWith_cons_cons, (move_step ..).blanked_eq, ih, List.map_cons,
      Fence.rolesFrom_cons, List.zipWith_cons_cons]

theorem getElem?_run_eq_copied_iff (fenced : role.isFenced = true)
    (entries : List (LineRole × Text)) (position : Nat) :
    (run registry stack entries).1[position]? = some (.copied role line) ↔
      entries[position]? = some (role, line) := by
  induction entries generalizing stack position with
  | nil => simp
  | cons entry others ih =>
    obtain ⟨other, first⟩ := entry
    rw [run_cons]
    cases position with
    | zero =>
      rw [List.getElem?_cons_zero, List.getElem?_cons_zero, Option.some.injEq, Option.some.injEq,
        step_eq_copied_iff fenced]
    | succ position => exact ih position

/-! ## Documents -/

/-- Each line has the same role in an expansion as in blanking. -/
theorem linesWithRoles_eq_zip (source : Text) :
    linesWithRoles source = (fenceRoles (lines source)).zip (lines source) := by
  rw [linesWithRoles, fenceRoles, Fence.rolesFrom_map_content, fenceRoles]

theorem getElem?_pieces_eq_copied_iff (fenced : role.isFenced = true) {position : Nat}
    {source : Text} (inside : position < (lines source).length) (registry : Registry)
    (useBuiltin : Bool) :
    (expandDirectives registry useBuiltin source).pieces[position]? = some (.copied role line) ↔
      (fenceRoles (lines source))[position]? = some role ∧
        (lines source)[position]? = some line := by
  rw [pieces_expandDirectives, List.getElem?_append_left (by rwa [length_ofLines]), ofLines,
    getElem?_run_eq_copied_iff fenced, linesWithRoles_eq_zip, List.getElem?_zip_eq_some]

theorem copiesFenced_iff (registry : Registry) (useBuiltin : Bool) (source : Text)
    (position : Nat) :
    (expandDirectives registry useBuiltin source).CopiesFenced source position ↔
      IsBlanked source position := by
  constructor
  · rintro ⟨role, line, isLine, isCopy, fenced⟩
    have inside : position < (lines source).length := (List.getElem?_eq_some_iff.mp isLine).1
    rw [getElem?_pieces_eq_copied_iff fenced inside] at isCopy
    exact ⟨role, isCopy.1, fenced⟩
  · rintro ⟨role, isRole, fenced⟩
    have inside : position < (lines source).length := by
      rw [← Fence.length_rolesFrom none (lines source)]
      exact (List.getElem?_eq_some_iff.mp isRole).1
    have isLine := List.getElem?_eq_getElem inside
    refine ⟨role, _, isLine, ?_, fenced⟩
    exact (getElem?_pieces_eq_copied_iff fenced inside registry useBuiltin).mpr ⟨isRole, isLine⟩

/-- The pieces behind those for the lines have no line that they could be told of. -/
theorem zipWith_blanked_pieces (registry : Registry) (useBuiltin : Bool) (source : Text) :
    List.zipWith Piece.blanked (expandDirectives registry useBuiltin source).pieces (lines source) =
      List.zipWith blankLine (fenceRoles (lines source)) (lines source) := by
  have sameLength := length_ofLines registry useBuiltin source
  calc List.zipWith Piece.blanked (expandDirectives registry useBuiltin source).pieces (lines source)
      = List.zipWith Piece.blanked (expandDirectives registry useBuiltin source).pieces
          (lines source ++ []) := by rw [List.append_nil]
    _ = List.zipWith Piece.blanked (ofLines registry useBuiltin source).1 (lines source) := by
      rw [pieces_expandDirectives, List.zipWith_append sameLength, List.zipWith_nil_right,
        List.append_nil]
    _ = List.zipWith blankLine (fenceRoles ((lines source).map content)) (lines source) :=
      zipWith_blanked_run none [] (lines source)
    _ = List.zipWith blankLine (fenceRoles (lines source)) (lines source) := by
      rw [fenceRoles, Fence.rolesFrom_map_content, fenceRoles]

/-- Whatever line breaks a document has, blanking empties exactly the lines that an expansion copies
as fenced, and all that it leaves can be told from the pieces of the expansion. -/
theorem blanked_iff_copiesFenced (registry : Registry) (useBuiltin : Bool) (source : Text) :
    (∀ position, IsBlanked source position ↔
        (expandDirectives registry useBuiltin source).CopiesFenced source position) ∧
      blankFences source = (List.zipWith Piece.blanked
        (expandDirectives registry useBuiltin source).pieces (lines source)).flatten := by
  refine ⟨fun position => (copiesFenced_iff registry useBuiltin source position).symm, ?_⟩
  rw [zipWith_blanked_pieces, blankFences]

end Expansion

end MdxBuild

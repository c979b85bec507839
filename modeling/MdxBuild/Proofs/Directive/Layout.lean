import MdxBuild.Proofs.Directive.Expansion
import MdxBuild.Proofs.Text.Line

/-!
# Where tags stand

The text of a tag piece is the line of the tag between a part that leads up to it and a part that
follows. Whatever the pieces in front of a tag are, what they and the lead render to ends a line, so
the line of the tag begins where a line of the expanded text does.
-/

namespace MdxBuild

open Text

namespace Piece

/-- What a piece puts in front of the line of its tag: the line that sets a closing tag off. -/
def lead (newline : Text) : Piece → Text
  | .closing block _ =>
    match block.slots with
    | .markdown => trimEnd block.linePrefix ++ newline
    | .raw => []
  | _ => []

/-- The tag of a piece with its structural head. -/
def tagLine? : Piece → Option Text
  | .opening block _ => some (block.linePrefix ++ block.openingTag)
  | .closing block _ => some (block.linePrefix ++ block.closingTag)
  | _ => none

/-- What a piece puts behind its tag: the rest of the line, and the line that sets an opening tag
off. -/
def trail (newline : Text) : Piece → Text
  | .opening block ending =>
    match block.slots with
    | .markdown => newline ++ (trimEnd block.linePrefix ++ ending)
    | .raw => ending
  | .closing _ ending => ending
  | _ => []

variable {piece : Piece} {line : Text}

/-- The text of a tag piece in three parts. -/
theorem render_of_tagLine? (isLine : piece.tagLine? = some line) (newline : Text) :
    piece.render newline = piece.lead newline ++ (line ++ piece.trail newline) := by
  cases piece with
  | copied | lineBreak => cases isLine
  | opening block ending =>
    obtain rfl := Option.some.inj isLine
    cases isMarkdown : block.slots <;>
      simp [render, lead, trail, Block.openingMarkup, isMarkdown]
  | closing block ending =>
    obtain rfl := Option.some.inj isLine
    cases isMarkdown : block.slots <;>
      simp [render, lead, trail, Block.closingMarkup, isMarkdown]

theorem isComplete_lead (source : Text) (piece : Piece) :
    IsComplete (piece.lead (newlineOf source)) := by
  obtain ⟨returns, isBreak, -, -⟩ := exists_newlineOf source
  cases piece with
  | copied | opening | lineBreak => exact isComplete_nil
  | closing block ending =>
    rw [lead, isBreak]
    split
    · rw [← List.append_assoc]
      exact isComplete_concat _
    · exact isComplete_nil

end Piece

namespace Expansion

/-- A tag of an expansion by its position among the pieces, and as it stands in the text: what is in
front of its line, the line with the structural head, and what is behind. -/
inductive Shows (expansion : Expansion) (position : Nat) (piece : Piece) (front line behind : Text) :
    Prop
  | intro (before after : List Piece) (isSplit : expansion.pieces = before ++ piece :: after)
      (isPosition : position = before.length) (isLine : piece.tagLine? = some line)
      (isFront : front = before.flatMap (Piece.render expansion.newline) ++
        piece.lead expansion.newline)
      (isBehind : behind = piece.trail expansion.newline ++
        after.flatMap (Piece.render expansion.newline))

variable {registry : Registry} {stack after : List Block} {role : LineRole}
  {piece : Piece} {before behind : List Piece} {entries : List (LineRole × Text)}
  {newline body front line rest : Text} {expansion : Expansion} {position : Nat}

theorem Shows.code_eq (isShown : expansion.Shows position piece front line rest) :
    expansion.code = front ++ (line ++ rest) := by
  obtain ⟨before, after, isSplit, -, isLine, rfl, rfl⟩ := isShown
  rw [code, isSplit, List.flatMap_append, List.flatMap_cons, Piece.render_of_tagLine? isLine]
  simp only [List.append_assoc]

theorem Shows.tagLine?_eq (isShown : expansion.Shows position piece front line rest) :
    piece.tagLine? = some line := by
  cases isShown with
  | intro _ _ _ _ isLine => exact isLine

/-- The piece for a line that ends with a line feed ends with it. -/
theorem isComplete_render (move : Move registry role (body ++ ['\n']) stack piece after)
    (newline : Text) : IsComplete (piece.render newline) := by
  cases move with
  | copied => exact isComplete_concat body
  | closes | opens =>
    rw [Piece.render, ending_concat, ← List.append_assoc]
    exact isComplete_concat _

/-- In front of the piece for a line, all lines are complete. -/
theorem isComplete_front_run (areLines : AreLines (entries.map Prod.snd))
    (isSplit : (run registry stack entries).1 = before ++ piece :: behind) (newline : Text) :
    IsComplete (before.flatMap (Piece.render newline)) := by
  induction entries generalizing stack before with
  | nil => cases before <;> cases isSplit
  | cons entry others ih =>
    obtain ⟨role, line⟩ := entry
    cases before with
    | nil => exact isComplete_nil
    | cons first before =>
      rw [run_cons, List.cons_append, List.cons.injEq] at isSplit
      obtain ⟨rfl, isSplit⟩ := isSplit
      obtain ⟨-, -, areOthers, ⟨body, rfl⟩ | noMore⟩ := areLines.of_cons
      · rw [List.flatMap_cons]
        exact (isComplete_render (move_step ..) newline).append (ih areOthers isSplit)
      · obtain rfl := List.map_eq_nil_iff.mp noMore
        cases before <;> cases isSplit

/-! ## The end of a document -/

/-- The line break that completes a text. -/
def completion (written : Text) : List Piece :=
  if written.isEmpty || endsLine written then [] else [.lineBreak]

theorem closers_eq (newline written : Text) (isOpen : stack ≠ []) :
    closers newline written stack = completion written ++ stack.map (.closing · newline) := by
  cases stack with
  | nil => exact absurd rfl isOpen
  | cons block outer => rfl

theorem isComplete_completion (source written : Text) :
    IsComplete (written ++ (completion written).flatMap (Piece.render (newlineOf source))) := by
  obtain ⟨returns, isBreak, -, -⟩ := exists_newlineOf source
  rw [completion]
  split
  · next complete =>
    rw [List.flatMap_nil, List.append_nil]
    exact isComplete_iff.mpr complete
  · rw [List.flatMap_singleton, Piece.render, isBreak, ← List.append_assoc]
    exact isComplete_concat _

theorem isComplete_closings (source : Text) (closed : List Block) :
    IsComplete ((closed.map (Piece.closing · (newlineOf source))).flatMap
      (Piece.render (newlineOf source))) := by
  obtain ⟨returns, isBreak, -, -⟩ := exists_newlineOf source
  induction closed with
  | nil => exact isComplete_nil
  | cons block others ih =>
    rw [List.map_cons, List.flatMap_cons, Piece.render]
    refine IsComplete.append ?_ ih
    rw [isBreak, ← List.append_assoc]
    exact isComplete_concat _

/-- A tag among the pieces at the end closes one of the blocks that are still open. -/
theorem exists_of_closers {newline written : Text}
    (isSplit : closers newline written stack = before ++ piece :: behind)
    (isLine : piece.tagLine? = some line) :
    ∃ closed block left, stack = closed ++ block :: left ∧ piece = .closing block newline ∧
      before = completion written ++ closed.map (.closing · newline) := by
  have isOpen : stack ≠ [] := by
    rintro rfl
    cases before <;> cases isSplit
  rw [closers_eq newline written isOpen, List.append_eq_append_iff] at isSplit
  rcases isSplit with ⟨others, rfl, isSplit⟩ | ⟨others, isCompletion, isSplit⟩
  · obtain ⟨closed, more, rfl, rfl, isRest⟩ := List.map_eq_append_iff.mp isSplit
    obtain ⟨block, left, rfl, rfl, -⟩ := List.map_eq_cons_iff.mp isRest
    exact ⟨closed, block, left, rfl, rfl, rfl⟩
  · -- a line break is no tag, so the completion ends where the tag begins
    cases others with
    | nil =>
      rw [List.append_nil] at isCompletion
      obtain ⟨block, left, rfl, rfl, -⟩ := List.map_eq_cons_iff.mp isSplit.symm
      exact ⟨[], block, left, rfl, rfl, by rw [isCompletion, List.map_nil, List.append_nil]⟩
    | cons first others =>
      obtain ⟨rfl, -⟩ := List.cons.inj isSplit
      have isMember : piece ∈ completion written := by simp [isCompletion]
      rw [completion] at isMember
      split at isMember
      · cases isMember
      · obtain rfl := List.mem_singleton.mp isMember
        cases isLine

/-- A tag of an expansion stands for a marker line, or it closes a block that the document leaves
open. -/
theorem exists_of_pieces {useBuiltin : Bool} {source : Text}
    (isSplit : (expandDirectives registry useBuiltin source).pieces = before ++ piece :: behind)
    (isLine : piece.tagLine? = some line) :
    (∃ others, (ofLines registry useBuiltin source).1 = before ++ piece :: others) ∨
      ∃ closed block left, (ofLines registry useBuiltin source).2 = closed ++ block :: left ∧
        piece = .closing block (newlineOf source) ∧
        before = (ofLines registry useBuiltin source).1 ++
          (completion ((ofLines registry useBuiltin source).1.flatMap
            (Piece.render (newlineOf source))) ++ closed.map (.closing · (newlineOf source))) := by
  rw [pieces_expandDirectives, List.append_eq_append_iff] at isSplit
  rcases isSplit with ⟨others, rfl, isSplit⟩ | ⟨others, isWritten, isSplit⟩
  · obtain ⟨closed, block, left, isOpen, rfl, rfl⟩ := exists_of_closers isSplit isLine
    exact .inr ⟨closed, block, left, isOpen, rfl, rfl⟩
  · cases others with
    | nil =>
      rw [List.append_nil] at isWritten
      obtain ⟨closed, block, left, isOpen, rfl, isNil⟩ :=
        exists_of_closers (show _ = [] ++ piece :: behind from isSplit.symm) isLine
      refine .inr ⟨closed, block, left, isOpen, rfl, ?_⟩
      rw [← isNil, List.append_nil, isWritten]
    | cons first others =>
      obtain ⟨rfl, -⟩ := List.cons.inj isSplit
      exact .inl ⟨others, isWritten⟩

theorem areLines_linesWithRoles (source : Text) :
    AreLines ((linesWithRoles source).map Prod.snd) := by
  rw [map_snd_linesWithRoles]
  exact areLines_lines source

/-- What stands in front of the line of a tag ends a line. -/
theorem Shows.isComplete_front {useBuiltin : Bool} {source : Text}
    (isShown : (expandDirectives registry useBuiltin source).Shows position piece front line rest) :
    IsComplete front := by
  obtain ⟨before, after, isSplit, -, isLine, rfl, -⟩ := isShown
  rw [newline_expandDirectives]
  refine IsComplete.append ?_ (piece.isComplete_lead source)
  rcases exists_of_pieces isSplit isLine with ⟨others, isWritten⟩ | ⟨closed, -, -, -, -, rfl⟩
  · exact isComplete_front_run (areLines_linesWithRoles source) isWritten _
  · rw [List.flatMap_append, List.flatMap_append, ← List.append_assoc]
    exact (isComplete_completion source _).append (isComplete_closings source closed)

end Expansion

end MdxBuild

import MdxBuild.Proofs.Directive.Change
import MdxBuild.Proofs.Text.Newline

/-!
# Expanding documents with line breaks of two characters

The copy of a document with carriage returns is expanded as the document is: its pieces are copies
of the document's pieces. The texts of the two expansions differ in their line breaks only.
-/

namespace MdxBuild

open Text

variable {registry : Registry} {useBuiltin : Bool} {source line newline : Text}
  {others : List Text} {stack final : List Block} {piece : Piece} {pieces : List Piece}
  {entries : List (LineRole × Text)}

namespace Piece

/-- The piece for the copy of a line. -/
def withReturns : Piece → Piece
  | .copied role line => .copied role (Text.withReturns line)
  | .opening block ending => .opening block (Text.withReturns ending)
  | .closing block ending => .closing block (Text.withReturns ending)
  | .lineBreak => .lineBreak

/-- The text that a piece takes over as it is. -/
def taken : Piece → Text
  | .copied _ line => line
  | .opening _ ending => ending
  | .closing _ ending => ending
  | .lineBreak => []

theorem isTag_withReturns (piece : Piece) : piece.withReturns.isTag = piece.isTag := by
  cases piece <;> rfl

theorem opened?_withReturns (piece : Piece) : piece.withReturns.opened? = piece.opened? := by
  cases piece <;> rfl

/-! ## The text of a piece and that of its copy -/

theorem trimEnd_getLast?_ne (text : Text) : (trimEnd text).getLast? ≠ some '\r' := by
  intro isReturn
  have isLast : ((text.reverse.dropWhile isBlank)).head? = some '\r' := by
    rw [trimEnd, trimEndBy, List.getLast?_reverse] at isReturn
    exact isReturn
  have notBlank := List.head?_dropWhile_not isBlank text.reverse
  rw [isLast] at notBlank
  exact absurd notBlank (by decide)

theorem getLast?_openingTag (block : Block) : block.openingTag.getLast? = some '>' :=
  List.getLast?_concat

theorem getLast?_closingTag (block : Block) : block.closingTag.getLast? = some '>' :=
  List.getLast?_concat

theorem getLast?_append_congr {first second third fourth : Text}
    (sameFront : first.getLast? = third.getLast?) (same : second.getLast? = fourth.getLast?) :
    (first ++ second).getLast? = (third ++ fourth).getLast? := by
  rw [List.getLast?_append, List.getLast?_append, sameFront, same]

theorem getLast?_append_ne {first second : Text} {char : Char}
    (noFront : first.getLast? ≠ some char) (no : second.getLast? ≠ some char) :
    (first ++ second).getLast? ≠ some char := by
  rw [List.getLast?_append]
  cases isLast : second.getLast? with
  | none => exact noFront
  | some last => rwa [isLast] at no

theorem getLast?_append_tag_ne {tag : Text} (isTag : tag.getLast? = some '>') (front : Text) :
    (front ++ tag).getLast? ≠ some '\r' := by
  rw [List.getLast?_append, isTag, Option.some_or]
  decide

theorem getLast?_openingMarkup_ne (block : Block) (noReturn : newline.getLast? ≠ some '\r') :
    (block.openingMarkup newline).getLast? ≠ some '\r' := by
  have tagLast := getLast?_append_tag_ne (getLast?_openingTag block) block.linePrefix
  rw [Block.openingMarkup]
  split
  · exact getLast?_append_ne (getLast?_append_ne tagLast noReturn) (trimEnd_getLast?_ne _)
  · exact tagLast

theorem getLast?_closingMarkup_ne (newline : Text) (block : Block) :
    (block.closingMarkup newline).getLast? ≠ some '\r' := by
  rw [Block.closingMarkup]
  split <;> exact getLast?_append_tag_ne (getLast?_closingTag block) _

/-- A piece and its copy end with the same character. -/
theorem getLast?_render_withReturns (piece : Piece) :
    (piece.withReturns.render ['\r', '\n']).getLast? = (piece.render ['\n']).getLast? := by
  cases piece with
  | copied role line => exact getLast?_withReturns line
  | opening block ending =>
    apply getLast?_append_congr _ (getLast?_withReturns ending)
    rw [Block.openingMarkup, Block.openingMarkup]
    split
    · exact getLast?_append_congr (getLast?_append_congr rfl rfl) rfl
    · rfl
  | closing block ending =>
    apply getLast?_append_congr _ (getLast?_withReturns ending)
    rw [Block.closingMarkup, Block.closingMarkup]
    split
    · exact getLast?_append_congr (getLast?_append_congr (getLast?_append_congr rfl rfl) rfl) rfl
    · rfl
  | lineBreak => rfl

/-- No carriage return ends a piece, unless it takes one over. -/
theorem getLast?_render_ne (plain : '\r' ∉ piece.taken) :
    (piece.render ['\n']).getLast? ≠ some '\r' := by
  have noReturn : piece.taken.getLast? ≠ some '\r' :=
    fun isReturn => plain (List.mem_of_getLast? isReturn)
  cases piece with
  | copied role line => exact noReturn
  | opening block ending =>
    exact getLast?_append_ne (getLast?_openingMarkup_ne block (by decide)) noReturn
  | closing block ending => exact getLast?_append_ne (getLast?_closingMarkup_ne _ block) noReturn
  | lineBreak => decide

theorem unifyNewlines_openingMarkup (block : Block) :
    unifyNewlines (block.openingMarkup ['\r', '\n']) =
      unifyNewlines (block.openingMarkup ['\n']) := by
  have tagLast := getLast?_append_tag_ne (getLast?_openingTag block) block.linePrefix
  rw [Block.openingMarkup, Block.openingMarkup]
  split
  · rw [List.append_assoc, unifyNewlines_append tagLast, List.append_assoc,
      unifyNewlines_append tagLast]
    rfl
  · rfl

theorem unifyNewlines_closingMarkup (block : Block) :
    unifyNewlines (block.closingMarkup ['\r', '\n']) =
      unifyNewlines (block.closingMarkup ['\n']) := by
  have noReturn := trimEnd_getLast?_ne block.linePrefix
  rw [Block.closingMarkup, Block.closingMarkup]
  split
  · rw [List.append_assoc, List.append_assoc, unifyNewlines_append noReturn, List.append_assoc,
      List.append_assoc, unifyNewlines_append noReturn]
    rfl
  · rfl

/-- A piece and its copy differ in their line breaks only. -/
theorem unifyNewlines_render_withReturns (plain : '\r' ∉ piece.taken) :
    unifyNewlines (piece.withReturns.render ['\r', '\n']) =
      unifyNewlines (piece.render ['\n']) := by
  have sameTaken := (unifyNewlines_withReturns plain).trans (unifyNewlines_of_notMem plain).symm
  cases piece with
  | copied role line => exact sameTaken
  | opening block ending =>
    rw [withReturns, render, render,
      unifyNewlines_append (getLast?_openingMarkup_ne block (by decide)),
      unifyNewlines_append (getLast?_openingMarkup_ne block (by decide)),
      unifyNewlines_openingMarkup]
    exact congrArg _ sameTaken
  | closing block ending =>
    rw [withReturns, render, render, unifyNewlines_append (getLast?_closingMarkup_ne _ block),
      unifyNewlines_append (getLast?_closingMarkup_ne _ block), unifyNewlines_closingMarkup]
    exact congrArg _ sameTaken
  | lineBreak => rfl

end Piece

namespace Expansion

theorem step_withReturns (registry : Registry) (stack : List Block) (role : LineRole)
    (areLines : AreLines (line :: others)) :
    step registry stack role (withReturns line) =
      Prod.map Piece.withReturns id (step registry stack role line) := by
  rw [step.eq_def, step.eq_def, content_withReturns areLines, ending_withReturns areLines]
  simp only
  split
  · rfl
  · split
    · cases stack <;> rfl
    · split <;> rfl

theorem run_withReturns (registry : Registry) (stack : List Block)
    (areLines : AreLines (entries.map Prod.snd)) :
    run registry stack (entries.map (Prod.map id withReturns)) =
      Prod.map (List.map Piece.withReturns) id (run registry stack entries) := by
  induction entries generalizing stack with
  | nil => rfl
  | cons entry others ih =>
    rcases entry with ⟨role, line⟩
    rw [List.map_cons] at areLines ⊢
    rw [Prod.map_apply, run_cons, step_withReturns registry stack _ areLines, run_cons,
      Prod.map_fst, Prod.map_snd, ih _ areLines.of_cons.2.2.1]
    rfl

theorem entriesFrom_withReturns (state : Option Fence) {all : List Text}
    (areLines : AreLines all) :
    entriesFrom state (all.map withReturns) =
      (entriesFrom state all).map (Prod.map id withReturns) := by
  induction all generalizing state with
  | nil => rfl
  | cons line others ih =>
    rw [List.map_cons, entriesFrom_cons, content_withReturns areLines,
      ih _ areLines.of_cons.2.2.1, entriesFrom_cons, List.map_cons]
    rfl

/-- The lines of the copy are answered with the copies of pieces, and leave the same blocks open. -/
theorem ofLines_withReturns (registry : Registry) (useBuiltin : Bool) (source : Text) :
    ofLines registry useBuiltin (withReturns source) =
      Prod.map (List.map Piece.withReturns) id (ofLines registry useBuiltin source) := by
  have areLines := areLines_lines source
  rw [ofLines, linesWithRoles_eq, lines_withReturns, entriesFrom_withReturns none areLines,
    run_withReturns]
  · rfl
  · rwa [map_snd_entriesFrom]

theorem getLast?_flatMap_withReturns (pieces : List Piece) :
    ((pieces.map Piece.withReturns).flatMap (Piece.render ['\r', '\n'])).getLast? =
      (pieces.flatMap (Piece.render ['\n'])).getLast? := by
  induction pieces with
  | nil => rfl
  | cons piece others ih =>
    rw [List.map_cons, List.flatMap_cons, List.flatMap_cons, List.getLast?_append,
      List.getLast?_append, ih, piece.getLast?_render_withReturns]

theorem completion_congr {first second : Text} (same : first.getLast? = second.getLast?) :
    completion first = completion second := by
  have sameEmpty : first.isEmpty = second.isEmpty := by
    rw [Bool.eq_iff_iff, List.isEmpty_iff, List.isEmpty_iff, ← List.getLast?_eq_none_iff, same,
      List.getLast?_eq_none_iff]
  rw [completion, completion, sameEmpty, endsLine, endsLine, same]

theorem closers_withReturns {first second : Text} (same : first.getLast? = second.getLast?)
    (stack : List Block) :
    closers ['\r', '\n'] first stack = (closers ['\n'] second stack).map Piece.withReturns := by
  by_cases isClosed : stack = []
  · rw [isClosed]
    rfl
  · rw [closers_eq _ _ isClosed, closers_eq _ _ isClosed, completion_congr same, List.map_append,
      List.map_map]
    congr 1
    rw [completion]
    split <;> rfl

/-- The pieces of the copy are the copies of the document's pieces. -/
theorem pieces_withReturns (registry : Registry) (useBuiltin : Bool) (plain : '\r' ∉ source)
    (hasBreak : '\n' ∈ source) :
    (expandDirectives registry useBuiltin (withReturns source)).pieces =
      (expandDirectives registry useBuiltin source).pieces.map Piece.withReturns := by
  rw [pieces_expandDirectives, pieces_expandDirectives, ofLines_withReturns,
    newlineOf_withReturns hasBreak, newlineOf_of_notMem plain, List.map_append, Prod.map_fst,
    Prod.map_snd, closers_withReturns (getLast?_flatMap_withReturns _)]
  rfl

/-! ## Texts -/

theorem ending_subset (line : Text) : ending line ⊆ line := by
  have isSuffix : ending line <:+ line := ⟨content line, content_append_ending line⟩
  exact isSuffix.subset

theorem Move.taken_subset {role : LineRole} {between : List Block}
    (move : Move registry role line stack piece between) : piece.taken ⊆ line := by
  cases move with
  | copied => exact List.Subset.refl line
  | closes => exact ending_subset line
  | opens => exact ending_subset line

theorem Moves.taken_subset (moves : Moves registry stack entries pieces final)
    (member : piece ∈ pieces) : ∃ line ∈ entries.map Prod.snd, piece.taken ⊆ line := by
  induction moves with
  | nil => cases member
  | cons stack between final role line _ others pieces move moves ih =>
    rcases List.mem_cons.mp member with rfl | member
    · exact ⟨line, List.mem_cons_self, move.taken_subset⟩
    · rcases ih member with ⟨other, isOther, subset⟩
      exact ⟨other, List.mem_cons_of_mem line isOther, subset⟩

theorem notMem_taken (plain : '\r' ∉ source)
    (member : piece ∈ (expandDirectives registry useBuiltin source).pieces) :
    '\r' ∉ piece.taken := by
  rw [pieces_expandDirectives, List.mem_append] at member
  rcases member with isWritten | isForced
  · rcases (moves_run _ _ _).taken_subset isWritten with ⟨line, isLine, subset⟩
    rw [map_snd_linesWithRoles] at isLine
    intro isReturn
    apply plain
    rw [← flatten_lines source]
    exact List.mem_flatten_of_mem isLine (subset isReturn)
  · rcases mem_closers isForced with rfl | ⟨block, -, rfl⟩
    · exact List.not_mem_nil
    · rw [newlineOf_of_notMem plain, Piece.taken]
      decide

/-- Pieces and their copies differ in their line breaks only. -/
theorem unifyNewlines_flatMap_withReturns (plain : ∀ piece ∈ pieces, '\r' ∉ piece.taken) :
    unifyNewlines ((pieces.map Piece.withReturns).flatMap (Piece.render ['\r', '\n'])) =
      unifyNewlines (pieces.flatMap (Piece.render ['\n'])) := by
  induction pieces with
  | nil => rfl
  | cons piece others ih =>
    have isPlain := plain piece List.mem_cons_self
    have noReturn := piece.getLast?_render_ne isPlain
    rw [List.map_cons, List.flatMap_cons, List.flatMap_cons, unifyNewlines_append noReturn,
      unifyNewlines_append (piece.getLast?_render_withReturns ▸ noReturn),
      ih fun other member => plain other (List.mem_cons_of_mem piece member),
      piece.unifyNewlines_render_withReturns isPlain]

/-- The copy of a document is expanded as the document is, up to line breaks. -/
theorem expandDirectives_withReturns (registry : Registry) (useBuiltin : Bool)
    (plain : '\r' ∉ source) :
    let copy := expandDirectives registry useBuiltin (withReturns source)
    let expansion := expandDirectives registry useBuiltin source
    copy.usedComponents = expansion.usedComponents ∧ copy.changed = expansion.changed ∧
      unifyNewlines copy.code = unifyNewlines expansion.code := by
  intro copy expansion
  by_cases hasBreak : '\n' ∈ source
  · have arePieces : copy.pieces = expansion.pieces.map Piece.withReturns :=
      pieces_withReturns registry useBuiltin plain hasBreak
    constructor
    · rw [usedComponents, usedComponents, arePieces, List.filterMap_map]
      congr 1
      apply List.filterMap_congr
      exact fun piece _ => piece.opened?_withReturns
    constructor
    · rw [changed, changed, arePieces, List.any_map]
      congr 1
      funext piece
      exact piece.isTag_withReturns
    · have isCode : copy.code = copy.pieces.flatMap (Piece.render ['\r', '\n']) := by
        rw [code, newline_expandDirectives, newlineOf_withReturns hasBreak]
      have isPlainCode : expansion.code = expansion.pieces.flatMap (Piece.render ['\n']) := by
        rw [code, newline_expandDirectives, newlineOf_of_notMem plain]
      rw [isCode, isPlainCode, arePieces]
      exact unifyNewlines_flatMap_withReturns fun piece member => notMem_taken plain member
  · have isSame : copy = expansion := by
      change expandDirectives registry useBuiltin (withReturns source) = _
      rw [withReturns_of_notMem hasBreak]
    rw [isSame]
    exact ⟨rfl, rfl, rfl⟩

end Expansion

end MdxBuild

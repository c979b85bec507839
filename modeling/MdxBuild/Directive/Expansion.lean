import MdxBuild.Directive.Block

/-!
# Expanding directives

A document is expanded line by line, with the stack of the blocks that are open. The result is a
list of pieces: lines copied from the source and tags that stand for marker lines. The code is the
text of the pieces; which components are used and whether anything changed is read off the pieces
as well. Lines of fenced code are copied, whatever they look like.
-/

namespace MdxBuild

open Text

/-- A piece of an expanded document. -/
inductive Piece where
  /-- A line of the source, with the role it has among the fences. -/
  | copied (role : LineRole) (line : Text)
  /-- The opening tag that stands for an opening line, and the line's break. -/
  | opening (block : Block) (ending : Text)
  /-- The closing tag of a block, and the break behind it. -/
  | closing (block : Block) (ending : Text)
  /-- A line break before the tags that close what the source left open. -/
  | lineBreak
deriving DecidableEq, Repr

namespace Piece

/-- The text of a piece. -/
def render (newline : Text) : Piece → Text
  | .copied _ line => line
  | .opening block ending => block.openingMarkup newline ++ ending
  | .closing block ending => block.closingMarkup newline ++ ending
  | .lineBreak => newline

/-- The piece is a tag. -/
def isTag : Piece → Bool
  | .opening .. | .closing .. => true
  | _ => false

/-- The component whose opening tag the piece is. -/
def opened? : Piece → Option Text
  | .opening block _ => some block.component
  | _ => none

end Piece

/-- A document with its directive blocks expanded. -/
structure Expansion where
  /-- The line break of synthesized lines. -/
  newline : Text
  pieces : List Piece
deriving DecidableEq, Repr

namespace Expansion

/-- The expanded text. -/
def code (expansion : Expansion) : Text :=
  expansion.pieces.flatMap (Piece.render expansion.newline)

/-- The components that the expansion opened, sorted and each once. -/
def usedComponents (expansion : Expansion) : List Text :=
  sortedSet (expansion.pieces.filterMap Piece.opened?)

/-- Some marker line was replaced by a tag. -/
def changed (expansion : Expansion) : Bool :=
  expansion.pieces.any Piece.isTag

/-- The piece for a line with its role, and the open blocks after it. -/
def step (registry : Registry) (stack : List Block) (role : LineRole) (line : Text) :
    Piece × List Block :=
  let remainder := lineRemainder (content line)
  if role.isFenced then (.copied role line, stack)
  else if trim remainder = directiveMarker then
    match stack with
    | [] => (.copied role line, [])
    | block :: outer => (.closing block (ending line), outer)
  else
    match Block.open? registry (linePrefix (content line)) remainder with
    | some block => (.opening block (ending line), block :: stack)
    | none => (.copied role line, stack)

/-- The pieces for lines with their roles, and the blocks that stay open. -/
def run (registry : Registry) : List Block → List (LineRole × Text) → List Piece × List Block
  | stack, [] => ([], stack)
  | stack, (role, line) :: others =>
    let (piece, after) := step registry stack role line
    let (pieces, final) := run registry after others
    (piece :: pieces, final)

/-- The pieces that close the blocks still open at the end, the innermost first. -/
def closers (newline : Text) (written : Text) : List Block → List Piece
  | [] => []
  | stack =>
    (if written.isEmpty || endsLine written then [] else [.lineBreak]) ++
      stack.map (.closing · newline)

/-- The lines of a document, each with its role among the fences. -/
def linesWithRoles (source : Text) : List (LineRole × Text) :=
  (fenceRoles ((lines source).map content)).zip (lines source)

end Expansion

/-- Expands the directive blocks of a document into the tags of their components. With
`useBuiltin`, the built-in directives stand in where the registry declares none. -/
def expandDirectives (registry : Registry) (useBuiltin : Bool) (source : Text) : Expansion :=
  let newline := newlineOf source
  let (pieces, stack) :=
    Expansion.run (registry.withBuiltin useBuiltin) [] (Expansion.linesWithRoles source)
  let written := pieces.flatMap (Piece.render newline)
  ⟨newline, pieces ++ Expansion.closers newline written stack⟩

end MdxBuild

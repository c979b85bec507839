import MdxBuild.Proofs.Directive.Layout

/-!
# Nesting of tags

The tags that an expansion emits are properly nested, whatever the marker lines of the document look
like: a closing line without an open block is copied, and blocks without a closing line are closed
at the end. A closing tag has the line prefix and the component of the opening tag that it answers.
-/

namespace MdxBuild

open Text

/-- What the two tags of a block share: the structural head of their lines and the component. -/
structure Label where
  linePrefix : Text
  component : Text
deriving DecidableEq, Repr

/-- A tag that an expansion emits. -/
inductive Tag where
  | opening (label : Label)
  | closing (label : Label)
deriving DecidableEq, Repr

/-- The label of a block's tags. -/
def Block.label (block : Block) : Label :=
  ⟨block.linePrefix, block.component⟩

/-- The tag that a piece emits. -/
def Piece.tag? : Piece → Option Tag
  | .opening block _ => some (.opening block.label)
  | .closing block _ => some (.closing block.label)
  | _ => none

/-- The tags that an expansion emits, in order. -/
def Expansion.tags (expansion : Expansion) : List Tag :=
  expansion.pieces.filterMap Piece.tag?

namespace Tag

variable {label : Label} {labels : List Label} {tags more : List Tag}

/-- The line of a tag: the structural head of its label, then the component in angle brackets, in an
opening tag with attributes behind it. -/
inductive SpelledAs : Tag → Text → Prop
  | opening (label : Label) (attributes : Text) :
      SpelledAs (.opening label)
        (label.linePrefix ++ ('<' :: (label.component ++ ' ' :: (attributes ++ ['>']))))
  | closing (label : Label) :
      SpelledAs (.closing label) (label.linePrefix ++ ('<' :: '/' :: (label.component ++ ['>'])))

/-- Properly nested tags: each opening tag is answered by a closing tag with its label, and the tags
between the two are nested themselves. -/
inductive Nested : List Tag → Prop
  | nil : Nested []
  | block (label : Label) (inside others : List Tag) (nestedInside : Nested inside)
      (nested : Nested others) : Nested (.opening label :: (inside ++ .closing label :: others))

/-- Nested tags but for some opening tags that are not answered yet; their labels are listed from
the innermost to the outermost. -/
inductive LeavesOpen : List Label → List Tag → Prop
  | nested (tags : List Tag) (nested : Nested tags) : LeavesOpen [] tags
  | block (label : Label) (outer : List Label) (before inside : List Tag)
      (leavesOpen : LeavesOpen outer before) (nestedInside : Nested inside) :
      LeavesOpen (label :: outer) (before ++ .opening label :: inside)

theorem Nested.append (nested : Nested tags) (nestedMore : Nested more) :
    Nested (tags ++ more) := by
  induction nested with
  | nil => exact nestedMore
  | block label inside others nestedInside _ _ ih =>
    rw [List.cons_append, List.append_assoc, List.cons_append]
    exact .block label inside _ nestedInside ih

namespace LeavesOpen

theorem append (leavesOpen : LeavesOpen labels tags) (nestedMore : Nested more) :
    LeavesOpen labels (tags ++ more) := by
  cases leavesOpen with
  | nested _ nested => exact .nested _ (nested.append nestedMore)
  | block label outer before inside leavesOpen nestedInside =>
    rw [List.append_assoc, List.cons_append]
    exact .block label outer before _ leavesOpen (nestedInside.append nestedMore)

theorem opening (leavesOpen : LeavesOpen labels tags) (label : Label) :
    LeavesOpen (label :: labels) (tags ++ [.opening label]) :=
  .block label labels tags [] leavesOpen .nil

/-- A closing tag answers the innermost of the tags that are not answered yet. -/
theorem closing (leavesOpen : LeavesOpen (label :: labels) tags) :
    LeavesOpen labels (tags ++ [.closing label]) := by
  cases leavesOpen with
  | block _ _ before inside leavesOpen nestedInside =>
    rw [List.append_assoc]
    exact leavesOpen.append (.block label inside [] nestedInside .nil)

/-- Closing tags from the innermost to the outermost answer all tags. -/
theorem nested_append (leavesOpen : LeavesOpen labels tags) :
    Nested (tags ++ labels.map .closing) := by
  induction labels generalizing tags with
  | nil =>
    cases leavesOpen with
    | nested _ nested => exact nested.append .nil
  | cons label labels ih =>
    have closed := ih leavesOpen.closing
    rwa [List.append_assoc] at closed

end LeavesOpen

end Tag

namespace Expansion

open Tag

variable {registry : Registry} {stack after : List Block} {role : LineRole} {line : Text}
  {piece : Piece} {tags : List Tag}

theorem filterMap_tag?_cons (piece : Piece) (others : List Piece) :
    (piece :: others).filterMap Piece.tag? =
      piece.tag?.toList ++ others.filterMap Piece.tag? := by
  cases isTag : piece.tag? <;> simp [isTag]

/-- A line keeps the open blocks those whose tags are not answered yet. -/
theorem leavesOpen_move (move : Move registry role line stack piece after)
    (leavesOpen : LeavesOpen (stack.map Block.label) tags) :
    LeavesOpen (after.map Block.label) (tags ++ piece.tag?.toList) := by
  cases move with
  | copied stack _ => exact leavesOpen.append .nil
  | closes block outer _ _ => exact leavesOpen.closing
  | opens block stack _ _ _ => exact leavesOpen.opening block.label

theorem leavesOpen_run (entries : List (LineRole × Text))
    (leavesOpen : LeavesOpen (stack.map Block.label) tags) :
    LeavesOpen ((run registry stack entries).2.map Block.label)
      (tags ++ (run registry stack entries).1.filterMap Piece.tag?) := by
  induction entries generalizing stack tags with
  | nil => exact leavesOpen.append .nil
  | cons entry others ih =>
    obtain ⟨role, line⟩ := entry
    have next := ih (leavesOpen_move (move_step registry stack role line) leavesOpen)
    rwa [run_cons, filterMap_tag?_cons, ← List.append_assoc]

/-- The pieces at the end close the blocks that are still open, the innermost first. -/
theorem tags_closers (newline written : Text) (stack : List Block) :
    (closers newline written stack).filterMap Piece.tag? =
      (stack.map Block.label).map .closing := by
  cases stack with
  | nil => rfl
  | cons block outer =>
    have lineBreak : (if written.isEmpty || endsLine written then []
        else [Piece.lineBreak]).filterMap Piece.tag? = [] := by
      split <;> rfl
    rw [closers, List.filterMap_append, lineBreak, List.nil_append, List.filterMap_map,
      List.map_map]
    · exact congrFun List.filterMap_eq_map' _
    · exact List.cons_ne_nil block outer

/-- The line of a piece spells its tag. -/
theorem exists_spelledAs {tag : Tag} (isTag : piece.tag? = some tag) :
    ∃ line, piece.tagLine? = some line ∧ tag.SpelledAs line := by
  cases piece with
  | copied | lineBreak => cases isTag
  | opening block ending =>
    obtain rfl := Option.some.inj isTag
    refine ⟨_, rfl, ?_⟩
    convert SpelledAs.opening block.label block.attributeText using 1
    simp [Block.openingTag, Block.label]
  | closing block ending =>
    obtain rfl := Option.some.inj isTag
    refine ⟨_, rfl, ?_⟩
    convert SpelledAs.closing block.label using 1
    simp [Block.closingTag, Block.label]

/-- Every expansion emits properly nested tags. Those that stand for marker lines leave some tags
open, and the pieces behind the lines of the document close these, the innermost first. Each tag
stands in the code behind complete lines and is spelled as its label says, so a closing tag has the
head and the component of the opening tag that it answers. -/
theorem tags_nested (registry : Registry) (useBuiltin : Bool) (source : Text) :
    Nested (expandDirectives registry useBuiltin source).tags ∧
    (∃ written forced labels,
      (expandDirectives registry useBuiltin source).pieces = written ++ forced ∧
      written.length = (lines source).length ∧
      LeavesOpen labels (written.filterMap Piece.tag?) ∧
      forced.filterMap Piece.tag? = labels.map .closing) ∧
    ∀ before piece after tag,
      (expandDirectives registry useBuiltin source).pieces = before ++ piece :: after →
      piece.tag? = some tag →
      ∃ front line behind,
        (expandDirectives registry useBuiltin source).Shows before.length piece front line behind ∧
        tag.SpelledAs line ∧ IsComplete front ∧
        (expandDirectives registry useBuiltin source).code = front ++ (line ++ behind) := by
  have atStart : LeavesOpen (([] : List Block).map Block.label) [] := .nested [] .nil
  have written : LeavesOpen ((ofLines registry useBuiltin source).2.map Block.label)
      ((ofLines registry useBuiltin source).1.filterMap Piece.tag?) :=
    leavesOpen_run (linesWithRoles source) atStart
  refine ⟨?_, ⟨_, _, _, pieces_expandDirectives registry useBuiltin source, ?_, written, ?_⟩, ?_⟩
  · rw [tags, pieces_expandDirectives, List.filterMap_append, tags_closers]
    exact written.nested_append
  · exact length_ofLines registry useBuiltin source
  · exact tags_closers _ _ _
  · intro before piece after tag isSplit isTag
    obtain ⟨line, isLine, spelled⟩ := exists_spelledAs isTag
    have isShown : (expandDirectives registry useBuiltin source).Shows _ piece _ line _ :=
      .intro before after isSplit rfl isLine rfl rfl
    exact ⟨_, line, _, isShown, spelled, isShown.isComplete_front, isShown.code_eq⟩

/-- A quoted block around one without a prefix; the closing line closes the inner one, the quoted one
is left open, and a block of an unregistered directive stands between. -/
def Trial.quotedBlock : Text :=
  "> :::note\n:::tip\n> :::\n:::mystery\n".toList

/-- The inner block is closed without a prefix, and at the end the outer one behind its prefix. -/
theorem tags_of_quotedBlock :
    (expandDirectives {} true Trial.quotedBlock).tags =
      [.opening ⟨"> ".toList, "Aside".toList⟩, .opening ⟨[], "Aside".toList⟩,
        .closing ⟨[], "Aside".toList⟩, .closing ⟨"> ".toList, "Aside".toList⟩] ∧
    ∃ front behind, IsComplete front ∧
      (expandDirectives {} true Trial.quotedBlock).code = front ++ ("> </Aside>".toList ++ behind) := by
  refine ⟨by decide +kernel, ?_⟩
  obtain ⟨-, -, places⟩ := tags_nested {} true Trial.quotedBlock
  have isSplit : (expandDirectives {} true Trial.quotedBlock).pieces =
      (expandDirectives {} true Trial.quotedBlock).pieces.take 4 ++
        .closing ⟨"note".toList, none, [], "> ".toList, Registry.builtinMapping "note".toList,
          .markdown⟩ ['\n'] :: [] := by
    decide +kernel
  obtain ⟨front, line, behind, -, spelled, complete, isCode⟩ := places _ _ _ _ isSplit rfl
  cases spelled
  exact ⟨front, behind, complete, isCode⟩

end Expansion

end MdxBuild

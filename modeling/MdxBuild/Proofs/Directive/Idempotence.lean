import MdxBuild.Proofs.Directive.Change
import MdxBuild.Proofs.Directive.Fencing

/-!
# Expanding an expanded document

An expanded document holds no marker line that a second expansion would answer with a tag. The lines
that the first one copied have the same roles among the fences as before, and what it put between
them opens neither a fence nor a block. A closing line that was left is left again, since no block is
ever open. Such a document is its own expansion.
-/

namespace MdxBuild.Expansion

open Text

variable {registry : Registry} {useBuiltin : Bool} {source text first second line : Text}
  {state : Option Fence} {stack after final : List Block} {role : LineRole} {piece : Piece}
  {pieces : List Piece} {entries : List (LineRole × Text)} {all : List Text}

/-- No line of the text outside fences opens a block, if `state` is the open fence in front of the
text. -/
def IsExpanded (registry : Registry) (state : Option Fence) (text : Text) : Prop :=
  ∀ line, (LineRole.outside, line) ∈ entriesFrom state (lines text) → blockOf? registry line = none

/-! ## Expanded documents -/

/-- Where no line opens a block, no line is answered with a tag. -/
theorem Moves.not_isTag_of_blockOf? (moves : Moves registry [] entries pieces final)
    (opensNone : ∀ line, (LineRole.outside, line) ∈ entries → blockOf? registry line = none) :
    pieces.any Piece.isTag = false := by
  generalize atStart : ([] : List Block) = stack at moves
  induction moves with
  | nil => rfl
  | cons stack between final role line piece others pieces move moves ih =>
    cases move with
    | copied => exact ih (fun other member => opensNone other (List.mem_cons_of_mem _ member)) atStart
    | closes => cases atStart
    | opens block _ outside _ isBlock =>
      subst outside
      rw [opensNone line List.mem_cons_self] at isBlock
      cases isBlock

/-- An expanded document is left as it is. -/
theorem IsExpanded.not_changed (isExpanded : IsExpanded (registry.withBuiltin useBuiltin) none text) :
    (expandDirectives registry useBuiltin text).changed = false := by
  rw [changed_eq]
  exact (moves_run _ [] (linesWithRoles text)).not_isTag_of_blockOf? isExpanded

/-! ## Texts made of expanded parts -/

theorem IsExpanded.append (isExpanded : IsExpanded registry state first)
    (isExpandedSecond : IsExpanded registry (Fence.behind state first) second)
    (complete : IsComplete first) : IsExpanded registry state (first ++ second) := by
  intro line member
  rw [lines_append complete, entriesFrom_append, List.mem_append] at member
  rcases member with member | member
  · exact isExpanded line member
  · exact isExpandedSecond line member

/-- A tag is not a marker line. -/
theorem blockOf?_of_isMarkup (isMarkup : IsMarkup (lineRemainder (content line))) :
    blockOf? registry line = none := by
  cases isBlock : blockOf? registry line with
  | none => rfl
  | some block =>
    obtain ⟨blanks, more, isRemainder, isBlanks⟩ := isMarked_of_blockOf? isBlock
    rw [isRemainder] at isMarkup
    rcases isMarkup with isNil | isTag
    · simp at isNil
    · cases blanks with
      | nil => cases isTag
      | cons char blanks =>
        obtain rfl : char = '<' := Option.some.inj isTag
        exact absurd (isBlanks '<' List.mem_cons_self) (by decide)

/-- Added lines open no block, whatever the open fence. -/
theorem isExpanded_of_isMarkup (each : EachRemainder IsMarkup text) (state : Option Fence) :
    IsExpanded registry state text := fun line member =>
  blockOf?_of_isMarkup (each line (List.of_mem_zip member).2)

/-- The line breaks behind a text open no block. -/
theorem IsExpanded.append_breaks (isExpanded : IsExpanded registry state text) {breaks : Text}
    (isBreaks : ∀ char ∈ breaks, isLineBreak char = true) :
    IsExpanded registry state (text ++ breaks) := by
  obtain ⟨front, last, rfl, complete, noBreak⟩ := exists_complete_append text
  cases last with
  | nil =>
    rw [List.append_nil] at isExpanded ⊢
    exact isExpanded.append
      (isExpanded_of_isMarkup (eachRemainder_of_breaks isMarkup_nil isBreaks) _) complete
  | cons char rest =>
    have nonempty := List.cons_ne_nil char rest
    obtain ⟨more, others, rfl, isLines⟩ := exists_lines_append noBreak nonempty breaks
    have isMore : ∀ char ∈ more, isLineBreak char = true := fun char inMore =>
      isBreaks char (List.mem_append_left others inMore)
    intro line member
    rw [List.append_assoc, lines_append complete, isLines, entriesFrom_append, List.mem_append,
      entriesFrom_cons, List.mem_cons] at member
    rw [IsExpanded, lines_append complete, lines_of_notMem noBreak nonempty, entriesFrom_append,
      entriesFrom_cons] at isExpanded
    rcases member with inFront | isLast | inOthers
    · exact isExpanded line (List.mem_append_left _ inFront)
    · -- the content of the last line is the same, so it has the same role and opens the same block
      obtain ⟨isRole, rfl⟩ := Prod.mk.inj isLast
      rw [content_append isMore] at isRole
      rw [blockOf?, content_append isMore]
      apply isExpanded (char :: rest)
      rw [isRole]
      exact List.mem_append_right _ List.mem_cons_self
    · have isMarkup : EachRemainder IsMarkup others := eachRemainder_of_breaks isMarkup_nil
        fun char inOthers => isBreaks char (List.mem_append_right more inOthers)
      exact isExpanded_of_isMarkup isMarkup _ line inOthers

/-! ## The code of an expansion -/

theorem blockOf?_of_isCloser (isCloser : IsCloser line) : blockOf? registry line = none := by
  rw [← Option.not_isSome_iff_eq_none, isSome_blockOf?_iff]
  rintro ⟨name, isNamed, -⟩
  have named : (named? line).isSome = true := by rw [isNamed, Option.isSome_some]
  exact not_isCloser_of_named? named isCloser

/-- The piece for a line opens no block in a second reading. -/
theorem isExpanded_move
    (move : Move registry (Fence.observe state (lineRemainder (content line))).1 line stack piece
      after) (oneLine : registry.IsOneLine) (oneLineStack : ∀ block ∈ stack, block.IsOneLine)
    (noBreak : '\n' ∉ content line) (isLine : lines line = [line]) (source : Text) :
    IsExpanded registry state (piece.render (newlineOf source)) := by
  rcases (isOneLine_move move oneLine oneLineStack noBreak).2 with isCopy | ⟨-, oneLineTag⟩
  · subst isCopy
    intro other member
    rw [Piece.render, isLine, entriesFrom_cons, List.mem_cons] at member
    rcases member with isEntry | member
    · obtain ⟨isRole, rfl⟩ := Prod.mk.inj isEntry
      cases move with
      | copied _ marksNothing =>
        rcases marksNothing isRole.symm with ⟨isCloser, -⟩ | ⟨-, opensNone⟩
        · exact blockOf?_of_isCloser isCloser
        · exact opensNone
    · cases member
  · exact isExpanded_of_isMarkup (oneLineTag.eachRemainder_render source) state

/-- The pieces for lines open no block in a second reading. -/
theorem isExpanded_run (areLines : AreLines all) (oneLine : registry.IsOneLine)
    (oneLineStack : ∀ block ∈ stack, block.IsOneLine) (state : Option Fence) (source : Text) :
    IsExpanded registry state ((run registry stack (entriesFrom state all)).1.flatMap
      (Piece.render (newlineOf source))) := by
  induction all generalizing state stack with
  | nil => exact fun line member => by cases member
  | cons line others ih =>
    obtain ⟨isLine, noBreak, areOthers, ends⟩ := areLines.of_cons
    have move := move_step registry stack (Fence.observe state (lineRemainder (content line))).1 line
    have isExpanded := isExpanded_move move oneLine oneLineStack noBreak isLine source
    have sameFence := behind_move move oneLine oneLineStack noBreak isLine source
    rw [entriesFrom_cons, run_cons, List.flatMap_cons]
    rcases ends with ⟨body, rfl⟩ | rfl
    · apply isExpanded.append _ (isComplete_render move _)
      rw [sameFence]
      exact ih areOthers (isOneLine_move move oneLine oneLineStack noBreak).1 _
    · rw [entriesFrom, List.map_nil, Fence.rolesFrom, List.zip_nil_left, run_nil, List.flatMap_nil,
        List.append_nil]
      exact isExpanded

/-- The code of an expansion is expanded. -/
theorem isExpanded_code (oneLine : registry.IsOneLine) (useBuiltin : Bool) (source : Text) :
    IsExpanded (registry.withBuiltin useBuiltin) none
      (expandDirectives registry useBuiltin source).code := by
  obtain ⟨-, -, -, isBreaks⟩ := exists_newlineOf source
  have written : IsExpanded (registry.withBuiltin useBuiltin) none
      ((ofLines registry useBuiltin source).1.flatMap (Piece.render (newlineOf source))) :=
    isExpanded_run (areLines_lines source) (oneLine.withBuiltin useBuiltin) (List.forall_mem_nil _)
      none source
  rw [code_expandDirectives]
  by_cases isOpen : (ofLines registry useBuiltin source).2 = []
  · rw [isOpen, closers, List.flatMap_nil, List.append_nil]
    exact written
  · rw [closers_eq _ _ isOpen, List.flatMap_append, ← List.append_assoc]
    refine IsExpanded.append ?_ ?_ (isComplete_completion source _)
    · apply written.append_breaks
      rw [completion]
      split
      · exact List.forall_mem_nil _
      · rwa [List.flatMap_singleton]
    · exact isExpanded_of_isMarkup
        (eachRemainder_closings _ (isOneLine_ofLines oneLine useBuiltin source) source) _

/-- Expanding the code of an expansion changes nothing. -/
theorem expandDirectives_code (oneLine : registry.IsOneLine) (useBuiltin : Bool) (source : Text) :
    let once := expandDirectives registry useBuiltin source
    let twice := expandDirectives registry useBuiltin once.code
    twice.code = once.code ∧ twice.changed = false ∧ twice.usedComponents = [] := by
  intro once twice
  have unchanged : twice.changed = false := (isExpanded_code oneLine useBuiltin source).not_changed
  obtain ⟨sameCode, unused⟩ := copied_of_not_changed unchanged
  exact ⟨sameCode, unchanged, unused⟩

/-- A block in a quote with a fence, neither of them closed, and a carriage return at the end. -/
def Trial.openQuote : Text :=
  "> :::note[Title]\n> ```\n> :::\r".toList

/-- The block is closed in the fence, behind a line break, and nothing more is done to it. -/
theorem expandDirectives_code_of_openQuote :
    Registry.IsOneLine {} ∧
    (expandDirectives {} true Trial.openQuote).code =
      ("> <Aside data-directive=\"note\" type=\"note\" title=\"Title\">\n>\n" ++
        "> ```\n> :::\r\n>\n> </Aside>\n").toList ∧
    let once := expandDirectives {} true Trial.openQuote
    let twice := expandDirectives {} true once.code
    twice.code = once.code ∧ twice.changed = false ∧ twice.usedComponents = [] := by
  have oneLine : Registry.IsOneLine {} := by
    intro mapping member
    cases member
  exact ⟨oneLine, by decide +kernel, expandDirectives_code oneLine true Trial.openQuote⟩

end MdxBuild.Expansion

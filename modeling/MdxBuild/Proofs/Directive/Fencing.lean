import MdxBuild.Proofs.Directive.Block
import MdxBuild.Proofs.Directive.Layout
import MdxBuild.Proofs.Markdown.Fence

/-!
# Tags and fences

A tag that stands for a marker line is no part of fenced code, neither in the document nor in the
expanded text: the pieces of an expansion open and close the same fences as the lines they stand
for. The tags at the end close what is left open without regard to fences. They become part of
fenced code exactly if the document ends in an open fence.
-/

namespace MdxBuild

open Text

variable {registry : Registry} {stack after : List Block} {block : Block} {role : LineRole}
  {piece : Piece} {before behind : List Piece} {all : List Text} {state : Option Fence}
  {source line front rest : Text} {useBuiltin : Bool} {position : Nat}

/-! ## Tags as lines -/

/-- Of a line that an expansion adds, nothing remains behind the structural head, or a tag. -/
def IsMarkup (remainder : Text) : Prop :=
  remainder = [] ∨ remainder.head? = some '<'

theorem isMarkup_nil : IsMarkup [] :=
  .inl rfl

/-- What remains of an added line cannot start or end a fence. -/
theorem IsMarkup.read?_eq_none {remainder : Text} (isMarkup : IsMarkup remainder) :
    Fence.read? remainder = none := by
  rcases isMarkup with rfl | isTag
  · rfl
  · obtain ⟨rest, rfl⟩ := List.head?_eq_some_iff.mp isTag
    rfl

theorem isPlain_of_isMarkup {text : Text} (each : EachRemainder IsMarkup text) :
    Fence.IsPlain text :=
  each.mono fun _ => IsMarkup.read?_eq_none

/-- The line holds a tag and nothing else, behind a structural head. -/
inductive IsTagLine : Text → Prop
  | intro (head inside : Text) (isHead : ∀ char ∈ head, isLinePrefix char = true)
      (noBreak : '\n' ∉ head ++ '<' :: (inside ++ ['>'])) :
      IsTagLine (head ++ '<' :: (inside ++ ['>']))

namespace IsTagLine

theorem newline_notMem (isTagLine : IsTagLine line) : '\n' ∉ line := by
  cases isTagLine with
  | intro head inside isHead noBreak => exact noBreak

theorem ne_nil (isTagLine : IsTagLine line) : line ≠ [] := by
  cases isTagLine with
  | intro head inside isHead noBreak => simp

/-- Whatever follows the tag on its line, the line is one of a tag. -/
theorem isMarkup (isTagLine : IsTagLine line) (more : Text) :
    IsMarkup (lineRemainder (content (line ++ more))) := by
  cases isTagLine with
  | intro head inside isHead noBreak =>
    have isContent : content (head ++ '<' :: (inside ++ ['>'])) = head ++ '<' :: (inside ++ ['>']) := by
      rw [← List.cons_append, ← List.append_assoc]
      exact content_concat_of_not (by decide) _
    rw [content_append_of_eq isContent, List.append_assoc, lineRemainder,
      List.dropWhile_append_of_pos isHead]
    exact .inr rfl

/-- The tag and the line breaks behind it. -/
theorem eachRemainder (isTagLine : IsTagLine line) {breaks : Text}
    (isBreaks : ∀ char ∈ breaks, isLineBreak char = true) :
    EachRemainder IsMarkup (line ++ breaks) := by
  apply eachRemainder_append_breaks isMarkup_nil isTagLine.newline_notMem
  · have isMarkup := isTagLine.isMarkup []
    rwa [List.append_nil] at isMarkup
  · exact isBreaks

end IsTagLine

namespace Block.IsOneLine

/-- A tag without line feeds, behind the structural head of a block. -/
theorem isTagLine (oneLine : block.IsOneLine) {inside : Text}
    (noBreak : '\n' ∉ '<' :: (inside ++ ['>'])) :
    IsTagLine (block.linePrefix ++ '<' :: (inside ++ ['>'])) := by
  refine .intro _ _ oneLine.linePrefix ?_
  rw [List.mem_append, not_or]
  exact ⟨fun member => absurd (oneLine.linePrefix '\n' member) (by decide), noBreak⟩

theorem isTagLine_opening (oneLine : block.IsOneLine) :
    IsTagLine (block.linePrefix ++ block.openingTag) := by
  have isTag : block.openingTag =
      '<' :: (block.component ++ ' ' :: block.attributeText ++ ['>']) := by
    simp [Block.openingTag]
  have noBreak := oneLine.openingTag
  rw [isTag] at noBreak ⊢
  exact oneLine.isTagLine noBreak

theorem isTagLine_closing (oneLine : block.IsOneLine) :
    IsTagLine (block.linePrefix ++ block.closingTag) := by
  have isTag : block.closingTag = '<' :: ('/' :: block.component ++ ['>']) := by
    simp [Block.closingTag]
  have noBreak := oneLine.closingTag
  rw [isTag] at noBreak ⊢
  exact oneLine.isTagLine noBreak

end Block.IsOneLine

namespace Piece

/-- The piece is a tag on one line with line breaks behind it. -/
inductive IsOneLineTag : Piece → Prop
  | opening (block : Block) (ending : Text) (oneLine : block.IsOneLine)
      (isBreaks : ∀ char ∈ ending, isLineBreak char = true) : IsOneLineTag (.opening block ending)
  | closing (block : Block) (ending : Text) (oneLine : block.IsOneLine)
      (isBreaks : ∀ char ∈ ending, isLineBreak char = true) : IsOneLineTag (.closing block ending)

namespace IsOneLineTag

theorem isTagLine (oneLineTag : piece.IsOneLineTag) (isLine : piece.tagLine? = some line) :
    IsTagLine line := by
  cases oneLineTag with
  | opening block ending oneLine =>
    obtain rfl := Option.some.inj isLine
    exact oneLine.isTagLine_opening
  | closing block ending oneLine =>
    obtain rfl := Option.some.inj isLine
    exact oneLine.isTagLine_closing

theorem eachRemainder_lead (oneLineTag : piece.IsOneLineTag) (source : Text) :
    EachRemainder IsMarkup (piece.lead (newlineOf source)) := by
  obtain ⟨-, -, -, isBreaks⟩ := exists_newlineOf source
  cases oneLineTag with
  | opening => exact eachRemainder_of_breaks isMarkup_nil (List.forall_mem_nil _)
  | closing block ending oneLine =>
    rw [lead]
    split
    · exact eachRemainder_of_linePrefix isMarkup_nil
        (fun char member => oneLine.linePrefix char (subset_trimEnd _ member)) isBreaks
    · exact eachRemainder_of_breaks isMarkup_nil (List.forall_mem_nil _)

/-- The lines of a tag piece are its tag and empty ones. -/
theorem eachRemainder_render (oneLineTag : piece.IsOneLineTag) (source : Text) :
    EachRemainder IsMarkup (piece.render (newlineOf source)) := by
  obtain ⟨returns, isNewline, -, isBreaks⟩ := exists_newlineOf source
  cases oneLineTag with
  | opening block ending oneLine isEnding =>
    rw [render_of_tagLine? rfl]
    cases isMarkdown : block.slots with
    | markdown =>
      have isHead : ∀ char ∈ trimEnd block.linePrefix, isLinePrefix char = true :=
        fun char member => oneLine.linePrefix char (subset_trimEnd _ member)
      simp only [lead, trail, isMarkdown, List.nil_append, ← List.append_assoc]
      rw [List.append_assoc]
      apply EachRemainder.append
      · exact oneLine.isTagLine_opening.eachRemainder isBreaks
      · exact eachRemainder_of_linePrefix isMarkup_nil isHead isEnding
      · rw [isNewline, ← List.append_assoc]
        exact isComplete_concat _
    | raw =>
      simp only [lead, trail, isMarkdown, List.nil_append]
      exact oneLine.isTagLine_opening.eachRemainder isEnding
  | closing block ending oneLine isEnding =>
    have oneLineTag : IsOneLineTag (.closing block ending) := .closing block ending oneLine isEnding
    rw [render_of_tagLine? rfl]
    apply (oneLineTag.eachRemainder_lead source).append
    · exact oneLine.isTagLine_closing.eachRemainder isEnding
    · exact isComplete_lead source _

end IsOneLineTag

end Piece

namespace Expansion

/-! ## Marker lines -/

/-- Blocks on one line stay so, and their tags stand for lines outside fences. -/
theorem isOneLine_move (move : Move registry role line stack piece after)
    (oneLine : registry.IsOneLine) (oneLineStack : ∀ block ∈ stack, block.IsOneLine)
    (noBreak : '\n' ∉ content line) :
    (∀ block ∈ after, block.IsOneLine) ∧
      (piece = .copied role line ∨ (role = .outside ∧ piece.IsOneLineTag)) := by
  have isBreaks : ∀ char ∈ ending line, isLineBreak char = true :=
    fun char member => isLineBreak_of_mem_ending member
  cases move with
  | copied => exact ⟨oneLineStack, .inl rfl⟩
  | closes block outer outside =>
    rw [List.forall_mem_cons] at oneLineStack
    exact ⟨oneLineStack.2, .inr ⟨outside, .closing block _ oneLineStack.1 isBreaks⟩⟩
  | opens block stack outside _ isBlock =>
    have isOneLine := Block.isOneLine_of_blockOf? oneLine noBreak isBlock
    exact ⟨List.forall_mem_cons.mpr ⟨isOneLine, oneLineStack⟩,
      .inr ⟨outside, .opening block _ isOneLine isBreaks⟩⟩

/-- The piece for a line leaves the fence open that the line leaves open. -/
theorem behind_move (move : Move registry (Fence.observe state (lineRemainder (content line))).1
      line stack piece after) (oneLine : registry.IsOneLine)
    (oneLineStack : ∀ block ∈ stack, block.IsOneLine) (noBreak : '\n' ∉ content line)
    (isLine : lines line = [line]) (source : Text) :
    Fence.behind state (piece.render (newlineOf source)) =
      (Fence.observe state (lineRemainder (content line))).2 := by
  rcases (isOneLine_move move oneLine oneLineStack noBreak).2 with rfl | ⟨outside, oneLineTag⟩
  · exact Fence.behind_of_line isLine state
  · obtain ⟨rfl, isNone⟩ := Fence.observe_eq_outside (Prod.ext outside rfl)
    rw [(isPlain_of_isMarkup (oneLineTag.eachRemainder_render source)).behind_eq]
    exact isNone.symm

/-- The pieces for lines leave the fence open that the lines leave open. -/
theorem behind_run (areLines : AreLines all) (oneLine : registry.IsOneLine)
    (oneLineStack : ∀ block ∈ stack, block.IsOneLine) (state : Option Fence) (source : Text) :
    Fence.behind state ((run registry stack (entriesFrom state all)).1.flatMap
      (Piece.render (newlineOf source))) = Fence.stateAfter state (all.map content) := by
  induction all generalizing state stack with
  | nil => rfl
  | cons line others ih =>
    obtain ⟨isLine, noBreak, areOthers, ends⟩ := areLines.of_cons
    have move := move_step registry stack (Fence.observe state (lineRemainder (content line))).1 line
    have sameFence := behind_move move oneLine oneLineStack noBreak isLine source
    have sameFences := ih areOthers (isOneLine_move move oneLine oneLineStack noBreak).1
      (Fence.observe state (lineRemainder (content line))).2
    rw [entriesFrom_cons, run_cons, List.flatMap_cons]
    rcases ends with ⟨body, rfl⟩ | rfl
    · rw [Fence.behind_append (isComplete_render move _), sameFence]
      exact sameFences
    · rw [entriesFrom, List.map_nil, Fence.rolesFrom, List.zip_nil_left, run_nil, List.flatMap_nil,
        List.append_nil]
      exact sameFence

/-- The blocks that lines leave open are on one line. -/
theorem isOneLine_run (areLines : AreLines all) (oneLine : registry.IsOneLine)
    (oneLineStack : ∀ block ∈ stack, block.IsOneLine) (state : Option Fence) :
    ∀ block ∈ (run registry stack (entriesFrom state all)).2, block.IsOneLine := by
  induction all generalizing state stack with
  | nil => exact oneLineStack
  | cons line others ih =>
    obtain ⟨-, noBreak, areOthers, -⟩ := areLines.of_cons
    have move := move_step registry stack (Fence.observe state (lineRemainder (content line))).1 line
    exact ih areOthers (isOneLine_move move oneLine oneLineStack noBreak).1 _

/-- In front of a tag that stands for a marker line, no fence is open. -/
theorem behind_front_run (areLines : AreLines all) (oneLine : registry.IsOneLine)
    (oneLineStack : ∀ block ∈ stack, block.IsOneLine)
    (isSplit : (run registry stack (entriesFrom state all)).1 = before ++ piece :: behind)
    (isLine : piece.tagLine? = some line) (source : Text) :
    Fence.behind state (before.flatMap (Piece.render (newlineOf source))) = none ∧
      piece.IsOneLineTag := by
  induction all generalizing state stack before with
  | nil => cases before <;> cases isSplit
  | cons first others ih =>
    obtain ⟨isOwnLine, noBreak, areOthers, ends⟩ := areLines.of_cons
    have move := move_step registry stack (Fence.observe state (lineRemainder (content first))).1 first
    rw [entriesFrom_cons, run_cons] at isSplit
    cases before with
    | nil =>
      rw [List.nil_append, List.cons.injEq] at isSplit
      obtain ⟨rfl, -⟩ := isSplit
      rcases (isOneLine_move move oneLine oneLineStack noBreak).2 with isCopy | ⟨outside, oneLineTag⟩
      · rw [isCopy] at isLine
        cases isLine
      · exact ⟨(Fence.observe_eq_outside (Prod.ext outside rfl)).1, oneLineTag⟩
    | cons copied before =>
      rw [List.cons_append, List.cons.injEq] at isSplit
      obtain ⟨rfl, isSplit⟩ := isSplit
      rcases ends with ⟨body, rfl⟩ | rfl
      · rw [List.flatMap_cons, Fence.behind_append (isComplete_render move _),
          behind_move move oneLine oneLineStack noBreak isOwnLine source]
        exact ih areOthers (isOneLine_move move oneLine oneLineStack noBreak).1 isSplit
      · cases before <;> cases isSplit

/-! ## The end of a document -/

theorem behind_written (oneLine : registry.IsOneLine) (useBuiltin : Bool) (source : Text) :
    Fence.behind none ((ofLines registry useBuiltin source).1.flatMap
      (Piece.render (newlineOf source))) = Fence.behind none source :=
  behind_run (areLines_lines source) (oneLine.withBuiltin useBuiltin) (List.forall_mem_nil _) none
    source

theorem isOneLine_ofLines (oneLine : registry.IsOneLine) (useBuiltin : Bool) (source : Text) :
    ∀ block ∈ (ofLines registry useBuiltin source).2, block.IsOneLine :=
  isOneLine_run (areLines_lines source) (oneLine.withBuiltin useBuiltin) (List.forall_mem_nil _) none

theorem isOneLineTag_closing (oneLine : block.IsOneLine) (source : Text) :
    (Piece.closing block (newlineOf source)).IsOneLineTag := by
  obtain ⟨-, -, -, isBreaks⟩ := exists_newlineOf source
  exact .closing block _ oneLine isBreaks

theorem eachRemainder_closings (closed : List Block) (oneLine : ∀ block ∈ closed, block.IsOneLine)
    (source : Text) : EachRemainder IsMarkup
      ((closed.map (Piece.closing · (newlineOf source))).flatMap
        (Piece.render (newlineOf source))) := by
  induction closed with
  | nil => exact eachRemainder_of_breaks isMarkup_nil (List.forall_mem_nil _)
  | cons block others ih =>
    rw [List.forall_mem_cons] at oneLine
    have complete := isComplete_closings source [block]
    rw [List.map_singleton, List.flatMap_singleton] at complete
    rw [List.map_cons, List.flatMap_cons]
    exact ((isOneLineTag_closing oneLine.1 source).eachRemainder_render source).append
      (ih oneLine.2) complete

/-- The line break before the closing tags does not matter to the fences. -/
theorem behind_completion (source written : Text) :
    Fence.behind none (written ++ (completion written).flatMap (Piece.render (newlineOf source))) =
      Fence.behind none written := by
  obtain ⟨-, -, -, isBreaks⟩ := exists_newlineOf source
  apply Fence.behind_append_breaks
  rw [completion]
  split
  · exact List.forall_mem_nil _
  · rw [List.flatMap_singleton]
    exact isBreaks

/-- The fence that is open in front of a tag at the end is the one that the document leaves open. -/
theorem behind_front_closers (oneLine : registry.IsOneLine) {closed left : List Block}
    (isOpen : (ofLines registry useBuiltin source).2 = closed ++ block :: left) :
    Fence.behind none
      (((ofLines registry useBuiltin source).1 ++
          (completion ((ofLines registry useBuiltin source).1.flatMap
            (Piece.render (newlineOf source))) ++
              closed.map (Piece.closing · (newlineOf source)))).flatMap
          (Piece.render (newlineOf source)) ++
        (Piece.closing block (newlineOf source)).lead (newlineOf source)) =
      Fence.behind none source := by
  have oneLineStack := isOneLine_ofLines oneLine useBuiltin source
  rw [isOpen, List.forall_mem_append, List.forall_mem_cons] at oneLineStack
  have oneLineTag := isOneLineTag_closing oneLineStack.2.1 source
  have completed := isComplete_completion source
    ((ofLines registry useBuiltin source).1.flatMap (Piece.render (newlineOf source)))
  have closings := isComplete_closings source closed
  rw [List.flatMap_append, List.flatMap_append, ← List.append_assoc,
    Fence.behind_append (completed.append closings),
    (isPlain_of_isMarkup (oneLineTag.eachRemainder_lead source)).behind_eq,
    Fence.behind_append completed,
    (isPlain_of_isMarkup (eachRemainder_closings closed oneLineStack.1 source)).behind_eq,
    behind_completion, behind_written oneLine]

/-- In front of a tag that stands for a marker line no fence is open, and in front of a tag at the
end it is the fence that the document leaves open. -/
theorem Shows.behind_front
    (isShown : (expandDirectives registry useBuiltin source).Shows position piece front line rest)
    (oneLine : registry.IsOneLine) :
    piece.IsOneLineTag ∧
      ((position < (lines source).length ∧ Fence.behind none front = none) ∨
        ((lines source).length ≤ position ∧ (ofLines registry useBuiltin source).2 ≠ [] ∧
          Fence.behind none front = Fence.behind none source)) := by
  obtain ⟨before, after, isSplit, rfl, isLine, rfl, -⟩ := isShown
  rw [newline_expandDirectives, ← length_ofLines registry useBuiltin]
  rcases exists_of_pieces isSplit isLine with
    ⟨others, isWritten⟩ | ⟨closed, block, left, isOpen, rfl, rfl⟩
  · have complete := isComplete_front_run (areLines_linesWithRoles source) isWritten
      (newlineOf source)
    obtain ⟨noFence, oneLineTag⟩ := behind_front_run (areLines_lines source)
      (oneLine.withBuiltin useBuiltin) (List.forall_mem_nil _) isWritten isLine source
    refine ⟨oneLineTag, .inl ⟨?_, ?_⟩⟩
    · rw [isWritten, List.length_append, List.length_cons]
      exact Nat.lt_add_of_pos_right (Nat.succ_pos _)
    · rw [Fence.behind_append complete,
        (isPlain_of_isMarkup (oneLineTag.eachRemainder_lead source)).behind_eq, noFence]
  · have isOneLine : block.IsOneLine := by
      apply isOneLine_ofLines oneLine useBuiltin source
      rw [isOpen]
      exact List.mem_append_right closed List.mem_cons_self
    refine ⟨isOneLineTag_closing isOneLine source, .inr ⟨?_, ?_, ?_⟩⟩
    · rw [List.length_append]
      exact Nat.le_add_right _ _
    · rw [isOpen]
      exact List.append_ne_nil_of_right_ne_nil closed (List.cons_ne_nil block left)
    · exact behind_front_closers oneLine isOpen

/-- If a block is left open, the first tag at the end stands where the document leaves off. -/
theorem exists_shows_of_open (oneLine : registry.IsOneLine)
    (isOpen : (ofLines registry useBuiltin source).2 ≠ []) :
    ∃ position piece front line rest,
      (expandDirectives registry useBuiltin source).Shows position piece front line rest ∧
      Fence.behind none front = Fence.behind none source := by
  obtain ⟨block, outer, isOpen⟩ := List.exists_cons_of_ne_nil isOpen
  refine ⟨_, _, _, _, _,
    .intro _ (outer.map (Piece.closing · (newlineOf source))) ?_ rfl rfl rfl rfl,
    behind_front_closers oneLine (show _ = [] ++ block :: outer from isOpen)⟩
  rw [pieces_expandDirectives, isOpen, closers_eq _ _ (List.cons_ne_nil block outer),
    List.map_nil, List.append_nil, List.append_assoc, List.map_cons]

/-- The role of a line of the expanded text among its fences. -/
def roleOn? (expansion : Expansion) (number : Nat) : Option LineRole :=
  (fenceRoles ((lines expansion.code).map content))[number]?

/-- The line of a tag is fenced if a fence is open in front of it. -/
theorem Shows.roleOn?_eq
    (isShown : (expandDirectives registry useBuiltin source).Shows position piece front line rest)
    (oneLineTag : piece.IsOneLineTag) :
    (expandDirectives registry useBuiltin source).roleOn? (lines front).length =
      some (if Fence.behind none front = none then .outside else .inside) := by
  have isTagLine := oneLineTag.isTagLine isShown.tagLine?_eq
  rw [roleOn?, isShown.code_eq]
  exact Fence.fenceRoles_of_read?_eq_none isShown.isComplete_front isTagLine.newline_notMem
    isTagLine.ne_nil fun more => (isTagLine.isMarkup more).read?_eq_none

/-- Each tag stands on one line of the expanded text. The tags for marker lines are outside the
fences of this text. The tags at the end are outside as well, and thereby all tags, if and only if
the document leaves no block open, or no fence. -/
theorem tags_outside_iff (oneLine : registry.IsOneLine) (useBuiltin : Bool) (source : Text) :
    (∀ position piece front line behind,
      (expandDirectives registry useBuiltin source).Shows position piece front line behind →
      (∃ more others, lines (expandDirectives registry useBuiltin source).code =
        lines front ++ (line ++ more) :: others) ∧
      (position < (lines source).length →
        (expandDirectives registry useBuiltin source).roleOn? (lines front).length =
          some .outside)) ∧
    ((∀ position piece front line behind,
        (expandDirectives registry useBuiltin source).Shows position piece front line behind →
        (expandDirectives registry useBuiltin source).roleOn? (lines front).length =
          some .outside) ↔
      (ofLines registry useBuiltin source).2 = [] ∨ Fence.behind none source = none) := by
  refine ⟨fun position piece front line behind isShown => ?_, ⟨fun outside => ?_, ?_⟩⟩
  · obtain ⟨oneLineTag, noFence⟩ := isShown.behind_front oneLine
    have isTagLine := oneLineTag.isTagLine isShown.tagLine?_eq
    obtain ⟨more, rest, -, isLines⟩ :=
      exists_lines_append isTagLine.newline_notMem isTagLine.ne_nil behind
    constructor
    · refine ⟨more, lines rest, ?_⟩
      rw [isShown.code_eq, lines_append isShown.isComplete_front, isLines]
    · intro standsForLine
      rcases noFence with ⟨-, noFence⟩ | ⟨atEnd, -, -⟩
      · rw [isShown.roleOn?_eq oneLineTag, if_pos noFence]
      · exact absurd atEnd (Nat.not_le.mpr standsForLine)
  · rw [or_iff_not_imp_left]
    intro isOpen
    obtain ⟨position, piece, front, line, behind, isShown, sameFence⟩ :=
      exists_shows_of_open oneLine isOpen
    have isOutside := outside position piece front line behind isShown
    rw [isShown.roleOn?_eq (isShown.behind_front oneLine).1, sameFence] at isOutside
    by_contra isFenced
    rw [if_neg isFenced] at isOutside
    cases isOutside
  · rintro closedOrOutside position piece front line behind isShown
    obtain ⟨oneLineTag, noFence⟩ := isShown.behind_front oneLine
    rw [isShown.roleOn?_eq oneLineTag, if_pos]
    rcases noFence with ⟨-, noFence⟩ | ⟨-, isOpen, sameFence⟩
    · exact noFence
    · rcases closedOrOutside with isClosed | noFence
      · exact absurd isClosed isOpen
      · rw [sameFence, noFence]

/-- A registry with one directive, which passes a literal value. -/
def Trial.steps : Registry :=
  Registry.addDirective {} ⟨"steps".toList, "Steps".toList, [⟨"kind".toList, .literal "list".toList⟩]⟩

/-- A block that is not closed and holds a fence that is. -/
def Trial.closedFence : Text :=
  ":::steps\n```\n:::\n```\n".toList

/-- The tag that closes the block is forced, and stands outside the fence. -/
theorem tags_outside_of_closedFence :
    Trial.steps.IsOneLine ∧ (ofLines Trial.steps false Trial.closedFence).2 ≠ [] ∧
    ∀ position piece front line behind,
      (expandDirectives Trial.steps false Trial.closedFence).Shows position piece front line behind →
      (expandDirectives Trial.steps false Trial.closedFence).roleOn? (lines front).length =
        some .outside := by
  have oneLine : Trial.steps.IsOneLine := by
    intro mapping member
    obtain rfl := List.mem_singleton.mp member
    refine ⟨by decide, ?_, ?_⟩
    · intro prop isProp
      obtain rfl := List.mem_singleton.mp isProp
      decide
    · intro prop isProp value isLiteral
      obtain rfl := List.mem_singleton.mp isProp
      obtain rfl := PropSource.literal.inj isLiteral
      decide
  refine ⟨oneLine, by decide +kernel, ?_⟩
  exact (tags_outside_iff oneLine false Trial.closedFence).2.mpr (.inr (by decide +kernel))

/-- A block with a fence, neither of which is closed. -/
def Trial.openFence : Text :=
  ":::note\n```js\ncode\n".toList

/-- The tag that closes the block is forced, and becomes a line of the code. -/
theorem fenced_of_openFence :
    (expandDirectives {} true Trial.openFence).code =
      "<Aside data-directive=\"note\" type=\"note\">\n\n```js\ncode\n\n</Aside>\n".toList ∧
    (expandDirectives {} true Trial.openFence).roleOn? 5 = some .inside ∧
    ∃ piece front behind, (lines front).length = 5 ∧
      (expandDirectives {} true Trial.openFence).Shows 3 piece front "</Aside>".toList behind := by
  refine ⟨by decide +kernel, by decide +kernel, ?_⟩
  refine ⟨.closing ⟨"note".toList, none, [], [], Registry.builtinMapping "note".toList, .markdown⟩
    ['\n'], _, _, ?_, .intro ((expandDirectives {} true Trial.openFence).pieces.take 3) [] ?_ ?_ ?_
      rfl rfl⟩
  all_goals decide +kernel

end Expansion

end MdxBuild

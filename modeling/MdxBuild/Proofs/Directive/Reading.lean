import MdxBuild.Proofs.Directive.Layout
import MdxBuild.Proofs.Directive.Outline

/-!
# Readings of the same lines

The roles of its lines decide which lines of a text are marker lines, so the same lines can be read
in several ways; a reading that takes all of them for fenced copies them. Where two readings answer
a line differently, one of them copies the line and the other puts a tag in its place, and from
there on their results differ: in front of the colons of a marker line stands neither a line feed
nor an angle bracket, and a tag begins with one of the two. So the result of a reading tells which
lines it answers with tags, and conversely.
-/

namespace MdxBuild.Expansion

open Text

variable {registry : Registry} {stack after afterSecond : List Block} {block : Block}
  {role roleSecond : LineRole} {line newline : Text} {piece pieceSecond : Piece}
  {entries first second : List (LineRole × Text)}

/-! ## Where two texts part -/

/-- Two texts differ if each goes on with another character where neither had it before. -/
theorem append_cons_ne {head lead : Text} {mark other : Char} (different : mark ≠ other)
    (absent : other ∉ head) (absentMark : mark ∉ lead) (more rest : Text) :
    head ++ mark :: more ≠ lead ++ other :: rest := by
  intro same
  rcases List.append_eq_append_iff.mp same with ⟨between, rfl, isMore⟩ | ⟨between, rfl, isRest⟩
  · cases between with
    | nil => exact different (List.cons.inj isMore).1
    | cons char between =>
      obtain ⟨rfl, -⟩ := List.cons.inj isMore
      exact absentMark (by simp)
  · cases between with
    | nil => exact different (List.cons.inj isRest).1.symm
    | cons char between =>
      obtain ⟨rfl, -⟩ := List.cons.inj isRest
      exact absent (by simp)

theorem notMem_of_isLinePrefix {head : Text} (isHead : ∀ char ∈ head, isLinePrefix char = true)
    {char : Char} (other : isLinePrefix char = false) : char ∉ head := fun member =>
  Bool.false_ne_true (other.symm.trans (isHead char member))

/-- A marker line: nothing but blanks stands in front of the colons of its remainder. -/
def IsMarked (line : Text) : Prop :=
  ∃ blanks more, lineRemainder (content line) = blanks ++ ':' :: more ∧
    ∀ char ∈ blanks, isBlank char = true

theorem isMarked_of_isCloser (isCloser : IsCloser line) : IsMarked line := by
  have isStart : trimStart (lineRemainder (content line)) =
      directiveMarker ++ tailBy isBlank (trimStart (lineRemainder (content line))) := by
    rw [← isCloser, trim, trimEnd, trimEndBy_append_tailBy]
  have isRemainder : lineRemainder (content line) =
      (lineRemainder (content line)).takeWhile isBlank ++
        trimStart (lineRemainder (content line)) :=
    List.takeWhile_append_dropWhile.symm
  rw [isStart] at isRemainder
  exact ⟨_, _, isRemainder, fun char member => List.mem_takeWhile_imp member⟩

theorem isMarked_of_blockOf? (isBlock : blockOf? registry line = some block) : IsMarked line := by
  simp only [blockOf?, Block.open?, Option.bind_eq_bind, Option.bind_eq_some_iff] at isBlock
  obtain ⟨opening, isRead, -⟩ := isBlock
  obtain ⟨first, rest, -, isText⟩ := exists_of_read? isRead
  have isRemainder : lineRemainder (content line) =
      trimEnd (lineRemainder (content line)) ++ tailBy isBlank (lineRemainder (content line)) :=
    (trimEndBy_append_tailBy isBlank _).symm
  rw [isText] at isRemainder
  exact ⟨[], _, isRemainder, List.forall_mem_nil _⟩

/-- In front of the colons of a marker line stands no angle bracket and no line feed. -/
theorem IsMarked.exists_colon (isMarked : IsMarked line) (noBreak : '\n' ∉ content line) :
    ∃ head more, line = head ++ ':' :: more ∧ '<' ∉ head ∧ '\n' ∉ head := by
  obtain ⟨blanks, more, isRemainder, isBlanks⟩ := isMarked
  have isContent : content line = linePrefix (content line) ++ blanks ++ ':' :: more := by
    rw [List.append_assoc, ← isRemainder, linePrefix_append_lineRemainder]
  refine ⟨linePrefix (content line) ++ blanks, more ++ ending line, ?_, ?_, ?_⟩
  · rw [← List.cons_append, ← List.append_assoc, ← isContent, content_append_ending]
  · rw [List.mem_append, not_or]
    exact ⟨notMem_of_isLinePrefix (fun char member => List.mem_takeWhile_imp member) (by decide),
      fun member => absurd (isBlanks _ member) (by decide)⟩
  · intro member
    apply noBreak
    rw [isContent]
    exact List.mem_append_left _ member

/-- The blocks stand behind structural heads. -/
def AreHeaded (stack : List Block) : Prop :=
  ∀ block ∈ stack, ∀ char ∈ block.linePrefix, isLinePrefix char = true

theorem isHead_of_blockOf? (isBlock : blockOf? registry line = some block) :
    ∀ char ∈ block.linePrefix, isLinePrefix char = true := by
  simp only [blockOf?, Block.open?, Option.bind_eq_bind, Option.bind_eq_some_iff,
    Option.some.injEq] at isBlock
  obtain ⟨-, -, -, -, rfl⟩ := isBlock
  exact fun char member => List.mem_takeWhile_imp member

theorem areHeaded_nil : AreHeaded [] :=
  List.forall_mem_nil _

theorem areHeaded_move (move : Move registry role line stack piece after)
    (headed : AreHeaded stack) : AreHeaded after := by
  cases move with
  | copied => exact headed
  | closes block outer => exact (List.forall_mem_cons.mp headed).2
  | opens block stack _ _ isBlock =>
    exact List.forall_mem_cons.mpr ⟨isHead_of_blockOf? isBlock, headed⟩

/-- The text of a tag piece has an angle bracket or a line feed before any colon. -/
theorem exists_start_of_isTag (move : Move registry role line stack piece after)
    (headed : AreHeaded stack) (isTag : piece.isTag = true) (source : Text) :
    ∃ lead mark more, piece.render (newlineOf source) = lead ++ mark :: more ∧ ':' ∉ lead ∧
      (mark = '<' ∨ mark = '\n') := by
  have noColon {head : Text} (isHead : ∀ char ∈ head, isLinePrefix char = true) : ':' ∉ head :=
    notMem_of_isLinePrefix isHead (by decide)
  cases move with
  | copied => cases isTag
  | opens block stack _ _ isBlock =>
    obtain ⟨inside, isTag⟩ : ∃ inside, block.openingTag = '<' :: inside := ⟨_, rfl⟩
    have isLine : (Piece.opening block (ending line)).tagLine? =
        some (block.linePrefix ++ block.openingTag) := rfl
    have isRender := Piece.render_of_tagLine? isLine (newlineOf source)
    rw [isTag, List.append_assoc] at isRender
    exact ⟨block.linePrefix, '<', _, isRender, noColon (isHead_of_blockOf? isBlock), .inl rfl⟩
  | closes block outer =>
    have isHead := (List.forall_mem_cons.mp headed).1
    cases isSlots : block.slots with
    | raw =>
      refine ⟨block.linePrefix, '<', '/' :: (block.component ++ '>' :: ending line), ?_,
        noColon isHead, .inl rfl⟩
      simp [Piece.render, Block.closingMarkup, isSlots, Block.closingTag]
    | markdown =>
      obtain ⟨returns, isNewline, -, isBreaks⟩ := exists_newlineOf source
      refine ⟨trimEnd block.linePrefix ++ returns, '\n',
        block.linePrefix ++ (block.closingTag ++ ending line), ?_, ?_, .inr rfl⟩
      · simp [Piece.render, Block.closingMarkup, isSlots, isNewline]
      · rw [List.mem_append, not_or]
        refine ⟨noColon fun char member => isHead char (subset_trimEnd _ member), fun member => ?_⟩
        have inNewline : ':' ∈ newlineOf source := by simp [isNewline, member]
        exact absurd (isBreaks _ inNewline) (by decide)

/-! ## Two readings of a line -/

/-- A line that is copied in one reading and answered with a tag in another one. -/
theorem render_ne_of_isTag (move : Move registry role line stack piece after)
    (moveSecond : Move registry roleSecond line stack pieceSecond afterSecond)
    (isCopy : piece.isTag = false) (isTag : pieceSecond.isTag = true) (headed : AreHeaded stack)
    (noBreak : '\n' ∉ content line) (source more rest : Text) :
    piece.render (newlineOf source) ++ more ≠ pieceSecond.render (newlineOf source) ++ rest := by
  have isMarked : IsMarked line := by
    cases moveSecond with
    | copied => cases isTag
    | closes _ _ _ isCloser => exact isMarked_of_isCloser isCloser
    | opens _ _ _ _ isBlock => exact isMarked_of_blockOf? isBlock
  obtain ⟨lead, mark, behind, isRender, noColon, isMark⟩ :=
    exists_start_of_isTag moveSecond headed isTag source
  obtain ⟨head, others, isLine, noBracket, noFeed⟩ := isMarked.exists_colon noBreak
  have sameLine : piece.render (newlineOf source) = line := by
    cases move with
    | copied => rfl
    | closes | opens => cases isCopy
  rw [sameLine, isRender, isLine, List.append_assoc, List.append_assoc, List.cons_append,
    List.cons_append]
  rcases isMark with rfl | rfl
  · exact append_cons_ne (by decide) noBracket noColon _ _
  · exact append_cons_ne (by decide) noFeed noColon _ _

/-- Two readings of a line with the same result, whatever follows. -/
theorem isTag_eq_of_render (move : Move registry role line stack piece after)
    (moveSecond : Move registry roleSecond line stack pieceSecond afterSecond)
    (headed : AreHeaded stack) (noBreak : '\n' ∉ content line) (source : Text) {more rest : Text}
    (same : piece.render (newlineOf source) ++ more =
      pieceSecond.render (newlineOf source) ++ rest) : piece.isTag = pieceSecond.isTag := by
  cases isTag : piece.isTag with
  | false =>
    cases isTagSecond : pieceSecond.isTag with
    | false => rfl
    | true =>
      exact absurd same
        (render_ne_of_isTag move moveSecond isTag isTagSecond headed noBreak source more rest)
  | true =>
    cases isTagSecond : pieceSecond.isTag with
    | false =>
      exact absurd same.symm
        (render_ne_of_isTag moveSecond move isTagSecond isTag headed noBreak source rest more)
    | true => rfl

/-- A line that is copied in both readings, or answered with a tag in both. -/
theorem same_of_isTag (move : Move registry role line stack piece after)
    (moveSecond : Move registry roleSecond line stack pieceSecond afterSecond)
    (sameTag : piece.isTag = pieceSecond.isTag) :
    after = afterSecond ∧ piece.opened? = pieceSecond.opened? ∧
      ∀ newline, piece.render newline = pieceSecond.render newline := by
  cases move with
  | copied =>
    cases moveSecond with
    | copied => exact ⟨rfl, rfl, fun _ => rfl⟩
    | closes | opens => cases sameTag
  | closes block outer _ isCloser =>
    cases moveSecond with
    | copied => cases sameTag
    | closes => exact ⟨rfl, rfl, fun _ => rfl⟩
    | opens _ _ _ noCloser => exact absurd isCloser noCloser
  | opens block stack _ noCloser isBlock =>
    cases moveSecond with
    | copied => cases sameTag
    | closes _ _ _ isCloser => exact absurd isCloser noCloser
    | opens other _ _ _ isOther =>
      obtain rfl := Option.some.inj (isBlock.symm.trans isOther)
      exact ⟨rfl, rfl, fun _ => rfl⟩

/-! ## Two readings of many lines -/

/-- Readings with the same result answer the same lines with tags, whatever follows. -/
theorem isTag_run_eq (areLines : AreLines (first.map Prod.snd))
    (sameLines : first.map Prod.snd = second.map Prod.snd) (headed : AreHeaded stack)
    (source : Text) {more rest : Text}
    (same : (run registry stack first).1.flatMap (Piece.render (newlineOf source)) ++ more =
      (run registry stack second).1.flatMap (Piece.render (newlineOf source)) ++ rest) :
    (run registry stack first).1.map Piece.isTag =
      (run registry stack second).1.map Piece.isTag := by
  induction first generalizing second stack with
  | nil =>
    obtain rfl := List.map_eq_nil_iff.mp sameLines.symm
    rfl
  | cons entry others ih =>
    obtain ⟨role, line⟩ := entry
    obtain ⟨⟨roleSecond, lineSecond⟩, othersSecond, rfl, sameLine, sameOthers⟩ :=
      List.map_eq_cons_iff.mp sameLines.symm
    obtain rfl : line = lineSecond := sameLine.symm
    obtain ⟨-, noBreak, areOthers, -⟩ := areLines.of_cons
    have move := move_step registry stack role line
    have moveSecond := move_step registry stack roleSecond line
    rw [run_cons, run_cons, List.flatMap_cons, List.flatMap_cons, List.append_assoc,
      List.append_assoc] at same
    have sameTag := isTag_eq_of_render move moveSecond headed noBreak source same
    obtain ⟨sameAfter, -, sameRender⟩ := same_of_isTag move moveSecond sameTag
    rw [sameRender, List.append_cancel_left_eq, sameAfter] at same
    rw [run_cons, run_cons, List.map_cons, List.map_cons, sameTag, sameAfter]
    refine congrArg _ (ih areOthers sameOthers.symm ?_ same)
    exact areHeaded_move moveSecond headed

/-- Readings that answer the same lines with tags have the same result. -/
theorem run_eq_of_isTag (sameLines : first.map Prod.snd = second.map Prod.snd)
    (sameTags : (run registry stack first).1.map Piece.isTag =
      (run registry stack second).1.map Piece.isTag) (newline : Text) :
    (run registry stack first).1.flatMap (Piece.render newline) =
        (run registry stack second).1.flatMap (Piece.render newline) ∧
      (run registry stack first).1.filterMap Piece.opened? =
        (run registry stack second).1.filterMap Piece.opened? ∧
      (run registry stack first).2 = (run registry stack second).2 := by
  induction first generalizing second stack with
  | nil =>
    obtain rfl := List.map_eq_nil_iff.mp sameLines.symm
    exact ⟨rfl, rfl, rfl⟩
  | cons entry others ih =>
    obtain ⟨role, line⟩ := entry
    obtain ⟨⟨roleSecond, lineSecond⟩, othersSecond, rfl, sameLine, sameOthers⟩ :=
      List.map_eq_cons_iff.mp sameLines.symm
    obtain rfl : line = lineSecond := sameLine.symm
    rw [run_cons, run_cons, List.map_cons, List.map_cons, List.cons.injEq] at sameTags
    obtain ⟨sameTag, sameTags⟩ := sameTags
    obtain ⟨sameAfter, sameOpened, sameRender⟩ :=
      same_of_isTag (move_step registry stack role line) (move_step ..) sameTag
    rw [← sameAfter] at sameTags
    obtain ⟨sameText, sameOpenings, sameFinal⟩ := ih sameOthers.symm sameTags
    rw [run_cons, run_cons, ← sameAfter]
    refine ⟨?_, ?_, sameFinal⟩
    · rw [List.flatMap_cons, List.flatMap_cons, sameRender, sameText]
    · simp only [List.filterMap_cons, sameOpened, sameOpenings]

/-! ## Readings without tags -/

/-- The pieces that copy lines. -/
def copies (entries : List (LineRole × Text)) : List Piece :=
  entries.map fun (role, line) => .copied role line

@[simp]
theorem render_copies (newline : Text) (entries : List (LineRole × Text)) :
    (copies entries).flatMap (Piece.render newline) = (entries.map Prod.snd).flatten := by
  induction entries with
  | nil => rfl
  | cons entry others ih =>
    rw [copies, List.map_cons, List.flatMap_cons, List.map_cons, List.flatten_cons, ← ih]
    rfl

@[simp]
theorem isTag_copies (entries : List (LineRole × Text)) :
    (copies entries).any Piece.isTag = false := by
  induction entries with
  | nil => rfl
  | cons entry others ih => exact ih

@[simp]
theorem opened?_copies (entries : List (LineRole × Text)) :
    (copies entries).filterMap Piece.opened? = [] := by
  induction entries with
  | nil => rfl
  | cons entry others ih => exact ih

/-- Where no line is answered with a tag, all are copied, and the open blocks stay as they are. -/
theorem run_of_not_isTag (noTag : (run registry stack entries).1.any Piece.isTag = false) :
    run registry stack entries = (copies entries, stack) := by
  induction entries generalizing stack with
  | nil => rfl
  | cons entry others ih =>
    obtain ⟨role, line⟩ := entry
    have move := move_step registry stack role line
    rw [run_cons, List.any_cons, Bool.or_eq_false_iff] at noTag
    obtain ⟨noTag, noTags⟩ := noTag
    rw [run_cons, ih noTags]
    generalize (step registry stack role line).1 = piece at move noTag
    generalize (step registry stack role line).2 = after at move
    cases move with
    | copied => rfl
    | closes | opens => cases noTag

/-- A reading that takes all lines for fenced copies them. -/
theorem run_of_isFenced (fenced : ∀ entry ∈ entries, entry.1.isFenced = true) :
    run registry stack entries = (copies entries, stack) := by
  induction entries with
  | nil => rfl
  | cons entry others ih =>
    obtain ⟨isFenced, othersFenced⟩ := List.forall_mem_cons.mp fenced
    rw [run_cons, step_of_isFenced isFenced, ih othersFenced]
    rfl

/-- The lines of a text, all of them taken for fenced. -/
def fencedThroughout (text : Text) : List (LineRole × Text) :=
  (lines text).map (LineRole.inside, ·)

@[simp]
theorem map_snd_fencedThroughout (text : Text) :
    (fencedThroughout text).map Prod.snd = lines text := by
  rw [fencedThroughout, List.map_map]
  exact List.map_id _

/-- A reading whose result goes on as the text does answers no line of it with a tag. -/
theorem not_isTag_run_of_prefix {text more rest : Text}
    (isLines : entries.map Prod.snd = lines text) (headed : AreHeaded stack) (source : Text)
    (same : (run registry stack entries).1.flatMap (Piece.render (newlineOf source)) ++ more =
      text ++ rest) : (run registry stack entries).1.any Piece.isTag = false := by
  have copied : run registry stack (fencedThroughout text) = _ :=
    run_of_isFenced (by simp [fencedThroughout, LineRole.isFenced])
  have sameTags : (run registry stack entries).1.map Piece.isTag =
      (run registry stack (fencedThroughout text)).1.map Piece.isTag := by
    apply isTag_run_eq (isLines ▸ areLines_lines text) _ headed source
    · rw [copied, render_copies, map_snd_fencedThroughout, flatten_lines]
      exact same
    · rw [isLines, map_snd_fencedThroughout]
  have sameAny := congrArg (List.any · id) sameTags
  rwa [List.any_map, List.any_map, copied, Function.id_comp, isTag_copies] at sameAny

end MdxBuild.Expansion

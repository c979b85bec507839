import MdxBuild.Proofs.Directive.Nesting
import MdxBuild.Proofs.Directive.Reading

/-!
# What an expansion changes

An expansion reports a change, uses a component and differs from its document in the same cases:
where some line is answered with a tag. The first such line opens a block, and its tag differs from
the line. All other lines are in the code as they are, with their breaks and in order; between them
stand only tags.
-/

namespace MdxBuild.Expansion

open Text

variable {registry : Registry} {useBuiltin : Bool} {source : Text} {stack final : List Block}
  {entries : List (LineRole × Text)} {block : Block} {piece : Piece} {pieces : List Piece}

/-! ## Documents without tags -/

/-- A document whose lines are not answered with tags is copied. -/
theorem pieces_of_not_isTag (noTag : (ofLines registry useBuiltin source).1.any Piece.isTag = false) :
    (expandDirectives registry useBuiltin source).pieces = copies (linesWithRoles source) := by
  have copied : ofLines registry useBuiltin source = (copies (linesWithRoles source), []) :=
    run_of_not_isTag noTag
  rw [pieces_expandDirectives, copied]
  exact List.append_nil _

theorem changed_eq (registry : Registry) (useBuiltin : Bool) (source : Text) :
    (expandDirectives registry useBuiltin source).changed =
      (ofLines registry useBuiltin source).1.any Piece.isTag := by
  cases isTag : (ofLines registry useBuiltin source).1.any Piece.isTag with
  | false => rw [changed, pieces_of_not_isTag isTag, isTag_copies]
  | true => rw [changed, pieces_expandDirectives, List.any_append, isTag, Bool.true_or]

/-- A document without tags is the code of its expansion, and uses no component. -/
theorem copied_of_not_changed
    (unchanged : (expandDirectives registry useBuiltin source).changed = false) :
    (expandDirectives registry useBuiltin source).code = source ∧
      (expandDirectives registry useBuiltin source).usedComponents = [] := by
  have isCopy := pieces_of_not_isTag ((changed_eq registry useBuiltin source).symm.trans unchanged)
  constructor
  · rw [code, isCopy, render_copies, map_snd_linesWithRoles, flatten_lines]
  · rw [usedComponents, isCopy, opened?_copies]
    rfl

/-- The code of a document with tags parts from the document at the first of them. -/
theorem not_changed_of_code_eq (same : (expandDirectives registry useBuiltin source).code = source) :
    (expandDirectives registry useBuiltin source).changed = false := by
  rw [code_expandDirectives] at same
  rw [changed_eq]
  exact not_isTag_run_of_prefix (map_snd_linesWithRoles source) areHeaded_nil source
    (same.trans (List.append_nil source).symm)

/-! ## Components -/

/-- The first line that is answered with a tag opens a block. -/
theorem Moves.not_isTag_of_opened? (moves : Moves registry [] entries pieces final)
    (noneOpened : pieces.filterMap Piece.opened? = []) : pieces.any Piece.isTag = false := by
  generalize atStart : ([] : List Block) = stack at moves
  induction moves with
  | nil => rfl
  | cons stack between final role line piece others pieces move moves ih =>
    cases move with
    | copied => exact ih noneOpened atStart
    | closes => cases atStart
    | opens => cases noneOpened

theorem Moves.isBlock_of_mem (moves : Moves registry stack entries pieces final) {ending : Text}
    (member : Piece.opening block ending ∈ pieces) : ∃ line, blockOf? registry line = some block := by
  induction moves with
  | nil => cases member
  | cons stack between final role line piece others pieces move moves ih =>
    rcases List.mem_cons.mp member with isFirst | member
    · rw [← isFirst] at move
      cases move with
      | opens _ _ _ _ isBlock => exact ⟨line, isBlock⟩
    · exact ih member

/-- A block is rendered as the registry says for its name. -/
theorem directive?_of_blockOf? {line : Text} (isBlock : blockOf? registry line = some block) :
    registry.directive? block.name = some block.mapping := by
  simp only [blockOf?, Block.open?, Option.bind_eq_bind, Option.bind_eq_some_iff,
    Option.some.injEq] at isBlock
  obtain ⟨opening, -, mapping, isMapping, rfl⟩ := isBlock
  exact isMapping

theorem mem_closers {newline written : Text} (member : piece ∈ closers newline written stack) :
    piece = .lineBreak ∨ ∃ block ∈ stack, piece = .closing block newline := by
  cases stack with
  | nil => cases member
  | cons block outer =>
    rw [closers_eq newline written (List.cons_ne_nil block outer), List.mem_append,
      completion] at member
    rcases member with isCompletion | isClosing
    · split at isCompletion
      · cases isCompletion
      · exact .inl (List.mem_singleton.mp isCompletion)
    · obtain ⟨closed, isOpen, rfl⟩ := List.mem_map.mp isClosing
      exact .inr ⟨closed, isOpen, rfl⟩

theorem usedComponents_eq_nil_iff :
    (expandDirectives registry useBuiltin source).usedComponents = [] ↔
      (expandDirectives registry useBuiltin source).changed = false := by
  constructor
  · intro unused
    rw [changed_eq]
    apply Moves.not_isTag_of_opened? (moves_run _ _ _)
    rw [List.eq_nil_iff_forall_not_mem] at unused ⊢
    intro component member
    apply unused component
    rw [usedComponents, mem_sortedSet, pieces_expandDirectives, List.filterMap_append]
    exact List.mem_append_left _ member
  · exact fun unchanged => (copied_of_not_changed unchanged).2

/-- The components used are those whose opening tags stand in the code. -/
theorem mem_usedComponents {component : Text} :
    component ∈ (expandDirectives registry useBuiltin source).usedComponents ↔
      ∃ position block ending front line behind,
        (expandDirectives registry useBuiltin source).Shows position (.opening block ending) front
          line behind ∧ block.component = component := by
  rw [usedComponents, mem_sortedSet, List.mem_filterMap]
  constructor
  · rintro ⟨piece, member, isOpened⟩
    cases piece with
    | opening block ending =>
      obtain ⟨before, after, isSplit⟩ := List.append_of_mem member
      exact ⟨_, block, ending, _, _, _, .intro before after isSplit rfl rfl rfl rfl,
        Option.some.inj isOpened⟩
    | copied | closing | lineBreak => cases isOpened
  · rintro ⟨-, block, ending, -, -, -, ⟨before, after, isSplit, -⟩, rfl⟩
    refine ⟨.opening block ending, ?_, rfl⟩
    rw [isSplit]
    exact List.mem_append_right before List.mem_cons_self

/-- Where a tag shows in the code, its mapping is that of the registry for its name. -/
theorem isMapping_of_shows {position : Nat} {ending front line behind : Text}
    (isShown : (expandDirectives registry useBuiltin source).Shows position
      (.opening block ending) front line behind) :
    (Tag.opening block.label).SpelledAs line ∧
      (registry.withBuiltin useBuiltin).directive? block.name = some block.mapping := by
  constructor
  · have isTag : (Piece.opening block ending).tag? = some (.opening block.label) := rfl
    obtain ⟨shown, isLine, spelled⟩ := exists_spelledAs isTag
    rwa [Option.some.inj (isShown.tagLine?_eq.symm.trans isLine)]
  · obtain ⟨before, after, isSplit, -⟩ := isShown
    have member : Piece.opening block ending ∈
        (expandDirectives registry useBuiltin source).pieces := by
      rw [isSplit]
      exact List.mem_append_right before List.mem_cons_self
    rw [pieces_expandDirectives, List.mem_append] at member
    rcases member with isWritten | isForced
    · obtain ⟨opened, isBlock⟩ := (moves_run _ _ _).isBlock_of_mem isWritten
      exact directive?_of_blockOf? isBlock
    · rcases mem_closers isForced with isBreak | ⟨closed, -, isClosing⟩
      · cases isBreak
      · cases isClosing

/-- An expansion reports a change if and only if its code is not the document, and if and only if it
uses a component. The components it uses are those of the opening tags in the code, each of them
rendered as the registry says for the directive. The lines of the document are answered one by one:
a line is copied, or it opens or closes a block and a tag stands for it. Behind them stand only the
closing tags of the blocks that are left open, and perhaps a line break in front of these. -/
theorem changed_iff_code_ne (registry : Registry) (useBuiltin : Bool) (source : Text) :
    let expansion := expandDirectives registry useBuiltin source
    let effective := registry.withBuiltin useBuiltin
    (expansion.changed = true ↔ expansion.code ≠ source) ∧
    (expansion.changed = true ↔ expansion.usedComponents ≠ []) ∧
    (∀ component, component ∈ expansion.usedComponents ↔
      ∃ position block ending front line behind,
        expansion.Shows position (.opening block ending) front line behind ∧
          block.component = component) ∧
    (∀ position block ending front line behind,
      expansion.Shows position (.opening block ending) front line behind →
      (Tag.opening block.label).SpelledAs line ∧
        effective.directive? block.name = some block.mapping) ∧
    ∃ written forced left,
      Moves effective [] (linesWithRoles source) written left ∧
      (∀ piece ∈ forced, piece = .lineBreak ∨
        ∃ block ∈ left, piece = .closing block (newlineOf source)) ∧
      expansion.pieces = written ++ forced ∧
      expansion.code = written.flatMap (Piece.render (newlineOf source)) ++
        forced.flatMap (Piece.render (newlineOf source)) := by
  intro expansion effective
  refine ⟨?_, ?_, fun component => mem_usedComponents, ?_, ?_⟩
  · rw [← Bool.not_eq_false, ne_eq, not_iff_not]
    exact ⟨fun unchanged => (copied_of_not_changed unchanged).1, not_changed_of_code_eq⟩
  · rw [← Bool.not_eq_false, ne_eq, not_iff_not]
    exact usedComponents_eq_nil_iff.symm
  · intro position block ending front line behind
    exact isMapping_of_shows
  · refine ⟨_, _, _, moves_run effective [] (linesWithRoles source), fun piece => mem_closers,
      pieces_expandDirectives registry useBuiltin source,
      code_expandDirectives registry useBuiltin source⟩

end MdxBuild.Expansion

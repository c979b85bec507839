import MdxBuild.Proofs.Directive.Idempotence
import MdxBuild.Proofs.Markdown.Frontmatter

/-!
# Expanding documents with frontmatter

An expansion takes the lines of the frontmatter block for lines like any other. It leaves the block
alone, and reads the body as it would on its own, exactly if no line of the block is answered with a
tag and the fence that the block leaves open, if any, lets the same lines of the body be answered
with tags. Where a block opens a directive or a fence, as a literal text in it may, the document is
not expanded as block and body.
-/

namespace MdxBuild.Expansion

open Text

variable {registry : Registry} {useBuiltin : Bool} {source first second : Text}
  {frontmatter : Frontmatter} {stack : List Block}

/-- Which lines of a text are answered with tags, where no block is open in front of it and `state`
is the open fence. -/
def tagLines (registry : Registry) (useBuiltin : Bool) (state : Option Fence) (text : Text) :
    List Bool :=
  (run (registry.withBuiltin useBuiltin) [] (entriesFrom state (lines text))).1.map Piece.isTag

theorem any_tagLines (registry : Registry) (useBuiltin : Bool) (state : Option Fence)
    (text : Text) : (tagLines registry useBuiltin state text).any id =
      (run (registry.withBuiltin useBuiltin) [] (entriesFrom state (lines text))).1.any
        Piece.isTag := by
  rw [tagLines, List.any_map, Function.id_comp]

/-- The lines of a document with their roles are those of its block and those of its body. -/
theorem linesWithRoles_of_find? (isFound : Frontmatter.find? source = some frontmatter) :
    linesWithRoles source = entriesFrom none (lines frontmatter.block) ++
      entriesFrom (Fence.behind none frontmatter.block) (lines frontmatter.body) := by
  rw [linesWithRoles_eq, Frontmatter.lines_of_find? isFound, entriesFrom_append]
  rfl

/-- The pieces of a document are those of its block, and those of its body behind them. -/
theorem ofLines_of_find? (isFound : Frontmatter.find? source = some frontmatter)
    (kept : (expandDirectives registry useBuiltin frontmatter.block).changed = false) :
    ofLines registry useBuiltin source =
      (copies (entriesFrom none (lines frontmatter.block)) ++
          (run (registry.withBuiltin useBuiltin) []
            (entriesFrom (Fence.behind none frontmatter.block) (lines frontmatter.body))).1,
        (run (registry.withBuiltin useBuiltin) []
          (entriesFrom (Fence.behind none frontmatter.block) (lines frontmatter.body))).2) := by
  rw [changed_eq] at kept
  have isCopy : run (registry.withBuiltin useBuiltin) []
      (entriesFrom none (lines frontmatter.block)) = _ := run_of_not_isTag kept
  rw [ofLines, linesWithRoles_of_find? isFound, run_append, isCopy]

theorem render_copies_entriesFrom (newline : Text) (state : Option Fence) (text : Text) :
    (copies (entriesFrom state (lines text))).flatMap (Piece.render newline) = text := by
  rw [render_copies, map_snd_entriesFrom, flatten_lines]

/-- Whether a line break is missing at the end does not depend on complete lines in front. -/
theorem completion_append (complete : IsComplete first) (second : Text) :
    completion (first ++ second) = completion second := by
  cases second with
  | nil =>
    rw [List.append_nil, completion, if_pos (isComplete_iff.mp complete)]
    rfl
  | cons char rest =>
    rw [completion, completion, endsLine, endsLine, List.getLast?_append_of_ne_nil]
    · simp
    · exact List.cons_ne_nil char rest

theorem closers_append (complete : IsComplete first) (newline second : Text) (stack : List Block) :
    closers newline (first ++ second) stack = closers newline second stack := by
  by_cases isClosed : stack = []
  · rw [isClosed, closers, closers]
  · rw [closers_eq _ _ isClosed, closers_eq _ _ isClosed, completion_append complete]

theorem opened?_closers (newline written : Text) (stack : List Block) :
    (closers newline written stack).filterMap Piece.opened? = [] := by
  rw [List.filterMap_eq_nil_iff]
  intro piece member
  rcases mem_closers member with rfl | ⟨block, -, rfl⟩ <;> rfl

/-! ## Block and body -/

/-- The document is expanded as its block and its body, the block being kept. -/
def IsKept (registry : Registry) (useBuiltin : Bool) (source : Text)
    (frontmatter : Frontmatter) : Prop :=
  let whole := expandDirectives registry useBuiltin source
  let body := expandDirectives registry useBuiltin frontmatter.body
  whole.code = frontmatter.block ++ body.code ∧ whole.usedComponents = body.usedComponents ∧
    whole.changed = body.changed

theorem newlineOf_of_find? (isFound : Frontmatter.find? source = some frontmatter)
    (plain : '\r' ∉ source) : newlineOf frontmatter.body = newlineOf source := by
  rw [newlineOf_of_notMem plain, newlineOf_of_notMem]
  intro member
  apply plain
  rw [(Frontmatter.source_of_find? isFound).1]
  exact List.mem_append_right _ member

/-- A block without tags whose open fence does not matter to the body. -/
theorem isKept_of_tagLines (isFound : Frontmatter.find? source = some frontmatter)
    (plain : '\r' ∉ source)
    (kept : (expandDirectives registry useBuiltin frontmatter.block).changed = false)
    (sameTags : tagLines registry useBuiltin (Fence.behind none frontmatter.block)
      frontmatter.body = tagLines registry useBuiltin none frontmatter.body) :
    IsKept registry useBuiltin source frontmatter := by
  have isLines := ofLines_of_find? isFound kept
  have sameLines : (entriesFrom (Fence.behind none frontmatter.block)
      (lines frontmatter.body)).map Prod.snd = (linesWithRoles frontmatter.body).map Prod.snd := by
    rw [map_snd_entriesFrom, map_snd_linesWithRoles]
  obtain ⟨sameText, sameOpened, sameOpen⟩ := run_eq_of_isTag sameLines sameTags (newlineOf source)
  refine ⟨?_, ?_, ?_⟩
  · rw [code_expandDirectives, code_expandDirectives, isLines, List.flatMap_append,
      newlineOf_of_find? isFound plain, render_copies_entriesFrom, List.append_assoc, sameText,
      sameOpen, ofLines]
    rcases (Frontmatter.source_of_find? isFound).2 with complete | isNil
    · rw [closers_append complete]
    · rw [isNil]
      rfl
  · rw [usedComponents, usedComponents, pieces_expandDirectives, pieces_expandDirectives, isLines,
      List.filterMap_append, List.filterMap_append, List.filterMap_append, opened?_copies,
      opened?_closers, opened?_closers, sameOpened]
    rfl
  · rw [changed_eq, changed_eq, isLines, List.any_append, isTag_copies, Bool.false_or,
      ← any_tagLines, sameTags, any_tagLines]
    rfl

/-- What is expanded as block and body has its code in two parts, and each part tells which lines
were answered with tags. -/
theorem tagLines_of_isKept (isFound : Frontmatter.find? source = some frontmatter)
    (plain : '\r' ∉ source) (isKept : IsKept registry useBuiltin source frontmatter) :
    (expandDirectives registry useBuiltin frontmatter.block).changed = false ∧
      tagLines registry useBuiltin (Fence.behind none frontmatter.block) frontmatter.body =
        tagLines registry useBuiltin none frontmatter.body := by
  have sameCode := isKept.1
  have kept : (expandDirectives registry useBuiltin frontmatter.block).changed = false := by
    rw [code_expandDirectives, ofLines, linesWithRoles_of_find? isFound, run_append,
      List.flatMap_append, List.append_assoc] at sameCode
    rw [changed_eq]
    exact not_isTag_run_of_prefix (map_snd_entriesFrom none _) areHeaded_nil source sameCode
  refine ⟨kept, ?_⟩
  rw [code_expandDirectives, code_expandDirectives, ofLines_of_find? isFound kept,
    List.flatMap_append, newlineOf_of_find? isFound plain, render_copies_entriesFrom,
    List.append_assoc, List.append_cancel_left_eq] at sameCode
  apply isTag_run_eq _ _ areHeaded_nil source sameCode
  · rw [map_snd_entriesFrom]
    exact areLines_lines frontmatter.body
  · rw [map_snd_entriesFrom, map_snd_linesWithRoles]

/-- A document without carriage returns is expanded as its frontmatter block, which is kept, and its
body if and only if no line of the block is answered with a tag and the same lines of the body are
answered with tags behind the fence that the block leaves open as on their own. -/
theorem isKept_iff (registry : Registry) (useBuiltin : Bool)
    (isFound : Frontmatter.find? source = some frontmatter) (plain : '\r' ∉ source) :
    IsKept registry useBuiltin source frontmatter ↔
      (expandDirectives registry useBuiltin frontmatter.block).changed = false ∧
        tagLines registry useBuiltin (Fence.behind none frontmatter.block) frontmatter.body =
          tagLines registry useBuiltin none frontmatter.body :=
  ⟨tagLines_of_isKept isFound plain,
    fun ⟨kept, sameTags⟩ => isKept_of_tagLines isFound plain kept sameTags⟩

/-- A literal text in a frontmatter block, with a fence around a marker line. -/
def Trial.literalFence : Frontmatter :=
  ⟨"---\n".toList, "text: |\n  ```\n  :::note\n  ```\n  :::\n".toList, "---\n".toList,
    ":::note\nBody\n".toList⟩

/-- The fence is closed in the block, so the block is kept, and the body has its tags. -/
theorem isKept_of_literalFence :
    Frontmatter.find? (Trial.literalFence.block ++ Trial.literalFence.body) =
      some Trial.literalFence ∧
    '\r' ∉ Trial.literalFence.block ++ Trial.literalFence.body ∧
    IsKept {} true (Trial.literalFence.block ++ Trial.literalFence.body) Trial.literalFence := by
  have isFound : Frontmatter.find? (Trial.literalFence.block ++ Trial.literalFence.body) =
      some Trial.literalFence := by
    decide +kernel
  have plain : '\r' ∉ Trial.literalFence.block ++ Trial.literalFence.body := by
    decide +kernel
  exact ⟨isFound, plain, (isKept_iff {} true isFound plain).mpr (by decide +kernel)⟩

/-- A literal text in a frontmatter block with a marker line. -/
def Trial.literalMarker : Frontmatter :=
  ⟨"---\n".toList, "text: |\n  :::note\n".toList, "---\n".toList, "Body\n".toList⟩

/-- The marker line in the block is answered with a tag, which is closed behind the body. -/
theorem not_isKept_of_literalMarker :
    Frontmatter.find? (Trial.literalMarker.block ++ Trial.literalMarker.body) =
      some Trial.literalMarker ∧
    '\r' ∉ Trial.literalMarker.block ++ Trial.literalMarker.body ∧
    (expandDirectives {} true (Trial.literalMarker.block ++ Trial.literalMarker.body)).code =
      ("---\ntext: |\n  <Aside data-directive=\"note\" type=\"note\">\n\n---\nBody\n" ++
        "\n  </Aside>\n").toList ∧
    ¬IsKept {} true (Trial.literalMarker.block ++ Trial.literalMarker.body) Trial.literalMarker := by
  refine ⟨by decide +kernel, by decide +kernel, by decide +kernel, fun isKept => ?_⟩
  exact absurd isKept.2.2 (by decide +kernel)

end MdxBuild.Expansion

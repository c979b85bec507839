import Mathlib.Data.List.TakeDrop
import MdxBuild.Markdown.Frontmatter
import MdxBuild.Proofs.Digest.Content
import MdxBuild.Proofs.Text.Line

/-!
# Frontmatter and the lines of a document

The frontmatter block is a head of the document, and the body begins where a line does: the lines of
the document are those of the block and those of the body. `IsCutOf` is the grammar of documents that
have a block, and the block found is the one that the grammar tells.
-/

namespace MdxBuild

open Text

variable {source text first second rest line : Text} {others : List Text}
  {frontmatter : Frontmatter}

namespace Text

/-- A line up to and with the line feed that ends it. -/
def IsTerminated (line : Text) : Prop :=
  ∃ body, line = body ++ ['\n'] ∧ '\n' ∉ body

theorem IsTerminated.lines_append (terminated : IsTerminated line) (rest : Text) :
    lines (line ++ rest) = line :: lines rest := by
  obtain ⟨body, rfl, noBreak⟩ := terminated
  rw [List.append_assoc, List.singleton_append, lines_append_newline noBreak]

theorem lines_flatten_append (terminated : ∀ line ∈ others, IsTerminated line) (rest : Text) :
    lines (others.flatten ++ rest) = others ++ lines rest := by
  induction others with
  | nil => rfl
  | cons first others ih =>
    rw [List.forall_mem_cons] at terminated
    rw [List.flatten_cons, List.append_assoc, terminated.1.lines_append, ih terminated.2,
      List.cons_append]

/-- A line is terminated unless it is the last one. -/
theorem AreLines.isTerminated (areLines : AreLines (line :: others)) :
    IsTerminated line ∨ ('\n' ∉ line ∧ others = []) := by
  cases areLines with
  | last _ _ noBreak => exact .inr ⟨noBreak, rfl⟩
  | line body _ noBreak _ => exact .inl ⟨body, rfl, noBreak⟩

/-- The lines in front of a further one are terminated. -/
theorem AreLines.of_append {front : List Text} (areLines : AreLines (front ++ line :: others)) :
    (∀ first ∈ front, IsTerminated first) ∧ AreLines (line :: others) := by
  induction front with
  | nil => exact ⟨List.forall_mem_nil _, areLines⟩
  | cons first front ih =>
    obtain ⟨areTerminated, areLast⟩ := ih areLines.of_cons.2.2.1
    refine ⟨List.forall_mem_cons.mpr ⟨?_, areTerminated⟩, areLast⟩
    exact areLines.isTerminated.resolve_right fun isLast => by simp at isLast

/-- Heads of one text with the same number of bytes are the same. -/
theorem eq_of_utf8Length_eq (isFirst : first <+: text) (isSecond : second <+: text)
    (sameLength : utf8Length first = utf8Length second) : first = second := by
  have isSame {head more : Text} (same : utf8Length head = utf8Length (head ++ more)) :
      head = head ++ more := by
    rw [utf8Length_append] at same
    cases more with
    | nil => exact (List.append_nil head).symm
    | cons char more =>
      have positive := char.utf8Size_pos
      rw [utf8Length_cons] at same
      omega
  rcases List.prefix_or_prefix_of_prefix isFirst isSecond with ⟨more, rfl⟩ | ⟨more, rfl⟩
  · exact isSame sameLength
  · exact (isSame sameLength.symm).symm

end Text

namespace Frontmatter

theorem splitMark_append (text : Text) : (splitMark text).1 ++ (splitMark text).2 = text := by
  cases text with
  | nil => rfl
  | cons char rest =>
    rw [splitMark]
    split <;> rfl

theorem splitMark_of_head?_ne (unmarked : text.head? ≠ some mark) : splitMark text = ([], text) := by
  cases text with
  | nil => rfl
  | cons char rest =>
    rw [List.head?_cons, ne_eq, Option.some.injEq] at unmarked
    rw [splitMark, if_neg unmarked]

/-- A byte order mark in front of a document belongs to its frontmatter block. -/
theorem find?_cons_mark (unmarked : source.head? ≠ some mark) :
    find? (mark :: source) = (find? source).map fun frontmatter =>
      { frontmatter with opening := mark :: frontmatter.opening } := by
  rw [find?, find?, splitMark_of_head?_ne unmarked, splitMark, if_pos rfl]
  cases lines source with
  | nil => rfl
  | cons first others =>
    dsimp only
    by_cases isDelimited : isDelimiter first = true
    · rw [if_pos isDelimited, if_pos isDelimited]
      cases others.span (!isDelimiter ·) with
      | mk between behind =>
        cases behind <;> rfl
    · rw [if_neg isDelimited, if_neg isDelimited]
      rfl

/-- A delimiter line has nothing but hyphens and blanks. -/
theorem not_isDelimiter_of_mem {char : Char} (member : char ∈ line) (notHyphen : char ≠ '-')
    (notBlank : isBlank char = false) : isDelimiter line = false := by
  rw [Bool.eq_false_iff]
  intro isDelimiter
  rw [Frontmatter.isDelimiter, beq_iff_eq] at isDelimiter
  rw [← trimEndBy_append_tailBy isBlank line, ← trimEnd, isDelimiter, List.mem_append] at member
  rcases member with inMarker | inTail
  · simp [notHyphen] at inMarker
  · rw [tailBy, List.mem_reverse] at inTail
    exact absurd (List.mem_takeWhile_imp inTail) (by simp [notBlank])

theorem ne_nil_of_isDelimiter (isDelimited : isDelimiter line = true) : line ≠ [] := by
  rintro rfl
  cases isDelimited

/-- A document has a frontmatter block if a delimiter is its first line and another one follows. -/
theorem find?_eq_some_iff :
    find? source = some frontmatter ↔
      ∃ first between last after, lines (splitMark source).2 = first :: (between ++ last :: after) ∧
        isDelimiter first = true ∧ (∀ line ∈ between, isDelimiter line = false) ∧
        isDelimiter last = true ∧
        frontmatter = ⟨(splitMark source).1 ++ first, between.flatten, last, after.flatten⟩ := by
  rw [find?]
  constructor
  · intro isFound
    split at isFound
    · cases isFound
    · next first others isLines =>
      split at isFound
      · next isFirst =>
        rw [List.span_eq_takeWhile_dropWhile] at isFound
        cases isRest : others.dropWhile (!isDelimiter ·) with
        | nil =>
          rw [isRest] at isFound
          cases isFound
        | cons last after =>
          rw [isRest] at isFound
          have isLast := List.head?_dropWhile_not (!isDelimiter ·) others
          rw [isRest, List.head?_cons] at isLast
          refine ⟨first, others.takeWhile (!isDelimiter ·), last, after, ?_, isFirst, ?_, ?_,
            (Option.some.inj isFound).symm⟩
          · rw [isLines, ← isRest, List.takeWhile_append_dropWhile]
          · intro line member
            simpa using List.mem_takeWhile_imp member
          · simpa using isLast
      · cases isFound
  · rintro ⟨first, between, last, after, isLines, isFirst, areBetween, isLast, rfl⟩
    have passes : ∀ line ∈ between, (!isDelimiter line) = true := by simpa using areBetween
    rw [isLines]
    dsimp only
    rw [if_pos isFirst, List.span_eq_takeWhile_dropWhile, List.takeWhile_append_of_pos passes,
      List.dropWhile_append_of_pos passes]
    simp [isLast]

theorem find?_eq_none_of_forall (isLines : lines (splitMark source).2 = line :: others)
    (noDelimiter : ∀ other ∈ others, isDelimiter other = false) : find? source = none := by
  rw [Option.eq_none_iff_forall_ne_some]
  intro frontmatter isFound
  obtain ⟨first, between, last, after, isSplit, -, -, isLast, -⟩ := find?_eq_some_iff.mp isFound
  obtain ⟨rfl, rfl⟩ := List.cons.inj (isLines.symm.trans isSplit)
  rw [noDelimiter last (by simp)] at isLast
  cases isLast

/-- The lines behind the byte order mark: two delimiters, what is between them, and the body. -/
theorem exists_lines_of_find? (isFound : find? source = some frontmatter) :
    ∃ first between last after, lines (splitMark source).2 = first :: (between ++ last :: after) ∧
      frontmatter = ⟨(splitMark source).1 ++ first, between.flatten, last, after.flatten⟩ := by
  obtain ⟨first, between, last, after, isLines, -, -, -, isBlock⟩ := find?_eq_some_iff.mp isFound
  exact ⟨first, between, last, after, isLines, isBlock⟩

/-- A document is its block and its body, and the block ends a line unless it ends the document. -/
theorem source_of_find? (isFound : find? source = some frontmatter) :
    source = frontmatter.block ++ frontmatter.body ∧
      (IsComplete frontmatter.block ∨ frontmatter.body = []) := by
  obtain ⟨first, between, last, after, isLines, rfl⟩ := exists_lines_of_find? isFound
  constructor
  · have isText := flatten_lines (splitMark source).2
    rw [isLines] at isText
    calc source = (splitMark source).1 ++ (splitMark source).2 := (splitMark_append source).symm
      _ = _ := by
        rw [← isText]
        simp [block]
  · have areLines := areLines_lines (splitMark source).2
    rw [isLines, ← List.cons_append] at areLines
    rcases areLines.of_append.2.of_cons.2.2.2 with ⟨body, rfl⟩ | rfl
    · left
      rw [block, ← List.append_assoc]
      exact isComplete_concat _
    · exact .inr rfl

theorem strip_subset (source : Text) : strip source ⊆ source := by
  rw [strip]
  split
  · next frontmatter isFound =>
    rw [(source_of_find? isFound).1]
    exact List.subset_append_right _ _
  · exact List.Subset.refl source

theorem lines_of_find? (isFound : find? source = some frontmatter) :
    lines source = lines frontmatter.block ++ lines frontmatter.body := by
  obtain ⟨isText, complete | isNil⟩ := source_of_find? isFound
  · rw [← lines_append complete, ← isText]
  · rw [isNil, List.append_nil] at isText
    rw [isNil, lines_nil, List.append_nil, ← isText]

/-- The frontmatter block of a document, if there is one. -/
def front (source : Text) : Text :=
  ((find? source).map block).getD []

theorem front_append_strip (source : Text) : front source ++ strip source = source := by
  rw [front, strip]
  cases isFound : find? source with
  | none => rfl
  | some frontmatter => exact (source_of_find? isFound).1.symm

/-- The block ends with a delimiter line. -/
theorem isDelimiter_closing (isFound : find? source = some frontmatter) :
    isDelimiter frontmatter.closing = true ∧
      lines frontmatter.closing = [frontmatter.closing] := by
  have areLines := areLines_lines (splitMark source).2
  obtain ⟨first, between, last, after, isLines, -, -, isLast, rfl⟩ := find?_eq_some_iff.mp isFound
  rw [isLines, ← List.cons_append] at areLines
  exact ⟨isLast, areLines.lines_of_append_cons⟩

/-! ## What follows a block -/

theorem isComplete_block_iff (isFound : find? source = some frontmatter) :
    IsComplete frontmatter.block ↔ endsLine frontmatter.block = true := by
  have nonempty : frontmatter.block ≠ [] := by
    simp [block, ne_nil_of_isDelimiter (isDelimiter_closing isFound).1]
  simp [isComplete_iff, nonempty]

/-- A closing delimiter without a line break is the last line of the document. -/
theorem newline_notMem_closing (isFound : find? source = some frontmatter)
    (incomplete : endsLine frontmatter.block = false) : '\n' ∉ frontmatter.closing := by
  have areLines := areLines_lines frontmatter.closing
  rw [(isDelimiter_closing isFound).2] at areLines
  generalize isClosing : frontmatter.closing = closing at areLines
  cases areLines with
  | last _ _ noBreak => exact noBreak
  | line body _ _ _ =>
    have complete : IsComplete frontmatter.block := by
      rw [block, isClosing, ← List.append_assoc]
      exact isComplete_concat _
    rw [isComplete_block_iff isFound, incomplete] at complete
    cases complete

/-- A byte order mark does not depend on what follows. -/
theorem splitMark_append_iff {front inside : Text} (nonempty : text ≠ []) :
    splitMark (text ++ rest) = (front, inside ++ rest) ↔ splitMark text = (front, inside) := by
  cases text with
  | nil => exact absurd rfl nonempty
  | cons char more =>
    rw [List.cons_append, splitMark, splitMark]
    split
    · rw [Prod.mk.injEq, Prod.mk.injEq, List.append_cancel_right_eq]
    · rw [Prod.mk.injEq, Prod.mk.injEq, ← List.cons_append, List.append_cancel_right_eq]

/-- The lines of a block, whatever follows it. Only the closing delimiter may go on. -/
theorem exists_lines_block_append (isFound : find? source = some frontmatter) :
    ∃ front first between,
      (∀ rest, (splitMark (frontmatter.block ++ rest)).1 = front ∧
        lines (splitMark (frontmatter.block ++ rest)).2 =
          first :: (between ++ lines (frontmatter.closing ++ rest))) ∧
      isDelimiter first = true ∧ (∀ line ∈ between, isDelimiter line = false) ∧
      isDelimiter frontmatter.closing = true ∧ frontmatter.opening = front ++ first ∧
      frontmatter.content = between.flatten := by
  obtain ⟨first, between, last, after, isLines, isFirst, areBetween, isLast, rfl⟩ :=
    find?_eq_some_iff.mp isFound
  refine ⟨(splitMark source).1, first, between, fun rest => ?_, isFirst, areBetween, isLast, rfl,
    rfl⟩
  have isText := flatten_lines (splitMark source).2
  have areLines := areLines_lines (splitMark source).2
  rw [isLines, ← List.cons_append] at isText areLines
  have isWhole : (splitMark source).1 ++ first ++ between.flatten ++ last ++ after.flatten =
      source := by
    conv_rhs => rw [← splitMark_append source, ← isText]
    simp
  have nonempty : (splitMark source).1 ++ first ++ between.flatten ++ last ≠ [] := by
    simp [ne_nil_of_isDelimiter isLast]
  have isSplit : splitMark ((splitMark source).1 ++ first ++ between.flatten ++ last) =
      ((splitMark source).1, (first :: between).flatten ++ last) := by
    have isInside : (splitMark source).2 = (first :: between).flatten ++ last ++ after.flatten := by
      rw [← isText]
      simp
    have isSource : splitMark ((splitMark source).1 ++ first ++ between.flatten ++ last ++
        after.flatten) = ((splitMark source).1, (first :: between).flatten ++ last ++
          after.flatten) := by
      rw [isWhole, ← isInside]
    exact (splitMark_append_iff nonempty).mp isSource
  have isBlock : splitMark ((splitMark source).1 ++ first ++ between.flatten ++ last ++ rest) =
      ((splitMark source).1, (first :: between).flatten ++ (last ++ rest)) := by
    rw [(splitMark_append_iff nonempty).mpr isSplit, List.append_assoc]
  rw [block]
  dsimp only
  rw [isBlock]
  exact ⟨rfl, lines_flatten_append areLines.of_append.1 (last ++ rest)⟩

/-- What stands behind a block that ends a line is the body. -/
theorem find?_block_append (isFound : find? source = some frontmatter)
    (complete : IsComplete frontmatter.block) (rest : Text) :
    find? (frontmatter.block ++ rest) = some { frontmatter with body := rest } := by
  obtain ⟨front, first, between, isBlock, isFirst, areBetween, isLast, isOpening, isContent⟩ :=
    exists_lines_block_append isFound
  obtain ⟨isFront, isLines⟩ := isBlock rest
  apply find?_eq_some_iff.mpr
  refine ⟨first, between, frontmatter.closing, lines rest, ?_, isFirst, areBetween, isLast, ?_⟩
  · rw [isLines, lines_append complete.of_append, (isDelimiter_closing isFound).2,
      List.singleton_append]
  · rw [isFront, flatten_lines, ← isOpening, ← isContent]

/-- Where the line of the closing delimiter goes on to be none, and no further delimiter follows,
there is no block. -/
theorem find?_block_append_eq_none (isFound : find? source = some frontmatter)
    (noDelimiter : ∀ line ∈ lines (frontmatter.closing ++ rest), isDelimiter line = false) :
    find? (frontmatter.block ++ rest) = none := by
  obtain ⟨front, first, between, isBlock, -, areBetween, -⟩ := exists_lines_block_append isFound
  apply find?_eq_none_of_forall (isBlock rest).2
  intro line member
  rcases List.mem_append.mp member with isBetween | isLater
  · exact areBetween line isBetween
  · exact noDelimiter line isLater

/-! ## The grammar of documents with a block -/

/-- Three hyphens with blanks behind them. -/
def IsDashed (line : Text) : Prop :=
  ∃ blanks, line = ['-', '-', '-'] ++ blanks ∧ ∀ char ∈ blanks, isBlank char = true

theorem isDelimiter_iff : isDelimiter line = true ↔ IsDashed line := by
  rw [isDelimiter, beq_iff_eq]
  constructor
  · intro isTrimmed
    refine ⟨tailBy isBlank line, ?_, fun char member => ?_⟩
    · rw [← isTrimmed, trimEnd, trimEndBy_append_tailBy]
    · rw [tailBy, List.mem_reverse] at member
      exact List.mem_takeWhile_imp member
  · rintro ⟨blanks, rfl, areBlank⟩
    rw [trimEnd, trimEndBy_append areBlank]
    decide

/-- The document consists of an optional byte order mark, a delimiter line, lines that are no
delimiters, a second delimiter line and a body, and the block is cut accordingly. The second
delimiter lacks its line feed only if it ends the document. -/
inductive IsCutOf : Frontmatter → Text → Prop
  | intro (bom first : Text) (between : List Text) (last body : Text)
      (isMark : bom = [] ∨ bom = [mark])
      (opens : IsTerminated first ∧ IsDashed first)
      (goesOn : ∀ line ∈ between, IsTerminated line ∧ ¬IsDashed line)
      (closes : IsDashed last) (ends : IsTerminated last ∨ ('\n' ∉ last ∧ body = [])) :
      IsCutOf ⟨bom ++ first, between.flatten, last, body⟩
        (bom ++ (first ++ (between.flatten ++ (last ++ body))))

theorem splitMark_fst_cases (text : Text) :
    (splitMark text).1 = [] ∨ (splitMark text).1 = [mark] := by
  cases text with
  | nil => exact .inl rfl
  | cons char rest =>
    rw [splitMark]
    split
    · next isMark => exact .inr (by rw [isMark])
    · exact .inl rfl

theorem splitMark_append_of_head?_ne {bom : Text} (isMark : bom = [] ∨ bom = [mark])
    (unmarked : text.head? ≠ some mark) : splitMark (bom ++ text) = (bom, text) := by
  rcases isMark with rfl | rfl
  · exact splitMark_of_head?_ne unmarked
  · rw [List.singleton_append, splitMark, if_pos rfl]

theorem isCutOf_of_find? (isFound : find? source = some frontmatter) :
    frontmatter.IsCutOf source := by
  obtain ⟨first, between, last, after, isLines, isFirst, areBetween, isLast, rfl⟩ :=
    find?_eq_some_iff.mp isFound
  have areLines := areLines_lines (splitMark source).2
  rw [isLines, ← List.cons_append] at areLines
  obtain ⟨areTerminated, areLast⟩ := areLines.of_append
  rw [List.forall_mem_cons] at areTerminated
  have isSource : source = (splitMark source).1 ++
      (first ++ (between.flatten ++ (last ++ after.flatten))) := by
    conv_lhs => rw [← splitMark_append source, ← flatten_lines (splitMark source).2, isLines]
    simp
  have isMark := splitMark_fst_cases source
  generalize (splitMark source).1 = bom at isSource isMark ⊢
  rw [isSource]
  refine .intro bom first between last after.flatten isMark
    ⟨areTerminated.1, isDelimiter_iff.mp isFirst⟩ (fun line member => ?_)
    (isDelimiter_iff.mp isLast) ?_
  · refine ⟨areTerminated.2 line member, fun isDashed => ?_⟩
    rw [← isDelimiter_iff, areBetween line member] at isDashed
    cases isDashed
  · exact areLast.isTerminated.imp_right fun ⟨noBreak, isNil⟩ => ⟨noBreak, by rw [isNil]; rfl⟩

theorem IsCutOf.find?_eq (isCut : frontmatter.IsCutOf source) :
    find? source = some frontmatter := by
  obtain ⟨bom, first, between, last, body, isMark, opens, goesOn, closes, ends⟩ := isCut
  have unmarked : (first ++ (between.flatten ++ (last ++ body))).head? ≠ some mark := by
    obtain ⟨blanks, rfl, -⟩ := opens.2
    simp [mark]
  have isLast := isDelimiter_iff.mpr closes
  have isRest : lines (last ++ body) = last :: lines body := by
    rcases ends with isTerminated | ⟨noBreak, rfl⟩
    · exact isTerminated.lines_append body
    · rw [List.append_nil, lines_of_notMem noBreak (ne_nil_of_isDelimiter isLast), lines_nil]
  rw [find?_eq_some_iff, splitMark_append_of_head?_ne isMark unmarked]
  refine ⟨first, between, last, lines body, ?_, isDelimiter_iff.mpr opens.2, fun line member => ?_,
    isLast, by rw [flatten_lines]⟩
  · rw [opens.1.lines_append, lines_flatten_append fun line member => (goesOn line member).1, isRest]
  · rw [Bool.eq_false_iff, ne_eq, isDelimiter_iff]
    exact (goesOn line member).2

/-- The body begins at its offset in the bytes of the document. -/
theorem drop_utf8_of_find? (isFound : find? source = some frontmatter) :
    (utf8 source).drop frontmatter.bodyStart = utf8 frontmatter.body := by
  rw [(source_of_find? isFound).1, utf8_append]
  exact List.drop_left' (length_utf8 _)

/-- The block of a document is found exactly as the grammar cuts it: the parts are the document,
the offset is that of the body's bytes, and the body is what stripping leaves. Documents that the
grammar does not cut are left as they are. -/
theorem find?_follows_grammar (source : Text) :
    (∀ frontmatter, find? source = some frontmatter ↔ frontmatter.IsCutOf source) ∧
      ((∃ frontmatter : Frontmatter, frontmatter.IsCutOf source ∧
          frontmatter.opening ++ frontmatter.content ++ frontmatter.closing ++ frontmatter.body =
            source ∧
          (utf8 source).drop frontmatter.bodyStart = utf8 frontmatter.body ∧
          strip source = frontmatter.body) ∨
        ((∀ frontmatter : Frontmatter, ¬frontmatter.IsCutOf source) ∧ strip source = source)) := by
  have isIff (frontmatter : Frontmatter) :
      find? source = some frontmatter ↔ frontmatter.IsCutOf source :=
    ⟨isCutOf_of_find?, IsCutOf.find?_eq⟩
  refine ⟨isIff, ?_⟩
  cases isFound : find? source with
  | some frontmatter =>
    refine .inl ⟨frontmatter, isCutOf_of_find? isFound, (source_of_find? isFound).1.symm,
      drop_utf8_of_find? isFound, ?_⟩
    rw [strip, isFound]
  | none =>
    refine .inr ⟨fun frontmatter isCut => ?_, by rw [strip, isFound]⟩
    rw [isCut.find?_eq] at isFound
    cases isFound

end Frontmatter

end MdxBuild

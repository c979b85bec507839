import MdxBuild.Proofs.Import.Injection

/-!
# Frontmatter in front of added imports

Injection writes its statements directly behind the frontmatter block. A reader of the result finds
the block again, with the statements as the beginning of the body, exactly if the block ends with a
line break. A closing delimiter may also end the document without one; the first statement then
stands on the line of the delimiter, which is a delimiter no longer, and the block becomes a part of
the page.
-/

namespace MdxBuild.Import

open Text

variable {registry : Registry} {builtinActive : Bool} {fileExtension code : Text}
  {used : List Text} {frontmatter : Frontmatter}

/-- The statements that injection adds. -/
def addedStatements (registry : Registry) (builtinActive : Bool) (fileExtension : Text)
    (used : List Text) (code : Text) : List Text :=
  statements fileExtension ((missing code used).filterMap (source? registry builtinActive))

/-- The lines that injection adds: each statement on a line of its own, and an empty line. Without
statements there is no empty line either. -/
def addedLines (registry : Registry) (builtinActive : Bool) (fileExtension : Text)
    (used : List Text) (code : Text) : Text :=
  let added := addedStatements registry builtinActive fileExtension used code
  if added = [] then [] else added.flatMap (· ++ newlineOf code) ++ newlineOf code

/-- In the result, the frontmatter block has the same content and ends in the same place, and behind
it stand the added lines and what stood there before. -/
def KeepsFrontmatter (frontmatter : Frontmatter) (added result : Text) : Prop :=
  ∃ after, Frontmatter.find? result = some after ∧ after.content = frontmatter.content ∧
    after.bodyStart = frontmatter.bodyStart ∧ after.body = added ++ frontmatter.body

theorem addedLines_eq_nil_iff :
    addedLines registry builtinActive fileExtension used code = [] ↔
      addedStatements registry builtinActive fileExtension used code = [] := by
  rw [addedLines]
  split
  · next isNil => simp [isNil]
  · next isSome => simp [isSome, newlineOf_ne_nil]

theorem inject_eq_block_append (isFound : Frontmatter.find? code = some frontmatter) :
    inject registry builtinActive fileExtension used code =
      frontmatter.block ++
        (addedLines registry builtinActive fileExtension used code ++ frontmatter.body) := by
  rw [inject, addedLines, addedStatements]
  dsimp only
  split
  · next isNil =>
    rw [if_pos isNil]
    exact (Frontmatter.source_of_find? isFound).1
  · next isSome =>
    rw [if_neg isSome, isFound, ← intercalate_append_separator _ isSome]
    simp only [List.append_assoc]

/-- Every statement begins with the same word. -/
theorem mem_of_mem_addedStatements {statement : Text}
    (member : statement ∈ addedStatements registry builtinActive fileExtension used code) :
    'i' ∈ statement := by
  rw [addedStatements, statements_eq] at member
  obtain ⟨addition, -, rfl⟩ := List.mem_map.mp member
  rw [Addition.render_eq]
  exact List.mem_append_left _ (by decide)

/-- None of the added lines is a delimiter, and neither is a line that goes on with the first one. -/
theorem not_isDelimiter_of_mem_lines {head : Text} {added : List Text}
    (areStatements : ∀ statement ∈ added, 'i' ∈ statement ∧ '\n' ∉ statement)
    (noBreak : '\n' ∉ head) (isHead : head = [] ∨ added ≠ []) :
    ∀ line ∈ lines (head ++ (added.flatMap (· ++ newlineOf code) ++ newlineOf code)),
      Frontmatter.isDelimiter line = false := by
  obtain ⟨returns, isNewline, noReturn, -⟩ := exists_newlineOf code
  induction added generalizing head with
  | nil =>
    obtain rfl := isHead.resolve_right (not_not_intro rfl)
    have isLine : lines (newlineOf code) = [newlineOf code] := by
      rw [isNewline]
      exact lines_append_newline noReturn []
    intro line member
    rw [List.flatMap_nil, List.nil_append, List.nil_append, isLine, List.mem_singleton] at member
    subst member
    rw [newlineOf]
    split <;> decide
  | cons statement others ih =>
    obtain ⟨⟨isStatement, noStatementBreak⟩, areOthers⟩ := List.forall_mem_cons.mp areStatements
    have noLineBreak : '\n' ∉ head ++ statement ++ returns := by
      simp [noBreak, noStatementBreak, noReturn]
    have isText : head ++ ((statement :: others).flatMap (· ++ newlineOf code) ++ newlineOf code) =
        head ++ statement ++ returns ++
          '\n' :: ([] ++ (others.flatMap (· ++ newlineOf code) ++ newlineOf code)) := by
      have isBreak (rest : Text) : newlineOf code ++ rest = returns ++ '\n' :: rest := by
        rw [isNewline, List.append_assoc, List.singleton_append]
      simp only [List.flatMap_cons, List.append_assoc, List.nil_append, isBreak,
        List.cons_append]
    intro line member
    rw [isText, lines_append_newline noLineBreak, List.mem_cons] at member
    rcases member with rfl | isLater
    · have isLetter : 'i' ∈ head ++ statement ++ returns ++ ['\n'] := by simp [isStatement]
      exact Frontmatter.not_isDelimiter_of_mem isLetter (by decide) (by decide)
    · exact ih areOthers List.not_mem_nil (.inl rfl) line isLater

/-- Injection keeps the frontmatter of a document if and only if nothing is added or a line break
ends the block. If not, and if the statements do not break lines, the result has no frontmatter. -/
theorem inject_keepsFrontmatter_iff (registry : Registry) (builtinActive : Bool)
    (fileExtension : Text) (used : List Text)
    (isFound : Frontmatter.find? code = some frontmatter) :
    let added := addedStatements registry builtinActive fileExtension used code
    let result := inject registry builtinActive fileExtension used code
    (KeepsFrontmatter frontmatter (addedLines registry builtinActive fileExtension used code)
        result ↔ added = [] ∨ endsLine frontmatter.block = true) ∧
      (added ≠ [] → endsLine frontmatter.block = false → (∀ statement ∈ added, '\n' ∉ statement) →
        Frontmatter.find? result = none) := by
  intro added result
  have isResult : result = _ := inject_eq_block_append isFound
  have isNil : addedLines registry builtinActive fileExtension used code = [] ↔ added = [] :=
    addedLines_eq_nil_iff
  constructor
  · constructor
    · rintro ⟨after, isAfter, -, sameStart, -⟩
      by_contra lost
      obtain ⟨isSome, incomplete⟩ := not_or.mp lost
      obtain ⟨isText, complete⟩ := Frontmatter.source_of_find? isAfter
      have sameBlock : after.block = frontmatter.block :=
        eq_of_utf8Length_eq ⟨_, isText.symm⟩ ⟨_, isResult.symm⟩ sameStart
      rw [sameBlock] at isText complete
      rcases complete with complete | isEmpty
      · exact incomplete ((Frontmatter.isComplete_block_iff isFound).mp complete)
      · rw [isResult, isEmpty, List.append_cancel_left_eq] at isText
        exact isSome (isNil.mp (List.append_eq_nil_iff.mp isText).1)
    · rintro (isEmpty | complete)
      · have isCode : result = code := by
          rw [isResult, isNil.mpr isEmpty, List.nil_append, ← (Frontmatter.source_of_find? isFound).1]
        refine ⟨frontmatter, isCode ▸ isFound, rfl, rfl, ?_⟩
        rw [isNil.mpr isEmpty, List.nil_append]
      · have isComplete := (Frontmatter.isComplete_block_iff isFound).mpr complete
        have isAfter := Frontmatter.find?_block_append isFound isComplete
          (addedLines registry builtinActive fileExtension used code ++ frontmatter.body)
        rw [← isResult] at isAfter
        exact ⟨_, isAfter, rfl, rfl, rfl⟩
  · intro isSome incomplete noBreaks
    have isBody : frontmatter.body = [] := by
      refine (Frontmatter.source_of_find? isFound).2.resolve_left fun complete => ?_
      rw [Frontmatter.isComplete_block_iff isFound, incomplete] at complete
      cases complete
    rw [isResult, isBody, List.append_nil]
    apply Frontmatter.find?_block_append_eq_none isFound
    rw [addedLines, if_neg isSome]
    apply not_isDelimiter_of_mem_lines
    · exact fun statement member => ⟨mem_of_mem_addedStatements member, noBreaks statement member⟩
    · exact Frontmatter.newline_notMem_closing isFound incomplete
    · exact .inr isSome

/-- A document with a byte order mark, blanks behind its delimiters and two-character line breaks. -/
def Trial.marked : Text :=
  "\uFEFF---\t\r\ntitle: A\r\n--- \r\nText\r\n".toList

/-- The block ends a line, so it is kept. -/
theorem inject_keepsFrontmatter_of_marked :
    let added := "import Aside from 'virtual:fallback-components/Aside';\r\n\r\n".toList
    let result := inject {} true [] ["Aside".toList] Trial.marked
    ∃ frontmatter, Frontmatter.find? Trial.marked = some frontmatter ∧
      KeepsFrontmatter frontmatter added result := by
  intro added result
  have isFound : Frontmatter.find? Trial.marked = some ⟨"\uFEFF---\t\r\n".toList,
      "title: A\r\n".toList, "--- \r\n".toList, "Text\r\n".toList⟩ := by
    decide +kernel
  have isAdded : addedLines {} true [] ["Aside".toList] Trial.marked = added := by
    decide +kernel
  refine ⟨_, isFound, ?_⟩
  rw [← isAdded]
  exact (inject_keepsFrontmatter_iff {} true [] ["Aside".toList] isFound).1.mpr
    (.inr (by decide +kernel))

/-- A document that is nothing but its frontmatter, without a line break at the end. -/
def Trial.unfinished : Text :=
  "---\ntitle: A\n---".toList

/-- The statement stands on the line of the closing delimiter, and the block is lost. -/
theorem not_inject_keepsFrontmatter_of_unfinished :
    let result := inject {} true [] ["Aside".toList] Trial.unfinished
    result = "---\ntitle: A\n---import Aside from 'virtual:fallback-components/Aside';\n\n".toList ∧
    Frontmatter.find? result = none ∧
    ∃ frontmatter, Frontmatter.find? Trial.unfinished = some frontmatter ∧
      ∀ added, ¬KeepsFrontmatter frontmatter added result := by
  intro result
  have isFound : Frontmatter.find? Trial.unfinished =
      some ⟨"---\n".toList, "title: A\n".toList, "---".toList, []⟩ := by
    decide +kernel
  have isLost : Frontmatter.find? result = none := by
    decide +kernel
  refine ⟨by decide +kernel, isLost, _, isFound, ?_⟩
  rintro added ⟨after, isAfter, -⟩
  rw [isLost] at isAfter
  cases isAfter

end MdxBuild.Import

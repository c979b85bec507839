import Mathlib.Data.List.DropRight
import MdxBuild.Text.Line

/-!
# Texts made of lines

A text is complete if nothing of an unfinished line stands at its end. Complete texts can be put in
front of others without changing their lines. `AreLines` is what the lines of a text look like, and
a list of this kind is that of the lines of its concatenation.
-/

namespace MdxBuild.Text

variable {text first second body breaks line : Text} {all : List Text} {inClass : Char → Bool}

/-! ## Trimming at the end -/

theorem trimEndBy_eq_rdropWhile (inClass : Char → Bool) (text : Text) :
    trimEndBy inClass text = text.rdropWhile inClass :=
  rfl

theorem trimEndBy_append (all : ∀ char ∈ second, inClass char = true) :
    trimEndBy inClass (first ++ second) = trimEndBy inClass first := by
  induction second using List.reverseRecOn with
  | nil => rw [List.append_nil]
  | append_singleton second char ih =>
    rw [trimEndBy_eq_rdropWhile, ← List.append_assoc,
      List.rdropWhile_concat_pos _ _ _ (all char (by simp))]
    exact ih fun other member => all other (List.mem_append_left _ member)

theorem trimEndBy_concat_of_not {char : Char} (other : inClass char = false) (text : Text) :
    trimEndBy inClass (text ++ [char]) = text ++ [char] :=
  List.rdropWhile_concat_neg _ _ _ (Bool.eq_false_iff.mp other)

/-! ## Complete texts -/

/-- The text is empty, or a line feed ends it. -/
def IsComplete (text : Text) : Prop :=
  text = [] ∨ text.getLast? = some '\n'

theorem isComplete_iff : IsComplete text ↔ (text.isEmpty || endsLine text) = true := by
  rw [IsComplete, endsLine, Bool.or_eq_true, List.isEmpty_iff, beq_iff_eq]

theorem isComplete_nil : IsComplete [] :=
  .inl rfl

theorem isComplete_concat (text : Text) : IsComplete (text ++ ['\n']) :=
  .inr List.getLast?_concat

theorem isComplete_append (isBreak : second.getLast? = some '\n') (first : Text) :
    IsComplete (first ++ second) :=
  .inr (by rw [List.getLast?_append, isBreak, Option.some_or])

theorem IsComplete.append (complete : IsComplete first) (others : IsComplete second) :
    IsComplete (first ++ second) := by
  rcases others with rfl | last
  · rwa [List.append_nil]
  · exact isComplete_append last first

theorem isComplete_flatMap {α : Type} {items : List α} {print : α → Text}
    (complete : ∀ item ∈ items, IsComplete (print item)) : IsComplete (items.flatMap print) := by
  induction items with
  | nil => exact isComplete_nil
  | cons item others ih =>
    rw [List.forall_mem_cons] at complete
    exact complete.1.append (ih complete.2)

theorem IsComplete.of_cons {char : Char} (complete : IsComplete (char :: text)) :
    IsComplete text := by
  rcases complete with isNil | last
  · cases isNil
  · cases text with
    | nil => exact isComplete_nil
    | cons next rest => exact .inr (by rwa [List.getLast?_cons_cons] at last)

theorem IsComplete.of_append (complete : IsComplete (first ++ second)) : IsComplete second := by
  induction first with
  | nil => exact complete
  | cons char rest ih => exact ih complete.of_cons

/-- The line break of synthesized lines: a line feed, perhaps behind a carriage return. -/
theorem exists_newlineOf (text : Text) :
    ∃ returns, newlineOf text = returns ++ ['\n'] ∧ '\n' ∉ returns ∧
      ∀ char ∈ newlineOf text, isLineBreak char = true := by
  rw [newlineOf]
  split
  · exact ⟨['\r'], rfl, by decide, List.all_eq_true.mp (by decide)⟩
  · exact ⟨[], rfl, by decide, List.all_eq_true.mp (by decide)⟩

theorem mem_of_occursIn {part : Text} {char : Char} (occurs : occursIn part text = true)
    (member : char ∈ part) : char ∈ text := by
  induction text with
  | nil =>
    rw [occursIn, List.isEmpty_iff] at occurs
    rwa [occurs] at member
  | cons first rest ih =>
    rw [occursIn, Bool.or_eq_true, List.isPrefixOf_iff_prefix] at occurs
    rcases occurs with isPrefix | occurs
    · exact isPrefix.subset member
    · exact List.mem_cons_of_mem first (ih occurs)

/-- Without carriage returns, line breaks are line feeds. -/
theorem newlineOf_of_notMem (plain : '\r' ∉ text) : newlineOf text = ['\n'] := by
  rw [newlineOf, if_neg]
  intro occurs
  exact plain (mem_of_occursIn occurs List.mem_cons_self)

/-! ## Lines -/

theorem lines_eq_nil_iff : lines text = [] ↔ text = [] := by
  constructor
  · intro noLines
    rw [← flatten_lines text, noLines, List.flatten_nil]
  · rintro rfl
    rfl

theorem lines_newline_cons (text : Text) : lines ('\n' :: text) = ['\n'] :: lines text := by
  rw [lines, if_pos rfl]

theorem lines_cons_of_cons {char : Char} {others : List Text} (noBreak : char ≠ '\n')
    (isLines : lines text = line :: others) : lines (char :: text) = (char :: line) :: others := by
  rw [lines, if_neg noBreak, isLines]

/-- A line reaches up to the first line feed. -/
theorem lines_append_newline (noBreak : '\n' ∉ body) (text : Text) :
    lines (body ++ '\n' :: text) = (body ++ ['\n']) :: lines text := by
  induction body with
  | nil => exact lines_newline_cons text
  | cons char rest ih =>
    rw [List.mem_cons, not_or] at noBreak
    exact lines_cons_of_cons (Ne.symm noBreak.1) (ih noBreak.2)

/-- A text without line feeds is one line. -/
theorem lines_of_notMem (noBreak : '\n' ∉ text) (nonempty : text ≠ []) : lines text = [text] := by
  induction text with
  | nil => exact absurd rfl nonempty
  | cons char rest ih =>
    rw [List.mem_cons, not_or] at noBreak
    cases rest with
    | nil => rw [lines, if_neg (Ne.symm noBreak.1), lines_nil]
    | cons next rest =>
      exact lines_cons_of_cons (Ne.symm noBreak.1) (ih noBreak.2 (List.cons_ne_nil next rest))

/-- The lines of a complete text are not changed by what follows. -/
theorem lines_append (complete : IsComplete first) (second : Text) :
    lines (first ++ second) = lines first ++ lines second := by
  induction first with
  | nil => rfl
  | cons char rest ih =>
    have others := ih complete.of_cons
    by_cases isBreak : char = '\n'
    · subst isBreak
      rw [List.cons_append, lines_newline_cons, lines_newline_cons, others, List.cons_append]
    · cases isLines : lines rest with
      | nil =>
        rw [lines_eq_nil_iff] at isLines
        subst isLines
        rcases complete with isNil | last
        · cases isNil
        · exact absurd (Option.some.inj last) isBreak
      | cons line more =>
        rw [isLines, List.cons_append] at others
        rw [List.cons_append, lines_cons_of_cons isBreak others,
          lines_cons_of_cons isBreak isLines, List.cons_append]

/-- Within a line no further one begins. -/
theorem eq_nil_of_lines_append (isLine : lines (first ++ second) = [first ++ second])
    (complete : IsComplete first) (nonempty : second ≠ []) : first = [] := by
  have isSplit := congrArg List.length (lines_append complete second)
  have someLine := List.length_pos_iff.mpr fun noLine => nonempty (lines_eq_nil_iff.mp noLine)
  rw [isLine, List.length_append, List.length_singleton] at isSplit
  apply lines_eq_nil_iff.mp
  apply List.length_eq_zero_iff.mp
  omega

/-- A text is its complete lines and a rest without line feeds. -/
theorem exists_complete_append (text : Text) :
    ∃ front last, text = front ++ last ∧ IsComplete front ∧ '\n' ∉ last := by
  induction text using List.reverseRecOn with
  | nil => exact ⟨[], [], rfl, isComplete_nil, List.not_mem_nil⟩
  | append_singleton text char ih =>
    by_cases isBreak : char = '\n'
    · subst isBreak
      exact ⟨text ++ ['\n'], [], (List.append_nil _).symm, isComplete_concat text,
        List.not_mem_nil⟩
    · obtain ⟨front, last, rfl, complete, noBreak⟩ := ih
      refine ⟨front, last ++ [char], List.append_assoc _ _ _, complete, ?_⟩
      rw [List.mem_append, List.mem_singleton, not_or]
      exact ⟨noBreak, Ne.symm isBreak⟩

/-- The first line of a text reaches beyond its first part, if there is no line feed in it. -/
theorem exists_lines_append (noBreak : '\n' ∉ body) (nonempty : body ≠ []) (text : Text) :
    ∃ more rest, text = more ++ rest ∧ lines (body ++ text) = (body ++ more) :: lines rest := by
  by_cases isBreak : '\n' ∈ text
  · obtain ⟨more, rest, rfl, noFurther⟩ := List.eq_append_cons_of_mem isBreak
    refine ⟨more ++ ['\n'], rest, by rw [List.append_assoc, List.singleton_append], ?_⟩
    rw [← List.append_assoc, lines_append_newline, List.append_assoc]
    rw [List.mem_append, not_or]
    exact ⟨noBreak, noFurther⟩
  · refine ⟨text, [], (List.append_nil text).symm, lines_of_notMem ?_ (by simp [nonempty])⟩
    rw [List.mem_append, not_or]
    exact ⟨noBreak, isBreak⟩

/-- What the lines of a text look like: a line feed ends each line and stands nowhere else in it;
the last line may lack it. -/
inductive AreLines : List Text → Prop
  | nil : AreLines []
  | last (body : Text) (nonempty : body ≠ []) (noBreak : '\n' ∉ body) : AreLines [body]
  | line (body : Text) (others : List Text) (noBreak : '\n' ∉ body) (areLines : AreLines others) :
      AreLines ((body ++ ['\n']) :: others)

theorem areLines_lines (text : Text) : AreLines (lines text) := by
  induction text with
  | nil => exact .nil
  | cons char rest ih =>
    by_cases isBreak : char = '\n'
    · subst isBreak
      rw [lines_newline_cons]
      exact .line [] _ (List.not_mem_nil) ih
    · cases isLines : lines rest with
      | nil =>
        rw [lines_eq_nil_iff] at isLines
        subst isLines
        rw [lines, if_neg isBreak, lines_nil]
        exact .last [char] (List.cons_ne_nil char []) (by simpa using Ne.symm isBreak)
      | cons line others =>
        rw [lines_cons_of_cons isBreak isLines]
        rw [isLines] at ih
        have noBreak {body : Text} (inBody : '\n' ∉ body) : '\n' ∉ char :: body := by
          rw [List.mem_cons, not_or]
          exact ⟨Ne.symm isBreak, inBody⟩
        cases ih with
        | last _ _ inLine => exact .last _ (List.cons_ne_nil char line) (noBreak inLine)
        | line body _ inBody areLines => exact .line (char :: body) others (noBreak inBody) areLines

/-- A list of lines is that of the lines of its concatenation. -/
theorem AreLines.lines_flatten (areLines : AreLines all) : lines all.flatten = all := by
  induction areLines with
  | nil => rfl
  | last body nonempty noBreak => rw [List.flatten_singleton, lines_of_notMem noBreak nonempty]
  | line body others noBreak areLines ih =>
    rw [List.flatten_cons, List.append_assoc, List.singleton_append, lines_append_newline noBreak,
      ih]

/-! ## Contents and endings -/

@[simp]
theorem content_nil : content [] = [] :=
  rfl

/-- Line breaks at the end do not belong to the content. -/
theorem content_append (isBreaks : ∀ char ∈ breaks, isLineBreak char = true) :
    content (text ++ breaks) = content text :=
  trimEndBy_append isBreaks

theorem content_concat_of_not {char : Char} (other : isLineBreak char = false) (text : Text) :
    content (text ++ [char]) = text ++ [char] :=
  trimEndBy_concat_of_not other text

/-- Where the content of a text is all of it, the content goes on behind. -/
theorem content_append_of_eq (isContent : content first = first) (second : Text) :
    content (first ++ second) = first ++ content second := by
  induction second using List.reverseRecOn with
  | nil => rw [List.append_nil, isContent, content_nil, List.append_nil]
  | append_singleton second char ih =>
    rw [← List.append_assoc]
    cases other : isLineBreak char with
    | false => rw [content_concat_of_not other, content_concat_of_not other, List.append_assoc]
    | true =>
      have isBreaks : ∀ last ∈ [char], isLineBreak last = true := by simpa using other
      rw [content_append isBreaks, content_append isBreaks, ih]

theorem content_eq_nil (isBreaks : ∀ char ∈ breaks, isLineBreak char = true) :
    content breaks = [] := by
  rw [← List.nil_append breaks, content_append isBreaks, content_nil]

theorem subset_content (text : Text) : content text ⊆ text :=
  ( trimEndBy_prefix isLineBreak text).subset

theorem notMem_content (noBreak : '\n' ∉ body) : '\n' ∉ content body :=
  fun member => noBreak (subset_content body member)

/-- A line is complete or the last one. In either case it is a line on its own, and there is no line
feed in its content. -/
theorem AreLines.of_cons {others : List Text} (areLines : AreLines (line :: others)) :
    lines line = [line] ∧ '\n' ∉ content line ∧ AreLines others ∧
      ((∃ body, line = body ++ ['\n']) ∨ others = []) := by
  cases areLines with
  | last _ nonempty noBreak =>
    exact ⟨lines_of_notMem noBreak nonempty, notMem_content noBreak, .nil, .inr rfl⟩
  | line body _ noBreak areLines =>
    refine ⟨lines_append_newline noBreak [], ?_, areLines, .inl ⟨body, rfl⟩⟩
    have isBreak : ∀ char ∈ ['\n'], isLineBreak char = true := List.all_eq_true.mp (by decide)
    rw [content_append isBreak]
    exact notMem_content noBreak

theorem AreLines.lines_of_append_cons {front others : List Text}
    (areLines : AreLines (front ++ line :: others)) : lines line = [line] := by
  induction front with
  | nil => exact areLines.of_cons.1
  | cons first front ih => exact ih areLines.of_cons.2.2.1

theorem isLineBreak_of_mem_ending {char : Char} (member : char ∈ ending line) :
    isLineBreak char = true := by
  rw [ending, tailBy, List.mem_reverse] at member
  exact List.mem_takeWhile_imp member

theorem ending_concat (text : Text) : ending (text ++ ['\n']) = ending text ++ ['\n'] := by
  rw [ending, ending, tailBy, tailBy, List.reverse_append, List.reverse_singleton,
    List.singleton_append, List.takeWhile_cons_of_pos (by decide), List.reverse_cons]

end MdxBuild.Text

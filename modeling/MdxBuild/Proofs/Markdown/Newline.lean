import MdxBuild.Proofs.Markdown.Fence
import MdxBuild.Proofs.Markdown.Frontmatter
import MdxBuild.Proofs.Text.Newline

/-!
# Documents with line breaks of two characters

The copy of a document with carriage returns has the copy of its body and the same fences. Fenced
lines, once emptied, are the same in both.
-/

namespace MdxBuild

open Text

variable {line breaks text : Text} {all others : List Text}

namespace Frontmatter

/-- The copy of a document cut at its frontmatter block. -/
def withReturns (frontmatter : Frontmatter) : Frontmatter where
  opening := Text.withReturns frontmatter.opening
  content := Text.withReturns frontmatter.content
  closing := Text.withReturns frontmatter.closing
  body := Text.withReturns frontmatter.body

theorem splitMark_withReturns (text : Text) :
    splitMark (Text.withReturns text) =
      ((splitMark text).1, Text.withReturns (splitMark text).2) := by
  cases text with
  | nil => rfl
  | cons char rest =>
    by_cases isBreak : char = '\n'
    · rw [isBreak]
      rfl
    · rw [withReturns_cons isBreak, splitMark, splitMark]
      split
      · rfl
      · rw [withReturns_cons isBreak]

theorem withReturns_splitMark (text : Text) :
    Text.withReturns (splitMark text).1 = (splitMark text).1 := by
  cases text with
  | nil => rfl
  | cons char rest =>
    rw [splitMark]
    split
    · next isMark =>
      rw [isMark]
      rfl
    · rfl

theorem isDelimiter_withReturns (areLines : AreLines (line :: others)) :
    isDelimiter (Text.withReturns line) = isDelimiter line := by
  cases areLines with
  | last _ _ noBreak => rw [withReturns_of_notMem noBreak]
  | line body _ noBreak =>
    have returned : ∀ char ∈ Text.withReturns ['\n'], isBlank char = true :=
      List.all_eq_true.mp (by decide)
    have plain : ∀ char ∈ ['\n'], isBlank char = true := List.all_eq_true.mp (by decide)
    rw [withReturns_append, withReturns_of_notMem noBreak, isDelimiter, isDelimiter, trimEnd,
      trimEndBy_append returned, trimEnd, trimEndBy_append plain]

theorem span_withReturns (areLines : AreLines all) :
    (all.map Text.withReturns).span (!isDelimiter ·) =
      Prod.map (List.map Text.withReturns) (List.map Text.withReturns)
        (all.span (!isDelimiter ·)) := by
  rw [List.span_eq_takeWhile_dropWhile, List.span_eq_takeWhile_dropWhile, Prod.map_apply]
  induction all with
  | nil => rfl
  | cons line others ih =>
    have isOther := ih areLines.of_cons.2.2.1
    rw [Prod.mk.injEq] at isOther
    rw [List.map_cons, List.takeWhile_cons, List.dropWhile_cons, isDelimiter_withReturns areLines,
      List.takeWhile_cons, List.dropWhile_cons]
    split
    · rw [isOther.1, isOther.2, List.map_cons]
    · rw [List.map_cons]
      rfl

/-- The copy of a document is cut where the document is. -/
theorem find?_withReturns (source : Text) :
    find? (Text.withReturns source) = (find? source).map withReturns := by
  have areLines := areLines_lines (splitMark source).2
  rw [find?, find?, splitMark_withReturns, lines_withReturns]
  cases isLines : lines (splitMark source).2 with
  | nil => rfl
  | cons first others =>
    rw [isLines] at areLines
    rw [List.map_cons]
    dsimp only
    rw [isDelimiter_withReturns areLines, span_withReturns areLines.of_cons.2.2.1]
    by_cases isDelimited : isDelimiter first = true
    · rw [if_pos isDelimited, if_pos isDelimited]
      cases others.span (!isDelimiter ·) with
      | mk between behind =>
        cases behind with
        | nil => rfl
        | cons last after =>
          simp only [Prod.map_apply, List.map_cons, Option.map_some, withReturns,
            withReturns_append, withReturns_splitMark, flatten_map_withReturns]
    · rw [if_neg isDelimited, if_neg isDelimited]
      rfl

theorem strip_withReturns (source : Text) :
    strip (Text.withReturns source) = Text.withReturns (strip source) := by
  rw [strip, strip, find?_withReturns]
  cases find? source <;> rfl

end Frontmatter

/-! ## Fences -/

/-- A class is left at the end of a text, if nothing behind it belongs to the class. -/
theorem takeWhile_append_of_not {inClass : Char → Bool} {second : Text}
    (noneBehind : ∀ char ∈ second, inClass char = false) (first : Text) :
    (first ++ second).takeWhile inClass = first.takeWhile inClass ∧
      (first ++ second).dropWhile inClass = first.dropWhile inClass ++ second := by
  induction first with
  | nil =>
    cases second with
    | nil => exact ⟨rfl, rfl⟩
    | cons char rest =>
      have stop := Bool.eq_false_iff.mp (noneBehind char List.mem_cons_self)
      exact ⟨List.takeWhile_cons_of_neg stop, List.dropWhile_cons_of_neg stop⟩
  | cons char rest ih =>
    rw [List.cons_append, List.takeWhile_cons, List.dropWhile_cons, List.takeWhile_cons,
      List.dropWhile_cons, ih.1, ih.2]
    split
    · exact ⟨rfl, rfl⟩
    · exact ⟨rfl, rfl⟩

theorem eq_of_isLineBreak {char : Char} (isBreak : isLineBreak char = true) :
    char = '\n' ∨ char = '\r' := by
  rwa [isLineBreak, Bool.or_eq_true, decide_eq_true_eq, decide_eq_true_eq] at isBreak

theorem lineRemainder_append_breaks (isBreaks : ∀ char ∈ breaks, isLineBreak char = true)
    (text : Text) : lineRemainder (text ++ breaks) = lineRemainder text ++ breaks := by
  apply (takeWhile_append_of_not _ text).2
  intro char member
  rcases eq_of_isLineBreak (isBreaks char member) with rfl | rfl <;> decide

namespace Fence

/-- Line breaks behind a run of a fence's characters belong to the text after it. -/
theorem read?_append_breaks (isBreaks : ∀ char ∈ breaks, isLineBreak char = true) (text : Text) :
    read? (text ++ breaks) = (read? text).map (Prod.map id (· ++ breaks)) := by
  have noMarker {char : Char} (member : char ∈ breaks) : char ≠ '`' ∧ char ≠ '~' := by
    rcases eq_of_isLineBreak (isBreaks char member) with rfl | rfl <;> decide
  cases text with
  | nil =>
    cases breaks with
    | nil => rfl
    | cons char rest =>
      rcases noMarker List.mem_cons_self with ⟨noTick, noTilde⟩
      rw [List.nil_append, read?_cons_of_ne noTick noTilde]
      rfl
  | cons marker rest =>
    by_cases isMarker : marker = '`' ∨ marker = '~'
    · have noneBehind : ∀ char ∈ breaks, decide (char = marker) = false := by
        intro char member
        apply decide_eq_false
        rintro rfl
        rcases isMarker with isTick | isTilde
        · exact (noMarker member).1 isTick
        · exact (noMarker member).2 isTilde
      rcases takeWhile_append_of_not noneBehind rest with ⟨sameRun, sameRest⟩
      rw [List.cons_append, read?, sameRun, sameRest, read?]
      split <;> rfl
    · rw [not_or] at isMarker
      rw [List.cons_append, read?_cons_of_ne isMarker.1 isMarker.2,
        read?_cons_of_ne isMarker.1 isMarker.2]
      rfl

/-- Line breaks behind a line do not matter to a fence. -/
theorem observe_append_breaks (isBreaks : ∀ char ∈ breaks, isLineBreak char = true)
    (state : Option Fence) (remainder : Text) :
    observe state (remainder ++ breaks) = observe state remainder := by
  rw [observe.eq_def, observe.eq_def, read?_append_breaks isBreaks]
  cases read? remainder with
  | none => rfl
  | some run =>
    rcases run with ⟨candidate, info⟩
    have sameBlank : allBlank (info ++ breaks) = allBlank info := by
      have blank : allBlank breaks = true := by
        rw [allBlank, List.all_eq_true]
        intro char member
        rcases eq_of_isLineBreak (isBreaks char member) with rfl | rfl <;> decide
      rw [allBlank, List.all_append, ← allBlank, ← allBlank, blank, Bool.and_true]
    have sameTick : (info ++ breaks).contains '`' = info.contains '`' := by
      have noTick : breaks.contains '`' = false := by
        rw [Bool.eq_false_iff, ne_eq, List.contains_iff_mem]
        exact fun member => absurd (isBreaks _ member) (by decide)
      rw [List.contains_append, noTick, Bool.or_false]
    rw [Option.map_some, Prod.map_apply]
    cases state with
    | some fence =>
      dsimp only
      rw [closedBy, sameBlank, closedBy, id]
    | none =>
      dsimp only
      rw [opensWith, sameTick, opensWith, id]

/-- A line does to a fence what its content does. -/
theorem observe_content (state : Option Fence) (line : Text) :
    observe state (lineRemainder (content line)) = observe state (lineRemainder line) := by
  have isBreaks : ∀ char ∈ ending line, isLineBreak char = true :=
    fun char member => isLineBreak_of_mem_ending member
  conv_rhs => rw [← content_append_ending line, lineRemainder_append_breaks isBreaks,
    observe_append_breaks isBreaks]

/-- Lines have the roles of their contents. -/
theorem rolesFrom_map_content (state : Option Fence) (all : List Text) :
    rolesFrom state (all.map content) = rolesFrom state all := by
  induction all generalizing state with
  | nil => rfl
  | cons line others ih =>
    rw [List.map_cons, rolesFrom_cons, observe_content, ih, rolesFrom_cons]

/-- A line and its copy do the same to a fence. -/
theorem observe_withReturns (areLines : AreLines (line :: others)) (state : Option Fence) :
    observe state (lineRemainder (withReturns line)) = observe state (lineRemainder line) := by
  rw [← observe_content, content_withReturns areLines, observe_content]

theorem rolesFrom_withReturns (state : Option Fence) (areLines : AreLines all) :
    rolesFrom state (all.map withReturns) = rolesFrom state all := by
  induction all generalizing state with
  | nil => rfl
  | cons line others ih =>
    rw [List.map_cons, rolesFrom_cons, observe_withReturns areLines,
      ih _ areLines.of_cons.2.2.1, rolesFrom_cons]

end Fence

theorem returned_blankLine (plain : '\r' ∉ line) (role : LineRole) :
    Returned true (blankLine role line) (blankLine role (withReturns line)) := by
  rw [blankLine, blankLine, endsLine_withReturns]
  split
  · split
    · exact .kept [] [] (.nil true)
    · exact .nil true
  · exact returned_withReturns plain true

theorem isComplete_blankLine (complete : IsComplete line) (role : LineRole) :
    IsComplete (blankLine role line) := by
  rw [blankLine]
  split
  · split
    · exact isComplete_concat []
    · exact isComplete_nil
  · exact complete

/-- Where the fenced lines of a document are emptied, those of its copy are. -/
theorem returned_blankFences (plain : '\r' ∉ text) :
    Returned true (blankFences text) (blankFences (withReturns text)) := by
  have each (state : Option Fence) (all : List Text) (areLines : AreLines all)
      (plain : ∀ line ∈ all, '\r' ∉ line) :
      Returned true (List.zipWith blankLine (Fence.rolesFrom state all) all).flatten
        (List.zipWith blankLine (Fence.rolesFrom state all) (all.map withReturns)).flatten := by
    induction all generalizing state with
    | nil => exact .nil true
    | cons line others ih =>
      rw [Fence.rolesFrom_cons, List.map_cons, List.zipWith_cons_cons, List.flatten_cons,
        List.zipWith_cons_cons, List.flatten_cons]
      apply Returned.append (returned_blankLine (plain line List.mem_cons_self) _)
      rcases areLines.of_cons with ⟨-, -, areOthers, ⟨body, rfl⟩ | rfl⟩
      · rw [startsLine_iff.mpr (isComplete_blankLine (isComplete_concat body) _)]
        exact ih _ areOthers fun other member => plain other (List.mem_cons_of_mem _ member)
      · exact .nil _
  rw [blankFences, blankFences, lines_withReturns, fenceRoles, fenceRoles,
    Fence.rolesFrom_withReturns none (areLines_lines text)]
  apply each none _ (areLines_lines text)
  intro line isLine isReturn
  apply plain
  rw [← flatten_lines text]
  exact List.mem_flatten_of_mem isLine isReturn

end MdxBuild

import MdxBuild.Proofs.Markdown.Fence
import MdxBuild.Proofs.Markdown.Frontmatter
import MdxBuild.Proofs.Route

/-!
# Documents behind a byte order mark

Where a frontmatter block follows the mark, the mark belongs to the block. Where none does, it
belongs to the first line of the body: the line then neither begins an import statement nor opens a
fence, so the document takes the route of the lines behind its first one.
-/

namespace MdxBuild

open Text

variable {text line : Text} {others : List Text}

/-- A first line outside fences is kept, and the lines behind it are read on their own. -/
theorem blankFences_of_outside (isLines : lines text = line :: others)
    (outside : Fence.observe none (lineRemainder line) = (.outside, none)) :
    blankFences text = line ++ blankFences (behindFirstLine text) := by
  have areLines := areLines_lines text
  rw [isLines] at areLines
  rw [blankFences, blankFences, behindFirstLine, isLines, List.tail_cons,
    areLines.of_cons.2.2.1.lines_flatten, fenceRoles, Fence.rolesFrom_cons, outside]
  rfl

theorem observe_of_head?_ne (isLines : lines text = line :: others)
    (noOpening : (fenceRoles (lines text)).head? ≠ some .opens) :
    Fence.observe none (lineRemainder line) = (.outside, none) := by
  rw [isLines, fenceRoles, Fence.rolesFrom_cons, List.head?_cons, ne_eq, Option.some.injEq]
    at noOpening
  apply (Fence.observe_none_cases _).resolve_right
  rintro ⟨fence, opens⟩
  exact noOpening (by rw [opens])

/-- A line behind a byte order mark opens no fence. -/
theorem observe_cons_mark (line : Text) :
    Fence.observe none (lineRemainder (Frontmatter.mark :: line)) = (.outside, none) := by
  have noPrefix : ¬isLinePrefix Frontmatter.mark = true := by decide
  have noRun : Fence.read? (Frontmatter.mark :: line) = none :=
    Fence.read?_cons_of_ne (by decide) (by decide) line
  rw [lineRemainder, List.dropWhile_cons_of_neg noPrefix, Fence.observe_of_read?_eq_none noRun]
  rfl

namespace Route

open Import

variable {allowed : AllowList} {ignoreFences : Bool}

/-- The text of a body in which imports are looked for. -/
def searched (ignoreFences : Bool) (body : Text) : Text :=
  if ignoreFences then blankFences body else body

/-- The route of a document with the given body. -/
def ofBody (allowed : AllowList) (ignoreFences : Bool) (body : Text) : Route :=
  ofSpecifiers allowed (specifiers (searched ignoreFences body))

theorem scanned_eq_searched (ignoreFences : Bool) (source : Text) :
    scanned ignoreFences source = searched ignoreFences (Frontmatter.strip source) :=
  rfl

theorem classify_eq_ofBody (allowed : AllowList) (ignoreFences : Bool) (source : Text) :
    classify allowed ignoreFences source =
      ofBody allowed ignoreFences (Frontmatter.strip source) :=
  rfl

/-- A first line that begins no import statement does not matter. -/
theorem specifiers_of_eq_none (notFound : statement? text = none) :
    specifiers text = specifiers (behindFirstLine text) := by
  rw [specifiers, atLineStarts_of_eq_none notFound, specifiers]

/-- Nor does it if it also opens no fence that is to be ignored. -/
theorem ofBody_of_plain (allowed : AllowList) (isLines : lines text = line :: others)
    (outside : ignoreFences = true →
      Fence.observe none (lineRemainder line) = (.outside, none))
    (notFound : statement? (searched ignoreFences text) = none) :
    ofBody allowed ignoreFences text = ofBody allowed ignoreFences (behindFirstLine text) := by
  rw [ofBody, specifiers_of_eq_none notFound, ofBody]
  cases ignoreFences with
  | false => rfl
  | true =>
    have areLines := areLines_lines text
    rw [isLines] at areLines
    rcases areLines.of_cons with ⟨isLine, -, -, ⟨body, isComplete⟩ | isLast⟩
    · have complete : IsComplete line := isComplete ▸ isComplete_concat body
      rw [searched, if_pos rfl, blankFences_of_outside isLines (outside rfl),
        behindFirstLine_append complete isLine]
      rfl
    · have noneBehind : behindFirstLine text = [] := by
        rw [behindFirstLine, isLines, isLast]
        rfl
      have emptied : blankFences [] = [] := rfl
      rw [searched, if_pos rfl, blankFences_of_outside isLines (outside rfl), noneBehind, emptied,
        List.append_nil, behindFirstLine, isLine]
      rfl

theorem statement?_cons_mark (text : Text) : statement? (Frontmatter.mark :: text) = none := by
  have noSpace : ¬isSpaceOrTab Frontmatter.mark = true := by decide
  have noImport : after? "import".toList (Frontmatter.mark :: text) = none := by
    rw [Option.eq_none_iff_forall_ne_some]
    intro rest found
    rw [after?_eq_some_iff] at found
    exact absurd (List.cons.inj found).1 (by decide)
  have noHead : head? (Frontmatter.mark :: text) = none := by
    rw [head?, List.dropWhile_cons_of_neg noSpace, noImport]
    rfl
  rw [statement?, noHead]
  rfl

/-- Behind a byte order mark, a body takes the route of the lines behind its first one. -/
theorem ofBody_cons_mark (allowed : AllowList) (ignoreFences : Bool) (text : Text) :
    ofBody allowed ignoreFences (Frontmatter.mark :: text) =
      ofBody allowed ignoreFences (behindFirstLine text) := by
  have noBreak : Frontmatter.mark ≠ '\n' := by decide
  have isLines : ∃ line others, lines (Frontmatter.mark :: text) =
      (Frontmatter.mark :: line) :: others := by
    rw [lines, if_neg noBreak]
    cases lines text with
    | nil => exact ⟨[], [], rfl⟩
    | cons line others => exact ⟨line, others, rfl⟩
  rcases isLines with ⟨line, others, isLines⟩
  rw [← behindFirstLine_cons noBreak text]
  apply ofBody_of_plain allowed isLines fun _ => observe_cons_mark line
  cases ignoreFences with
  | false => exact statement?_cons_mark text
  | true =>
    rw [searched, if_pos rfl, blankFences_of_outside isLines (observe_cons_mark line)]
    exact statement?_cons_mark _

/-- A byte order mark in front of a document leaves its route alone if and only if the document has
a frontmatter block, or takes the same route without its first line. In particular it does where the
first line neither begins an import statement nor opens a fence that is to be ignored. -/
theorem classify_cons_mark_iff (allowed : AllowList) (ignoreFences : Bool) (source : Text)
    (unmarked : source.head? ≠ some Frontmatter.mark) :
    (classify allowed ignoreFences (Frontmatter.mark :: source) =
        classify allowed ignoreFences source ↔
      (Frontmatter.find? source).isSome = true ∨
        ofBody allowed ignoreFences (behindFirstLine source) =
          ofBody allowed ignoreFences source) ∧
    (statement? (scanned ignoreFences source) = none →
      (ignoreFences = true → (fenceRoles (lines source)).head? ≠ some .opens) →
      classify allowed ignoreFences (Frontmatter.mark :: source) =
        classify allowed ignoreFences source) := by
  rw [classify_eq_ofBody, classify_eq_ofBody, scanned_eq_searched, Frontmatter.strip,
    Frontmatter.strip, Frontmatter.find?_cons_mark unmarked]
  cases Frontmatter.find? source with
  | some frontmatter => exact ⟨iff_of_true rfl (.inl rfl), fun _ _ => rfl⟩
  | none =>
    dsimp only [Option.map_none]
    rw [ofBody_cons_mark]
    constructor
    · constructor
      · exact .inr
      · rintro (isFound | same)
        · cases isFound
        · exact same
    · intro notFound noOpening
      cases isLines : lines source with
      | nil =>
        rw [lines_eq_nil_iff.mp isLines, behindFirstLine_nil]
      | cons line others =>
        symm
        apply ofBody_of_plain allowed isLines
        · exact fun ignored => observe_of_head?_ne isLines (noOpening ignored)
        · exact notFound

/-- A document that begins with a heading. -/
def Trial.headingFirst : Text :=
  "# Title\n\nimport x from 'y'\n".toList

/-- The mark stands in front of the heading, and the import behind it counts. -/
theorem classify_cons_mark_of_headingFirst :
    Trial.headingFirst.head? ≠ some Frontmatter.mark ∧
    classify ⟨[]⟩ true (Frontmatter.mark :: Trial.headingFirst) =
      classify ⟨[]⟩ true Trial.headingFirst ∧
    classify ⟨[]⟩ true Trial.headingFirst = .fallback .noAllowList ["y".toList] := by
  have unmarked : Trial.headingFirst.head? ≠ some Frontmatter.mark := by decide +kernel
  refine ⟨unmarked, ?_, by decide +kernel⟩
  apply (classify_cons_mark_iff ⟨[]⟩ true Trial.headingFirst unmarked).2
  · decide +kernel
  · exact fun _ => by decide +kernel

/-- A document that begins with an import statement. -/
def Trial.importFirst : Text :=
  "import x from 'y'\n".toList

/-- The mark stands in front of the import statement, which no longer counts. -/
theorem classify_cons_mark_ne_of_importFirst :
    Trial.importFirst.head? ≠ some Frontmatter.mark ∧
    classify ⟨[]⟩ true (Frontmatter.mark :: Trial.importFirst) = .fast ∧
    classify ⟨[]⟩ true Trial.importFirst = .fallback .noAllowList ["y".toList] := by
  decide +kernel

end Route

end MdxBuild

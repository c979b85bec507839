import Mathlib.Data.List.Chain
import MdxBuild.Proofs.Markdown.Fence

/-!
# Regions of a document

Fenced and other lines alternate in regions. Where two regions meet there is a run of a fence's
characters: a line that opens a fence begins a fenced region, and a line that closes one ends it.
-/

namespace MdxBuild

open Text

/-- Consecutive lines that are all fenced, or all outside fences. -/
structure Region where
  isFenced : Bool
  lines : List Text
deriving DecidableEq, Repr

namespace Region

/-- The text of the region. -/
def text (region : Region) : Text :=
  region.lines.flatten

/-- What is left of the region when fenced lines are emptied. -/
def blanked (region : Region) : Text :=
  if region.isFenced then
    region.lines.flatMap fun line => if endsLine line then ['\n'] else []
  else region.text

/-- Regions with a line in front of them. The line belongs to the first one if it is of its kind. -/
def prepend (isFenced : Bool) (line : Text) : List Region → List Region
  | [] => [⟨isFenced, [line]⟩]
  | region :: others =>
    if region.isFenced = isFenced then ⟨isFenced, line :: region.lines⟩ :: others
    else ⟨isFenced, [line]⟩ :: region :: others

end Region

/-- The regions of lines that follow a place where `state` is the open fence. -/
def regionsFrom (state : Option Fence) : List Text → List Region
  | [] => []
  | line :: others =>
    let (role, after) := Fence.observe state (lineRemainder line)
    Region.prepend role.isFenced line (regionsFrom after others)

/-- The regions of a document. -/
def regions (text : Text) : List Region :=
  regionsFrom none (lines text)

variable {state : Option Fence} {line : Text} {all : List Text} {second : Region}

theorem regionsFrom_cons (state : Option Fence) (line : Text) (others : List Text) :
    regionsFrom state (line :: others) =
      Region.prepend (Fence.observe state (lineRemainder line)).1.isFenced line
        (regionsFrom (Fence.observe state (lineRemainder line)).2 others) :=
  rfl

/-! ## The texts of regions -/

namespace Region

theorem flatMap_text_prepend (isFenced : Bool) (line : Text) (regions : List Region) :
    (prepend isFenced line regions).flatMap text = line ++ regions.flatMap text := by
  cases regions with
  | nil => rw [prepend, List.flatMap_singleton, text, List.flatten_singleton, List.flatMap_nil,
      List.append_nil]
  | cons region others =>
    rw [prepend]
    split
    · rw [List.flatMap_cons, text, List.flatten_cons, List.append_assoc]
      rfl
    · rw [List.flatMap_cons, text, List.flatten_singleton]

theorem flatMap_blanked_prepend (role : LineRole) (line : Text) (regions : List Region) :
    (prepend role.isFenced line regions).flatMap blanked =
      blankLine role line ++ regions.flatMap blanked := by
  have blanked_cons (lines : List Text) : blanked ⟨role.isFenced, line :: lines⟩ =
      blankLine role line ++ blanked ⟨role.isFenced, lines⟩ := by
    rw [blanked, blanked, blankLine]
    split <;> rfl
  have blanked_nil : blanked ⟨role.isFenced, []⟩ = [] := by
    rw [blanked]
    split <;> rfl
  cases regions with
  | nil => rw [prepend, List.flatMap_singleton, blanked_cons, blanked_nil, List.flatMap_nil]
  | cons region others =>
    rw [prepend]
    split
    · next same => rw [List.flatMap_cons, blanked_cons, ← same, List.append_assoc, List.flatMap_cons]
    · rw [List.flatMap_cons, blanked_cons, blanked_nil, List.append_nil]

end Region

/-- The regions hold the document whole and in order. -/
theorem flatMap_text_regions (text : Text) : (regions text).flatMap Region.text = text := by
  have isText (state : Option Fence) (all : List Text) :
      (regionsFrom state all).flatMap Region.text = all.flatten := by
    induction all generalizing state with
    | nil => rfl
    | cons line others ih =>
      rw [regionsFrom_cons, Region.flatMap_text_prepend, ih, List.flatten_cons]
  rw [regions, isText, flatten_lines]

/-- Fenced lines are emptied region by region. -/
theorem flatMap_blanked_regions (text : Text) :
    (regions text).flatMap Region.blanked = blankFences text := by
  have isBlanked (state : Option Fence) (all : List Text) :
      (regionsFrom state all).flatMap Region.blanked =
        (List.zipWith blankLine (Fence.rolesFrom state all) all).flatten := by
    induction all generalizing state with
    | nil => rfl
    | cons line others ih =>
      rw [regionsFrom_cons, Region.flatMap_blanked_prepend, ih, Fence.rolesFrom_cons,
        List.zipWith_cons_cons, List.flatten_cons]
  exact isBlanked none (lines text)

/-! ## Where regions meet -/

/-- A line of its own with a run of a fence's characters at its head. -/
structure IsDelimiting (line : Text) : Prop where
  isLine : lines line = [line]
  hasRun : (Fence.read? (lineRemainder line)).isSome = true

/-- How a region stands before the next one. -/
structure Region.Meets (first second : Region) : Prop where
  complete : IsComplete first.text
  differs : first.isFenced ≠ second.isFenced
  closes : first.isFenced = true → ∃ front line, first.lines = front ++ [line] ∧ IsDelimiting line
  opens : second.isFenced = true → ∃ line others, second.lines = line :: others ∧ IsDelimiting line

theorem Region.Meets.cons {isFenced : Bool} {lines : List Text}
    (meets : Region.Meets ⟨isFenced, lines⟩ second) (complete : IsComplete line) :
    Region.Meets ⟨isFenced, line :: lines⟩ second where
  complete := complete.append meets.complete
  differs := meets.differs
  closes fenced := by
    rcases meets.closes fenced with ⟨front, last, isLast, delimits⟩
    exact ⟨line :: front, last, congrArg (line :: ·) isLast, delimits⟩
  opens := meets.opens

/-- A fenced line has a run of a fence's characters if no fence is open in front of it, or behind. -/
theorem Fence.isSome_read?_of_fenced {remainder : Text}
    (fenced : (observe state remainder).1.isFenced = true)
    (ends : state = none ∨ (observe state remainder).2 = none) :
    (read? remainder).isSome = true := by
  cases isRun : read? remainder with
  | some run => rfl
  | none =>
    rw [observe_of_read?_eq_none isRun] at fenced ends
    rw [or_self] at ends
    rw [ends] at fenced
    cases fenced

/-- The first region begins with the first line and is of its kind. -/
theorem exists_regionsFrom_cons (state : Option Fence) (line : Text) (others : List Text) :
    ∃ more behind, regionsFrom state (line :: others) =
      ⟨(Fence.observe state (lineRemainder line)).1.isFenced, line :: more⟩ :: behind := by
  rw [regionsFrom_cons]
  generalize regionsFrom _ others = regions
  cases regions with
  | nil => exact ⟨[], [], rfl⟩
  | cons region behind =>
    rw [Region.prepend]
    split
    · exact ⟨_, _, rfl⟩
    · exact ⟨[], _, rfl⟩

theorem isChain_regionsFrom (areLines : AreLines all) (state : Option Fence) :
    (regionsFrom state all).IsChain Region.Meets := by
  induction all generalizing state with
  | nil => exact .nil
  | cons line others ih =>
    rcases areLines.of_cons with ⟨isLine, -, areOthers, ending⟩
    have isChain := ih areOthers (Fence.observe state (lineRemainder line)).2
    cases others with
    | nil => exact .singleton _
    | cons next others =>
      have complete : IsComplete line := by
        rcases ending with ⟨body, rfl⟩ | isNil
        · exact isComplete_concat body
        · cases isNil
      have isNextLine := areOthers.of_cons.1
      rw [regionsFrom_cons]
      rcases exists_regionsFrom_cons (Fence.observe state (lineRemainder line)).2 next others with
        ⟨more, behind, isRegions⟩
      rw [isRegions] at isChain ⊢
      rw [Region.prepend]
      split
      · next same =>
        -- the line belongs to the first region, which meets the next one as before
        dsimp only at same
        rw [same] at isChain
        cases behind with
        | nil => exact .singleton _
        | cons second behind =>
          rw [List.isChain_cons_cons] at isChain ⊢
          exact ⟨isChain.1.cons complete, isChain.2⟩
      · next differs =>
        -- the line is a region of its own
        dsimp only at differs
        rw [List.isChain_cons_cons]
        refine ⟨⟨?_, Ne.symm differs, fun fenced => ?_, fun fenced => ?_⟩, isChain⟩
        · rwa [Region.text, List.flatten_singleton]
        · dsimp only at fenced
          rw [fenced, Bool.not_eq_true] at differs
          have noneOpen := (Fence.eq_none_of_not_fenced differs).1
          exact ⟨[], line, rfl, isLine, Fence.isSome_read?_of_fenced fenced (.inr noneOpen)⟩
        · dsimp only at fenced
          rw [fenced, eq_comm, Bool.not_eq_true] at differs
          have noneOpen := (Fence.eq_none_of_not_fenced differs).2
          exact ⟨next, more, rfl, isNextLine, Fence.isSome_read?_of_fenced fenced (.inl noneOpen)⟩

/-- The regions of a document meet at the delimiters of its fences. -/
theorem isChain_regions (text : Text) : (regions text).IsChain Region.Meets :=
  isChain_regionsFrom (areLines_lines text) none

end MdxBuild

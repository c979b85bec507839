import MdxBuild.Markdown.Fence
import MdxBuild.Proofs.Text.Line

/-!
# Fences along a text

Fences and directives are read off the remainder of a line, which is its content behind the
structural head. A property that every remainder of a text has can be shown part by part, and line
breaks add at most empty remainders.

The open fence is all that a line needs to know of the lines before it, so fences can be followed
over a text part by part. Text without runs of a fence's characters leaves the open fence as it is.
-/

namespace MdxBuild

open Text

/-! ## Remainders of lines -/

/-- The remainder of each line of the text has the property. -/
def EachRemainder (property : Text → Prop) (text : Text) : Prop :=
  ∀ line ∈ lines text, property (lineRemainder (content line))

variable {property : Text → Prop} {first second body breaks : Text}

theorem EachRemainder.append (each : EachRemainder property first)
    (eachSecond : EachRemainder property second) (complete : IsComplete first) :
    EachRemainder property (first ++ second) := by
  intro line member
  rw [lines_append complete, List.mem_append] at member
  rcases member with member | member
  · exact each line member
  · exact eachSecond line member

theorem EachRemainder.mono {other : Text → Prop} (each : EachRemainder property first)
    (implies : ∀ remainder, property remainder → other remainder) : EachRemainder other first :=
  fun line member => implies _ (each line member)

/-- The remainders in front of line breaks are empty. -/
theorem eachRemainder_of_breaks (empty : property [])
    (isBreaks : ∀ char ∈ breaks, isLineBreak char = true) : EachRemainder property breaks := by
  intro line member
  have isBreak : ∀ char ∈ line, isLineBreak char = true := by
    intro char inLine
    apply isBreaks
    rw [← flatten_lines breaks]
    exact List.mem_flatten.mpr ⟨line, member, inLine⟩
  rw [content_eq_nil isBreak]
  exact empty

/-- A line with its breaks. -/
theorem eachRemainder_append_breaks (empty : property []) (noBreak : '\n' ∉ body)
    (remainder : property (lineRemainder (content body)))
    (isBreaks : ∀ char ∈ breaks, isLineBreak char = true) :
    EachRemainder property (body ++ breaks) := by
  cases body with
  | nil => exact eachRemainder_of_breaks empty isBreaks
  | cons char rest =>
    obtain ⟨more, others, rfl, isLines⟩ :=
      exists_lines_append noBreak (List.cons_ne_nil char rest) breaks
    intro line member
    rw [isLines, List.mem_cons] at member
    rcases member with rfl | member
    · rwa [content_append fun char inMore => isBreaks char (List.mem_append_left others inMore)]
    · exact eachRemainder_of_breaks empty
        (fun char inOthers => isBreaks char (List.mem_append_right more inOthers)) line member

/-- Nothing remains of a structural head. -/
theorem lineRemainder_eq_nil {head : Text} (isHead : ∀ char ∈ head, isLinePrefix char = true) :
    lineRemainder head = [] :=
  List.dropWhile_eq_nil_iff.mpr isHead

/-- A structural head with its breaks. -/
theorem eachRemainder_of_linePrefix (empty : property []) {head : Text}
    (isHead : ∀ char ∈ head, isLinePrefix char = true)
    (isBreaks : ∀ char ∈ breaks, isLineBreak char = true) :
    EachRemainder property (head ++ breaks) := by
  apply eachRemainder_append_breaks empty
  · intro member
    exact absurd (isHead '\n' member) (by decide)
  · rw [lineRemainder_eq_nil fun char member => isHead char (subset_content head member)]
    exact empty
  · exact isBreaks

theorem LineRole.eq_outside {role : LineRole} (outside : role.isFenced = false) :
    role = .outside := by
  cases role with
  | outside => rfl
  | opens | inside | closes => cases outside

namespace Fence

variable {state after : Option Fence} {remainder line : Text}

/-- The fence that is open behind lines that follow a place where `state` is the open fence. -/
def stateAfter (state : Option Fence) (all : List Text) : Option Fence :=
  all.foldl (fun state line => (observe state (lineRemainder line)).2) state

/-- The fence that is open behind a text that follows a place where `state` is the open fence. -/
def behind (state : Option Fence) (text : Text) : Option Fence :=
  stateAfter state ((lines text).map content)

/-! ## Lines -/

theorem read?_cons_of_ne {marker : Char} (noTick : marker ≠ '`') (noTilde : marker ≠ '~')
    (rest : Text) : read? (marker :: rest) = none := by
  rw [read?, decide_eq_false noTick, decide_eq_false noTilde]
  rfl

/-- A line that is not fenced stands between fences. -/
theorem observe_eq_outside (outside : observe state remainder = (.outside, after)) :
    state = none ∧ after = none := by
  rw [observe.eq_def] at outside
  split at outside
  · split at outside <;> cases outside
  · cases outside
  · split at outside
    · cases outside
    · cases outside
      exact ⟨rfl, rfl⟩
  · cases outside
    exact ⟨rfl, rfl⟩

/-- No fence is open in front of a line outside fences, nor behind it. -/
theorem eq_none_of_not_fenced (outside : (observe state remainder).1.isFenced = false) :
    state = none ∧ (observe state remainder).2 = none := by
  apply observe_eq_outside
  rw [← LineRole.eq_outside outside]

/-- Without a run of a fence's characters, a line is fenced if a fence is open. -/
theorem observe_of_read?_eq_none (noRun : read? remainder = none) (state : Option Fence) :
    observe state remainder = (if state = none then .outside else .inside, state) := by
  rw [observe.eq_def, noRun]
  cases state <;> rfl

/-- Between fences, a line is outside or opens one. -/
theorem observe_none_cases (remainder : Text) :
    observe none remainder = (.outside, none) ∨
      ∃ fence, observe none remainder = (.opens, some fence) := by
  rw [observe.eq_def]
  cases read? remainder with
  | none => exact .inl rfl
  | some run =>
    dsimp only
    split
    · exact .inr ⟨_, rfl⟩
    · exact .inl rfl

/-- In a fence, a line closes it or leaves it open. -/
theorem observe_some_cases (fence : Fence) (remainder : Text) :
    observe (some fence) remainder = (.closes, none) ∨
      observe (some fence) remainder = (.inside, some fence) := by
  rw [observe.eq_def]
  cases read? remainder with
  | none => exact .inr rfl
  | some run =>
    dsimp only
    split
    · exact .inl rfl
    · exact .inr rfl

theorem rolesFrom_cons (state : Option Fence) (line : Text) (others : List Text) :
    rolesFrom state (line :: others) = (observe state (lineRemainder line)).1 ::
      rolesFrom (observe state (lineRemainder line)).2 others :=
  rfl

theorem rolesFrom_append (state : Option Fence) (first second : List Text) :
    rolesFrom state (first ++ second) =
      rolesFrom state first ++ rolesFrom (stateAfter state first) second := by
  induction first generalizing state with
  | nil => rfl
  | cons line others ih =>
    rw [List.cons_append, rolesFrom_cons, ih, rolesFrom_cons, List.cons_append]
    rfl

/-! ## Texts -/

@[simp]
theorem behind_nil (state : Option Fence) : behind state [] = state :=
  rfl

/-- Complete lines can be passed on their own. -/
theorem behind_append (complete : IsComplete first) (state : Option Fence) (second : Text) :
    behind state (first ++ second) = behind (behind state first) second := by
  rw [behind, lines_append complete, List.map_append, stateAfter, List.foldl_append]
  rfl

theorem behind_of_line (isLine : lines line = [line]) (state : Option Fence) :
    behind state line = (observe state (lineRemainder (content line))).2 := by
  rw [behind, isLine]
  rfl

/-- No line of the text has a run of a fence's characters at its head. -/
def IsPlain (text : Text) : Prop :=
  EachRemainder (read? · = none) text

theorem IsPlain.behind_eq {text : Text} (isPlain : IsPlain text) (state : Option Fence) :
    behind state text = state := by
  have same (all : List Text) (subset : all ⊆ lines text) :
      stateAfter state (all.map content) = state := by
    induction all with
    | nil => rfl
    | cons line others ih =>
      rw [List.map_cons, stateAfter, List.foldl_cons,
        observe_of_read?_eq_none (isPlain line (subset List.mem_cons_self))]
      exact ih fun other member => subset (List.mem_cons_of_mem line member)
  exact same (lines text) (List.Subset.refl _)

/-- Line breaks behind a text do not count, wherever it ends. -/
theorem behind_append_breaks (state : Option Fence) (text : Text)
    (isBreaks : ∀ char ∈ breaks, isLineBreak char = true) :
    behind state (text ++ breaks) = behind state text := by
  obtain ⟨front, last, rfl, complete, noBreak⟩ := exists_complete_append text
  rw [List.append_assoc, behind_append complete, behind_append complete]
  cases last with
  | nil => exact IsPlain.behind_eq (eachRemainder_of_breaks rfl isBreaks) _
  | cons char rest =>
    have nonempty := List.cons_ne_nil char rest
    obtain ⟨more, others, rfl, isLines⟩ := exists_lines_append noBreak nonempty breaks
    have isMore : ∀ char ∈ more, isLineBreak char = true := fun char inMore =>
      isBreaks char (List.mem_append_left others inMore)
    have plain : IsPlain others := eachRemainder_of_breaks rfl fun char inOthers =>
      isBreaks char (List.mem_append_right more inOthers)
    rw [behind, isLines, List.map_cons, stateAfter, List.foldl_cons, content_append isMore,
      behind_of_line (lines_of_notMem noBreak nonempty)]
    exact plain.behind_eq _

/-- The line behind complete lines, if its remainder cannot start or end a fence, is fenced if a
fence is open behind the complete lines. -/
theorem fenceRoles_of_read?_eq_none (complete : IsComplete first) (noBreak : '\n' ∉ line)
    (nonempty : line ≠ [])
    (noRun : ∀ more, read? (lineRemainder (content (line ++ more))) = none) :
    (fenceRoles ((lines (first ++ (line ++ second))).map content))[(lines first).length]? =
      some (if behind none first = none then .outside else .inside) := by
  obtain ⟨more, rest, -, isLines⟩ := exists_lines_append noBreak nonempty second
  rw [lines_append complete, isLines, List.map_append, List.map_cons, fenceRoles, rolesFrom_append,
    List.getElem?_append_right (by simp), length_rolesFrom, List.length_map, Nat.sub_self, rolesFrom_cons,
    List.getElem?_cons_zero, observe_of_read?_eq_none (noRun more)]
  rfl

end Fence

end MdxBuild

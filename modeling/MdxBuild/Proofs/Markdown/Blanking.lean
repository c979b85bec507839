import MdxBuild.Proofs.Markdown.Newline

/-!
# Fenced regions

Which lines of a document are fenced is told here without an open fence that is carried along: a
region begins at a line that opens a fence, and runs through the first later line that closes it, or
to the end. Blanking empties the lines of these regions and keeps all others, so that no line opens a
fence any more and there is nothing left to blank.

Lines are those between line feeds here. A document that ends with a line feed has an empty line
behind it, so there is one line more than there are line feeds.
-/

namespace MdxBuild

open Text

variable {line text info remainder : Text} {all inside : List Text} {fence : Fence}
  {state : Option Fence} {flags : List Bool}

namespace Fence

/-! ## Lines that open and close a fence -/

/-- The line begins with a run of the fence's length behind its structural head: of three or more
backticks, with no further one behind it, or of three or more tildes. -/
inductive IsOpenedBy (fence : Fence) : Text → Prop
  | intro (head info : Text) (isHead : ∀ char ∈ head, isLinePrefix char = true)
      (long : 3 ≤ fence.run)
      (marks : (fence.marker = '`' ∧ '`' ∉ info) ∨ (fence.marker = '~' ∧ info.head? ≠ some '~')) :
      IsOpenedBy fence (head ++ (List.replicate fence.run fence.marker ++ info))

/-- The line has nothing behind its structural head but a run of the fence's character that is at
least as long as the fence's, and blanks. -/
inductive IsClosedBy (fence : Fence) : Text → Prop
  | intro (head blanks : Text) (run : Nat) (isHead : ∀ char ∈ head, isLinePrefix char = true)
      (long : fence.run ≤ run) (areBlank : ∀ char ∈ blanks, isBlank char = true) :
      IsClosedBy fence (head ++ (List.replicate run fence.marker ++ blanks))

/-- A run of at least three backticks or tildes. -/
structure IsProper (fence : Fence) : Prop where
  isMarker : fence.marker = '`' ∨ fence.marker = '~'
  long : 3 ≤ fence.run

theorem IsProper.of_isOpenedBy (opens : fence.IsOpenedBy line) : fence.IsProper := by
  cases opens with
  | intro head info isHead long marks => exact ⟨marks.imp And.left And.left, long⟩

/-- The character of a fence is no part of a structural head, and not blank. -/
theorem IsProper.isLinePrefix_marker (proper : fence.IsProper) :
    isLinePrefix fence.marker = false ∧ isBlank fence.marker = false := by
  rcases proper.isMarker with isTick | isTilde
  · rw [isTick]
    decide
  · rw [isTilde]
    decide

/-- What is read of a text is the run at its head, in full. -/
theorem run_of_read? (isRead : read? remainder = some (fence, info)) :
    fence.IsProper ∧ remainder = List.replicate fence.run fence.marker ++ info ∧
      info.head? ≠ some fence.marker := by
  cases remainder with
  | nil => cases isRead
  | cons marker rest =>
    rw [read?] at isRead
    split at isRead
    · next accepted =>
      simp only [Option.some.injEq, Prod.mk.injEq] at isRead
      obtain ⟨rfl, rfl⟩ := isRead
      simp only [Bool.and_eq_true, Bool.or_eq_true, decide_eq_true_eq] at accepted
      have isRun : rest.takeWhile (· = marker) =
          List.replicate (rest.takeWhile (· = marker)).length marker :=
        List.eq_replicate_of_mem fun char member => by simpa using List.mem_takeWhile_imp member
      refine ⟨⟨accepted.1, accepted.2⟩, ?_, fun isMarker => ?_⟩
      · dsimp only
        rw [Nat.add_comm, List.replicate_succ, List.cons_append, ← isRun,
          List.takeWhile_append_dropWhile]
      · have stops := List.head?_dropWhile_not (· = marker) rest
        rw [isMarker] at stops
        simp at stops
    · cases isRead

theorem read?_run (proper : fence.IsProper) (stops : info.head? ≠ some fence.marker) :
    read? (List.replicate fence.run fence.marker ++ info) = some (fence, info) := by
  rcases fence with ⟨marker, run⟩
  rcases proper with ⟨isMarker, long⟩
  dsimp only at isMarker long stops ⊢
  obtain ⟨more, rfl⟩ : ∃ more, run = more + 1 := ⟨run - 1, by omega⟩
  have stopped : info.takeWhile (· = marker) = [] ∧ info.dropWhile (· = marker) = info := by
    cases info with
    | nil => exact ⟨rfl, rfl⟩
    | cons char rest =>
      have other : ¬decide (char = marker) = true := by simpa using stops
      exact ⟨List.takeWhile_cons_of_neg other, List.dropWhile_cons_of_neg other⟩
  have isRun : ∀ char ∈ List.replicate more marker, decide (char = marker) = true :=
    fun char member => decide_eq_true (List.eq_of_mem_replicate member)
  rw [List.replicate_succ, List.cons_append, read?, List.takeWhile_append_of_pos isRun,
    List.dropWhile_append_of_pos isRun, stopped.1, stopped.2, List.append_nil,
    List.length_replicate, Nat.add_comm 1 more]
  simp [isMarker, long]

/-- Behind a structural head stands what does not belong to one. -/
theorem lineRemainder_append_run {head : Text} (isHead : ∀ char ∈ head, isLinePrefix char = true)
    (proper : fence.IsProper) {run : Nat} (long : fence.run ≤ run) (info : Text) :
    lineRemainder (head ++ (List.replicate run fence.marker ++ info)) =
      List.replicate run fence.marker ++ info := by
  have positive : run ≠ 0 := fun isZero => by
    have := proper.long
    omega
  obtain ⟨more, rfl⟩ := Nat.exists_eq_succ_of_ne_zero positive
  have other : ¬isLinePrefix fence.marker = true := by simp [proper.isLinePrefix_marker]
  rw [lineRemainder, List.dropWhile_append_of_pos isHead, List.replicate_succ, List.cons_append,
    List.dropWhile_cons_of_neg other]

/-! ## What the lines do -/

theorem observe_none_eq_opens_iff : observe none remainder = (.opens, some fence) ↔
    ∃ info, read? remainder = some (fence, info) ∧ fence.opensWith info = true := by
  rw [observe.eq_def]
  cases read? remainder with
  | none => simp
  | some run =>
    obtain ⟨candidate, info⟩ := run
    dsimp only
    split
    · next accepted =>
      constructor
      · rintro ⟨⟩
        exact ⟨info, rfl, accepted⟩
      · rintro ⟨_, ⟨⟩, -⟩
        rfl
    · next refused =>
      constructor
      · rintro ⟨⟩
      · rintro ⟨_, ⟨⟩, accepted⟩
        exact absurd accepted refused

theorem observe_some_eq_closes_iff : observe (some fence) remainder = (.closes, none) ↔
    ∃ candidate info, read? remainder = some (candidate, info) ∧
      fence.closedBy candidate info = true := by
  rw [observe.eq_def]
  cases read? remainder with
  | none => simp
  | some run =>
    obtain ⟨candidate, info⟩ := run
    dsimp only
    split
    · next accepted => exact iff_of_true rfl ⟨candidate, info, rfl, accepted⟩
    · next refused =>
      constructor
      · rintro ⟨⟩
      · rintro ⟨_, _, ⟨⟩, accepted⟩
        exact absurd accepted refused

/-- Between fences, a line opens the fence that it begins with. -/
theorem isOpenedBy_iff :
    fence.IsOpenedBy line ↔ observe none (lineRemainder line) = (.opens, some fence) := by
  rw [observe_none_eq_opens_iff]
  constructor
  · intro opens
    have proper := IsProper.of_isOpenedBy opens
    cases opens with
    | intro head info isHead long marks =>
      rw [lineRemainder_append_run isHead proper (Nat.le_refl _)]
      rcases marks with ⟨isTick, noTick⟩ | ⟨isTilde, noTilde⟩
      · refine ⟨info, read?_run proper fun isTicked => ?_, by simpa [opensWith, isTick] using noTick⟩
        rw [isTick] at isTicked
        exact noTick (List.mem_of_head? isTicked)
      · exact ⟨info, read?_run proper (by rwa [isTilde]), by simp [opensWith, isTilde]⟩
  · rintro ⟨info, isRead, accepted⟩
    obtain ⟨proper, isRemainder, stops⟩ := run_of_read? isRead
    rw [← linePrefix_append_lineRemainder line, isRemainder]
    refine .intro _ info (fun char => List.mem_takeWhile_imp) proper.long ?_
    rcases proper.isMarker with isTick | isTilde
    · exact .inl ⟨isTick, by simpa [opensWith, isTick] using accepted⟩
    · exact .inr ⟨isTilde, by rwa [isTilde] at stops⟩

/-- In a fence, a line closes it if nothing but blanks follows a run that is long enough. -/
theorem isClosedBy_iff (proper : fence.IsProper) :
    fence.IsClosedBy line ↔ observe (some fence) (lineRemainder line) = (.closes, none) := by
  rw [observe_some_eq_closes_iff]
  constructor
  · rintro ⟨head, blanks, run, isHead, long, areBlank⟩
    have stops : blanks.head? ≠ some fence.marker := by
      intro isMarked
      have isBlank := areBlank _ (List.mem_of_head? isMarked)
      rw [proper.isLinePrefix_marker.2] at isBlank
      cases isBlank
    have properRun : IsProper ⟨fence.marker, run⟩ :=
      ⟨proper.isMarker, Nat.le_trans proper.long long⟩
    rw [lineRemainder_append_run isHead proper long]
    exact ⟨⟨fence.marker, run⟩, blanks, read?_run properRun stops,
      by simpa [closedBy, allBlank, long] using areBlank⟩
  · rintro ⟨candidate, info, isRead, accepted⟩
    simp only [closedBy, Bool.and_eq_true, decide_eq_true_eq, allBlank, List.all_eq_true]
      at accepted
    obtain ⟨⟨isMarker, long⟩, areBlank⟩ := accepted
    rw [← linePrefix_append_lineRemainder line, (run_of_read? isRead).2.1, isMarker]
    exact .intro _ info candidate.run (fun char => List.mem_takeWhile_imp) long areBlank

theorem observe_of_not_isOpenedBy (opensNone : ∀ fence : Fence, ¬fence.IsOpenedBy line) :
    observe none (lineRemainder line) = (.outside, none) := by
  apply (observe_none_cases _).resolve_right
  rintro ⟨fence, opens⟩
  exact opensNone fence (isOpenedBy_iff.mpr opens)

theorem observe_of_not_isClosedBy (proper : fence.IsProper) (goesOn : ¬fence.IsClosedBy line) :
    observe (some fence) (lineRemainder line) = (.inside, some fence) := by
  apply (observe_some_cases fence _).resolve_left
  rwa [← isClosedBy_iff proper]

end Fence

/-! ## Regions -/

/-- Which of the lines are fenced: those of the regions that begin at a line that opens a fence and
run through the first later line that closes it, or to the end. -/
inductive IsFencing : List Text → List Bool → Prop
  | nil : IsFencing [] []
  | plain (line : Text) (others : List Text) (flags : List Bool)
      (opensNone : ∀ fence : Fence, ¬fence.IsOpenedBy line) (isFencing : IsFencing others flags) :
      IsFencing (line :: others) (false :: flags)
  | closed (fence : Fence) (opening : Text) (inside : List Text) (closing : Text)
      (others : List Text) (flags : List Bool) (opens : fence.IsOpenedBy opening)
      (goesOn : ∀ line ∈ inside, ¬fence.IsClosedBy line) (closes : fence.IsClosedBy closing)
      (isFencing : IsFencing others flags) :
      IsFencing (opening :: (inside ++ closing :: others))
        (true :: (inside.map fun _ => true) ++ true :: flags)
  | unclosed (fence : Fence) (opening : Text) (inside : List Text)
      (opens : fence.IsOpenedBy opening) (goesOn : ∀ line ∈ inside, ¬fence.IsClosedBy line) :
      IsFencing (opening :: inside) (true :: inside.map fun _ => true)

/-- Which of the lines have a role in a fence. -/
def fencedFrom (state : Option Fence) (all : List Text) : List Bool :=
  (Fence.rolesFrom state all).map LineRole.isFenced

theorem fencedFrom_cons (state : Option Fence) (line : Text) (others : List Text) :
    fencedFrom state (line :: others) = (Fence.observe state (lineRemainder line)).1.isFenced ::
      fencedFrom (Fence.observe state (lineRemainder line)).2 others :=
  rfl

/-- A fence goes on over lines that do not close it. -/
theorem fencedFrom_append_of_goesOn (proper : fence.IsProper)
    (goesOn : ∀ line ∈ inside, ¬fence.IsClosedBy line) (others : List Text) :
    fencedFrom (some fence) (inside ++ others) =
      (inside.map fun _ => true) ++ fencedFrom (some fence) others := by
  induction inside with
  | nil => rfl
  | cons line inside ih =>
    rw [List.forall_mem_cons] at goesOn
    rw [List.cons_append, fencedFrom_cons, Fence.observe_of_not_isClosedBy proper goesOn.1,
      ih goesOn.2]
    rfl

/-- The regions tell of each line what its role does. -/
theorem IsFencing.eq_fencedFrom (isFencing : IsFencing all flags) : flags = fencedFrom none all := by
  induction isFencing with
  | nil => rfl
  | plain line others flags opensNone _ ih =>
    rw [fencedFrom_cons, Fence.observe_of_not_isOpenedBy opensNone, ih]
    rfl
  | closed fence opening inside closing others flags opens goesOn closes _ ih =>
    have proper := Fence.IsProper.of_isOpenedBy opens
    rw [fencedFrom_cons, Fence.isOpenedBy_iff.mp opens,
      fencedFrom_append_of_goesOn proper goesOn, fencedFrom_cons,
      (Fence.isClosedBy_iff proper).mp closes, ih]
    rfl
  | unclosed fence opening inside opens goesOn =>
    have isWhole := fencedFrom_append_of_goesOn (Fence.IsProper.of_isOpenedBy opens) goesOn []
    rw [List.append_nil] at isWhole
    rw [fencedFrom_cons, Fence.isOpenedBy_iff.mp opens, isWhole]
    exact (List.append_nil _).symm

/-- Lines always divide into regions and lines outside them. -/
theorem exists_isFencing (all : List Text) : ∃ flags, IsFencing all flags := by
  induction isLength : all.length using Nat.strong_induction_on generalizing all with
  | _ length ih =>
    subst isLength
    cases all with
    | nil => exact ⟨[], .nil⟩
    | cons line others =>
      by_cases opensSome : ∃ fence : Fence, fence.IsOpenedBy line
      · obtain ⟨fence, opens⟩ := opensSome
        have proper := Fence.IsProper.of_isOpenedBy opens
        -- the first later line at which the fence closes, if any
        cases isFirst : others.find? fun line =>
            decide (Fence.observe (some fence) (lineRemainder line) = (.closes, none)) with
        | none =>
          rw [List.find?_eq_none] at isFirst
          refine ⟨_, .unclosed fence line others opens fun other member closes => ?_⟩
          exact isFirst other member
            (decide_eq_true ((Fence.isClosedBy_iff proper).mp closes))
        | some closing =>
          rw [List.find?_eq_some_iff_append, decide_eq_true_eq, ← Fence.isClosedBy_iff proper]
            at isFirst
          obtain ⟨closes, inside, rest, rfl, goesOn⟩ := isFirst
          obtain ⟨flags, isFencing⟩ := ih rest.length (by simp; omega) rest rfl
          refine ⟨_, .closed fence line inside closing rest flags opens (fun other member => ?_)
            closes isFencing⟩
          simpa [← Fence.isClosedBy_iff proper] using goesOn other member
      · obtain ⟨flags, isFencing⟩ := ih others.length (by simp) others rfl
        exact ⟨_, .plain line others flags (not_exists.mp opensSome) isFencing⟩

theorem isFencing_iff : IsFencing all flags ↔ flags = fencedFrom none all := by
  constructor
  · exact IsFencing.eq_fencedFrom
  · rintro rfl
    obtain ⟨flags, isFencing⟩ := exists_isFencing all
    rwa [isFencing.eq_fencedFrom] at isFencing

/-! ## Blanked lines -/

/-- What blanking leaves of a line. -/
def emptyIf (isFenced : Bool) (line : Text) : Text :=
  if isFenced then [] else line

@[simp]
theorem emptyIf_nil (isFenced : Bool) : emptyIf isFenced [] = [] := by
  cases isFenced <;> rfl

/-- A line without line feeds is left as it is or emptied. -/
theorem blankLine_of_notMem (noBreak : '\n' ∉ line) (role : LineRole) :
    blankLine role line = emptyIf role.isFenced line := by
  have unended : endsLine line = false := by
    rw [endsLine, beq_eq_false_iff_ne]
    exact fun isLast => noBreak (List.mem_of_getLast? isLast)
  rw [blankLine, unended]
  rfl

/-- The line feed behind a line stays where it is. -/
theorem blankLine_append_newline (role : LineRole) (line : Text) :
    blankLine role (line ++ ['\n']) = emptyIf role.isFenced line ++ ['\n'] := by
  have ended : endsLine (line ++ ['\n']) = true := by
    rw [endsLine, List.getLast?_concat, beq_self_eq_true]
  rw [blankLine, ended, emptyIf]
  split <;> rfl

theorem newline_notMem_emptyIf (noBreak : '\n' ∉ line) (isFenced : Bool) :
    '\n' ∉ emptyIf isFenced line := by
  cases isFenced with
  | false => exact noBreak
  | true => exact List.not_mem_nil

/-- Line feeds stay where they are, so blanking goes line by line. -/
theorem splitOn_flatten_blankLine (areLines : AreLines all) (state : Option Fence) :
    (List.zipWith blankLine (Fence.rolesFrom state all) all).flatten.splitOn '\n' =
      List.zipWith emptyIf (fencedFrom state (all.flatten.splitOn '\n'))
        (all.flatten.splitOn '\n') := by
  induction areLines generalizing state with
  | nil =>
    rw [List.flatten_nil, List.splitOn_nil, fencedFrom_cons, List.zipWith_cons_cons, emptyIf_nil]
    rfl
  | last body _ noBreak =>
    rw [Fence.rolesFrom_cons, List.zipWith_cons_cons, List.flatten_singleton,
      List.splitOn_eq_singleton noBreak, fencedFrom_cons, List.zipWith_cons_cons,
      blankLine_of_notMem noBreak]
    refine (congrArg (List.splitOn '\n') (List.append_nil _)).trans ?_
    exact List.splitOn_eq_singleton (newline_notMem_emptyIf noBreak _)
  | line body others noBreak _ ih =>
    have isBreak : ∀ char ∈ ['\n'], isLineBreak char = true := List.all_eq_true.mp (by decide)
    rw [Fence.rolesFrom_cons, List.zipWith_cons_cons, List.flatten_cons, List.flatten_cons,
      lineRemainder_append_breaks isBreak, Fence.observe_append_breaks isBreak,
      blankLine_append_newline, List.append_assoc, List.append_assoc, List.singleton_append,
      List.singleton_append, List.splitOn_append_cons_self, List.splitOn_append_cons_self, ih,
      List.splitOn_eq_singleton noBreak,
      List.splitOn_eq_singleton (newline_notMem_emptyIf noBreak _)]
    rfl

theorem splitOn_blankFences (text : Text) :
    (blankFences text).splitOn '\n' =
      List.zipWith emptyIf (fencedFrom none (text.splitOn '\n')) (text.splitOn '\n') := by
  have isBlanked := splitOn_flatten_blankLine (areLines_lines text) none
  rwa [flatten_lines] at isBlanked

/-- There is one line more than there are line feeds. -/
theorem length_splitOn (text : Text) : (text.splitOn '\n').length = text.count '\n' + 1 := by
  induction text with
  | nil => rfl
  | cons char rest ih =>
    rw [List.splitOn_eq_splitOnP] at ih ⊢
    rw [List.splitOnP_cons_eq_if_modifyHead, List.count_cons]
    split
    · rw [List.length_cons, ih]
    · rw [List.length_modifyHead, ih]

@[simp]
theorem length_fencedFrom (state : Option Fence) (all : List Text) :
    (fencedFrom state all).length = all.length := by
  rw [fencedFrom, List.length_map, Fence.length_rolesFrom]

theorem count_blankFences (text : Text) : (blankFences text).count '\n' = text.count '\n' := by
  have isLength := congrArg List.length (splitOn_blankFences text)
  rw [List.length_zipWith, length_fencedFrom, Nat.min_self, length_splitOn, length_splitOn]
    at isLength
  exact Nat.succ_inj.mp isLength

/-! ## Texts without fences -/

theorem fencedFrom_of_not_isOpenedBy
    (opensNone : ∀ line ∈ all, ∀ fence : Fence, ¬fence.IsOpenedBy line) :
    fencedFrom none all = all.map fun _ => false := by
  induction all with
  | nil => rfl
  | cons line others ih =>
    rw [List.forall_mem_cons] at opensNone
    rw [fencedFrom_cons, Fence.observe_of_not_isOpenedBy opensNone.1, ih opensNone.2]
    rfl

/-- Where no line opens a fence, there is nothing to blank. -/
theorem blankFences_of_not_isOpenedBy
    (opensNone : ∀ line ∈ text.splitOn '\n', ∀ fence : Fence, ¬fence.IsOpenedBy line) :
    blankFences text = text := by
  have same : (blankFences text).splitOn '\n' = text.splitOn '\n' := by
    rw [splitOn_blankFences, fencedFrom_of_not_isOpenedBy opensNone, List.zipWith_map_left]
    exact (List.zipWith_self ..).trans (List.map_id _)
  have joined := congrArg (List.intercalate ['\n']) same
  rwa [List.intercalate_splitOn, List.intercalate_splitOn] at joined

theorem Fence.not_isOpenedBy_nil (fence : Fence) : ¬fence.IsOpenedBy [] := by
  rw [isOpenedBy_iff]
  exact fun opens => by cases opens

/-- No line opens a fence once the fenced lines are emptied: a line that is kept stands between
fences, where it would have opened one. -/
theorem not_isOpenedBy_of_mem (member : line ∈ List.zipWith emptyIf (fencedFrom state all) all)
    (fence : Fence) : ¬fence.IsOpenedBy line := by
  induction all generalizing state with
  | nil => cases member
  | cons first others ih =>
    rw [fencedFrom_cons, List.zipWith_cons_cons, List.mem_cons] at member
    rcases member with rfl | member
    · cases isFenced : (Fence.observe state (lineRemainder first)).1.isFenced with
      | true => exact fence.not_isOpenedBy_nil
      | false =>
        obtain ⟨rfl, -⟩ := Fence.eq_none_of_not_fenced isFenced
        intro (opens : fence.IsOpenedBy first)
        rw [Fence.isOpenedBy_iff.mp opens] at isFenced
        cases isFenced
    · exact ih member

/-- Blanking keeps the line feeds of a text and empties the lines of its fenced regions, of which
there is one choice only. The other lines stay as they are, and blanking once more changes nothing. -/
theorem blankFences_empties_regions (text : Text) :
    (∃ flags, (∀ other, IsFencing (text.splitOn '\n') other ↔ other = flags) ∧
        (blankFences text).splitOn '\n' = List.zipWith emptyIf flags (text.splitOn '\n')) ∧
      (blankFences text).count '\n' = text.count '\n' ∧
      blankFences (blankFences text) = blankFences text := by
  refine ⟨⟨_, fun other => isFencing_iff, splitOn_blankFences text⟩, count_blankFences text, ?_⟩
  apply blankFences_of_not_isOpenedBy
  intro line member
  rw [splitOn_blankFences] at member
  exact not_isOpenedBy_of_mem member

/-- A closer of the wrong length leaves its region open, and a fence may stand in a quote. -/
example : blankFences "a\n> ````js\nimport x from 'y'\n```\n> `````\nb\n".toList =
    "a\n\n\n\n\nb\n".toList := by
  decide +kernel

end MdxBuild

import Mathlib.Data.List.Infix
import MdxBuild.Proofs.Import.Injection
import MdxBuild.Proofs.Markdown.Region

/-!
# Bindings and code samples

The search for imports reads fenced lines like all others, so a code sample binds what its import
statements name. No statement reaches over the delimiter of a fence, and the bindings of a document
are those of its regions. A sample therefore keeps the import of a component out exactly if the
document does not import the component elsewhere.
-/

namespace MdxBuild.Import

open Text

variable {char : Char} {first second text rest : Text} {parts : List Text} {code name : Text}

/-! ## Parts -/

/-- The imports of the first text are read without what follows, which begins with the second. -/
structure StandsApart (first second : Text) : Prop where
  complete : IsComplete first
  isApart : ∀ rest, IsApart clauseStatement? true first (second ++ rest)

theorem bindings_flatten (apart : parts.IsChain StandsApart) :
    bindings parts.flatten = parts.flatMap bindings := by
  induction parts with
  | nil => rfl
  | cons part others ih =>
    cases others with
    | nil => rw [List.flatten_singleton, List.flatMap_singleton]
    | cons next others =>
      rw [List.isChain_cons_cons] at apart
      rw [List.flatten_cons, List.flatMap_cons, ← ih apart.2, List.flatten_cons]
      exact bindings_append apart.1.complete (apart.1.isApart others.flatten)

/-! ## Delimiters of fences -/

theorem marker_of_read? {run : Fence × Text} (isRun : Fence.read? text = some run) :
    ∃ marker rest, text = marker :: rest ∧ isClauseChar marker = false ∧
      isQuote marker = false := by
  cases text with
  | nil => cases isRun
  | cons marker rest =>
    refine ⟨marker, rest, rfl, ?_⟩
    by_cases isTick : marker = '`'
    · rw [isTick]
      decide
    · by_cases isTilde : marker = '~'
      · rw [isTilde]
        decide
      · rw [Fence.read?_cons_of_ne isTick isTilde] at isRun
        cases isRun

/-- A structural head in front of a stop. -/
theorem startsWithStop_of_linePrefix {head : Text} {stop : Char}
    (isHead : head.all isLinePrefix = true) (isStop : isClauseChar stop = false)
    (noQuote : isQuote stop = false) (rest : Text) : StartsWithStop (head ++ stop :: rest) := by
  induction head with
  | nil => exact ⟨[], stop, rest, rfl, rfl, isStop, noQuote⟩
  | cons char head ih =>
    rw [List.all_cons, Bool.and_eq_true, isLinePrefix, Bool.or_eq_true, decide_eq_true_eq] at isHead
    rcases isHead.1 with isSpace | rfl
    · rcases ih isHead.2 with ⟨front, first, behind, isText, isFront, isFirst⟩
      refine ⟨char :: front, first, behind, congrArg (char :: ·) isText, ?_, isFirst⟩
      rw [List.all_cons, isFront, Bool.and_true]
      rw [Bool.or_eq_true, decide_eq_true_eq, decide_eq_true_eq] at isSpace
      rcases isSpace with rfl | rfl <;> decide
    · exact ⟨[], '>', head ++ stop :: rest, rfl, rfl, by decide, by decide⟩

theorem startsWithStop_of_isDelimiting {line : Text} (delimits : IsDelimiting line) (rest : Text) :
    StartsWithStop (line ++ rest) := by
  rcases Option.isSome_iff_exists.mp delimits.hasRun with ⟨run, isRun⟩
  rcases marker_of_read? isRun with ⟨marker, behind, isRemainder, isStop, noQuote⟩
  rw [← linePrefix_append_lineRemainder line, isRemainder, List.append_assoc, List.cons_append]
  exact startsWithStop_of_linePrefix List.all_takeWhile isStop noQuote _

theorem hasStop_of_isDelimiting {line : Text} (delimits : IsDelimiting line) : HasStop line := by
  rcases Option.isSome_iff_exists.mp delimits.hasRun with ⟨run, isRun⟩
  rcases marker_of_read? isRun with ⟨marker, behind, isRemainder, isStop, -⟩
  refine ⟨marker, ?_, isStop⟩
  rw [← linePrefix_append_lineRemainder line, isRemainder]
  exact List.mem_append_right _ List.mem_cons_self

/-- A statement does not reach from one region into the next. -/
theorem standsApart_of_meets {first second : Region} (meets : first.Meets second) :
    StandsApart first.text second.text where
  complete := meets.complete
  isApart rest := by
    cases isFenced : first.isFenced with
    | true =>
      rcases meets.closes isFenced with ⟨front, line, isLast, delimits⟩
      rw [Region.text, isLast, List.flatten_append, List.flatten_singleton]
      exact isApart_of_endsClauses
        (endsClauses_append delimits.isLine (hasStop_of_isDelimiting delimits) front.flatten) _
    | false =>
      have opens : second.isFenced = true := by
        rw [← Bool.not_eq_false]
        exact fun outside => meets.differs (isFenced.trans outside.symm)
      rcases meets.opens opens with ⟨line, others, isFirst, delimits⟩
      apply isApart_of_startsWithStop
      rw [Region.text, isFirst, List.flatten_cons, List.append_assoc]
      exact startsWithStop_of_isDelimiting delimits _

/-! ## The bindings of regions -/

/-- The names that the lines outside fences bind. -/
def outerBindings (code : Text) : List Text :=
  ((regions code).filter (!·.isFenced)).flatMap fun region => bindings region.text

/-- The names that the code samples bind. -/
def sampleBindings (code : Text) : List Text :=
  ((regions code).filter (·.isFenced)).flatMap fun region => bindings region.text

theorem mem_outerBindings : name ∈ outerBindings code ↔
    ∃ region ∈ regions code, region.isFenced = false ∧ name ∈ bindings region.text := by
  simp only [outerBindings, List.mem_flatMap, List.mem_filter, Bool.not_eq_true', and_assoc]

theorem mem_sampleBindings : name ∈ sampleBindings code ↔
    ∃ region ∈ regions code, region.isFenced = true ∧ name ∈ bindings region.text := by
  simp only [sampleBindings, List.mem_flatMap, List.mem_filter, and_assoc]

/-- A document binds what the lines outside fences bind, and what the samples bind. -/
theorem mem_bindings_iff : name ∈ bindings code ↔
    name ∈ outerBindings code ∨ name ∈ sampleBindings code := by
  have apart : ((regions code).map Region.text).IsChain StandsApart :=
    List.isChain_map_of_isChain Region.text (fun _ _ => standsApart_of_meets) (isChain_regions code)
  have isBound := bindings_flatten apart
  rw [← List.flatMap_def, flatMap_text_regions, List.flatMap_map] at isBound
  rw [isBound, List.mem_flatMap, mem_outerBindings, mem_sampleBindings]
  constructor
  · rintro ⟨region, isRegion, isName⟩
    cases isFenced : region.isFenced with
    | false => exact .inl ⟨region, isRegion, isFenced, isName⟩
    | true => exact .inr ⟨region, isRegion, isFenced, isName⟩
  · rintro (⟨region, isRegion, -, isName⟩ | ⟨region, isRegion, -, isName⟩) <;>
      exact ⟨region, isRegion, isName⟩

/-! ## Unfinished imports -/

/-- The text is the beginning of an import statement up to some place in its head. -/
def isOpening (text : Text) : Bool :=
  text.all isClauseChar && (after? "import".toList (text.dropWhile isSpaceOrTab)).isSome

/-- An import statement begins on a line of the text and is not finished at its end. -/
def endsInImport (text : Text) : Bool :=
  (lines text).tails.any fun rest => isOpening rest.flatten

/-- No import statement begins outside fences and is unfinished where a fence opens. -/
def IsSettled (code : Text) : Prop :=
  (regions code).IsChain fun region _ => region.isFenced = false → endsInImport region.text = false

/-- A complete text of clause characters that does not begin an import is not made to. -/
theorem head?_append_of_not_isOpening (isClause : first.all isClauseChar = true)
    (ends : first.getLast? = some '\n') (notOpening : isOpening first = false) (second : Text) :
    head? (first ++ second) = none := by
  rw [Option.eq_none_iff_forall_ne_some]
  rintro ⟨between, after⟩ isRead
  rcases head?_eq_some_iff.mp isRead with ⟨-, indent, quote, isText, indented, -⟩
  have noBreak : '\n' ∉ indent ++ "import".toList := by
    rw [List.mem_append, not_or]
    refine ⟨fun member => ?_, by decide⟩
    exact absurd (List.all_eq_true.mp indented '\n' member) (by decide)
  rw [← List.append_assoc] at isText
  rcases List.append_eq_append_iff.mp isText with ⟨more, isMore, -⟩ | ⟨more, rfl, -⟩
  · rw [isMore] at noBreak
    exact noBreak (List.mem_append_left more (List.mem_of_getLast? ends))
  · have stop : isSpaceOrTab 'i' = false := by decide
    have isImport : after? "import".toList
        ((indent ++ "import".toList ++ more).dropWhile isSpaceOrTab) = some more := by
      rw [after?_eq_some_iff, List.append_assoc]
      exact dropWhile_append_cons (List.all_eq_true.mp indented) stop _
    rw [isOpening, isClause, isImport] at notOpening
    cases notOpening

theorem isApart_of_not_endsInImport (complete : IsComplete first)
    (settled : endsInImport first = false) (second : Text) :
    IsApart clauseStatement? true first second := by
  rintro before rest rfl nonempty starts
  by_cases stops : HasStop rest
  · exact clauseStatement?_append_of_hasStop stops second
  · have isClause := all_isClauseChar_of_not_hasStop stops
    have ends : rest.getLast? = some '\n' := complete.of_append.resolve_left nonempty
    have isTail : lines rest ∈ (lines (before ++ rest)).tails := by
      rw [lines_append (startsLine_iff.mp starts), List.mem_tails]
      exact List.suffix_append _ _
    have notOpening : isOpening rest = false := by
      have notTail := List.any_eq_false.mp settled (lines rest) isTail
      rwa [flatten_lines, Bool.not_eq_true] at notTail
    rw [clauseStatement?, clauseStatement?, head?_eq_none_of_all isClause,
      head?_append_of_not_isOpening isClause ends notOpening]
    rfl

/-! ## The bindings of the document without its samples -/

theorem eq_newline_of_mem_blanked {region : Region} (fenced : region.isFenced = true)
    (member : char ∈ region.blanked) : char = '\n' := by
  rw [Region.blanked, if_pos fenced, List.mem_flatMap] at member
  rcases member with ⟨line, -, inLine⟩
  split at inLine
  · exact List.mem_singleton.mp inLine
  · cases inLine

theorem clauseStatement?_newline_cons (rest : Text) : clauseStatement? ('\n' :: rest) = none := by
  rw [clauseStatement?, head?_cons_of_isLineBreak (by decide)]
  rfl

theorem bindings_of_newlines (isBreak : ∀ char ∈ text, char = '\n') : bindings text = [] := by
  induction text with
  | nil => rfl
  | cons char rest ih =>
    rw [isBreak char List.mem_cons_self, bindings,
      atLineStarts_of_eq_none (clauseStatement?_newline_cons rest), behindFirstLine_newline]
    exact ih fun other member => isBreak other (List.mem_cons_of_mem char member)

theorem isApart_of_newlines (isBreak : ∀ char ∈ first, char = '\n') (second : Text) :
    IsApart clauseStatement? true first second := by
  rintro before rest rfl nonempty -
  cases rest with
  | nil => exact absurd rfl nonempty
  | cons char rest =>
    rw [isBreak char (List.mem_append_right before List.mem_cons_self), List.cons_append,
      clauseStatement?_newline_cons, clauseStatement?_newline_cons]

theorem isComplete_of_newlines (isBreak : ∀ char ∈ text, char = '\n') : IsComplete text := by
  cases text using List.reverseRecOn with
  | nil => exact isComplete_nil
  | append_singleton front last =>
    rw [isBreak last (by simp)]
    exact isComplete_concat front

theorem standsApart_blanked {first second : Region} (meets : first.Meets second)
    (settled : first.isFenced = false → endsInImport first.text = false) :
    StandsApart first.blanked second.blanked := by
  cases isFenced : first.isFenced with
  | true =>
    have isBreak : ∀ char ∈ first.blanked, char = '\n' := fun char member =>
      eq_newline_of_mem_blanked isFenced member
    exact ⟨isComplete_of_newlines isBreak, fun rest => isApart_of_newlines isBreak _⟩
  | false =>
    have isKept : first.blanked = first.text := by
      rw [Region.blanked, isFenced]
      rfl
    rw [isKept]
    exact ⟨meets.complete, fun rest =>
      isApart_of_not_endsInImport meets.complete (settled isFenced) _⟩

/-- Without its samples a document binds what the lines outside fences bind, if no import statement
is left unfinished in front of a sample. -/
theorem mem_bindings_blankFences_iff (settled : IsSettled code) :
    name ∈ bindings (blankFences code) ↔ name ∈ outerBindings code := by
  have apart : ((regions code).map Region.blanked).IsChain StandsApart := by
    rw [List.isChain_map, List.isChain_iff_forall_rel_of_append_cons_cons]
    intro first second front behind isRegions
    exact standsApart_blanked
      (List.isChain_iff_forall_rel_of_append_cons_cons.mp (isChain_regions code) isRegions)
      (List.isChain_iff_forall_rel_of_append_cons_cons.mp settled isRegions)
  have isBound := bindings_flatten apart
  rw [← List.flatMap_def, flatMap_blanked_regions, List.flatMap_map] at isBound
  rw [isBound, List.mem_flatMap, mem_outerBindings]
  constructor
  · rintro ⟨region, isRegion, isName⟩
    cases isFenced : region.isFenced with
    | true =>
      rw [bindings_of_newlines fun char member => eq_newline_of_mem_blanked isFenced member] at isName
      cases isName
    | false =>
      rw [Region.blanked, isFenced] at isName
      exact ⟨region, isRegion, isFenced, isName⟩
  · rintro ⟨region, isRegion, isOuter, isName⟩
    refine ⟨region, isRegion, ?_⟩
    rwa [Region.blanked, isOuter]

/-! ## What is added -/

/-- Injection adds imports for the same components as it does to the document without its samples if
and only if the two bind the same of the used components that are known. Where no import statement
is left unfinished in front of a sample, this is to say that a sample binds no such component that
the lines outside fences do not bind. -/
theorem added_blankFences_iff (libraries : List ComponentLibrary) (wanted builtinActive : Bool)
    (fileExtension : Text) (used : List Text) (code : Text) :
    let registry := (Registry.merge libraries).withBuiltin wanted
    let added := fun text => additions fileExtension
      (missingSources registry builtinActive used text)
    let Same := ∀ name, name ∈ (added code).flatMap Addition.names ↔
      name ∈ (added (blankFences code)).flatMap Addition.names
    let Known := fun name => name ∈ used ∧ (source? registry builtinActive name).isSome = true
    (∀ text, inject registry builtinActive fileExtension used text = if added text = [] then text
      else Frontmatter.front text ++ (addedText fileExtension (newlineOf text) (added text) ++
        Frontmatter.strip text)) ∧
    (Same ↔ ∀ name, Known name → (name ∈ bindings (blankFences code) ↔
      name ∈ outerBindings code ∨ name ∈ sampleBindings code)) ∧
    (IsSettled code →
      (Same ↔ ∀ name, Known name → name ∈ sampleBindings code → name ∈ outerBindings code)) := by
  intro registry added Same Known
  have isKeyed : registry.IsKeyed :=
    Registry.isKeyed_withBuiltin (Registry.isKeyed_merge libraries) wanted
  have isAdded (name text : Text) : name ∈ (added text).flatMap Addition.names ↔
      Known name ∧ name ∉ bindings text := by
    rw [mem_names_additions isKeyed, Needs, ← isSome_source?_iff]
    tauto
  have isSame : Same ↔ ∀ name, Known name → (name ∈ bindings (blankFences code) ↔
      name ∈ outerBindings code ∨ name ∈ sampleBindings code) := by
    apply forall_congr'
    intro name
    rw [isAdded, isAdded, mem_bindings_iff]
    tauto
  refine ⟨inject_eq registry builtinActive fileExtension used, isSame, fun settled => ?_⟩
  rw [isSame]
  apply forall_congr'
  intro name
  rw [mem_bindings_blankFences_iff settled]
  tauto

/-- A document that shows in a sample how to import a component. -/
def Trial.sampled : Text :=
  "Import the tabs:\n\n```js\nimport { Tabs } from '@docs/ui'\n```\n".toList

/-- The sample binds a component, but not the one that the document uses. -/
theorem added_blankFences_of_sampled :
    let registry := (Registry.merge []).withBuiltin true
    let used := ["Aside".toList]
    IsSettled Trial.sampled ∧ outerBindings Trial.sampled = [] ∧
    sampleBindings Trial.sampled = ["Tabs".toList] ∧
    ∀ name,
      name ∈ (additions [] (missingSources registry true used Trial.sampled)).flatMap
          Addition.names ↔
        name ∈ (additions [] (missingSources registry true used
          (blankFences Trial.sampled))).flatMap Addition.names := by
  intro registry used
  have settled : IsSettled Trial.sampled := by
    unfold IsSettled
    decide +kernel
  have isSample : sampleBindings Trial.sampled = ["Tabs".toList] := by decide +kernel
  refine ⟨settled, by decide +kernel, isSample, ?_⟩
  apply ((added_blankFences_iff [] true true [] used Trial.sampled).2.2 settled).mpr
  rintro name ⟨isUsed, -⟩ isBound
  rw [isSample, List.mem_singleton] at isBound
  rw [isBound] at isUsed
  exact absurd isUsed (by decide)

/-- A document that shows how to import the component that it uses. -/
def Trial.asideSample : Text :=
  "```\nimport Aside from 'x'\n```\n".toList

/-- The sample keeps the import of the component out. -/
theorem added_blankFences_ne_of_asideSample :
    let registry := (Registry.merge []).withBuiltin true
    let used := ["Aside".toList]
    Frontmatter.find? Trial.asideSample = none ∧
    inject registry true ".astro".toList used Trial.asideSample = Trial.asideSample ∧
    inject registry true ".astro".toList used (blankFences Trial.asideSample) =
      builtinAside ++ "\n\n\n\n\n".toList := by
  decide +kernel

end MdxBuild.Import

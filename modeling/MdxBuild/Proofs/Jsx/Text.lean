import Mathlib.Data.List.DropRight
import MdxBuild.Jsx.Text
import MdxBuild.Proofs.Import.Binding
import MdxBuild.Proofs.Text.Line

/-!
# Text between tags loses its layout only

The visible part of a text between tags is on one line and has the characters of the text in their
order, but for spaces, tabs and line breaks. Where there is none, the text is layout throughout. A
text within one line keeps its layout, so a visible part is its own visible part.
-/

namespace MdxBuild.Jsx

open Text

variable {text cleaned line : Text} {all : List Text} {inClass : Char → Bool}

/-! ## Layout -/

/-- A character that lays a text out: a space, a tab, a carriage return or a line feed. -/
def isLayout (char : Char) : Bool :=
  isPadding char || isLineBreak char

/-- The characters of a text that do not lay it out, in order. -/
def visible (text : Text) : Text :=
  text.filter fun char => !isLayout char

@[simp]
theorem visible_append (first second : Text) :
    visible (first ++ second) = visible first ++ visible second :=
  List.filter_append first second

theorem visible_eq_nil_iff : visible text = [] ↔ ∀ char ∈ text, isLayout char = true := by
  simp [visible]

theorem isLayout_of_isPadding : ∀ char, isPadding char = true → isLayout char = true :=
  fun _ isPadded => by rw [isLayout, isPadded, Bool.true_or]

theorem isLayout_of_return : ∀ char, decide (char = '\r') = true → isLayout char = true := by
  intro char isReturn
  rw [of_decide_eq_true isReturn]
  decide

section Trimming

variable (layout : ∀ char, inClass char = true → isLayout char = true)

include layout

theorem visible_dropWhile (text : Text) : visible (text.dropWhile inClass) = visible text := by
  have dropped : visible (text.takeWhile inClass) = [] :=
    visible_eq_nil_iff.mpr fun char member => layout char (List.mem_takeWhile_imp member)
  conv_rhs => rw [← text.takeWhile_append_dropWhile (p := inClass)]
  rw [visible_append, dropped, List.nil_append]

theorem visible_trimEndBy (text : Text) : visible (trimEndBy inClass text) = visible text := by
  have dropped : visible (tailBy inClass text) = [] := by
    refine visible_eq_nil_iff.mpr fun char member => layout char ?_
    rw [tailBy, List.mem_reverse] at member
    exact List.mem_takeWhile_imp member
  conv_rhs => rw [← trimEndBy_append_tailBy inClass text]
  rw [visible_append, dropped, List.append_nil]

theorem visible_trimInner (all : List Text) :
    visible (trimInner inClass all).flatten = visible all.flatten := by
  fun_induction trimInner inClass all with
  | case1 => rfl
  | case2 last => simp [visible_dropWhile layout]
  | case3 line others _ ih =>
    simp [trimBy, visible_trimEndBy layout, visible_dropWhile layout, ih]

/-- Trimming lines takes off what lays them out. -/
theorem visible_trimLines (all : List Text) :
    visible (trimLines inClass all).flatten = visible all.flatten := by
  fun_cases trimLines inClass all with
  | case1 => rfl
  | case2 => rfl
  | case3 first others => simp [visible_trimEndBy layout, visible_trimInner layout]

end Trimming

theorem visible_intercalate {separator : Text} (layout : visible separator = [])
    (parts : List Text) : visible (separator.intercalate parts) = visible parts.flatten := by
  induction parts with
  | nil => rfl
  | cons part others ih =>
    cases others with
    | nil => simp
    | cons next others =>
      rw [List.intercalate_cons_cons, visible_append, visible_append, layout, List.append_nil, ih,
        ← visible_append]
      rfl

/-! ## Lines -/

theorem newline_notMem_of_mem_splitOn (member : line ∈ text.splitOn '\n') : '\n' ∉ line := by
  induction text generalizing line with
  | nil =>
    rw [List.splitOn_nil, List.mem_singleton] at member
    exact member ▸ List.not_mem_nil
  | cons char rest ih =>
    obtain ⟨first, others, isSplit⟩ := List.exists_cons_of_ne_nil (List.splitOn_ne_nil '\n' rest)
    rw [List.splitOn_cons_eq_if_modifyHead] at member
    rw [isSplit] at ih member
    split at member
    · rcases List.mem_cons.mp member with rfl | isLater
      · exact List.not_mem_nil
      · exact ih isLater
    · next differs =>
      rcases List.mem_cons.mp member with rfl | isLater
      · rw [List.mem_cons, not_or]
        exact ⟨fun isFeed => differs (by simp [← isFeed]), ih List.mem_cons_self⟩
      · exact ih (List.mem_cons_of_mem first isLater)

theorem subset_of_mem_splitOn (member : line ∈ text.splitOn '\n') : line ⊆ text := by
  have inText := Import.subset_intercalate ['\n'] member
  rwa [List.intercalate_splitOn] at inText

/-- A text with a line feed has at least two lines. -/
theorem exists_splitOn_cons_cons (broken : '\n' ∈ text) :
    ∃ first second others, text.splitOn '\n' = first :: second :: others := by
  obtain ⟨first, rest, rfl, noFeed⟩ := List.eq_append_cons_of_mem broken
  obtain ⟨second, others, isSplit⟩ := List.exists_cons_of_ne_nil (List.splitOn_ne_nil '\n' rest)
  exact ⟨first, second, others,
    by rw [List.splitOn_append_cons_self_of_not_mem noFeed, isSplit]⟩

/-- Trimming by a class does nothing to a text without characters of the class. -/
theorem trimEndBy_of_forall_not (noneIn : ∀ char ∈ text, inClass char = false) :
    trimEndBy inClass text = text := by
  rw [trimEndBy_eq_rdropWhile, List.rdropWhile_eq_self_iff]
  intro nonempty
  simp [noneIn _ (List.getLast_mem nonempty)]

theorem plainLines_of_notMem (noReturn : '\r' ∉ text) : plainLines text = text.splitOn '\n' := by
  rw [plainLines, List.map_congr_left (g := id), List.map_id]
  intro line member
  apply trimEndBy_of_forall_not
  rintro char isChar
  apply decide_eq_false
  rintro rfl
  exact noReturn (subset_of_mem_splitOn member isChar)

theorem exists_of_mem_plainLines (member : line ∈ plainLines text) : line ⊆ text ∧ '\n' ∉ line := by
  obtain ⟨whole, isWhole, rfl⟩ := List.mem_map.mp member
  have inWhole := ( trimEndBy_prefix (fun char => decide (char = '\r')) whole).subset
  exact ⟨List.Subset.trans inWhole (subset_of_mem_splitOn isWhole),
    fun isFeed => newline_notMem_of_mem_splitOn isWhole (inWhole isFeed)⟩

/-- Trimming brings in nothing. -/
theorem exists_of_mem_trimInner (member : line ∈ trimInner inClass all) :
    ∃ whole ∈ all, line ⊆ whole := by
  fun_induction trimInner inClass all with
  | case1 => cases member
  | case2 last =>
    obtain rfl := List.mem_singleton.mp member
    exact ⟨last, List.mem_cons_self, List.dropWhile_subset _⟩
  | case3 whole others _ ih =>
    rcases List.mem_cons.mp member with rfl | isLater
    · exact ⟨whole, List.mem_cons_self,
        List.Subset.trans ( trimEndBy_prefix _ _).subset (List.dropWhile_subset _)⟩
    · obtain ⟨other, isOther, inOther⟩ := ih isLater
      exact ⟨other, List.mem_cons_of_mem whole isOther, inOther⟩

theorem exists_of_mem_trimLines (member : line ∈ trimLines inClass all) :
    ∃ whole ∈ all, line ⊆ whole := by
  match all with
  | [] => cases member
  | [_] => exact ⟨line, member, List.Subset.refl line⟩
  | first :: _ :: _ =>
    rcases List.mem_cons.mp member with rfl | isLater
    · exact ⟨first, List.mem_cons_self, ( trimEndBy_prefix _ _).subset⟩
    · obtain ⟨other, isOther, inOther⟩ := exists_of_mem_trimInner isLater
      exact ⟨other, List.mem_cons_of_mem first isOther, inOther⟩

/-- Nothing is left of blank lines where they are trimmed. -/
theorem eq_nil_of_mem_trimInner (blank : ∀ whole ∈ all, ∀ char ∈ whole, inClass char = true)
    (member : line ∈ trimInner inClass all) : line = [] := by
  fun_induction trimInner inClass all with
  | case1 => cases member
  | case2 last =>
    obtain rfl := List.mem_singleton.mp member
    exact List.dropWhile_eq_nil_iff.mpr (blank last List.mem_cons_self)
  | case3 whole others _ ih =>
    rw [List.forall_mem_cons] at blank
    rcases List.mem_cons.mp member with rfl | isLater
    · rw [trimBy, List.dropWhile_eq_nil_iff.mpr blank.1, trimEndBy_nil]
    · exact ih blank.2 isLater

/-- Every one of several lines is trimmed. -/
theorem eq_nil_of_mem_trimLines {first second : Text}
    (blank : ∀ whole ∈ first :: second :: all, ∀ char ∈ whole, inClass char = true)
    (member : line ∈ trimLines inClass (first :: second :: all)) : line = [] := by
  rw [List.forall_mem_cons] at blank
  rcases List.mem_cons.mp member with rfl | isLater
  · exact List.rdropWhile_eq_nil_iff.mpr blank.1
  · exact eq_nil_of_mem_trimInner blank.2 isLater

/-! ## The visible part -/

theorem joinLines_eq_some_iff :
    joinLines all = some cleaned ↔ all ≠ [] ∧ [' '].intercalate all = cleaned := by
  rw [joinLines, Option.ite_none_left_eq_some, List.isEmpty_iff, Option.some.injEq]

theorem cleanText_eq_none : cleanText text = none ↔
    visibleLines isPadding (plainLines text) = [] := by
  rw [cleanText, joinLines]
  simp

/-- The lines that count are not empty, and they are made of characters of the text other than line
feeds. -/
theorem of_mem_visibleLines (member : line ∈ visibleLines isPadding (plainLines text)) :
    line ≠ [] ∧ line ⊆ text ∧ '\n' ∉ line := by
  obtain ⟨isLine, nonempty⟩ := List.mem_filter.mp member
  obtain ⟨whole, isWhole, inWhole⟩ := exists_of_mem_trimLines isLine
  obtain ⟨inText, noFeed⟩ := exists_of_mem_plainLines isWhole
  exact ⟨by simpa using nonempty, List.Subset.trans inWhole inText,
    fun isFeed => noFeed (inWhole isFeed)⟩

/-- The lines that count hold what is visible of the text. -/
theorem visible_visibleLines (text : Text) :
    visible (visibleLines isPadding (plainLines text)).flatten = visible text := by
  have isPlain (all : List Text) :
      visible (all.map (trimEndBy fun char => decide (char = '\r'))).flatten =
        visible all.flatten := by
    induction all with
    | nil => rfl
    | cons line others ih => simp [visible_trimEndBy isLayout_of_return, ih]
  have isText : visible (text.splitOn '\n').flatten = visible text := by
    have noFeed : visible ['\n'] = [] := by decide
    have isWhole := visible_intercalate noFeed (text.splitOn '\n')
    rw [List.intercalate_splitOn] at isWhole
    exact isWhole.symm
  rw [visibleLines, List.flatten_filter_not_isEmpty, visible_trimLines isLayout_of_isPadding,
    plainLines, isPlain, isText]

/-- The visible part holds nothing beside spaces and characters of the text. -/
theorem mem_of_mem_cleanText {char : Char} (clean : cleanText text = some cleaned)
    (member : char ∈ cleaned) : char = ' ' ∨ char ∈ text ∧ char ≠ '\n' := by
  obtain ⟨-, rfl⟩ := joinLines_eq_some_iff.mp clean
  rcases mem_of_mem_intercalate member with isSpace | ⟨line, isLine, inLine⟩
  · exact .inl (List.mem_singleton.mp isSpace)
  · obtain ⟨-, inText, noFeed⟩ := of_mem_visibleLines isLine
    exact .inr ⟨inText inLine, fun isFeed => noFeed (isFeed ▸ inLine)⟩

theorem newline_notMem_cleanText (clean : cleanText text = some cleaned) : '\n' ∉ cleaned := by
  intro member
  rcases mem_of_mem_cleanText clean member with isSpace | ⟨-, noFeed⟩
  · cases isSpace
  · exact noFeed rfl

theorem cleanText_ne_nil (clean : cleanText text = some cleaned) : cleaned ≠ [] := by
  obtain ⟨nonempty, rfl⟩ := joinLines_eq_some_iff.mp clean
  obtain ⟨line, isLine⟩ := List.exists_mem_of_ne_nil _ nonempty
  intro isNil
  have inNothing := Import.subset_intercalate [' '] isLine
  rw [isNil, List.subset_nil] at inNothing
  exact (of_mem_visibleLines isLine).1 inNothing

theorem visible_cleanText (clean : cleanText text = some cleaned) :
    visible cleaned = visible text := by
  obtain ⟨-, rfl⟩ := joinLines_eq_some_iff.mp clean
  rw [visible_intercalate (by decide), visible_visibleLines]

/-- What has no visible part is layout throughout. -/
theorem isLayout_of_cleanText_eq_none (isNone : cleanText text = none) :
    ∀ char ∈ text, isLayout char = true := by
  rw [← visible_eq_nil_iff, ← visible_visibleLines, cleanText_eq_none.mp isNone]
  rfl

/-! ## Texts without returns -/

/-- A text within one line is its own visible part. -/
theorem cleanText_of_line (noReturn : '\r' ∉ text) (noFeed : '\n' ∉ text) (nonempty : text ≠ []) :
    cleanText text = some text := by
  have isLine : plainLines text = [text] := by
    rw [plainLines_of_notMem noReturn, List.splitOn_eq_singleton noFeed]
  have counts : visibleLines isPadding [text] = [text] := by
    simp [visibleLines, trimLines, nonempty]
  rw [cleanText, isLine, counts, joinLines_eq_some_iff]
  exact ⟨List.cons_ne_nil text [], List.intercalate_singleton⟩

/-- Several lines of spaces and tabs have no visible part. -/
theorem cleanText_of_blank (broken : '\n' ∈ text)
    (blank : ∀ char ∈ text, char = ' ' ∨ char = '\t' ∨ char = '\n') : cleanText text = none := by
  have noReturn : '\r' ∉ text := by
    intro member
    simpa using blank _ member
  obtain ⟨first, second, others, isSplit⟩ := exists_splitOn_cons_cons broken
  have padded : ∀ line ∈ first :: second :: others, ∀ char ∈ line, isPadding char = true := by
    intro line isLine char isChar
    rw [← isSplit] at isLine
    have noFeed : char ≠ '\n' := fun isFeed =>
      newline_notMem_of_mem_splitOn isLine (isFeed ▸ isChar)
    simpa [isPadding, noFeed] using blank char (subset_of_mem_splitOn isLine isChar)
  rw [cleanText_eq_none, plainLines_of_notMem noReturn, isSplit, visibleLines,
    List.filter_eq_nil_iff]
  intro line isLine
  simp [eq_nil_of_mem_trimLines padded isLine]

theorem cleanText_eq_none_iff (noReturn : '\r' ∉ text) : cleanText text = none ↔
    text = [] ∨ '\n' ∈ text ∧ ∀ char ∈ text, char = ' ' ∨ char = '\t' ∨ char = '\n' := by
  constructor
  · intro isNone
    by_cases isNil : text = []
    · exact .inl isNil
    by_cases broken : '\n' ∈ text
    · refine .inr ⟨broken, fun char member => ?_⟩
      have layout := isLayout_of_cleanText_eq_none isNone char member
      have differs : char ≠ '\r' := fun isReturn => noReturn (isReturn ▸ member)
      simpa [isLayout, isPadding, isLineBreak, differs, or_assoc] using layout
    · rw [cleanText_of_line noReturn broken isNil] at isNone
      cases isNone
  · rintro (rfl | ⟨broken, blank⟩)
    · rfl
    · exact cleanText_of_blank broken blank

/-- The visible part of a text without returns is its own visible part. -/
theorem cleanText_cleanText (noReturn : '\r' ∉ text) (clean : cleanText text = some cleaned) :
    cleanText cleaned = some cleaned := by
  refine cleanText_of_line (fun member => ?_) (newline_notMem_cleanText clean)
    (cleanText_ne_nil clean)
  rcases mem_of_mem_cleanText clean member with isSpace | ⟨inText, -⟩
  · cases isSpace
  · exact noReturn inText

/-- Cleaning a text between tags loses nothing that is visible. The visible part is on one line and
shows what the text shows; where there is none, the text shows nothing. Of the texts without
returns, the empty one and those that lay out nothing over several lines are the ones without a
visible part. There, a text within one line is its own visible part, and so is a visible part. -/
theorem cleanText_keeps_visible (text : Text) :
    (∀ cleaned, cleanText text = some cleaned →
      '\n' ∉ cleaned ∧ visible cleaned = visible text) ∧
    (cleanText text = none → ∀ char ∈ text, isLayout char = true) ∧
    ('\r' ∉ text →
      (cleanText text = none ↔
        text = [] ∨ '\n' ∈ text ∧ ∀ char ∈ text, char = ' ' ∨ char = '\t' ∨ char = '\n') ∧
      (text ≠ [] → '\n' ∉ text → cleanText text = some text) ∧
      ∀ cleaned, cleanText text = some cleaned → cleanText cleaned = some cleaned) :=
  ⟨fun _ clean => ⟨newline_notMem_cleanText clean, visible_cleanText clean⟩,
    isLayout_of_cleanText_eq_none,
    fun noReturn => ⟨cleanText_eq_none_iff noReturn,
      fun nonempty noFeed => cleanText_of_line noReturn noFeed nonempty,
      fun _ => cleanText_cleanText noReturn⟩⟩

/-- A text over indented lines, one that is layout throughout, and one within a line. -/
theorem cleanText_of_layouts :
    (visible "first second".toList = visible "\n   first\r\n\t second  \n".toList ∧
      cleanText "first second".toList = some "first second".toList) ∧
    (∀ char ∈ "\n\t \r\n".toList, isLayout char = true) ∧
    cleanText "  a  b ".toList = some "  a  b ".toList := by
  have onReturned := cleanText_keeps_visible "\n   first\r\n\t second  \n".toList
  have onIndented := cleanText_keeps_visible "\n   first\n\t second  \n".toList
  have onBlank := cleanText_keeps_visible "\n\t \r\n".toList
  have onLine := cleanText_keeps_visible "  a  b ".toList
  exact ⟨⟨(onReturned.1 _ (by decide +kernel)).2,
    (onIndented.2.2 (by decide)).2.2 _ (by decide +kernel)⟩, onBlank.2.1 (by decide +kernel),
    (onLine.2.2 (by decide)).2.1 (by decide) (by decide)⟩

end MdxBuild.Jsx

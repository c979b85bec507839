import MdxBuild.Proofs.Json.Printable
import MdxBuild.Proofs.Module.DefaultPlace
import MdxBuild.Module.Metadata

/-!
# Default exports of wrapped modules

A wrapped module ends with its default export. The metadata exports in front of it are none,
whatever the metadata: their first words are others, and printed values have no line breaks. So the
default exports of a wrapped module are those of the module in it, and the one at its end.
-/

namespace MdxBuild

open Text DefaultExport

variable {text first second before : Text}

/-! ## Other exports -/

namespace DefaultExport

/-- Lines that begin with an export which is not the default one, and with no other export. -/
def IsOtherExport (text : Text) : Prop :=
  ∃ char rest, text = "export ".toList ++ char :: rest ∧ (isBlank char = false ∧ char ≠ 'd') ∧
    isInert false rest = true ∧ startsLine false rest = true

/-- The default exports of what follows are not affected. -/
def Passes (text : Text) : Prop :=
  ∀ second before, IsPlace (text ++ second) before ↔
    ∃ later, before = text ++ later ∧ IsPlace second later

theorem passes_nil : Passes [] := by
  intro second before
  simp

theorem Passes.append (passes : Passes first) (others : Passes second) :
    Passes (first ++ second) := by
  intro last before
  rw [List.append_assoc, passes]
  constructor
  · rintro ⟨later, rfl, isPlace⟩
    obtain ⟨rest, rfl, isRest⟩ := (others _ _).mp isPlace
    exact ⟨rest, (List.append_assoc _ _ _).symm, isRest⟩
  · rintro ⟨rest, rfl, isRest⟩
    exact ⟨second ++ rest, List.append_assoc _ _ _, (others _ _).mpr ⟨rest, rfl, isRest⟩⟩

theorem passes_flatMap {α : Type} {items : List α} {print : α → Text}
    (passes : ∀ item ∈ items, Passes (print item)) : Passes (items.flatMap print) := by
  induction items with
  | nil => exact passes_nil
  | cons item others ih =>
    rw [List.forall_mem_cons] at passes
    exact passes.1.append (ih passes.2)

theorem IsOtherExport.passes (other : IsOtherExport text) : Passes text := by
  obtain ⟨char, rest, rfl, ⟨notBlank, notDefault⟩, inert, starts⟩ := other
  have noBreak : char ≠ '\n' := by
    rintro rfl
    cases notBlank
  have inertLine : isInert false ("xport ".toList ++ char :: rest) = true := by
    rw [isInert_append, isInert, decide_eq_false noBreak, inert]
    rfl
  have startsNext : startsLine false ("xport ".toList ++ char :: rest) = true := by
    rw [startsLine_append, startsLine, decide_eq_false noBreak, starts]
  intro second before
  have isCons : "export ".toList ++ char :: rest ++ second =
      'e' :: ("xport ".toList ++ char :: rest ++ second) := rfl
  rw [IsPlace, isCons, isPlaceFrom_cons]
  constructor
  · rintro (⟨-, -, begins⟩ | ⟨later, rfl, isLater⟩)
    · exact absurd begins (not_beginsDefault_export notBlank notDefault)
    · obtain ⟨last, rfl, isLast⟩ := (isPlaceFrom_append_of_isInert inertLine).mp isLater
      rw [startsNext] at isLast
      exact ⟨last, rfl, isLast⟩
  · rintro ⟨last, rfl, isLast⟩
    refine .inr ⟨"xport ".toList ++ char :: rest ++ last, rfl, ?_⟩
    refine (isPlaceFrom_append_of_isInert inertLine).mpr ⟨last, rfl, ?_⟩
    rwa [startsNext]

end DefaultExport

namespace Metadata

variable {metadata : Metadata} {component code : Text}

theorem isOtherExport_constant {name value : Text} (noBreakName : '\n' ∉ name)
    (noBreakValue : '\n' ∉ value) : IsOtherExport (constant name value) := by
  have noBreak : '\n' ∉ "onst ".toList ++ name ++ " = ".toList ++ value :=
    List.not_mem_append (List.not_mem_append (List.not_mem_append (by decide) noBreakName)
      (by decide)) noBreakValue
  refine ⟨'c', "onst ".toList ++ name ++ " = ".toList ++ value ++ ";\n".toList, rfl, by decide,
    ?_, ?_⟩
  · rw [isInert_append, isInert_of_notMem noBreak, Bool.true_and]
    exact isInert_of_letter_notMem (by decide)
  · rw [startsLine_append]
    rfl

theorem isOtherExport_headingsFunction (headings : List HeadingRecord) :
    IsOtherExport (headingsFunction headings) := by
  have noBreak : '\n' ∉ (Json.array (headings.map HeadingRecord.toJson)).render :=
    (Json.isPrintable_render _).notMem (by decide)
  refine ⟨'f', "unction getHeadings() \x7b\n  return ".toList ++
    (Json.array (headings.map HeadingRecord.toJson)).render ++ ";\n\x7d\n".toList, rfl, by decide,
    ?_, ?_⟩
  · rw [isInert_append, isInert_append, Bool.and_eq_true, Bool.and_eq_true]
    exact ⟨⟨rfl, isInert_of_notMem noBreak⟩, isInert_of_letter_notMem (by decide)⟩
  · rw [startsLine_append]
    rfl

/-- No metadata export is a default export, whatever the metadata. -/
theorem isOtherExport_of_mem_exports {entry : Text × Text} (member : entry ∈ metadata.exports) :
    IsOtherExport entry.2 := by
  rw [exports, List.mem_append, List.mem_map] at member
  rcases member with named | ⟨url, -, rfl⟩
  · simp only [List.mem_cons, List.not_mem_nil, or_false] at named
    rcases named with rfl | rfl | rfl
    · exact isOtherExport_constant (by decide) ((Json.isPrintable_render _).notMem (by decide))
    · exact isOtherExport_headingsFunction _
    · exact isOtherExport_constant (by decide) ((Json.isPrintable_quote _).notMem (by decide))
  · exact isOtherExport_constant (by decide) ((Json.isPrintable_quote _).notMem (by decide))

/-! ## Wrapped modules -/

/-- The metadata exports that the module lacks. -/
def additions (metadata : Metadata) (code : Text) : Text :=
  (metadata.exports.filter fun entry => !exported entry.1 code).flatMap Prod.snd

/-- What a wrapped module has in front of its default export. -/
def wrapHead (metadata : Metadata) (code : Text) : Text :=
  trimEnd code ++ "\n\n".toList ++ metadata.additions code

/-- The statement by which a wrapped module exports its component. -/
def defaultStatement (component : Text) : Text :=
  "export default ".toList ++ component ++ ";\n".toList

theorem wrap_eq : metadata.wrap component code =
    metadata.wrapHead code ++ defaultStatement component := by
  unfold defaultStatement
  simp only [wrap, wrapHead, additions, List.append_assoc]

theorem isOtherExport_of_mem_filter {entry : Text × Text}
    (member : entry ∈ metadata.exports.filter fun entry => !exported entry.1 code) :
    IsOtherExport entry.2 :=
  isOtherExport_of_mem_exports (List.mem_of_mem_filter member)

theorem passes_additions : Passes (metadata.additions code) :=
  passes_flatMap fun _ member => (isOtherExport_of_mem_filter member).passes

theorem head?_additions_append (metadata : Metadata) (code component : Text) :
    (metadata.additions code ++ defaultStatement component).head? = some 'e' := by
  rw [additions]
  cases isList : metadata.exports.filter fun entry => !exported entry.1 code with
  | nil => rfl
  | cons entry others =>
    obtain ⟨char, rest, isExport, -⟩ :=
      isOtherExport_of_mem_filter (isList ▸ List.mem_cons_self : entry ∈ _)
    rw [List.flatMap_cons, isExport]
    rfl

theorem isPlace_defaultStatement_iff (noBreak : '\n' ∉ component) :
    IsPlace (defaultStatement component) before ↔ before = [] := by
  constructor
  · have isLine : defaultStatement component =
        "export default ".toList ++ component ++ [';'] ++ ['\n'] :=
      (List.append_assoc _ [';'] ['\n']).symm
    rw [isLine]
    exact fun isPlace => isPlace.eq_nil_of_line
      (List.not_mem_append (List.not_mem_append (by decide) noBreak) (by decide))
  · rintro rfl
    refine ⟨defaultStatement component, rfl, rfl, [' '], ' ' :: (component ++ ";\n".toList),
      List.cons_ne_nil _ _, List.forall_mem_singleton.mpr rfl, rfl, ?_⟩
    rintro char ⟨⟩
    decide

/-- Blanks at the end of a module do not matter. -/
theorem isPlace_trimEnd_iff : IsPlace (trimEnd code) before ↔ IsPlace code before := by
  have blank : ∀ char ∈ tailBy isBlank code, isBlank char = true := fun char member =>
    List.mem_takeWhile_imp (List.mem_reverse.mp member)
  have apart : IsApart (tailBy isBlank code) := by
    constructor
    · exact fun char isHead => isNamePart_of_isBlank (blank char (List.mem_of_mem_head? isHead))
    · rw [List.dropWhile_eq_nil_iff.mpr blank]
      rfl
  have inert : isInert (startsLine true (trimEnd code)) (tailBy isBlank code) = true := by
    refine isInert_of_letter_notMem fun member => ?_
    cases blank 'e' member
  have noPlace : ¬∃ later, before = trimEnd code ++ later ∧
      IsPlaceFrom (startsLine true (trimEnd code)) (tailBy isBlank code) later :=
    fun ⟨_, _, isLater⟩ => not_isPlaceFrom_of_isInert inert isLater
  calc IsPlace (trimEnd code) before
    _ ↔ IsPlace (trimEnd code ++ tailBy isBlank code) before :=
      ((isPlaceFrom_append_iff apart).trans (or_iff_left noPlace)).symm
    _ ↔ IsPlace code before := by rw [trimEnd, trimEndBy_append_tailBy]

/-- The empty line behind the module keeps the words of what follows apart from those in it. -/
theorem isApart_emptyLine (isHead : text.head? = some 'e') : IsApart ("\n\n".toList ++ text) := by
  cases text with
  | nil => cases isHead
  | cons first rest =>
    obtain rfl : first = 'e' := Option.some.inj isHead
    constructor
    · rintro char ⟨⟩
      decide
    · rfl

theorem isPlaceFrom_emptyLine_iff {isStart : Bool} (noBreak : '\n' ∉ component) :
    IsPlaceFrom isStart
        ("\n\n".toList ++ (metadata.additions code ++ defaultStatement component)) before ↔
      before = "\n\n".toList ++ metadata.additions code := by
  rw [isPlaceFrom_append_of_isInert (isInert_of_letter_notMem (by decide))]
  constructor
  · rintro ⟨later, rfl, isLater⟩
    obtain ⟨last, rfl, isLast⟩ := (passes_additions _ _).mp isLater
    rw [(isPlace_defaultStatement_iff noBreak).mp isLast, List.append_nil]
  · rintro rfl
    refine ⟨_, rfl, (passes_additions _ _).mpr ⟨[], (List.append_nil _).symm, ?_⟩⟩
    exact (isPlace_defaultStatement_iff noBreak).mpr rfl

/-- The default exports of a wrapped module are those of the module in it and the one at its end. -/
theorem isPlace_wrap_iff (noBreak : '\n' ∉ component) :
    IsPlace (metadata.wrap component code) before ↔
      IsPlace code before ∨ before = metadata.wrapHead code := by
  have apart := isApart_emptyLine (metadata.head?_additions_append code component)
  rw [wrap_eq, wrapHead, List.append_assoc, List.append_assoc, IsPlace,
    isPlaceFrom_append_iff apart, ← IsPlace, isPlace_trimEnd_iff]
  simp only [isPlaceFrom_emptyLine_iff noBreak, exists_eq_right, List.append_assoc]

/-- The default export at the end of a wrapped module is the only one exactly if the module in it
has none. -/
theorem isOnly_wrap_iff (noBreak : '\n' ∉ component) :
    (∀ before, IsPlace (metadata.wrap component code) before ↔
      metadata.wrap component code = before ++ defaultStatement component) ↔
        ∀ before, ¬IsPlace code before := by
  have isHead {before : Text} :
      metadata.wrap component code = before ++ defaultStatement component ↔
        before = metadata.wrapHead code := by
    rw [wrap_eq, List.append_left_inj, eq_comm]
  simp only [isPlace_wrap_iff noBreak, isHead]
  constructor
  · intro only before isPlace
    obtain rfl := (only before).mp (.inl isPlace)
    obtain ⟨rest, parts, -⟩ := isPlace_trimEnd_iff.mpr isPlace
    have lengths := congrArg List.length parts
    simp only [wrapHead, List.length_append] at lengths
    have breaks : "\n\n".toList.length = 2 := rfl
    omega
  · exact fun noPlace before => or_iff_right (noPlace before)

end Metadata

end MdxBuild

import Mathlib.Data.List.Nodup
import MdxBuild.Proofs.Module.DeclarationPlace
import MdxBuild.Proofs.Module.DefaultForms
import MdxBuild.Proofs.Module.Wrapping

/-!
# Metadata that is exported once

A component module keeps the declarations of the compiled module and adds those of the metadata that
are not found in it. No name is exported twice, and every metadata name is exported exactly if none
of the declared names is taken for it by mistake: a name such as `file$` counts as `file`, because
the search for a name ends at the first character that is no word character.
-/

namespace MdxBuild.Metadata

open Text DefaultExport

variable {text rest name code component : Text} {metadata : Metadata} {isStart : Bool}

/-! ## Modules without their default export -/

/-- In front of the rest of a text nothing is declared. -/
def Skips (text rest : Text) : Prop :=
  ∀ isStart, ∃ starts, declaredFrom isStart text = declaredFrom starts rest

namespace Skips

variable {middle : Text}

theorem refl (text : Text) : Skips text text :=
  fun isStart => ⟨isStart, rfl⟩

theorem trans (skips : Skips text middle) (others : Skips middle rest) : Skips text rest := by
  intro isStart
  obtain ⟨starts, isMiddle⟩ := skips isStart
  obtain ⟨ends, isRest⟩ := others starts
  exact ⟨ends, isMiddle.trans isRest⟩

theorem of_notMem {front : Text} (noLetter : 'e' ∉ front) (rest : Text) :
    Skips (front ++ rest) rest :=
  fun _ => ⟨_, declaredFrom_append_of_isInert (isInert_of_letter_notMem noLetter) rest⟩

theorem dropWhile {inClass : Char → Bool} (noLetter : inClass 'e' = false) (text : Text) :
    Skips text (text.dropWhile inClass) := by
  have noLetterHead : 'e' ∉ text.takeWhile inClass := fun member =>
    Bool.false_ne_true (noLetter.symm.trans (List.mem_takeWhile_imp member))
  have skips := of_notMem noLetterHead (text.dropWhile inClass)
  rwa [List.takeWhile_append_dropWhile] at skips

theorem dropOne {char : Char} (other : char ≠ 'e') (text : Text) :
    Skips text (dropOne char text) := by
  rw [DefaultExport.dropOne]
  cases found : after? [char] text with
  | none => exact refl text
  | some rest =>
    rw [after?_eq_some_iff.mp found]
    exact of_notMem (by simpa using other.symm) rest

/-- A name that is not declared declares nothing. -/
theorem of_name? (named : name? text = some (name, rest)) (undeclared : declaredName? text = none) :
    Skips text rest := by
  obtain ⟨rfl, ⟨first, others, rfl, isStart, areParts⟩, -⟩ := name?_eq_some_iff.mp named
  have noBreak : '\n' ∉ others := fun member => Bool.false_ne_true (areParts _ member)
  have notBreak : first ≠ '\n' := by
    rintro rfl
    cases isStart
  intro isStart
  refine ⟨startsLine false others, ?_⟩
  rw [List.cons_append] at undeclared ⊢
  rw [declaredFrom, undeclared, decide_eq_false notBreak,
    declaredFrom_append_of_isInert (isInert_of_notMem noBreak)]
  simp

end Skips

/-- A name in front of blanks. -/
theorem name?_append_gap {gap : Text} (isName : IsName name) (isGap : IsGap gap) (rest : Text) :
    name? (name ++ (gap ++ rest)) = some (name, gap ++ rest) :=
  name?_eq_some_iff.mpr ⟨rfl, isName,
    isNamePart_of_mem_head?_append isGap.2 fun isNil => absurd isNil isGap.1⟩

theorem isName_export : IsName "export".toList :=
  ⟨'e', "xport".toList, rfl, by decide, List.all_eq_true.mp (by decide)⟩

theorem isName_default : IsName "default".toList :=
  ⟨'d', "efault".toList, rfl, by decide, List.all_eq_true.mp (by decide)⟩

/-- Only the word `export` begins a declaration, and no parenthesis stands behind it. -/
theorem declaredName?_of_name? (named : name? text = some (name, rest))
    (other : name ≠ "export".toList ∨ (trimStart rest).head? = some '(') :
    declaredName? text = none := by
  rw [Option.eq_none_iff_forall_ne_some]
  intro declared found
  obtain ⟨atName, isAt, -⟩ := declaredName?_eq_some_iff.mp found
  obtain ⟨gap, declarator, space, isGap, isDeclarator, -, rfl, -⟩ := atName?_eq_some_iff.mp isAt
  have isExport := name?_append_gap isName_export isGap (declarator ++ (space ++ atName))
  obtain ⟨rfl, rfl⟩ := Prod.mk.inj (Option.some.inj (isExport.symm.trans named))
  rcases other with notExport | isParenthesis
  · exact notExport rfl
  · rw [trimStart, List.dropWhile_append_of_pos isGap.2] at isParenthesis
    cases isDeclarator with
    | plain _ isKeyword =>
      simp only [List.map_cons, List.map_nil, List.mem_cons, List.not_mem_nil, or_false]
        at isKeyword
      rcases isKeyword with rfl | rfl | rfl | rfl <;>
        exact absurd (Option.some.inj isParenthesis) (by decide)
    | async inner isInner => exact absurd (Option.some.inj isParenthesis) (by decide)

theorem not_mem_of_isBlank {blanks : Text} (areBlank : ∀ char ∈ blanks, isBlank char = true) :
    'e' ∉ blanks := fun member => by
  cases areBlank 'e' member

/-- A default export declares nothing. -/
theorem declaredName?_default {gap : Text} (isGap : IsGap gap) (rest : Text) :
    declaredName? ("export".toList ++ (gap ++ ("default".toList ++ rest))) = none := by
  have isExport : after? "export".toList ("export".toList ++ (gap ++ ("default".toList ++ rest))) =
      some (gap ++ ("default".toList ++ rest)) :=
    after?_eq_some_iff.mpr rfl
  have isBehind : afterBlanks? (gap ++ ("default".toList ++ rest)) =
      some ("default".toList ++ rest) :=
    afterBlanks?_eq_some_iff.mpr ⟨gap, isGap.1, isGap.2, rfl, by rintro char ⟨⟩; decide⟩
  have noDeclarator : afterDeclarator? ("default".toList ++ rest) = none := rfl
  simp only [declaredName?, atName?, isExport, isBehind, noDeclarator, Option.bind_eq_bind,
    Option.bind_some, Option.bind_none]

/-- In front of the value of a default export nothing is declared. -/
theorem declared_of_afterExportDefault? (found : afterExportDefault? text = some rest) :
    ∃ starts, declared text = declaredFrom starts rest := by
  obtain ⟨gap, space, isGap, isSpace, rfl, stops⟩ := afterExportDefault?_eq_some_iff.mp found
  have noDefault : declaredName? ("default".toList ++ (space ++ rest)) = none :=
    declaredName?_of_head? (by decide : some 'd' ≠ some 'e')
  have skipsGap := (Skips.of_name? (name?_append_gap isName_export isGap _)
    (declaredName?_default isGap (space ++ rest))).trans
      (.of_notMem (not_mem_of_isBlank isGap.2) _)
  have skipsSpace := (Skips.of_name? (name?_append_gap isName_default isSpace rest) noDefault).trans
    (.of_notMem (not_mem_of_isBlank isSpace.2) _)
  exact (skipsGap.trans skipsSpace) true

theorem skips_asyncMark (text : Text) : Skips text (asyncMark text).2 := by
  rcases asyncMark_cases text with isNone | ⟨blanks, rest, rfl, ⟨-, blank⟩, isMark⟩
  · rw [isNone]
    exact .refl text
  · rw [isMark, ← List.append_assoc]
    exact .of_notMem (List.not_mem_append (by decide) (not_mem_of_isBlank blank)) rest

theorem skips_starMark (text : Text) : Skips text (starMark text).2 := by
  rw [starMark]
  split
  · next rest isStar =>
    have skips := Skips.dropWhile (by decide : isBlank 'e' = false) text
    rw [isStar] at skips
    exact skips.trans (.of_notMem (by decide : 'e' ∉ ['*']) rest)
  · exact .refl text

theorem skips_headBehind? {head : FunctionHead} (found : headBehind? text = some head) :
    Skips text ('(' :: head.rest) := by
  simp only [headBehind?, Option.bind_eq_bind, Option.bind_eq_some_iff] at found
  obtain ⟨afterFunction, isFunction, rest, isRest, same⟩ := found
  obtain rfl := Option.some.inj same
  have skipsMark := skips_asyncMark text
  rw [after?_eq_some_iff.mp isFunction] at skipsMark
  have skipsFunction := skipsMark.trans (.of_notMem (by decide) afterFunction)
  have skipsStar := (skips_starMark afterFunction).trans
    (.dropWhile (by decide : isBlank 'e' = false) _)
  have isParenthesis := after?_eq_some_iff.mp isRest
  have skipsName : Skips ((starMark afterFunction).2.dropWhile isBlank)
      (headName afterFunction).2 := by
    rw [headName] at isParenthesis ⊢
    cases isNamed : name? ((starMark afterFunction).2.dropWhile isBlank) with
    | none => exact .refl _
    | some named =>
      rw [isNamed, Option.getD_some] at isParenthesis
      apply Skips.of_name? isNamed
      apply declaredName?_of_name? isNamed (.inr _)
      rw [trimStart, isParenthesis]
      rfl
  have skipsSpace := Skips.dropWhile (by decide : isBlank 'e' = false) (headName afterFunction).2
  rw [isParenthesis] at skipsSpace
  exact skipsFunction.trans (skipsStar.trans (skipsName.trans skipsSpace))

theorem skips_nameBehind? (found : nameBehind? text = some (name, rest))
    (notExport : name ≠ "export".toList) : Skips text rest := by
  simp only [nameBehind?, Option.bind_eq_bind, Option.bind_eq_some_iff] at found
  obtain ⟨⟨named, afterName⟩, isNamed, same⟩ := found
  obtain ⟨rfl, rfl⟩ := Prod.mk.inj (Option.some.inj same)
  have isName := Skips.of_name? isNamed (declaredName?_of_name? isNamed (.inl notExport))
  have isSemicolon := (Skips.dropWhile (by decide : isBlank 'e' = false) afterName).trans
    (.dropOne (by decide : ';' ≠ 'e') _)
  have isBreak := (Skips.dropWhile (by decide : isSpaceOrTab 'e' = false)
    (dropOne ';' (afterName.dropWhile isBlank))).trans ((Skips.dropOne (by decide : '\r' ≠ 'e') _).trans
      (.dropOne (by decide : '\n' ≠ 'e') _))
  exact isName.trans (isSemicolon.trans isBreak)

/-- What a search finds begins at a line start, behind the text in front of it. -/
theorem exists_of_firstAtLineStartFrom? {α : Type} {find : Text → Option α} {before : Text}
    {found : α} (finds : firstAtLineStartFrom? find isStart text = some (before, found)) :
    ∃ rest, text = before ++ rest ∧ startsLine isStart before = true ∧ find rest = some found := by
  induction text generalizing isStart before with
  | nil => cases finds
  | cons char others ih =>
    rw [firstAtLineStartFrom?] at finds
    split at finds
    · next here isHere =>
      obtain ⟨rfl, rfl⟩ := Prod.mk.inj (Option.some.inj finds)
      obtain ⟨isStart, isFound⟩ := Option.ite_none_right_eq_some.mp isHere
      exact ⟨_, rfl, isStart, isFound⟩
    · obtain ⟨⟨early, later⟩, isLater, same⟩ := Option.map_eq_some_iff.mp finds
      obtain ⟨rfl, rfl⟩ := Prod.mk.inj (Option.some.inj (congrArg some same))
      obtain ⟨rest, rfl, starts, isFound⟩ := ih isLater
      exact ⟨rest, rfl, starts, isFound⟩

theorem sublist_declaredFrom (isStart : Bool) (text : Text) :
    (declaredFrom isStart text).Sublist (declared text) := by
  cases text with
  | nil => exact List.Sublist.refl _
  | cons char rest =>
    rw [declared, declaredFrom, declaredFrom]
    cases isStart with
    | false => exact List.sublist_append_right _ _
    | true => exact List.Sublist.refl _

theorem sublist_declaredFrom_of_append (isStart : Bool) (first second : Text) :
    (declaredFrom (startsLine isStart first) second).Sublist
      (declaredFrom isStart (first ++ second)) := by
  induction first generalizing isStart with
  | nil => exact List.Sublist.refl _
  | cons char rest ih =>
    rw [List.cons_append, declaredFrom, startsLine]
    exact (ih _).trans (List.sublist_append_right _ _)

/-- The word `export` is read for itself in front of blanks. -/
theorem word_trimStart_export {gap : Text} (isGap : IsGap gap) (rest : Text) :
    word (trimStart ("export".toList ++ (gap ++ rest))) = "export".toList := by
  have isTrimmed : trimStart ("export".toList ++ (gap ++ rest)) = "export".toList ++ (gap ++ rest) :=
    List.dropWhile_cons_of_neg (by decide)
  obtain ⟨nonempty, areBlank⟩ := isGap
  cases gap with
  | nil => exact absurd rfl nonempty
  | cons char gap =>
    rw [isTrimmed, List.cons_append, word]
    exact takeWhile_append_cons (List.all_eq_true.mp (by decide))
      (isNameChar_of_isBlank (areBlank char List.mem_cons_self)) _

theorem declared_append_of_afterExportDefault? {before : Text}
    (starts : startsLine true before = true) (found : afterExportDefault? text = some rest) :
    declared (before ++ text) = declared before ++ declared text := by
  apply declared_append (startsLine_iff.mp starts)
  obtain ⟨gap, space, isGap, -, rfl, -⟩ := afterExportDefault?_eq_some_iff.mp found
  exact .inr (word_trimStart_export isGap _)

theorem startsLine_declaration {head : FunctionHead} (found : headBehind? text = some head) :
    startsLine true head.declaration = false := by
  simp only [headBehind?, Option.bind_eq_bind, Option.bind_eq_some_iff] at found
  obtain ⟨afterFunction, -, rest, -, same⟩ := found
  obtain rfl := Option.some.inj same
  exact startsLine_append true _ ['(']

/-- Taking out the default export leaves all declarations in their places. -/
theorem sublist_declared_normalize (readable : (normalize code).2 ≠ some "export".toList) :
    (declared code).Sublist (declared (normalize code).1) := by
  rw [DefaultExport.normalize] at readable ⊢
  split at readable
  · next before head found =>
    obtain ⟨start, rfl, starts, isHead⟩ := exists_of_firstAtLineStartFrom? found
    obtain ⟨behind, isDefault, isBehind⟩ := Option.bind_eq_some_iff.mp isHead
    obtain ⟨isStart, isDeclared⟩ := declared_of_afterExportDefault? isDefault
    obtain ⟨isRest, isSkipped⟩ := skips_headBehind? isBehind isStart
    have undeclared : declaredName? ('(' :: head.rest) = none :=
      declaredName?_of_head? (by decide : some '(' ≠ some 'e')
    have isParenthesis : declared start = declaredFrom false head.rest := by
      rw [isDeclared, isSkipped, declaredFrom, undeclared]
      simp
    have kept := sublist_declaredFrom_of_append true head.declaration head.rest
    rw [startsLine_declaration isBehind, ← isParenthesis] at kept
    rw [declared_append_of_afterExportDefault? starts isDefault, List.append_assoc]
    exact (kept.append_left _).trans (sublist_declared_append (startsLine_iff.mp starts) _)
  · split at readable
    · next before name rest found =>
      obtain ⟨start, rfl, starts, isBinding⟩ := exists_of_firstAtLineStartFrom? found
      obtain ⟨behind, isDefault, isBehind⟩ := Option.bind_eq_some_iff.mp isBinding
      obtain ⟨isStart, isDeclared⟩ := declared_of_afterExportDefault? isDefault
      have notExport : name ≠ "export".toList := fun isExport => readable (congrArg some isExport)
      obtain ⟨isRest, isSkipped⟩ := skips_nameBehind? isBehind notExport isStart
      have kept := sublist_declaredFrom isRest rest
      rw [← isSkipped, ← isDeclared] at kept
      rw [declared_append_of_afterExportDefault? starts isDefault]
      exact (kept.append_left _).trans (sublist_declared_append (startsLine_iff.mp starts) _)
    · exact List.Sublist.refl _

/-! ## Component modules -/

/-- Blanks at the end of a module declare nothing. -/
theorem declared_trimEnd (code : Text) : declared (trimEnd code) = declared code := by
  have areBlank : ∀ char ∈ tailBy isBlank code, isBlank char = true := fun char member =>
    List.mem_takeWhile_imp (List.mem_reverse.mp member)
  have ends : EndsDeclarations (tailBy isBlank code) := by
    refine ⟨fun char isHead => isNameChar_of_isBlank (areBlank char (List.mem_of_mem_head? isHead)),
      .inl ?_⟩
    rw [trimStart, List.dropWhile_eq_nil_iff.mpr areBlank]
    rfl
  have isNone (isStart : Bool) : declaredFrom isStart (tailBy isBlank code) = [] := by
    have isInert : isInert isStart (tailBy isBlank code) = true :=
      isInert_of_letter_notMem (not_mem_of_isBlank areBlank)
    rw [← List.append_nil (tailBy isBlank code), declaredFrom_append_of_isInert isInert, declaredFrom]
  conv_rhs => rw [← trimEndBy_append_tailBy isBlank code, declared, declaredFrom_append ends, isNone,
    List.append_nil]
  rfl

theorem isGap_space : IsGap [' '] :=
  ⟨List.cons_ne_nil _ _, List.forall_mem_singleton.mpr rfl⟩

/-- A declaration whose name ends where no further character of a name follows. -/
theorem declaredName?_of_isDeclarator {declarator : Text} {char : Char}
    (isDeclarator : IsDeclarator declarator) (isName : ∀ char ∈ name, isNameChar char = true)
    (nonempty : name ≠ []) (notReserved : name ≠ "export".toList) (stops : isNameChar char = false)
    (text : Text) :
    declaredName? ("export ".toList ++ (declarator ++ ' ' :: (name ++ char :: text))) = some name := by
  refine declaredName?_eq_some_iff.mpr ⟨name ++ char :: text, atName?_eq_some_iff.mpr
    ⟨[' '], declarator, [' '], isGap_space, isDeclarator, isGap_space, rfl, ?_⟩,
    takeWhile_append_cons isName stops text, nonempty, notReserved⟩
  cases name with
  | nil => exact absurd rfl nonempty
  | cons first others =>
    rintro letter ⟨⟩
    by_contra blank
    have isPart := isName first List.mem_cons_self
    rw [isNameChar_of_isBlank (Bool.of_not_eq_false blank)] at isPart
    cases isPart

/-- What the statement of a constant declares. -/
theorem declared_constant_append {value : Text} (isName : ∀ char ∈ name, isNameChar char = true)
    (nonempty : name ≠ []) (notReserved : name ≠ "export".toList) (noBreakName : '\n' ∉ name)
    (noBreak : '\n' ∉ value) (text : Text) :
    declared (constant name value ++ text) = name :: declared text := by
  have isText : constant name value ++ text = "export ".toList ++ ("const".toList ++
      ' ' :: (name ++ ' ' :: ("= ".toList ++ (value ++ (";\n".toList ++ text))))) := by
    unfold constant
    simp only [List.append_assoc]
    rfl
  have isLine : constant name value ++ text =
      "export const ".toList ++ name ++ " = ".toList ++ value ++ [';'] ++ '\n' :: text := by
    unfold constant
    simp only [List.append_assoc]
    rfl
  have noLineBreak : '\n' ∉ "export const ".toList ++ name ++ " = ".toList ++ value ++ [';'] :=
    List.not_mem_append (List.not_mem_append (List.not_mem_append (List.not_mem_append (by decide)
      noBreakName) (by decide)) noBreak) (by decide)
  have isRead : declaredName? (constant name value ++ text) = some name := by
    rw [isText]
    exact declaredName?_of_isDeclarator (.plain _ (by decide)) isName nonempty notReserved rfl _
  rw [isLine] at isRead ⊢
  rw [declared_line noLineBreak, isRead, Option.toList_some, List.singleton_append]

theorem declared_headingsFunction_append (headings : List HeadingRecord) (text : Text) :
    declared (headingsFunction headings ++ text) = "getHeadings".toList :: declared text := by
  have noBreak : '\n' ∉ (Json.array (headings.map HeadingRecord.toJson)).render :=
    (Json.isPrintable_render _).notMem (by decide)
  generalize isValue : (Json.array (headings.map HeadingRecord.toJson)).render = value at noBreak
  have isText : headingsFunction headings ++ text = "export ".toList ++ ("function".toList ++
      ' ' :: ("getHeadings".toList ++ '(' :: (") \x7b\n  return ".toList ++ (value ++
        (";\n\x7d\n".toList ++ text))))) := by
    unfold headingsFunction
    rw [isValue]
    simp only [List.append_assoc]
    rfl
  have isHead : "export function getHeadings() \x7b\n  return ".toList =
      "export function getHeadings() \x7b".toList ++ '\n' :: "  return ".toList := by
    decide
  have isLine : headingsFunction headings ++ text = "export function getHeadings() \x7b".toList ++
      '\n' :: ("  return ".toList ++ value ++ [';'] ++ '\n' :: (['\x7d'] ++ '\n' :: text)) := by
    unfold headingsFunction
    rw [isValue]
    simp only [isHead, List.append_assoc, List.cons_append]
    rfl
  have noReturnBreak : '\n' ∉ "  return ".toList ++ value ++ [';'] :=
    List.not_mem_append (List.not_mem_append (by decide) noBreak) (by decide)
  have isRead : declaredName? (headingsFunction headings ++ text) = some "getHeadings".toList := by
    rw [isText]
    exact declaredName?_of_isDeclarator (.plain _ (by decide)) (List.all_eq_true.mp (by decide))
      (by decide) (by decide)
      rfl _
  have noReturn : declaredName? ("  return ".toList ++ value ++ [';'] ++ '\n' ::
      (['\x7d'] ++ '\n' :: text)) = none :=
    declaredName?_of_head? (by decide : some ' ' ≠ some 'e')
  have noBrace : declaredName? (['\x7d'] ++ '\n' :: text) = none :=
    declaredName?_of_head? (by decide : some '\x7d' ≠ some 'e')
  rw [isLine] at isRead ⊢
  rw [declared_line (by decide), isRead, declared_line noReturnBreak, noReturn,
    declared_line (by decide), noBrace]
  rfl

theorem declared_append_of_mem_exports {entry : Text × Text} (member : entry ∈ metadata.exports)
    (text : Text) : declared (entry.2 ++ text) = entry.1 :: declared text := by
  rw [exports, List.mem_append, List.mem_map] at member
  rcases member with named | ⟨url, -, rfl⟩
  · simp only [List.mem_cons, List.not_mem_nil, or_false] at named
    rcases named with rfl | rfl | rfl
    · exact declared_constant_append (List.all_eq_true.mp (by decide)) (by decide)
        (by decide) (by decide) ((Json.isPrintable_render _).notMem (by decide)) text
    · exact declared_headingsFunction_append _ text
    · exact declared_constant_append (List.all_eq_true.mp (by decide)) (by decide)
        (by decide) (by decide) ((Json.isPrintable_quote _).notMem (by decide)) text
  · exact declared_constant_append (List.all_eq_true.mp (by decide)) (by decide)
      (by decide) (by decide) ((Json.isPrintable_quote _).notMem (by decide)) text

theorem declared_defaultStatement (noBreak : '\n' ∉ component) :
    declared (defaultStatement component) = [] := by
  have noLineBreak : '\n' ∉ "export default ".toList ++ component ++ [';'] :=
    List.not_mem_append (List.not_mem_append (by decide) noBreak) (by decide)
  have isLine : defaultStatement component =
      "export default ".toList ++ component ++ [';'] ++ '\n' :: [] :=
    append_semicolon_newline _
  have undeclared : declaredName? ("export default ".toList ++ component ++ [';'] ++ '\n' :: []) =
      none :=
    declaredName?_default isGap_space (' ' :: component ++ [';'] ++ '\n' :: [])
  rw [isLine, declared_line noLineBreak, undeclared]
  rfl

/-- The metadata exports that a component module adds. -/
def added (metadata : Metadata) (code : Text) : List (Text × Text) :=
  metadata.exports.filter fun entry => !exported entry.1 (normalize code).1

/-- What stands behind the empty line of a component module begins with the word `export`. -/
theorem exists_export_append (entries : List (Text × Text))
    (areExports : ∀ entry ∈ entries, entry ∈ metadata.exports) (component : Text) :
    ∃ rest, entries.flatMap Prod.snd ++ defaultStatement component =
      "export".toList ++ ([' '] ++ rest) := by
  cases entries with
  | nil => exact ⟨_, rfl⟩
  | cons entry others =>
    obtain ⟨char, rest, isExport, -⟩ :=
      isOtherExport_of_mem_exports (areExports entry List.mem_cons_self)
    rw [List.flatMap_cons, isExport]
    exact ⟨_, rfl⟩

theorem declared_flatMap_append {entries : List (Text × Text)}
    (areExports : ∀ entry ∈ entries, entry ∈ metadata.exports) (text : Text) :
    declared (entries.flatMap Prod.snd ++ text) = entries.map Prod.fst ++ declared text := by
  induction entries with
  | nil => rfl
  | cons entry others ih =>
    obtain ⟨isExport, areOthers⟩ := List.forall_mem_cons.mp areExports
    rw [List.flatMap_cons, List.append_assoc, declared_append_of_mem_exports isExport, ih areOthers,
      List.map_cons, List.cons_append]

/-- A component module declares what the compiled module does, and the metadata that it adds. -/
theorem declared_postProcess (metadata : Metadata) (code : Text) :
    declared (metadata.postProcess code) =
      declared (normalize code).1 ++ (metadata.added code).map Prod.fst := by
  have areExports : ∀ entry ∈ metadata.added code, entry ∈ metadata.exports :=
    fun _ member => List.mem_of_mem_filter member
  have noBreak : '\n' ∉ (normalize code).2.getD contentComponent := fun member => by
    cases isName_component.isNamePart member
  obtain ⟨rest, isExport⟩ :=
    exists_export_append _ areExports ((normalize code).2.getD contentComponent)
  have isText : metadata.postProcess code = trimEnd (normalize code).1 ++ '\n' :: ('\n' ::
      ((metadata.added code).flatMap Prod.snd ++
        defaultStatement ((normalize code).2.getD contentComponent))) := by
    rw [postProcess_eq, wrap_eq]
    unfold wrapHead additions added
    simp only [List.append_assoc]
    rfl
  have next : word (trimStart ('\n' :: ((metadata.added code).flatMap Prod.snd ++
      defaultStatement ((normalize code).2.getD contentComponent)))) = "export".toList := by
    rw [isExport]
    exact word_trimStart_export isGap_space rest
  rw [isText, declared_append_newline (.inr next), declared_trimEnd, declared, declared,
    declaredFrom_newline_cons, declared_flatMap_append areExports, declared_defaultStatement noBreak,
    List.append_nil]

/-! ## Exported names -/

/-- A compiled module and the names that it exports itself, each by a declaration at a line start
and none of them twice. The word `export` is no component. -/
structure CompiledModule where
  code : Text
  own : List Text
  areDeclared : own.Sublist (declared code)
  nodup : own.Nodup
  isReadable : (normalize code).2 ≠ some "export".toList

/-- The names that the component module exports: those of the compiled module and those added. -/
def CompiledModule.exportNames (compiled : CompiledModule) (metadata : Metadata) : List Text :=
  compiled.own ++ (metadata.added compiled.code).map Prod.fst

theorem map_fst_exports (metadata : Metadata) : metadata.exports.map Prod.fst =
    ["frontmatter", "getHeadings", "file"].map String.toList ++
      metadata.url.toList.map fun _ => "url".toList := by
  unfold exports
  rw [List.map_append, List.map_map]
  rfl

theorem nodup_exports (metadata : Metadata) : (metadata.exports.map Prod.fst).Nodup := by
  rw [map_fst_exports]
  cases metadata.url with
  | none => exact (by decide : (["frontmatter", "getHeadings", "file"].map String.toList).Nodup)
  | some url =>
    exact (by decide : (["frontmatter", "getHeadings", "file", "url"].map String.toList).Nodup)

/-- Metadata names are words of letters. -/
theorem exported_iff_of_mem_exports {entry : Text × Text} (member : entry ∈ metadata.exports)
    (code : Text) :
    exported entry.1 code = true ↔ ∃ other ∈ declared code, CountsAs entry.1 other := by
  have areWords : ((["frontmatter", "getHeadings", "file", "url"].map String.toList).all
      fun name => name.all isWord && name != [] && name != "export".toList) = true := by
    decide
  have isName : entry.1 ∈ ["frontmatter", "getHeadings", "file", "url"].map String.toList := by
    have isMember := List.mem_map_of_mem (f := Prod.fst) member
    rw [map_fst_exports, List.mem_append] at isMember
    rcases isMember with isNamed | isUrl
    · exact List.mem_append_left ["url".toList] isNamed
    · obtain ⟨-, -, isUrl⟩ := List.mem_map.mp isUrl
      rw [← isUrl]
      decide
  have isWordName := List.all_eq_true.mp areWords entry.1 isName
  simp only [Bool.and_eq_true, bne_iff_ne, List.all_eq_true] at isWordName
  exact exported_iff isWordName.1.1 isWordName.1.2 isWordName.2

namespace CompiledModule

variable {compiled : CompiledModule}

/-- An own name is found, so its metadata is not added. -/
theorem exported_of_mem_own {entry : Text × Text} (member : entry ∈ metadata.exports)
    (isOwn : entry.1 ∈ compiled.own) : exported entry.1 (normalize compiled.code).1 = true := by
  have kept := compiled.areDeclared.trans (sublist_declared_normalize compiled.isReadable)
  rw [exported_iff_of_mem_exports member]
  exact ⟨entry.1, kept.subset isOwn, [], (List.append_nil _).symm, rfl⟩

theorem mem_added_iff {entry : Text × Text} (member : entry ∈ metadata.exports) :
    entry.1 ∈ (metadata.added code).map Prod.fst ↔
      exported entry.1 (normalize code).1 = false := by
  rw [List.mem_map]
  constructor
  · rintro ⟨other, isAdded, sameName⟩
    have lacks := (List.mem_filter.mp isAdded).2
    rwa [sameName, Bool.not_eq_true'] at lacks
  · intro lacks
    exact ⟨entry, List.mem_filter.mpr ⟨member, by rw [lacks]; rfl⟩, rfl⟩

theorem mem_exportNames_iff {entry : Text × Text} (member : entry ∈ metadata.exports) :
    entry.1 ∈ compiled.exportNames metadata ↔ ∀ other ∈ declared (normalize compiled.code).1,
      CountsAs entry.1 other → entry.1 ∈ compiled.own := by
  have isFound := exported_iff_of_mem_exports member (normalize compiled.code).1
  rw [exportNames, List.mem_append, mem_added_iff member, ← Bool.not_eq_true, isFound]
  constructor
  · rintro (isOwn | notFound) other isDeclared counts
    · exact isOwn
    · exact absurd ⟨other, isDeclared, counts⟩ notFound
  · intro areOwn
    by_cases found : ∃ other ∈ declared (normalize compiled.code).1, CountsAs entry.1 other
    · obtain ⟨other, isDeclared, counts⟩ := found
      exact .inl (areOwn other isDeclared counts)
    · exact .inr found

theorem nodup_exportNames (compiled : CompiledModule) (metadata : Metadata) :
    (compiled.exportNames metadata).Nodup := by
  have areExports : ((metadata.added compiled.code).map Prod.fst).Sublist
      (metadata.exports.map Prod.fst) :=
    (List.filter_sublist).map Prod.fst
  refine List.nodup_append.mpr ⟨compiled.nodup, metadata.nodup_exports.sublist areExports, ?_⟩
  rintro name isOwn _ isAdded rfl
  obtain ⟨entry, isEntry, rfl⟩ := List.mem_map.mp isAdded
  obtain ⟨member, lacks⟩ := List.mem_filter.mp isEntry
  rw [exported_of_mem_own member isOwn] at lacks
  cases lacks

/-- The component module is the compiled one without its default export, with statements for the
metadata that it lacks; these declare the added names, and all own declarations stay. No name is
exported twice, and every metadata name is exported once if and only if the compiled module exports
every metadata name for which one of its declared names is taken. -/
theorem exports_once_iff (compiled : CompiledModule) (metadata : Metadata) :
    let normalized := (normalize compiled.code).1
    let added := metadata.added compiled.code
    let names := compiled.exportNames metadata
    metadata.postProcess compiled.code =
        trimEnd normalized ++ "\n\n".toList ++ added.flatMap Prod.snd ++
          defaultStatement ((normalize compiled.code).2.getD contentComponent) ∧
      declared (metadata.postProcess compiled.code) = declared normalized ++ added.map Prod.fst ∧
      compiled.own.Sublist (declared normalized) ∧ (∀ name, names.count name ≤ 1) ∧
      ((∀ entry ∈ metadata.exports, names.count entry.1 = 1) ↔
        ∀ entry ∈ metadata.exports, ∀ other ∈ declared normalized,
          CountsAs entry.1 other → entry.1 ∈ compiled.own) := by
  intro normalized added names
  have nodup : names.Nodup := compiled.nodup_exportNames metadata
  have once (name : Text) : names.count name = 1 ↔ name ∈ names := by
    rw [nodup.count]
    split <;> simp [*]
  refine ⟨wrap_eq, declared_postProcess metadata compiled.code,
    compiled.areDeclared.trans (sublist_declared_normalize compiled.isReadable),
    List.nodup_iff_count_le_one.mp nodup, ?_⟩
  apply forall₂_congr
  intro entry member
  rw [once, mem_exportNames_iff member]

/-- A module that declares the frontmatter itself, and names that go on behind metadata names. -/
def ownSample : CompiledModule where
  code := "export const frontmatter = 0;\n".toList ++ "export let fileName = 1;\n".toList ++
    "export async function urls() \x7b\x7d\n".toList ++ "export default x;\n".toList
  own := ["frontmatter", "fileName", "urls"].map String.toList
  areDeclared := by decide +kernel
  nodup := by decide +kernel
  isReadable := by decide +kernel

/-- The frontmatter is left to the module, and the other metadata are added. -/
theorem exports_once_of_ownSample :
    let metadata : Metadata := ⟨.null, [], "guide.mdx".toList, some "/guide".toList⟩
    ownSample.exportNames metadata =
        ["frontmatter", "fileName", "urls", "getHeadings", "file", "url"].map String.toList ∧
      ∀ entry ∈ metadata.exports, (ownSample.exportNames metadata).count entry.1 = 1 := by
  intro metadata
  refine ⟨by decide +kernel, (exports_once_iff ownSample metadata).2.2.2.2.mpr ?_⟩
  decide +kernel

/-- A module that exports a name with a dollar sign behind a metadata name. -/
def dollarSample : CompiledModule where
  code := "export const file$ = 1;\n".toList ++
    "export default function MDXContent() \x7b\x7d\n".toList
  own := ["file$".toList]
  areDeclared := by decide +kernel
  nodup := by decide +kernel
  isReadable := by decide +kernel

/-- The name is taken for that of the file, which is therefore exported nowhere. -/
theorem not_exports_once_of_dollarSample :
    let metadata : Metadata := ⟨.null, [], "guide.mdx".toList, none⟩
    metadata.postProcess dollarSample.code =
        "export const file$ = 1;\n".toList ++ "function MDXContent() \x7b\x7d\n\n".toList ++
          "export const frontmatter = null;\n".toList ++
          "export function getHeadings() \x7b\n  return [];\n\x7d\n".toList ++
          "export default MDXContent;\n".toList ∧
      dollarSample.exportNames metadata =
        ["file$", "frontmatter", "getHeadings"].map String.toList ∧
      ¬∀ entry ∈ metadata.exports, (dollarSample.exportNames metadata).count entry.1 = 1 := by
  intro metadata
  refine ⟨by decide +kernel, by decide +kernel, ?_⟩
  decide +kernel

end CompiledModule

end MdxBuild.Metadata

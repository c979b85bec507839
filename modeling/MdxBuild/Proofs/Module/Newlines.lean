import MdxBuild.Heading.Assignment
import MdxBuild.Module.Metadata
import MdxBuild.Proofs.Json.Printable
import MdxBuild.Proofs.Text.Part

/-!
# Line breaks of a module

Code without carriage returns stays so on its way to lowering. The ids and the metadata that are put
into it are printed as JSON, where a carriage return is escaped; everything else of the module is
taken over from the code.
-/

namespace MdxBuild

/-! ## Parts of a text -/

namespace Text

variable {text part rest before : Text}

theorem firstAtLineStartFrom?_eq_some {α : Type} {find : Text → Option α} {isStart : Bool}
    {found : α} (finds : firstAtLineStartFrom? find isStart text = some (before, found)) :
    before ⊆ text ∧ ∃ rest, rest ⊆ text ∧ find rest = some found := by
  induction text generalizing isStart before with
  | nil => cases finds
  | cons char others ih =>
    rw [firstAtLineStartFrom?] at finds
    split at finds
    · next here isHere =>
      obtain ⟨rfl, rfl⟩ : [] = before ∧ here = found := by simpa using finds
      refine ⟨List.nil_subset _, char :: others, List.Subset.refl _, ?_⟩
      split at isHere
      · exact isHere
      · cases isHere
    · obtain ⟨⟨early, later⟩, findsLater, same⟩ := Option.map_eq_some_iff.mp finds
      obtain ⟨rfl, rfl⟩ : char :: early = before ∧ later = found := by simpa using same
      obtain ⟨subset, rest, isRest, isFound⟩ := ih findsLater
      exact ⟨List.cons_subset_cons char subset, rest, List.subset_cons_of_subset char isRest,
        isFound⟩

/-- A form at a line start is found in the text, and so is what stands before it. -/
theorem firstAtLineStart?_eq_some {α : Type} {find : Text → Option α} {found : α}
    (finds : firstAtLineStart? find text = some (before, found)) :
    before ⊆ text ∧ ∃ rest, rest ⊆ text ∧ find rest = some found :=
  firstAtLineStartFrom?_eq_some finds

end Text

namespace DefaultExport

open Text

variable {text rest name : Text}

theorem subset_of_name? (found : name? text = some (name, rest)) : name ⊆ text ∧ rest ⊆ text := by
  cases text with
  | nil => cases found
  | cons first others =>
    rw [name?] at found
    split at found
    · obtain ⟨rfl, rfl⟩ := Prod.mk.inj (Option.some.inj found)
      exact ⟨List.cons_subset_cons first (List.takeWhile_subset _),
        List.subset_cons_of_subset first (List.dropWhile_subset _)⟩
    · cases found

theorem subset_of_afterBlanks? (found : afterBlanks? text = some rest) : rest ⊆ text := by
  cases text with
  | nil => cases found
  | cons first others =>
    rw [afterBlanks?] at found
    split at found
    · rw [← Option.some.inj found]
      exact List.subset_cons_of_subset first (List.dropWhile_subset _)
    · cases found

theorem subset_of_afterExportDefault? (found : afterExportDefault? text = some rest) :
    rest ⊆ text := by
  simp only [afterExportDefault?, Option.bind_eq_bind, Option.bind_eq_some_iff] at found
  obtain ⟨behindExport, exports, atDefault, blanks, behindDefault, isDefault, blanksAgain⟩ := found
  calc rest
    _ ⊆ behindDefault := subset_of_afterBlanks? blanksAgain
    _ ⊆ atDefault := subset_of_after? isDefault
    _ ⊆ behindExport := subset_of_afterBlanks? blanks
    _ ⊆ text := subset_of_after? exports

theorem subset_asyncMark (text : Text) :
    (asyncMark text).1 ⊆ text ∧ (asyncMark text).2 ⊆ text := by
  rw [asyncMark]
  split
  · next rest found =>
    obtain ⟨behind, isAsync, blanks⟩ := Option.bind_eq_some_iff.mp found
    split
    · constructor
      · exact List.take_subset _ _
      · exact List.Subset.trans (subset_of_afterBlanks? blanks) (subset_of_after? isAsync)
    · exact ⟨List.nil_subset _, List.Subset.refl _⟩
  · exact ⟨List.nil_subset _, List.Subset.refl _⟩

theorem subset_starMark (text : Text) :
    (starMark text).1 ⊆ text ∧ (starMark text).2 ⊆ text := by
  rw [starMark]
  split
  · next rest found =>
    have dropped : text.dropWhile isBlank ⊆ text := List.dropWhile_subset _
    rw [found, List.cons_subset] at dropped
    constructor
    · apply List.append_subset.mpr
      constructor
      · exact List.takeWhile_subset _
      · exact List.cons_subset.mpr ⟨dropped.1, List.nil_subset _⟩
    · exact dropped.2
  · exact ⟨List.nil_subset _, List.Subset.refl _⟩

/-- The name at the start of a text, or that of the content component. -/
theorem notMem_getD_name? (plain : '\r' ∉ text) :
    '\r' ∉ ((name? text).getD (contentComponent, text)).1 ∧
      '\r' ∉ ((name? text).getD (contentComponent, text)).2 := by
  cases found : name? text with
  | none =>
    have plainDefault : '\r' ∉ contentComponent := by decide
    exact ⟨plainDefault, plain⟩
  | some entry =>
    obtain ⟨inName, inRest⟩ := subset_of_name? found
    exact ⟨fun member => plain (inName member), fun member => plain (inRest member)⟩

/-- The head of a function is made of parts of the text and of words without line breaks. -/
theorem notMem_of_functionHead? {head : FunctionHead} (plain : '\r' ∉ text)
    (found : functionHead? text = some head) :
    '\r' ∉ head.declaration ∧ '\r' ∉ head.name ∧ '\r' ∉ head.rest := by
  simp only [functionHead?, Option.bind_eq_bind, Option.bind_eq_some_iff] at found
  obtain ⟨exported, isExported, afterFunction, isFunction, rest, isRest, same⟩ := found
  obtain ⟨markSubset, afterMarkSubset⟩ := subset_asyncMark exported
  obtain ⟨starSubset, afterStarSubset⟩ := subset_starMark afterFunction
  have plainExported : '\r' ∉ exported := fun member =>
    plain (subset_of_afterExportDefault? isExported member)
  have plainFunction : '\r' ∉ afterFunction := fun member =>
    plainExported (afterMarkSubset (subset_of_after? isFunction member))
  have plainName : '\r' ∉ (starMark afterFunction).2.dropWhile isBlank := fun member =>
    plainFunction (afterStarSubset (List.dropWhile_subset _ member))
  obtain ⟨plainFirst, plainSecond⟩ := notMem_getD_name? plainName
  have plainRest : '\r' ∉ rest := fun member =>
    plainSecond (List.dropWhile_subset _ (subset_of_after? isRest member))
  have plainMark : '\r' ∉ (asyncMark exported).1 := fun member =>
    plainExported (markSubset member)
  have plainStar : '\r' ∉ (starMark afterFunction).1 := fun member =>
    plainFunction (starSubset member)
  rw [← Option.some.inj same]
  simp only [List.mem_append, not_or]
  exact ⟨⟨⟨⟨⟨⟨plainMark, by decide⟩, plainStar⟩, by decide⟩, plainFirst⟩, by decide⟩, plainFirst,
    plainRest⟩

theorem subset_dropOne (char : Char) (text : Text) : dropOne char text ⊆ text := by
  rw [dropOne]
  cases found : after? [char] text with
  | none => exact List.Subset.refl _
  | some rest => exact subset_of_after? found

theorem subset_of_binding? (found : binding? text = some (name, rest)) :
    name ⊆ text ∧ rest ⊆ text := by
  simp only [binding?, Option.bind_eq_bind, Option.bind_eq_some_iff] at found
  obtain ⟨exported, isExported, ⟨first, afterName⟩, isName, same⟩ := found
  obtain ⟨inName, inRest⟩ := subset_of_name? isName
  have inText := subset_of_afterExportDefault? isExported
  obtain ⟨rfl, rfl⟩ := Prod.mk.inj (Option.some.inj same)
  constructor
  · exact List.Subset.trans inName inText
  · apply List.Subset.trans (subset_dropOne _ _)
    apply List.Subset.trans (subset_dropOne _ _)
    apply List.Subset.trans (List.dropWhile_subset _)
    apply List.Subset.trans (subset_dropOne _ _)
    apply List.Subset.trans (List.dropWhile_subset _)
    exact List.Subset.trans inRest inText

/-- The module without its default export has no carriage returns, and neither has the name that it
exported. -/
theorem notMem_normalize {code : Text} (plain : '\r' ∉ code) :
    '\r' ∉ (normalize code).1 ∧ '\r' ∉ (normalize code).2.getD contentComponent := by
  rw [normalize]
  split
  · next before head found =>
    obtain ⟨inBefore, rest, inRest, isHead⟩ := firstAtLineStart?_eq_some found
    obtain ⟨declaration, plainName, plainRest⟩ :=
      notMem_of_functionHead? (fun member => plain (inRest member)) isHead
    have plainBefore : '\r' ∉ before := fun member => plain (inBefore member)
    simp [plainBefore, declaration, plainName, plainRest]
  · split
    · next before name rest found =>
      obtain ⟨inBefore, start, inText, isBinding⟩ := firstAtLineStart?_eq_some found
      obtain ⟨inName, inRest⟩ := subset_of_binding? isBinding
      have plainBefore : '\r' ∉ before := fun member => plain (inBefore member)
      have plainName : '\r' ∉ name := fun member => plain (inText (inName member))
      have plainRest : '\r' ∉ rest := fun member => plain (inText (inRest member))
      simp [plainBefore, plainName, plainRest]
    · have plainDefault : '\r' ∉ contentComponent := by decide
      exact ⟨plain, plainDefault⟩

end DefaultExport

/-! ## Modules -/

namespace Generated

theorem notMem_insertAll {entries : List (Nat × Text)} {start : Nat} {code : Text}
    (plainEntries : ∀ entry ∈ entries, '\r' ∉ entry.2) (plain : '\r' ∉ code) :
    '\r' ∉ insertAll start entries code := by
  induction entries generalizing start code with
  | nil => exact plain
  | cons entry others ih =>
    rw [List.forall_mem_cons] at plainEntries
    have plainBefore : '\r' ∉ code.take (entry.1 - start) := fun member =>
      plain (List.take_subset _ _ member)
    have plainAfter : '\r' ∉ code.drop (entry.1 - start) := fun member =>
      plain (List.drop_subset _ _ member)
    exact List.not_mem_append (List.not_mem_append plainBefore plainEntries.1)
      (ih plainEntries.2 plainAfter)

/-- Code with the ids of headings in it has no carriage returns. -/
theorem notMem_injectIds (headings : List HeadingRecord) {code : Text} (plain : '\r' ∉ code) :
    '\r' ∉ injectIds headings code := by
  apply notMem_insertAll _ plain
  intro entry member
  obtain ⟨slot, -, made⟩ := List.mem_filterMap.mp member
  simp only [Option.bind_eq_bind, Option.bind_eq_some_iff, Option.some.injEq] at made
  obtain ⟨index, -, heading, -, rfl⟩ := made
  apply List.not_mem_append
  · apply List.not_mem_append
    · decide
    · exact (Json.isPrintable_quote _).notMem (by decide)
  · decide

end Generated

namespace Metadata

variable {metadata : Metadata}

theorem notMem_constant {name value : Text} (plainName : '\r' ∉ name) (plainValue : '\r' ∉ value) :
    '\r' ∉ constant name value := by
  refine List.not_mem_append (List.not_mem_append (List.not_mem_append (List.not_mem_append ?_
    plainName) ?_) plainValue) ?_ <;> decide

/-- The metadata exports have no carriage returns. -/
theorem notMem_exports : ∀ entry ∈ metadata.exports, '\r' ∉ entry.2 := by
  intro entry member
  rw [exports, List.mem_append] at member
  rcases member with named | isUrl
  · rcases List.mem_cons.mp named with rfl | later
    · have plainName : '\r' ∉ "frontmatter".toList := by decide
      exact notMem_constant plainName ((Json.isPrintable_render _).notMem (by decide))
    rcases List.mem_cons.mp later with rfl | last
    · apply List.not_mem_append
      · apply List.not_mem_append
        · decide
        · exact (Json.isPrintable_render _).notMem (by decide)
      · decide
    · have plainName : '\r' ∉ "file".toList := by decide
      rw [List.mem_singleton.mp last]
      exact notMem_constant plainName ((Json.isPrintable_quote _).notMem (by decide))
  · obtain ⟨url, -, rfl⟩ := List.mem_map.mp isUrl
    have plainName : '\r' ∉ "url".toList := by decide
    exact notMem_constant plainName ((Json.isPrintable_quote _).notMem (by decide))

/-- The component module of code without carriage returns has none. -/
theorem notMem_postProcess {code : Text} (plain : '\r' ∉ code) :
    '\r' ∉ metadata.postProcess code := by
  obtain ⟨plainCode, plainName⟩ := DefaultExport.notMem_normalize plain
  have plainTrimmed : '\r' ∉ Text.trimEnd (DefaultExport.normalize code).1 := fun member =>
    plainCode (Text.subset_trimEnd _ member)
  have plainExports : '\r' ∉ (metadata.exports.filter fun entry =>
      !exported entry.1 (DefaultExport.normalize code).1).flatMap Prod.snd := by
    intro member
    obtain ⟨entry, isExport, inExport⟩ := List.mem_flatMap.mp member
    exact notMem_exports entry (List.mem_of_mem_filter isExport) inExport
  have isWrapped : metadata.postProcess code =
      metadata.wrap ((DefaultExport.normalize code).2.getD DefaultExport.contentComponent)
        (DefaultExport.normalize code).1 := rfl
  rw [isWrapped, wrap]
  simp only [List.mem_append, not_or]
  exact ⟨⟨⟨⟨⟨plainTrimmed, by decide⟩, plainExports⟩, by decide⟩, plainName⟩, by decide⟩

end Metadata

end MdxBuild

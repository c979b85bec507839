import MdxBuild.Proofs.Directive.Newline
import MdxBuild.Proofs.Import.Newline
import MdxBuild.Proofs.Markdown.Newline
import MdxBuild.Proofs.Route

/-!
# Line breaks of two characters do not matter

The copy of a document with carriage returns has the digest of the document and is expanded as the
document is. It takes the same route too, unless the word `import` and the word `from` have nothing
but two blanks between them, one of them a line break: only with the carriage return there is room
for a clause.
-/

namespace MdxBuild.Route

open Text Import

variable {text : Text} {listed others : List Text}

/-- Imports are looked for in a copy of the text, with emptied lines as they are. -/
theorem returned_scanned {source : Text} (plain : '\r' ∉ source) (ignoreFences : Bool) :
    Returned true (scanned ignoreFences source) (scanned ignoreFences (withReturns source)) := by
  have plainBody : '\r' ∉ Frontmatter.strip source :=
    fun member => plain (Frontmatter.strip_subset source member)
  rw [scanned, scanned, Frontmatter.strip_withReturns]
  split
  · exact returned_blankFences plainBody
  · exact returned_withReturns plainBody true

/-- A listing by more heads leads to the same route if it adds nothing that is not allowed and leaves
the order alone. -/
theorem ofSpecifiers_eq_iff_of_isListing (allowed : AllowList) (isInventory : IsInventory text listed)
    (isListing : IsListing IsReturnedHead text others) :
    ofSpecifiers allowed others = ofSpecifiers allowed listed ↔
      (∀ specifier offset, ImportsAt IsBrokenHead text specifier offset →
        allowed.allows specifier = false →
          specifier ∈ (ofSpecifiers allowed listed).disallowed) ∧
      (ofSpecifiers allowed listed).disallowed.Pairwise (PrecedesBy IsReturnedHead text) := by
  have ordered := isListing.ordered.filter (!allowed.allows ·)
  have mem_iff (specifier : Text) : specifier ∈ others.filter (!allowed.allows ·) ↔
      (∃ offset, ImportsAt IsReturnedHead text specifier offset) ∧
        allowed.allows specifier = false := by
    rw [List.mem_filter, isListing.mem_iff, Bool.not_eq_true']
  rw [ofSpecifiers_eq_iff, disallowed_ofSpecifiers]
  constructor
  · intro same
    rw [← same]
    constructor
    · exact fun specifier offset imports refused =>
        (mem_iff specifier).mpr ⟨⟨offset, importsAt_or_iff.mpr (.inr imports)⟩, refused⟩
    · exact ordered
  · rintro ⟨covered, orderedListed⟩
    apply eq_of_precedesBy (isListing.nodup.filter _) (isInventory.nodup.filter _) _ _ ordered
      orderedListed
    · intro specifier
      rw [mem_iff]
      constructor
      · rintro ⟨⟨offset, imports⟩, refused⟩
        rcases importsAt_or_iff.mp imports with isPlain | isBroken
        · rw [List.mem_filter, isInventory.mem_iff, Bool.not_eq_true']
          exact ⟨⟨offset, isPlain⟩, refused⟩
        · exact covered specifier offset isBroken refused
      · rw [List.mem_filter, isInventory.mem_iff, Bool.not_eq_true']
        rintro ⟨⟨offset, imports⟩, refused⟩
        exact ⟨⟨offset, importsAt_or_iff.mpr (.inl imports)⟩, refused⟩
    · exact fun specifier member => ((mem_iff specifier).mp member).1

/-- The copy of a document without carriage returns, with one in front of each line feed, has the
digest of the document under every fingerprint. Its directives expand to the same components, with
the same report of a change, and to the same code up to line breaks. It takes the same route if and
only if the imports with broken heads, which count in the copy only, name no further module that is
not allowed and come in no other order; in particular it does if there are none of them. -/
theorem newlines_immaterial_iff (source : Text) (plain : '\r' ∉ source) :
    (∀ hash fingerprint, Digest.compute hash (withReturns source) fingerprint =
      Digest.compute hash source fingerprint) ∧
    (∀ registry useBuiltin,
      let copy := expandDirectives registry useBuiltin (withReturns source)
      let expansion := expandDirectives registry useBuiltin source
      copy.usedComponents = expansion.usedComponents ∧ copy.changed = expansion.changed ∧
        unifyNewlines copy.code = unifyNewlines expansion.code) ∧
    ∀ allowed ignoreFences,
      let text := scanned ignoreFences source
      let route := classify allowed ignoreFences source
      (classify allowed ignoreFences (withReturns source) = route ↔
        (∀ specifier offset, ImportsAt IsBrokenHead text specifier offset →
          allowed.allows specifier = false → specifier ∈ route.disallowed) ∧
        route.disallowed.Pairwise (PrecedesBy IsReturnedHead text)) ∧
      ((∀ specifier offset, ¬ImportsAt IsBrokenHead text specifier offset) →
        classify allowed ignoreFences (withReturns source) = route) := by
  constructor
  · intro hash fingerprint
    rw [Digest.compute, Digest.preimage, unifyNewlines_withReturns plain, Digest.compute,
      Digest.preimage, unifyNewlines_of_notMem plain]
  constructor
  · exact fun registry useBuiltin => Expansion.expandDirectives_withReturns registry useBuiltin plain
  · intro allowed ignoreFences text route
    have isInventory : IsInventory text (specifiers text) := isInventory_specifiers text
    have isListing := isListing_specifiers_returned (returned_scanned plain ignoreFences)
    have same_iff := ofSpecifiers_eq_iff_of_isListing allowed isInventory isListing
    constructor
    · exact same_iff
    · intro noneBroken
      apply same_iff.mpr
      constructor
      · exact fun specifier offset imports => absurd imports (noneBroken specifier offset)
      · have isDisallowed := disallowed_ofSpecifiers allowed (specifiers text)
        have ordered := isInventory.ordered.filter (!allowed.allows ·)
        rw [isDisallowed]
        apply ordered.imp
        intro first second precedes offset imports
        rcases precedes offset ((importsAt_or_iff.mp imports).resolve_right (noneBroken _ _)) with
          ⟨earlier, importsFirst, isEarlier⟩
        exact ⟨earlier, importsAt_or_iff.mpr (.inl importsFirst), isEarlier⟩

/-- A document with an import statement over two lines, a directive block and a fence. -/
def Trial.brokenClause : Text :=
  "import a,\n  b from 'y'\n\n:::note\nText\n:::\n```\nimport\n\nfrom 'z'\n```\n".toList

/-- The line break inside the clause is one of two characters in the copy. The fence hides a broken
head. -/
theorem newlines_immaterial_of_brokenClause :
    '\r' ∉ Trial.brokenClause ∧
    classify ⟨[]⟩ true (withReturns Trial.brokenClause) = .fallback .noAllowList ["y".toList] ∧
    (expandDirectives {} true (withReturns Trial.brokenClause)).usedComponents =
      ["Aside".toList] := by
  have plain : '\r' ∉ Trial.brokenClause := by decide +kernel
  rcases newlines_immaterial_iff Trial.brokenClause plain with ⟨-, expands, routes⟩
  have noneFound : appearances isBrokenHead (scanned true Trial.brokenClause) = [] := by
    decide +kernel
  have isRoute : classify ⟨[]⟩ true Trial.brokenClause = .fallback .noAllowList ["y".toList] := by
    decide +kernel
  have isUsed : (expandDirectives {} true Trial.brokenClause).usedComponents =
      ["Aside".toList] := by
    decide +kernel
  refine ⟨plain, ?_, (expands {} true).1.trans isUsed⟩
  exact ((routes ⟨[]⟩ true).2 (not_importsAt_of_appearances decides_isBrokenHead noneFound)).trans
    isRoute

/-- A document in which only two line feeds stand between the words `import` and `from`. -/
def Trial.brokenHead : Text :=
  "import\n\nfrom 'y'\n".toList

/-- In the copy there is room for a clause between the words. -/
theorem newlines_material_of_brokenHead :
    '\r' ∉ Trial.brokenHead ∧
    classify ⟨[]⟩ true Trial.brokenHead = .fast ∧
    classify ⟨[]⟩ true (withReturns Trial.brokenHead) =
      .fallback .noAllowList ["y".toList] := by
  decide +kernel

end MdxBuild.Route

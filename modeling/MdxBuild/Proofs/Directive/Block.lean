import MdxBuild.Proofs.Dictionary
import MdxBuild.Proofs.Directive.Expansion
import MdxBuild.Proofs.Text.Line
import MdxBuild.Proofs.Text.Part

/-!
# Tags on one line

What a tag spells out stems from its opening line and from the mapping of the directive. If no line
feed stands in the mappings of a registry, none stands in a tag.
-/

namespace MdxBuild

open Text

/-- No line feed stands in what the tags of a mapping spell out. -/
structure DirectiveMapping.IsOneLine (mapping : DirectiveMapping) : Prop where
  component : '\n' ∉ mapping.component
  propName : ∀ prop ∈ mapping.injectProps, '\n' ∉ prop.name
  literal : ∀ prop ∈ mapping.injectProps, ∀ value, prop.source = .literal value → '\n' ∉ value

/-- No line feed stands in what the tags of a registry spell out. -/
def Registry.IsOneLine (registry : Registry) : Prop :=
  ∀ mapping ∈ registry.directives.values, mapping.IsOneLine

/-- The tags of a block stand on one line each, behind a structural head. -/
structure Block.IsOneLine (block : Block) : Prop where
  linePrefix : ∀ char ∈ block.linePrefix, isLinePrefix char = true
  openingTag : '\n' ∉ block.openingTag
  closingTag : '\n' ∉ block.closingTag

variable {registry : Registry} {text part : Text} {block : Block} {opening : OpeningLine}

/-! ## Attributes -/

namespace Attribute

theorem subset_of_mem_tokensFrom {skip : Nat} {token : Token} (member : token ∈ tokensFrom skip text) :
    token.text ⊆ text := by
  induction text generalizing skip with
  | nil => cases skip <;> cases member
  | cons char rest ih =>
    have later {skip : Nat} (member : token ∈ tokensFrom skip rest) : token.text ⊆ char :: rest :=
      List.subset_cons_of_subset char (ih member)
    cases skip with
    | succ skip => exact later member
    | zero =>
      rw [tokensFrom] at member
      split at member
      · rcases List.mem_cons.mp member with rfl | member
        · exact List.take_subset _ _
        · exact later member
      · exact later member

theorem newline_notMem_passedOn (noBreak : '\n' ∉ text) : '\n' ∉ passedOn text := by
  intro member
  rcases mem_of_mem_intercalate member with inSeparator | ⟨part, isPart, inPart⟩
  · exact absurd inSeparator (by decide)
  · obtain ⟨token, isToken, rfl⟩ := List.mem_map.mp isPart
    exact noBreak (subset_of_mem_tokensFrom (List.mem_of_mem_filter isToken) inPart)

theorem newline_notMem_escape (noBreak : '\n' ∉ text) : '\n' ∉ escape text := by
  intro member
  obtain ⟨char, isChar, inEscape⟩ := List.mem_flatMap.mp member
  split at inEscape
  · exact absurd inEscape (by decide)
  · split at inEscape
    · exact absurd inEscape (by decide)
    · exact noBreak (List.mem_singleton.mp inEscape ▸ isChar)

theorem newline_notMem_quoted {name value : Text} (noBreakName : '\n' ∉ name)
    (noBreak : '\n' ∉ value) : '\n' ∉ quoted name value := by
  simp [quoted, noBreakName, newline_notMem_escape noBreak]

end Attribute

/-! ## Opening lines -/

namespace OpeningLine

theorem subset_splitTitle (text : Text) :
    (splitTitle text).2 ⊆ text ∧ ∀ title, (splitTitle text).1 = some title → title ⊆ text := by
  cases text with
  | nil => exact ⟨List.Subset.refl _, fun title isTitle => by cases isTitle⟩
  | cons char rest =>
    rw [splitTitle]
    split
    · split
      · exact ⟨List.Subset.refl _, fun title isTitle => by cases isTitle⟩
      · next close after isAfter =>
        constructor
        · have isRest := List.dropWhile_subset (· != ']') (l := rest)
          rw [isAfter] at isRest
          exact List.subset_cons_of_subset char (List.subset_of_cons_subset isRest)
        · rintro _ ⟨⟩
          exact List.subset_cons_of_subset char (List.takeWhile_subset _)
    · exact ⟨List.Subset.refl _, fun title isTitle => by cases isTitle⟩

theorem subset_unbrace (text : Text) : unbrace text ⊆ text := by
  rw [unbrace]
  split
  · exact List.Subset.refl _
  · next inner isInner =>
    split
    · exact List.Subset.refl _
    · next attributes isAttributes =>
      rw [List.isSuffixOf?_eq_some_iff_append_eq] at isAttributes
      refine List.Subset.trans ?_ (subset_of_after? isInner)
      rw [← isAttributes]
      exact List.subset_append_left _ _

/-- The parts of an opening line stand in it, and its name holds no line feed anyway. -/
theorem parts_of_read? (isRead : read? text = some opening) :
    '\n' ∉ opening.name ∧ (∀ title, opening.title = some title → title ⊆ text) ∧
      opening.trailing ⊆ text := by
  rw [read?] at isRead
  split at isRead
  · cases isRead
  · next afterMarker isMarker =>
    split at isRead
    · cases isRead
    · next first rest =>
      split at isRead
      · obtain rfl := Option.some.inj isRead
        have inText := subset_of_after? isMarker
        have behindName := List.Subset.trans (List.dropWhile_subset isNameChar) inText
        obtain ⟨isTrailing, isTitle⟩ := subset_splitTitle ((first :: rest).dropWhile isNameChar)
        refine ⟨fun member => ?_, fun title found => ?_, List.Subset.trans isTrailing behindName⟩
        · exact absurd (List.mem_takeWhile_imp member) (by decide)
        · exact List.Subset.trans (isTitle title found) behindName
      · cases isRead

end OpeningLine

/-! ## Blocks -/

/-- The built-in mappings stand on one line, so a registry may be replaced by them. -/
theorem Registry.IsOneLine.withBuiltin (oneLine : registry.IsOneLine) (useBuiltin : Bool) :
    (registry.withBuiltin useBuiltin).IsOneLine := by
  rw [Registry.withBuiltin]
  split
  · have isBuiltin : ∀ mapping ∈
        (Dictionary.ofList (builtinNames.map fun name => (name, builtinMapping name))).values,
        ∃ name ∈ builtinNames, mapping = builtinMapping name := by
      decide +kernel
    intro mapping isMapping
    obtain ⟨name, -, rfl⟩ := isBuiltin mapping isMapping
    constructor
    · show '\n' ∉ asideComponent
      decide
    · intro prop isProp
      obtain rfl := List.mem_singleton.mp isProp
      show '\n' ∉ "type".toList
      decide
    · intro prop isProp value isLiteral
      obtain rfl := List.mem_singleton.mp isProp
      cases isLiteral
  · exact oneLine

namespace Block

/-- Names and values of the attributes that a block spells out hold no line feed, if the name and
the title of the block and its mapping hold none. -/
theorem newline_notMem_pairs (oneLine : block.mapping.IsOneLine) (noBreakName : '\n' ∉ block.name)
    (noBreakTitle : ∀ title, block.title = some title → '\n' ∉ title) :
    ∀ pair ∈ block.pairs, '\n' ∉ pair.1 ∧ '\n' ∉ pair.2 := by
  have injected : ∀ pair ∈ block.injected, '\n' ∉ pair.1 ∧ '\n' ∉ pair.2 := by
    intro pair member
    obtain ⟨prop, isProp, isPair⟩ := List.mem_filterMap.mp member
    obtain ⟨value, isValue, rfl⟩ := Option.map_eq_some_iff.mp isPair
    refine ⟨oneLine.propName prop isProp, ?_⟩
    cases isSource : prop.source with
    | directiveName =>
      rw [isSource] at isValue
      obtain rfl := Option.some.inj isValue
      exact noBreakName
    | bracketTitle =>
      rw [isSource] at isValue
      exact noBreakTitle value isValue
    | literal text =>
      rw [isSource] at isValue
      obtain rfl := Option.some.inj isValue
      exact oneLine.literal prop isProp _ isSource
  have ownTitle : ∀ pair ∈ block.ownTitle, '\n' ∉ pair.1 ∧ '\n' ∉ pair.2 := by
    intro pair member
    rw [Block.ownTitle] at member
    split at member
    · cases member
    · next title isTitle =>
      split at member
      · cases member
      · obtain rfl := List.mem_singleton.mp member
        have isPlain : '\n' ∉ "title".toList := by decide
        exact ⟨isPlain, noBreakTitle title isTitle⟩
  have provenance : '\n' ∉ provenanceAttribute := by decide
  intro pair member
  rw [pairs, List.mem_cons, List.mem_append] at member
  rcases member with rfl | member | member
  · exact ⟨provenance, noBreakName⟩
  · exact injected pair member
  · exact ownTitle pair member

theorem newline_notMem_attributeText
    (pairs : ∀ pair ∈ block.pairs, '\n' ∉ pair.1 ∧ '\n' ∉ pair.2)
    (attributes : '\n' ∉ block.attributes) : '\n' ∉ block.attributeText := by
  intro member
  rcases mem_of_mem_intercalate member with inSeparator | ⟨part, isPart, inPart⟩
  · exact absurd inSeparator (by decide)
  · rcases List.mem_append.mp isPart with isPair | isAttributes
    · obtain ⟨pair, member, rfl⟩ := List.mem_map.mp isPair
      exact Attribute.newline_notMem_quoted (pairs pair member).1 (pairs pair member).2 inPart
    · split at isAttributes
      · cases isAttributes
      · obtain rfl := List.mem_singleton.mp isAttributes
        exact attributes inPart

/-- The block that a line opens has its tags on one line. -/
theorem isOneLine_of_blockOf? {line : Text} (oneLine : registry.IsOneLine)
    (noBreak : '\n' ∉ content line) (isBlock : Expansion.blockOf? registry line = some block) :
    block.IsOneLine := by
  simp only [Expansion.blockOf?, open?, Option.bind_eq_bind, Option.bind_eq_some_iff,
    Option.some.injEq] at isBlock
  obtain ⟨opening, isRead, mapping, isMapping, rfl⟩ := isBlock
  have inLine : trimEnd (lineRemainder (content line)) ⊆ content line :=
    List.Subset.trans (subset_trimEnd _) (List.dropWhile_subset _)
  obtain ⟨noBreakName, isTitle, isTrailing⟩ := OpeningLine.parts_of_read? isRead
  have mappingOneLine := oneLine mapping (Dictionary.mem_values.mpr ⟨_, isMapping⟩)
  have noBreakTitle : ∀ title, opening.title.map trim = some title → '\n' ∉ title := by
    intro title found member
    obtain ⟨inBrackets, isInBrackets, rfl⟩ := Option.map_eq_some_iff.mp found
    exact noBreak (inLine (isTitle _ isInBrackets (subset_trim _ member)))
  have noBreakAttributes : '\n' ∉ OpeningLine.unbrace (trim opening.trailing) := fun member =>
    noBreak (inLine (isTrailing (subset_trim _ (OpeningLine.subset_unbrace _ member))))
  have noBreakComponent : '\n' ∉ mapping.component := mappingOneLine.component
  constructor
  · exact fun char member => List.mem_takeWhile_imp member
  · simp only [openingTag, component, List.mem_append, not_or]
    refine ⟨⟨⟨⟨by decide, noBreakComponent⟩, by decide⟩, ?_⟩, by decide⟩
    apply newline_notMem_attributeText
    · exact newline_notMem_pairs mappingOneLine (newline_notMem_asciiLower noBreakName) noBreakTitle
    · exact Attribute.newline_notMem_passedOn noBreakAttributes
  · simp [closingTag, component, noBreakComponent]

end Block

end MdxBuild

import MdxBuild.Proofs.Directive.Expansion
import MdxBuild.Proofs.Text.Part

/-!
# Attributes read back

The opening tag of a directive spells out attributes whose values are taken from the bracket title
and from the mapping, and may hold any character. Whoever reads a value up to the next double quote
and decodes the two entities gets back the attributes as they were meant: no value ends before its
closing quote, so none can smuggle further attributes into the tag.
-/

namespace MdxBuild

open Text

namespace Attribute

/-! ## Entities -/

/-- The text that an attribute value stands for. The entities of the ampersand and of the double
quote are decoded from left to right, any other character stands for itself. -/
def unescape : Text → Text
  | '&' :: 'a' :: 'm' :: 'p' :: ';' :: rest => '&' :: unescape rest
  | '&' :: 'q' :: 'u' :: 'o' :: 't' :: ';' :: rest => '"' :: unescape rest
  | char :: rest => char :: unescape rest
  | [] => []

variable {name value text rest : Text} {char : Char} {pairs : List (Text × Text)}

theorem unescape_cons_of_ne (notAmpersand : char ≠ '&') (rest : Text) :
    unescape (char :: rest) = char :: unescape rest := by
  conv_lhs => unfold unescape
  split <;> simp_all

/-- Decoding undoes escaping. -/
theorem unescape_escape (value : Text) : unescape (escape value) = value := by
  induction value with
  | nil => rfl
  | cons char rest ih =>
    rw [escape, List.flatMap_cons, ← escape]
    by_cases isAmpersand : char = '&'
    · subst isAmpersand
      show '&' :: unescape (escape rest) = '&' :: rest
      rw [ih]
    · rw [if_neg isAmpersand]
      by_cases isQuote : char = '"'
      · subst isQuote
        show '"' :: unescape (escape rest) = '"' :: rest
        rw [ih]
      · rw [if_neg isQuote, List.singleton_append, unescape_cons_of_ne isAmpersand, ih]

/-- No double quote stands in an escaped value. -/
theorem quote_notMem_escape (value : Text) : '"' ∉ escape value := by
  intro member
  obtain ⟨char, -, inEscape⟩ := List.mem_flatMap.mp member
  split at inEscape
  · exact absurd inEscape (by decide)
  · next notAmpersand =>
    split at inEscape
    · exact absurd inEscape (by decide)
    · next notQuote => exact notQuote (List.mem_singleton.mp inEscape).symm

theorem replaceFrom_singleton (replacement text : Text) :
    replaceFrom [char] replacement 0 text =
      text.flatMap fun other => if other = char then replacement else [other] := by
  induction text with
  | nil => rfl
  | cons other rest ih =>
    rw [replaceFrom, List.flatMap_cons]
    by_cases same : other = char
    · subst same
      simp [ih]
    · have differs : ¬([char] : Text).isPrefixOf (other :: rest) = true := fun isPrefix =>
        same (List.cons_prefix_cons.mp (List.isPrefixOf_iff_prefix.mp isPrefix)).1.symm
      rw [if_neg differs, if_neg same, ih, List.singleton_append]

/-- Escaping is two replacements, of the ampersands first: the ampersands of the entities that stand
for double quotes are added behind that. -/
theorem escape_eq_replaceAll (value : Text) :
    escape value = replaceAll ['"'] "&quot;".toList (replaceAll ['&'] "&amp;".toList value) := by
  simp only [replaceAll, List.isEmpty_cons, Bool.false_eq_true, if_false, replaceFrom_singleton,
    List.flatMap_assoc]
  apply List.flatMap_congr
  intro char _
  by_cases isAmpersand : char = '&'
  · subst isAmpersand
    decide
  · rw [if_neg isAmpersand, if_neg isAmpersand, List.flatMap_singleton]

/-! ## Pairs -/

/-- A character of an attribute's name: neither blank nor a quote nor an equals sign. -/
def isNameChar (char : Char) : Bool :=
  isBareChar char && char != '='

/-- Reads a space, a name, an equals sign and a value between double quotes, which is decoded, and
gives what follows. -/
def readPair? (text : Text) : Option ((Text × Text) × Text) := do
  let fromName ← after? [' '] text
  let fromValue ← after? "=\"".toList (fromName.dropWhile isNameChar)
  let rest ← after? ['"'] (fromValue.dropWhile (· != '"'))
  some ((fromName.takeWhile isNameChar, unescape (fromValue.takeWhile (· != '"'))), rest)

/-- Reads so many pairs one after the other, and gives what follows the last one. -/
def readPairs? : (count : Nat) → Text → Option (List (Text × Text) × Text)
  | 0, text => some ([], text)
  | count + 1, text => do
    let (pair, more) ← readPair? text
    let (pairs, rest) ← readPairs? count more
    some (pair :: pairs, rest)

/-- The name of an attribute can be told from what follows it. -/
def IsPlainName (name : Text) : Prop :=
  ∀ char ∈ name, isNameChar char = true

/-- An attribute that the tag spells out is read as it was meant, whatever follows it. -/
theorem readPair?_quoted (plain : IsPlainName name) (value rest : Text) :
    readPair? (' ' :: (quoted name value ++ rest)) = some ((name, value), rest) := by
  have isName : quoted name value ++ rest = name ++ '=' :: '"' :: (escape value ++ '"' :: rest) := by
    simp [quoted]
  have inValue : ∀ char ∈ escape value, (char != '"') = true := fun char member =>
    bne_iff_ne.mpr fun isQuote => quote_notMem_escape value (isQuote ▸ member)
  have isSpace : after? [' '] (' ' :: (quoted name value ++ rest)) =
      some (name ++ '=' :: '"' :: (escape value ++ '"' :: rest)) :=
    after?_eq_some_iff.mpr (by rw [isName, List.singleton_append])
  have isSign : after? "=\"".toList ('=' :: '"' :: (escape value ++ '"' :: rest)) =
      some (escape value ++ '"' :: rest) :=
    after?_eq_some_iff.mpr rfl
  have isQuote : after? ['"'] ('"' :: rest) = some rest :=
    after?_eq_some_iff.mpr rfl
  simp only [readPair?, Option.bind_eq_bind, isSpace, Option.bind_some,
    takeWhile_append_cons plain (by decide : isNameChar '=' = false),
    dropWhile_append_cons plain (by decide : isNameChar '=' = false), isSign,
    takeWhile_append_cons inValue (by decide : ('"' != '"') = false),
    dropWhile_append_cons inValue (by decide : ('"' != '"') = false), isQuote, unescape_escape]

theorem readPairs?_quoted (plain : ∀ pair ∈ pairs, IsPlainName pair.1) (rest : Text) :
    readPairs? pairs.length (pairs.flatMap (fun pair => ' ' :: quoted pair.1 pair.2) ++ rest) =
      some (pairs, rest) := by
  induction pairs with
  | nil => rfl
  | cons pair others ih =>
    obtain ⟨isPlain, othersPlain⟩ := List.forall_mem_cons.mp plain
    rw [List.length_cons, readPairs?, List.flatMap_cons, List.append_assoc, List.cons_append,
      readPair?_quoted isPlain]
    simp only [Option.bind_eq_bind, Option.bind_some, ih othersPlain]

end Attribute

/-! ## The opening tag -/

/-- A separator stands in front of every part behind the first. -/
theorem Text.intercalate_cons (separator part : Text) (others : List Text) :
    separator.intercalate (part :: others) =
      part ++ others.flatMap fun other => separator ++ other := by
  induction others generalizing part with
  | nil => simp
  | cons next others ih =>
    rw [List.intercalate_cons_cons, ih next, List.flatMap_cons]
    simp

namespace OpeningLine

/-- The value that an opening line gives to a prop, if any. -/
def valueOf? (opening : OpeningLine) : PropSource → Option Text
  | .directiveName => some (asciiLower opening.name)
  | .bracketTitle => opening.title.map trim
  | .literal value => some value

/-- The props of a mapping that have a value, in the order of the mapping. -/
def injected (opening : OpeningLine) (mapping : DirectiveMapping) : List (Text × Text) :=
  mapping.injectProps.filterMap fun prop =>
    (opening.valueOf? prop.source).map fun value => (prop.name, value)

/-- The trimmed bracket title, if there is one and the mapping gives no title a value. -/
def ownTitle (opening : OpeningLine) (mapping : DirectiveMapping) : List (Text × Text) :=
  if "title".toList ∈ (opening.injected mapping).map Prod.fst then []
  else (opening.title.map fun title => ("title".toList, trim title)).toList

/-- The attributes that the tag of an opening line has before those that the line itself writes. -/
def spelledOut (opening : OpeningLine) (mapping : DirectiveMapping) : List (Text × Text) :=
  (Block.provenanceAttribute, asciiLower opening.name) ::
    (opening.injected mapping ++ opening.ownTitle mapping)

/-- The attributes that an opening line writes itself and that are passed on. -/
def passedOn (opening : OpeningLine) : Text :=
  Attribute.passedOn (unbrace (trim opening.trailing))

theorem isPlainName_of_mem_spelledOut (opening : OpeningLine) {mapping : DirectiveMapping}
    (plain : ∀ prop ∈ mapping.injectProps, Attribute.IsPlainName prop.name) :
    ∀ pair ∈ opening.spelledOut mapping, Attribute.IsPlainName pair.1 := by
  have provenance : Attribute.IsPlainName Block.provenanceAttribute :=
    List.all_eq_true.mp (by decide)
  have title : Attribute.IsPlainName "title".toList := List.all_eq_true.mp (by decide)
  intro pair member
  rw [spelledOut, List.mem_cons, List.mem_append] at member
  rcases member with rfl | isInjected | isOwn
  · exact provenance
  · obtain ⟨prop, isProp, isPair⟩ := List.mem_filterMap.mp isInjected
    obtain ⟨value, -, rfl⟩ := Option.map_eq_some_iff.mp isPair
    exact plain prop isProp
  · rw [ownTitle] at isOwn
    split at isOwn
    · cases isOwn
    · obtain ⟨value, -, rfl⟩ := Option.map_eq_some_iff.mp (Option.mem_toList.mp isOwn)
      exact title

end OpeningLine

namespace Block

variable {registry : Registry} {line newline : Text} {opening : OpeningLine}
  {mapping : DirectiveMapping} {block : Block}

/-- In the tag, a space stands in front of every attribute. -/
theorem openingTag_eq (block : Block) :
    block.openingTag = '<' :: (block.component ++
      (block.pairs.flatMap (fun pair => ' ' :: Attribute.quoted pair.1 pair.2) ++
        ((if block.attributes = [] then [] else ' ' :: block.attributes) ++ ['>']))) := by
  simp only [openingTag, attributeText, pairs, List.map_cons, List.cons_append,
    Text.intercalate_cons, List.flatMap_append, List.flatMap_map]
  by_cases isEmpty : block.attributes = [] <;> simp [isEmpty]

/-- The attributes of a block in terms of the opening line and of the mapping. -/
theorem pairs_eq (isName : block.name = asciiLower opening.name)
    (isTitle : block.title = opening.title.map trim) :
    block.pairs = opening.spelledOut block.mapping := by
  have isValue (source : PropSource) : block.propValue? source = opening.valueOf? source := by
    cases source with
    | directiveName => exact congrArg some isName
    | bracketTitle => exact isTitle
    | literal value => rfl
  have isInjected : block.injected = opening.injected block.mapping := by
    simp only [injected, OpeningLine.injected, isValue]
  have isMember : (block.injected.any fun pair => pair.1 == "title".toList) = true ↔
      "title".toList ∈ (opening.injected block.mapping).map Prod.fst := by
    simp [isInjected]
  have isOwn : block.ownTitle = opening.ownTitle block.mapping := by
    rw [ownTitle, OpeningLine.ownTitle, isTitle]
    cases opening.title with
    | none => simp
    | some title => simp only [Option.map_some, Option.toList_some, isMember]
  rw [pairs, OpeningLine.spelledOut, isName, isInjected, isOwn]

end Block

namespace Expansion

variable {registry : Registry} {line : Text} {opening : OpeningLine} {mapping : DirectiveMapping}

/-- The block of a recognized opening line. -/
theorem blockOf?_of_read?
    (isRead : OpeningLine.read? (trimEnd (lineRemainder (content line))) = some opening)
    (isMapping : registry.directive? (asciiLower opening.name) = some mapping) :
    blockOf? registry line = some {
      name := asciiLower opening.name
      title := opening.title.map trim
      attributes := opening.passedOn
      linePrefix := linePrefix (content line)
      mapping
      slots := registry.slotsOf mapping.component } := by
  rw [blockOf?, Block.open?, isRead, Option.bind_eq_bind, Option.bind_some, isMapping,
    Option.bind_eq_bind, Option.bind_some]
  rfl

/-- The reader takes the tag of a recognized opening line for what it was meant to be. Behind the
name of the component it finds the name of the directive, the props that have a value and the title
that stands for itself, each as the opening line and the mapping give it, and no other attribute
than those that the opening line writes itself. -/
theorem readPairs?_openingMarkup
    (isRead : OpeningLine.read? (trimEnd (lineRemainder (content line))) = some opening)
    (isMapping : registry.directive? (asciiLower opening.name) = some mapping)
    (plain : ∀ prop ∈ mapping.injectProps, Attribute.IsPlainName prop.name) (newline : Text) :
    ∃ block tag below, blockOf? registry line = some block ∧
      block.openingMarkup newline =
        linePrefix (content line) ++ '<' :: (mapping.component ++ tag) ∧
      Attribute.readPairs? (opening.spelledOut mapping).length tag =
        some (opening.spelledOut mapping,
          (if opening.passedOn = [] then [] else ' ' :: opening.passedOn) ++ '>' :: below) ∧
      below = match registry.slotsOf mapping.component with
        | .markdown => newline ++ trimEnd (linePrefix (content line))
        | .raw => [] := by
  have isPlain := opening.isPlainName_of_mem_spelledOut plain
  refine ⟨_, _, _, blockOf?_of_read? isRead isMapping, ?_, Attribute.readPairs?_quoted isPlain _, rfl⟩
  rw [Block.openingMarkup, Block.openingTag_eq, Block.pairs_eq rfl rfl]
  cases registry.slotsOf mapping.component <;> simp [Block.component]

/-- The mapping of one directive. Its literal tries to end the attribute that it stands in. -/
def Trial.quoting : DirectiveMapping :=
  ⟨"note".toList, "Aside".toList,
    [⟨"kind".toList, .literal "a\" b=\"&quot;".toList⟩, ⟨"label".toList, .bracketTitle⟩]⟩

/-- An opening line in a quote, with quotes and an ampersand in the bracket title. -/
def Trial.quotedTitle : Text :=
  "> :::NOTE[ x\" id=\"y\" &amp; ]\x7btitle=\"t\" class=\"c\"\x7d\n".toList

/-- The same line cut into its parts. -/
def Trial.quotedOpening : OpeningLine :=
  ⟨"NOTE".toList, some " x\" id=\"y\" &amp; ".toList, "\x7btitle=\"t\" class=\"c\"\x7d".toList⟩

/-- Title and literal are read as they were written, and one attribute is passed on. -/
theorem readPairs?_of_quotedTitle :
    let registry := Registry.merge [⟨"trial".toList, [], [Trial.quoting]⟩]
    let spelledOut := [("data-directive", "note"), ("kind", "a\" b=\"&quot;"),
      ("label", "x\" id=\"y\" &amp;"), ("title", "x\" id=\"y\" &amp;")].map fun pair =>
        (pair.1.toList, pair.2.toList)
    ∃ block tag, blockOf? registry Trial.quotedTitle = some block ∧
      block.openingMarkup ['\n'] = "> ".toList ++ '<' :: ("Aside".toList ++ tag) ∧
      Attribute.readPairs? 4 tag = some (spelledOut, " class=\"c\">\n>".toList) := by
  intro registry spelledOut
  have isRead : OpeningLine.read? (trimEnd (lineRemainder (content Trial.quotedTitle))) =
      some Trial.quotedOpening := by
    decide +kernel
  have isMapping : registry.directive? (asciiLower Trial.quotedOpening.name) =
      some Trial.quoting := by
    decide +kernel
  have areNames : (Trial.quoting.injectProps.all fun prop =>
      prop.name.all Attribute.isNameChar) = true := by
    decide
  have plain : ∀ prop ∈ Trial.quoting.injectProps, Attribute.IsPlainName prop.name :=
    fun prop member => List.all_eq_true.mp (List.all_eq_true.mp areNames prop member)
  have isSpelledOut : Trial.quotedOpening.spelledOut Trial.quoting = spelledOut := by
    decide +kernel
  have isPassedOn : Trial.quotedOpening.passedOn = "class=\"c\"".toList := by
    decide +kernel
  have isHead : linePrefix (content Trial.quotedTitle) = "> ".toList := by
    decide +kernel
  obtain ⟨block, tag, below, isBlock, isMarkup, isPairs, isBelow⟩ :=
    readPairs?_openingMarkup isRead isMapping plain ['\n']
  rw [isHead] at isMarkup isBelow
  rw [isSpelledOut, isPassedOn, isBelow] at isPairs
  exact ⟨block, tag, isBlock, isMarkup, isPairs⟩

end Expansion

end MdxBuild

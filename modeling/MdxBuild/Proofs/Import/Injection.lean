import MdxBuild.Proofs.Import.Addition
import MdxBuild.Proofs.Import.Clause
import MdxBuild.Proofs.Markdown.Frontmatter

/-!
# Injected imports are read back

Injection puts one statement a line between the frontmatter and the body. Neither of them is read
together with the statements, so the bindings of the result are those of the code and what the added
statements bind. These are the components that the code needs, provided that the names can stand in a
clause; then a second injection adds nothing.
-/

namespace MdxBuild.Import

open Text

variable {registry : Registry} {builtinActive : Bool} {fileExtension name code newline rest : Text}
  {used names : List Text} {addition : Addition} {added : List Addition}

/-! ## The texts of additions -/

namespace Addition

/-- The clause of the statement. -/
def clause : Addition → Text
  | .ownModule component => component.name
  | .builtin => Registry.asideComponent
  | .grouped _ names => '{' :: (listed names ++ ['}'])

/-- What stands behind the opening quote of the statement. -/
def behind (fileExtension : Text) : Addition → Text
  | .ownModule component => trimEndBy (· = '/') component.modulePath ++ ['/'] ++ component.name ++
    fileExtension ++ "';".toList
  | .builtin => "virtual:fallback-components/Aside';".toList
  | .grouped modulePath _ => modulePath ++ "';".toList

theorem render_eq (fileExtension : Text) (addition : Addition) :
    addition.render fileExtension = "import ".toList ++ (addition.clause ++ (" from '".toList ++
      addition.behind fileExtension)) := by
  cases addition with
  | ownModule component =>
    unfold render defaultStatement clause behind
    simp only [List.append_assoc]
  | builtin =>
    change builtinAside = _ ++ (Registry.asideComponent ++ (_ ++ behind [] builtin))
    decide
  | grouped modulePath names =>
    have opens : "import \x7b ".toList = "import ".toList ++ ['{', ' '] := by decide
    have closes : " \x7d from '".toList = [' ', '}'] ++ " from '".toList := by decide
    unfold render namedStatement clause behind listed
    rw [opens, closes]
    simp only [List.append_assoc, List.cons_append, List.nil_append]

/-- The line of the statement. -/
def line (fileExtension newline : Text) (addition : Addition) : Text :=
  addition.render fileExtension ++ newline

/-- The statement binds its names if these can stand in a clause. -/
theorem bindings_line (nonempty : addition.names ≠ [])
    (readable : ∀ name ∈ addition.names, IsReadable name)
    (isLine : lines (addition.line fileExtension newline) = [addition.line fileExtension newline]) :
    bindings (addition.line fileExtension newline) = addition.names := by
  have isText : addition.line fileExtension newline = "import ".toList ++ (addition.clause ++
      (" from '".toList ++ (addition.behind fileExtension ++ newline))) := by
    rw [line, render_eq]
    simp only [List.append_assoc]
  have isBound {length : Nat}
      (isRead : clauseStatement? (addition.line fileExtension newline) =
        some (addition.clause, length))
      (areNames : clauseBindings addition.clause = addition.names) :
      bindings (addition.line fileExtension newline) = addition.names :=
    (bindings_of_clauseStatement? isLine isRead).trans areNames
  rw [isText] at isBound
  rw [isText]
  cases addition with
  | ownModule component =>
    have isReadable := readable component.name List.mem_cons_self
    rcases clauseStatement?_of_isReadable isReadable _ with ⟨length, isRead⟩
    exact isBound isRead (clauseBindings_of_isReadable isReadable)
  | builtin =>
    have isReadable := readable Registry.asideComponent List.mem_cons_self
    rcases clauseStatement?_of_isReadable isReadable _ with ⟨length, isRead⟩
    exact isBound isRead (clauseBindings_of_isReadable isReadable)
  | grouped modulePath names =>
    rcases clauseStatement?_of_braces readable _ with ⟨length, isRead⟩
    exact isBound isRead (clauseBindings_of_braces readable nonempty)

end Addition

/-- The names and module paths that statements are made of do not break lines. -/
structure IsImportable (registry : Registry) (fileExtension : Text) : Prop where
  identifiers : ∀ name component, registry.component? name = some component →
    Script.isIdentifier component.name = true
  paths : ∀ name component, registry.component? name = some component →
    '\n' ∉ component.modulePath
  fileExtension : '\n' ∉ fileExtension

theorem isIdentifier_of_mem_names (isKeyed : registry.IsKeyed)
    (importable : IsImportable registry fileExtension)
    (isFrom : addition.IsFrom registry builtinActive) (isName : name ∈ addition.names) :
    Script.isIdentifier name = true := by
  cases addition with
  | ownModule component =>
    rw [List.mem_singleton.mp isName]
    exact importable.identifiers _ _ isFrom.1
  | builtin =>
    rw [List.mem_singleton.mp isName]
    decide
  | grouped modulePath names =>
    rcases isFrom.2 name isName with ⟨component, isComponent, -⟩
    rw [← isKeyed name component isComponent]
    exact importable.identifiers _ _ isComponent

theorem names_ne_nil (isFrom : addition.IsFrom registry builtinActive) : addition.names ≠ [] := by
  cases addition with
  | ownModule component => exact List.cons_ne_nil _ _
  | builtin => exact List.cons_ne_nil _ _
  | grouped modulePath names => exact isFrom.1

/-- The text of an addition does not break lines. -/
theorem newline_notMem_render (isKeyed : registry.IsKeyed)
    (importable : IsImportable registry fileExtension)
    (isFrom : addition.IsFrom registry builtinActive) :
    '\n' ∉ addition.render fileExtension := by
  have isPlain {name : Text} (isName : name ∈ addition.names) : '\n' ∉ name :=
    Script.newline_notMem_of_isIdentifier
      (isIdentifier_of_mem_names isKeyed importable isFrom isName)
  have noBreak {first second : Text} (noFirst : '\n' ∉ first) (noSecond : '\n' ∉ second) :
      '\n' ∉ first ++ second := by
    rw [List.mem_append, not_or]
    exact ⟨noFirst, noSecond⟩
  have noEnd : '\n' ∉ "';".toList := by decide
  have noPlain {clause behind : Text} (noClause : '\n' ∉ clause) (noBehind : '\n' ∉ behind) :
      '\n' ∉ "import ".toList ++ (clause ++ (" from '".toList ++ behind)) :=
    noBreak (by decide) (noBreak noClause (noBreak (by decide) noBehind))
  rw [Addition.render_eq]
  cases addition with
  | ownModule component =>
    have noName := isPlain (List.mem_singleton_self component.name)
    have noPath : '\n' ∉ trimEndBy (· = '/') component.modulePath := fun member =>
      importable.paths _ _ isFrom.1 (( trimEndBy_prefix _ _).subset member)
    exact noPlain noName
      (noBreak (noBreak (noBreak (noBreak noPath (by decide)) noName) importable.fileExtension) noEnd)
  | builtin =>
    have noModule : '\n' ∉ "virtual:fallback-components/Aside';".toList := by decide
    exact noPlain (by decide) noModule
  | grouped modulePath names =>
    rcases List.exists_mem_of_ne_nil names isFrom.1 with ⟨name, isName⟩
    rcases isFrom.2 name isName with ⟨component, isComponent, -, rfl⟩
    apply noPlain
    · have noNames : '\n' ∉ (", ".toList).intercalate names := by
        intro member
        rcases mem_of_mem_intercalate member with inSeparator | ⟨name, isName, inName⟩
        · exact absurd inSeparator (by decide)
        · exact isPlain isName inName
      exact noBreak (by decide : '\n' ∉ ['{', ' ']) (noBreak (noBreak noNames (by decide)) (by decide))
    · exact noBreak (importable.paths _ _ isComponent) noEnd

/-- A statement on a line of its own. -/
theorem lines_line (isKeyed : registry.IsKeyed) (importable : IsImportable registry fileExtension)
    (isFrom : addition.IsFrom registry builtinActive) (code : Text) :
    lines (addition.line fileExtension (newlineOf code)) =
      [addition.line fileExtension (newlineOf code)] := by
  rcases exists_newlineOf code with ⟨returns, isNewline, noBreak, -⟩
  rw [Addition.line, isNewline, ← List.append_assoc]
  apply lines_append_newline
  rw [List.mem_append, not_or]
  exact ⟨newline_notMem_render isKeyed importable isFrom, noBreak⟩

theorem hasStop_line (fileExtension newline : Text) (addition : Addition) :
    HasStop (addition.line fileExtension newline) := by
  have isQuote : '\'' ∈ " from '".toList := by decide
  refine ⟨'\'', ?_, by decide⟩
  rw [Addition.line, Addition.render_eq]
  exact List.mem_append_left _ (List.mem_append_right _ (List.mem_append_right _
    (List.mem_append_left _ isQuote)))

/-! ## The result -/

/-- The lines that injection adds: the statements and an empty line. -/
def addedText (fileExtension newline : Text) (added : List Addition) : Text :=
  added.flatMap (Addition.line fileExtension newline) ++ newline

theorem intercalate_append_separator {parts : List Text} (separator : Text) (nonempty : parts ≠ []) :
    separator.intercalate parts ++ separator = parts.flatMap (· ++ separator) := by
  induction parts with
  | nil => exact absurd rfl nonempty
  | cons part others ih =>
    cases others with
    | nil => rw [List.intercalate_singleton, List.flatMap_singleton]
    | cons next others =>
      rw [List.intercalate_cons_cons, List.append_assoc, ih (List.cons_ne_nil next others)]
      rfl

/-- The result is the code, with the added lines between its frontmatter and its body. -/
theorem inject_eq (registry : Registry) (builtinActive : Bool) (fileExtension : Text)
    (used : List Text) (code : Text) :
    let added := additions fileExtension (missingSources registry builtinActive used code)
    inject registry builtinActive fileExtension used code =
      if added = [] then code
      else Frontmatter.front code ++ (addedText fileExtension (newlineOf code) added ++
        Frontmatter.strip code) := by
  intro added
  have isStatements : statements fileExtension ((missing code used).filterMap
      (source? registry builtinActive)) = added.map (Addition.render fileExtension) :=
    statements_eq fileExtension _
  unfold inject
  dsimp only
  rw [isStatements]
  split
  · next isNil => rw [if_pos (List.map_eq_nil_iff.mp isNil)]
  · next isSome =>
    rw [List.map_eq_nil_iff] at isSome
    have isBlock : (newlineOf code).intercalate (added.map (Addition.render fileExtension)) ++
        newlineOf code = added.flatMap (Addition.line fileExtension (newlineOf code)) := by
      rw [intercalate_append_separator _ (mt List.map_eq_nil_iff.mp isSome), List.flatMap_map]
      rfl
    rw [if_neg isSome, addedText, Frontmatter.front, Frontmatter.strip, ← isBlock]
    cases Frontmatter.find? code with
    | some frontmatter => simp only [Option.map_some, Option.getD_some, List.append_assoc]
    | none => simp only [Option.map_none, Option.getD_none, List.append_assoc, List.nil_append]

/-! ## The bindings of the result -/

theorem endsClauses_front (code : Text) : EndsClauses (Frontmatter.front code) := by
  rw [Frontmatter.front]
  cases isFound : Frontmatter.find? code with
  | none =>
    intro before rest isNil nonempty
    exact absurd (List.append_eq_nil_iff.mp isNil.symm).2 nonempty
  | some frontmatter =>
    rcases Frontmatter.isDelimiter_closing isFound with ⟨isDelimiter, isLine⟩
    apply endsClauses_append isLine
    rw [Frontmatter.isDelimiter, beq_iff_eq] at isDelimiter
    refine ⟨'-', subset_trimEnd _ ?_, by decide⟩
    rw [isDelimiter]
    exact List.mem_cons_self

/-- An empty line binds nothing. -/
theorem bindings_newlineOf_append (code rest : Text) :
    bindings (newlineOf code ++ rest) = bindings rest := by
  rcases exists_newlineOf code with ⟨returns, isNewline, noBreak, isBreaks⟩
  have complete : IsComplete (newlineOf code) := isNewline ▸ isComplete_concat returns
  have isLine : lines (newlineOf code) = [newlineOf code] := by
    rw [isNewline]
    exact lines_append_newline noBreak []
  have notRead : clauseStatement? (newlineOf code ++ rest) = none := by
    cases isNewlineCons : newlineOf code with
    | nil =>
      rw [isNewlineCons] at isNewline
      exact absurd isNewline.symm
        (List.append_ne_nil_of_right_ne_nil returns (List.cons_ne_nil _ _))
    | cons char more =>
      rw [clauseStatement?, List.cons_append, head?_cons_of_isLineBreak]
      · rfl
      · exact isBreaks char (isNewlineCons ▸ List.mem_cons_self)
  rw [bindings, atLineStarts_of_eq_none notRead, behindFirstLine_append complete isLine, bindings]

/-- The added lines are read on their own. -/
theorem bindings_addedText_append (isKeyed : registry.IsKeyed)
    (importable : IsImportable registry fileExtension)
    (areFrom : ∀ addition ∈ added, addition.IsFrom registry builtinActive) (code rest : Text) :
    bindings (addedText fileExtension (newlineOf code) added ++ rest) =
      added.flatMap (fun addition => bindings (addition.line fileExtension (newlineOf code))) ++
        bindings rest := by
  induction added with
  | nil => exact bindings_newlineOf_append code rest
  | cons addition others ih =>
    have isLine := lines_line isKeyed importable (areFrom addition List.mem_cons_self) code
    have complete : IsComplete (addition.line fileExtension (newlineOf code)) := by
      rcases exists_newlineOf code with ⟨returns, isNewline, -⟩
      rw [Addition.line, isNewline, ← List.append_assoc]
      exact isComplete_concat _
    have apart := isApart_of_endsClauses (endsClauses_append isLine (hasStop_line _ _ addition) [])
      (addedText fileExtension (newlineOf code) others ++ rest)
    rw [List.nil_append] at apart
    have isOthers := ih fun other member => areFrom other (List.mem_cons_of_mem addition member)
    rw [List.flatMap_cons, List.append_assoc, ← isOthers, ← bindings_append complete apart,
      addedText, addedText, List.flatMap_cons, List.append_assoc, List.append_assoc,
      List.append_assoc]

theorem bindings_front_append (complete : IsComplete (Frontmatter.front code)) (rest : Text) :
    bindings (Frontmatter.front code ++ rest) =
      bindings (Frontmatter.front code) ++ bindings rest :=
  bindings_append complete (isApart_of_endsClauses (endsClauses_front code) rest)

theorem areFrom_additions (isKeyed : registry.IsKeyed) (builtinActive : Bool)
    (fileExtension : Text) (used : List Text) (code : Text) :
    ∀ addition ∈ additions fileExtension (missingSources registry builtinActive used code),
      addition.IsFrom registry builtinActive := by
  intro addition member
  rw [(perm_additions fileExtension _).mem_iff] at member
  exact (areSources_missingSources isKeyed builtinActive used code).isFrom_of_mem member

/-- What the result binds, if the names that the code needs can stand in a clause. -/
theorem mem_bindings_inject_iff (isKeyed : registry.IsKeyed)
    (importable : IsImportable registry fileExtension)
    (complete : IsComplete (Frontmatter.front code))
    (readable : ∀ name, Needs registry builtinActive used code name →
      name.all isClauseChar = true) (name : Text) :
    name ∈ bindings (inject registry builtinActive fileExtension used code) ↔
      name ∈ bindings code ∨ Needs registry builtinActive used code name := by
  have areNames := mem_names_additions isKeyed builtinActive fileExtension used code
  have areFrom := areFrom_additions isKeyed builtinActive fileExtension used code
  rw [inject_eq, ← areNames]
  generalize additions fileExtension (missingSources registry builtinActive used code) = added
    at areNames areFrom ⊢
  split
  · next isNil =>
    rw [isNil]
    exact (or_iff_left (List.not_mem_nil)).symm
  · have eachName : ∀ addition ∈ added,
        bindings (addition.line fileExtension (newlineOf code)) = addition.names := by
      intro addition member
      have isFrom := areFrom addition member
      apply Addition.bindings_line (names_ne_nil isFrom) _ (lines_line isKeyed importable isFrom code)
      intro name isName
      exact Script.isReadable_of_isIdentifier
        (isIdentifier_of_mem_names isKeyed importable isFrom isName)
        (readable name ((areNames name).mp (List.mem_flatMap.mpr ⟨addition, member, isName⟩)))
    have isCode : bindings code =
        bindings (Frontmatter.front code) ++ bindings (Frontmatter.strip code) := by
      rw [← bindings_front_append complete, Frontmatter.front_append_strip]
    rw [bindings_front_append complete, bindings_addedText_append isKeyed importable areFrom, isCode,
      List.flatMap_congr eachName]
    simp only [List.mem_append]
    tauto

theorem newlineOf_ne_nil (code : Text) : newlineOf code ≠ [] := by
  rcases exists_newlineOf code with ⟨returns, isNewline, -⟩
  rw [isNewline]
  exact List.append_ne_nil_of_right_ne_nil returns (List.cons_ne_nil _ _)

/-- An injection leaves the code alone exactly if the code needs nothing. -/
theorem inject_eq_self_iff (isKeyed : registry.IsKeyed) :
    inject registry builtinActive fileExtension used code = code ↔
      ∀ name, ¬Needs registry builtinActive used code name := by
  have areNames := mem_names_additions isKeyed builtinActive fileExtension used code
  have areFrom := areFrom_additions isKeyed builtinActive fileExtension used code
  rw [inject_eq]
  generalize additions fileExtension (missingSources registry builtinActive used code) = added
    at areNames areFrom ⊢
  split
  · next isNil =>
    apply iff_of_true rfl
    intro name needed
    rw [← areNames, isNil] at needed
    cases needed
  · next isSome =>
    apply iff_of_false
    · intro same
      have counted := congrArg List.length same
      have isCode := congrArg List.length (Frontmatter.front_append_strip code)
      have longer := List.length_pos_iff.mpr (newlineOf_ne_nil code)
      rw [addedText] at counted
      simp only [List.length_append] at counted isCode
      omega
    · intro noneNeeded
      rcases List.exists_mem_of_ne_nil added isSome with ⟨addition, member⟩
      rcases List.exists_mem_of_ne_nil addition.names (names_ne_nil (areFrom addition member)) with
        ⟨name, isName⟩
      exact noneNeeded name ((areNames name).mp (List.mem_flatMap.mpr ⟨addition, member, isName⟩))

/-- What the result of an injection looks like: `added` are the statements that come in. -/
structure IsInjection (registry : Registry) (builtinActive : Bool) (fileExtension : Text)
    (used : List Text) (code output : Text) (added : List Addition) : Prop where
  /-- The statements come from the registry, and each is one line. -/
  isFrom : ∀ addition ∈ added, addition.IsFrom registry builtinActive ∧
    '\n' ∉ addition.render fileExtension
  /-- They import what the code needs. -/
  mem_names_iff : ∀ name, name ∈ added.flatMap Addition.names ↔
    Needs registry builtinActive used code name
  /-- They import each component once. -/
  nodup : (added.flatMap Addition.names).Nodup
  /-- There is one statement for the named exports of a module. -/
  nodup_paths : (added.filterMap Addition.groupedPath?).Nodup
  /-- Their lines stand between the frontmatter and the body, and an empty line behind them. -/
  output_eq : output = if added = [] then code
    else Frontmatter.front code ++ (addedText fileExtension (newlineOf code) added ++
      Frontmatter.strip code)

theorem isInjection_inject (isKeyed : registry.IsKeyed)
    (importable : IsImportable registry fileExtension) (builtinActive : Bool) (used : List Text)
    (code : Text) :
    IsInjection registry builtinActive fileExtension used code
      (inject registry builtinActive fileExtension used code)
      (additions fileExtension (missingSources registry builtinActive used code)) where
  isFrom addition member := by
    have isFrom := areFrom_additions isKeyed builtinActive fileExtension used code addition member
    exact ⟨isFrom, newline_notMem_render isKeyed importable isFrom⟩
  mem_names_iff := mem_names_additions isKeyed builtinActive fileExtension used code
  nodup := by
    rw [((perm_additions fileExtension _).flatMap_right Addition.names).nodup_iff,
      (perm_names_unsortedAdditions _).nodup_iff]
    exact (areSources_missingSources isKeyed builtinActive used code).nodup
  nodup_paths := by
    rw [((perm_additions fileExtension _).filterMap Addition.groupedPath?).nodup_iff]
    exact nodup_groupedPath? _
  output_eq := inject_eq registry builtinActive fileExtension used code

/-- Injection puts imports for the components that the code needs between its frontmatter and its
body, each of them in one statement, from where the registry says it is exported. The result binds
these components beside those that the code binds if and only if their names can stand in a clause;
and under the same condition a second injection changes nothing. -/
theorem inject_closes_iff (libraries : List ComponentLibrary) (wanted builtinActive : Bool)
    (fileExtension : Text) (used : List Text) (code : Text)
    (importable : IsImportable ((Registry.merge libraries).withBuiltin wanted) fileExtension)
    (complete : IsComplete (Frontmatter.front code)) :
    let registry := (Registry.merge libraries).withBuiltin wanted
    let output := inject registry builtinActive fileExtension used code
    let Readable := ∀ name, Needs registry builtinActive used code name →
      name.all isClauseChar = true
    ((∀ name, name ∈ bindings output ↔
      name ∈ bindings code ∨ Needs registry builtinActive used code name) ↔ Readable) ∧
    (inject registry builtinActive fileExtension used output = output ↔ Readable) ∧
    Frontmatter.front code ++ Frontmatter.strip code = code ∧
    ∃ added, IsInjection registry builtinActive fileExtension used code output added := by
  intro registry output Readable
  have isKeyed : registry.IsKeyed :=
    Registry.isKeyed_withBuiltin (Registry.isKeyed_merge libraries) wanted
  have closes (readable : Readable) (name : Text) : name ∈ bindings output ↔
      name ∈ bindings code ∨ Needs registry builtinActive used code name :=
    mem_bindings_inject_iff isKeyed importable complete readable name
  constructor
  · constructor
    · exact fun isClosed name needed =>
        all_isClauseChar_of_mem_bindings ((isClosed name).mpr (.inr needed))
    · exact closes
  constructor
  · rw [inject_eq_self_iff isKeyed]
    constructor
    · intro noneNeeded name needed
      -- a needed name is bound by the result, or would be needed again
      by_cases isBound : name ∈ bindings output
      · exact all_isClauseChar_of_mem_bindings isBound
      · exact absurd ⟨needed.1, isBound, needed.2.2⟩ (noneNeeded name)
    · rintro readable name ⟨isUsed, unbound, isKnown⟩
      apply unbound
      apply (closes readable name).mpr
      by_cases isBound : name ∈ bindings code
      · exact .inl isBound
      · exact .inr ⟨isUsed, isBound, isKnown⟩
  · exact ⟨Frontmatter.front_append_strip code, _, isInjection_inject isKeyed importable _ _ _⟩

theorem isImportable_of_entries
    (all : ∀ entry ∈ registry.components.entries,
      Script.isIdentifier entry.2.name = true ∧ '\n' ∉ entry.2.modulePath)
    (plain : '\n' ∉ fileExtension) : IsImportable registry fileExtension where
  identifiers name component isComponent :=
    (all (name, component) (Dictionary.mem_entries.mpr isComponent)).1
  paths name component isComponent :=
    (all (name, component) (Dictionary.mem_entries.mpr isComponent)).2
  fileExtension := plain

/-- A library with a component that has a module of its own and two that share one. -/
def Trial.widgets : ComponentLibrary where
  name := "widgets".toList
  components := [⟨"Tabs".toList, "@docs/ui".toList, .named, .raw⟩,
    ⟨"Card".toList, "@docs/cards/".toList, .default, .markdown⟩,
    ⟨"Tab".toList, "@docs/ui".toList, .named, .raw⟩]

/-- A document with frontmatter that imports one of them. -/
def Trial.tabbed : Text :=
  "---\ntitle: Tabs\n---\nimport { Tab } from '@docs/ui'\n\nText\n".toList

/-- The other two are imported behind the frontmatter, and the built-in component with them. -/
theorem inject_closes_of_tabbed :
    let registry := (Registry.merge [Trial.widgets]).withBuiltin true
    let used := ["Aside", "Card", "Tab", "Tabs"].map String.toList
    let output := inject registry true ".astro".toList used Trial.tabbed
    IsImportable registry ".astro".toList ∧ IsComplete (Frontmatter.front Trial.tabbed) ∧
    output = ("---\ntitle: Tabs\n---\nimport Aside from 'virtual:fallback-components/Aside';\n" ++
      "import Card from '@docs/cards/Card.astro';\nimport { Tabs } from '@docs/ui';\n\n" ++
      "import { Tab } from '@docs/ui'\n\nText\n").toList ∧
    inject registry true ".astro".toList used output = output := by
  intro registry used output
  have isOutput : output = _ := inject_eq registry true ".astro".toList used Trial.tabbed
  have inOrder : (unsortedAdditions (missingSources registry true used Trial.tabbed)).Pairwise
      fun first second => precedes (first.render ".astro".toList) (second.render ".astro".toList) := by
    decide +kernel
  rw [additions_of_pairwise inOrder] at isOutput
  have importable : IsImportable registry ".astro".toList :=
    isImportable_of_entries (by decide +kernel) (by decide +kernel)
  have complete : IsComplete (Frontmatter.front Trial.tabbed) := by
    right
    decide +kernel
  have all : (used.all fun name => name.all isClauseChar) = true := by decide +kernel
  refine ⟨importable, complete, isOutput.trans (by decide +kernel), ?_⟩
  apply (inject_closes_iff [Trial.widgets] true true ".astro".toList used Trial.tabbed importable
    complete).2.1.mpr
  exact fun name needed => List.all_eq_true.mp all name needed.1

/-- A library with a component whose name holds a dot that may stand in identifiers. -/
def Trial.dotted : ComponentLibrary where
  name := "dotted".toList
  components := [⟨"Col·lapse".toList, "m".toList, .default, .markdown⟩]

/-- The dot may not stand in a clause, so the import is not read back and comes in again. -/
theorem not_inject_closes_of_dotted :
    let registry := (Registry.merge [Trial.dotted]).withBuiltin true
    let used := ["Col·lapse".toList]
    let output := inject registry true ".astro".toList used "Text\n".toList
    Script.isIdentifier "Col·lapse".toList = true ∧
    output = "import Col·lapse from 'm/Col·lapse.astro';\n\nText\n".toList ∧
    bindings output = [] ∧
    inject registry true ".astro".toList used output =
      ("import Col·lapse from 'm/Col·lapse.astro';\n\n" ++
        "import Col·lapse from 'm/Col·lapse.astro';\n\nText\n").toList := by
  decide +kernel

end MdxBuild.Import

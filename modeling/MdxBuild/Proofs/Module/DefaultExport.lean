import MdxBuild.Proofs.Module.DefaultForms
import MdxBuild.Proofs.Module.Wrapping

/-!
# What becomes of a default export

A module with one default export is divided at it: into what stands in front of the statement, the
exported value with its semicolon, and what stands behind. The division is that of the language;
how it reads values is not modelled. The default export is kept if the component module has the
statement taken out whole, declares the function that it exported in its place, if it was one, and
exports the same thing in its only default export. This is so for functions and names that the
patterns read, and for nothing else.
-/

namespace MdxBuild.DefaultExport

open Text

variable {rest before : Text}

/-! ## Modules with one default export -/

/-- A module, divided at its default export. -/
structure Parts where
  front : Text
  /-- The blanks between the two words. -/
  gap : Text
  /-- The blanks behind the two words. -/
  space : Text
  /-- The exported value, with its semicolon. -/
  value : Text
  back : Text
  /-- The names that the other statements bind. -/
  names : List Text

namespace Parts

/-- The text behind the two words. -/
def behindWords (parts : Parts) : Text :=
  parts.space ++ (parts.value ++ parts.back)

/-- The statement and what follows. -/
def onward (parts : Parts) : Text :=
  "export".toList ++ (parts.gap ++ ("default".toList ++ parts.behindWords))

/-- The text of the module. -/
def code (parts : Parts) : Text :=
  parts.front ++ parts.onward

end Parts

/-- A module with exactly one default export, whose value is neither cut in a word nor in front of
its semicolon. -/
structure Site extends Parts where
  isStart : startsLine true front = true
  isGap : gap ≠ [] ∧ ∀ char ∈ gap, isBlank char = true
  isSpace : ∀ char ∈ space, isBlank char = true
  isValue : ∃ first others, value = first :: others ∧ isBlank first = false ∧
    (space = [] → isNamePart first = false)
  isWhole : ∀ last ∈ value.getLast?, isNamePart last = true →
    ∀ next ∈ back.head?, isNamePart next = false
  isClosed : value.getLast? = some ';' ∨ (trimStart back).head? ≠ some ';'
  isOnly : ∀ before, IsPlace toParts.code before → before = front

namespace Site

variable {site : Site}

theorem beginsDefault_onward (site : Site) : BeginsDefault site.onward := by
  obtain ⟨first, others, isValue, -, apart⟩ := site.isValue
  refine ⟨site.gap, site.behindWords, site.isGap.1, site.isGap.2, rfl, ?_⟩
  rw [Parts.behindWords, isValue]
  refine isNamePart_of_mem_head?_append site.isSpace fun isNil => ?_
  rintro char ⟨⟩
  exact apart isNil

/-- The value is read behind the two words if there are blanks between. -/
theorem afterExportDefault?_onward (site : Site) : afterExportDefault? site.onward =
    if site.space = [] then none else some (site.value ++ site.back) := by
  have exported : after? "export".toList site.onward =
      some (site.gap ++ ("default".toList ++ site.behindWords)) := after?_eq_some_iff.mpr rfl
  have default : after? "default".toList ("default".toList ++ site.behindWords) =
      some site.behindWords := after?_eq_some_iff.mpr rfl
  have blanks : afterBlanks? (site.gap ++ ("default".toList ++ site.behindWords)) =
      some ("default".toList ++ site.behindWords) := by
    refine afterBlanks?_eq_some_iff.mpr ⟨site.gap, site.isGap.1, site.isGap.2, rfl, ?_⟩
    rintro char ⟨⟩
    decide
  simp only [afterExportDefault?, exported, default, blanks, Option.bind_eq_bind,
    Option.bind_some]
  obtain ⟨first, others, isValue, notBlank, -⟩ := site.isValue
  rw [Parts.behindWords, isValue, List.cons_append]
  split
  · next isNil => rw [isNil, List.nil_append, afterBlanks?, if_neg (by rw [notBlank]; decide)]
  · next nonempty =>
    refine afterBlanks?_eq_some_iff.mpr ⟨site.space, nonempty, site.isSpace, rfl, ?_⟩
    rintro char ⟨⟩
    exact notBlank

/-- The normalized module, by what is read at the default export. -/
theorem normalize_code (site : Site) : normalize site.code =
    match functionHead? site.onward with
    | some head => (site.front ++ head.declaration ++ head.rest, some head.name)
    | none =>
      match binding? site.onward with
      | some (name, rest) => (site.front ++ rest, some name)
      | none => (site.code, none) := by
  have nonempty : site.onward ≠ [] := nofun
  have heads : firstAtLineStart? functionHead? (site.front ++ site.onward) =
      (functionHead? site.onward).map fun found => (site.front, found) :=
    firstAtLineStart?_eq (fun _ _ isFound => .of_bind isFound) nonempty site.isStart site.isOnly
  have names : firstAtLineStart? binding? (site.front ++ site.onward) =
      (binding? site.onward).map fun found => (site.front, found) :=
    firstAtLineStart?_eq (fun _ _ isFound => .of_bind isFound) nonempty site.isStart site.isOnly
  rw [normalize, Parts.code, heads, names]
  cases functionHead? site.onward with
  | some head => rfl
  | none => cases binding? site.onward <;> rfl

/-! ### Places -/

/-- The module has exactly one default export. -/
theorem isPlace_code_iff (site : Site) : IsPlace site.code before ↔ before = site.front := by
  constructor
  · exact site.isOnly before
  · rintro rfl
    exact ⟨site.onward, rfl, site.isStart, site.beginsDefault_onward⟩

theorem isPlace_append_onward_iff (site : Site) : IsPlace site.code before ↔
    IsPlace site.front before ∨ ∃ later, before = site.front ++ later ∧ IsPlace site.onward later :=
  isPlace_append_iff_of_starts site.isStart rfl

theorem not_isPlace_front (site : Site) : ¬IsPlace site.front before := by
  intro isPlace
  obtain rfl := site.isOnly before (site.isPlace_append_onward_iff.mpr (.inl isPlace))
  obtain ⟨rest, parts, -, begins⟩ := isPlace
  rw [List.self_eq_append_right.mp parts] at begins
  cases begins.head?

/-- There is no place behind the two words. -/
theorem not_isPlaceFrom_behindWords (site : Site) {first second : Text}
    (parts : site.value ++ site.back = first ++ second) (before : Text) :
    ¬IsPlaceFrom (startsLine true (site.front ++ ("export".toList ++ (site.gap ++
      ("default".toList ++ (site.space ++ first)))))) second before := by
  intro isLater
  have isCode : site.code = site.front ++ ("export".toList ++ (site.gap ++
      ("default".toList ++ (site.space ++ first)))) ++ second := by
    unfold Parts.code Parts.onward Parts.behindWords
    rw [parts]
    simp only [List.append_assoc]
  have isPlace := isLater.append_left
  rw [← isCode, List.append_assoc] at isPlace
  cases List.self_eq_append_right.mp (site.isOnly _ isPlace).symm

/-- A module in which a declaration stands in place of the default export has no default export. -/
theorem not_isPlace_declaration (site : Site) {function : FunctionText}
    (isValue : function.text = site.value) :
    ¬IsPlace (site.front ++ (function.declaration ++ site.back)) before := by
  rw [isPlace_append_iff_of_starts site.isStart (function.noDefault_declaration_append _),
    or_iff_right site.not_isPlace_front, FunctionText.declaration, List.append_assoc]
  rintro ⟨later, -, isLater⟩
  obtain ⟨last, -, isLast⟩ :=
    (isPlaceFrom_append_of_isInert function.isInert_declaredHead).mp isLater
  obtain ⟨opening, isText⟩ := function.exists_text_eq
  -- Behind the parenthesis the declaration goes on as the module does.
  have parts : site.value ++ site.back = opening ++ ['('] ++ (function.rest ++ site.back) := by
    rw [← isValue, isText, List.append_assoc]
  refine site.not_isPlaceFrom_behindWords parts last ?_
  rw [function.startsLine_declaredHead] at isLast
  simp only [startsLine_append]
  exact isLast

/-- Without the statement the module has no default export if behind it stands neither the word
`default` nor another default export. -/
theorem not_isPlace_without (site : Site) (behind : IsBehind site.back rest)
    (noDefault : "default".toList.isPrefixOf (trimStart site.back) = false)
    (noExport : ¬BeginsDefault (trimStart site.back)) : ¬IsPlace (site.front ++ rest) before := by
  obtain ⟨blanks, isBack, blank⟩ := behind
  have sameNext : trimStart site.back = rest.dropWhile isBlank := by
    rw [trimStart, isBack, List.dropWhile_append_of_pos blank]
  rw [sameNext] at noDefault noExport
  rw [isPlace_append_iff_of_starts site.isStart noDefault, or_iff_right site.not_isPlace_front]
  rintro ⟨later, -, last, parts, starts, begins⟩
  cases later with
  | nil =>
    rw [List.nil_append] at parts
    obtain ⟨others, isCons⟩ := List.head?_eq_some_iff.mp begins.head?
    rw [parts, isCons, List.dropWhile_cons_of_neg (by decide), ← isCons] at noExport
    exact noExport begins
  | cons char later =>
    have inModule : site.value ++ site.back = site.value ++ blanks ++ rest := by
      rw [isBack, List.append_assoc]
    exact site.not_isPlaceFrom_behindWords inModule (char :: later) ⟨last, parts, starts, begins⟩

/-! ## What is kept -/

/-- With `body` in place of the statement, `reference` stands for what it exported: a function that
is declared there, under its name or under a fresh one, or the expression as it was. The word
`function` alone is no expression. -/
inductive Replaces (site : Site) : (reference body : Text) → Prop
  | function (function : FunctionText) (isValue : function.text = site.value)
      (isFresh : function.name = [] → contentComponent ∉ site.names) :
      Replaces site function.declaredName function.declaration
  | expression {reference tail : Text} (isValue : site.value = reference ++ tail)
      (isClosing : IsClosing tail) (notReserved : reference ≠ "function".toList) :
      Replaces site reference []

/-- The component module has a single default export, which exports what the module exported. Of the
module, nothing but the statement and blanks behind it was touched. -/
def Kept (site : Site) (metadata : Metadata) : Prop :=
  ∃ reference body rest, site.Replaces reference body ∧ IsBehind site.back rest ∧
    normalize site.code = (site.front ++ (body ++ rest), some reference) ∧
    ∀ before, IsPlace (metadata.postProcess site.code) before ↔
      metadata.postProcess site.code = before ++ Metadata.defaultStatement reference

/-- The exported value is a function, and its name is read or can be given. -/
def ExportsFunction (site : Site) : Prop :=
  ∃ function : FunctionText, function.text = site.value ∧ function.IsReadable ∧
    (function.name = [] → contentComponent ∉ site.names)

/-- The exported value is a name that is read as one, and the module has no default export without
the statement. -/
def ExportsName (site : Site) : Prop :=
  ∃ name tail, site.value = name ++ tail ∧ IsName name ∧ IsClosing tail ∧
    name ≠ "function".toList ∧ functionHead? site.onward = none ∧
    ∀ before, ¬IsPlace (normalize site.code).1 before

theorem isName_of_normalize {code body reference : Text}
    (normalized : normalize code = (body, some reference)) : IsName reference := by
  have isName : IsName ((normalize code).2.getD contentComponent) := isName_component
  rw [normalized] at isName
  exact isName

/-- The component module has a single default export exactly if the normalized module has none. -/
theorem isOnly_postProcess_iff {metadata : Metadata} {code body reference : Text}
    (normalized : normalize code = (body, some reference)) :
    (∀ before, IsPlace (metadata.postProcess code) before ↔
      metadata.postProcess code = before ++ Metadata.defaultStatement reference) ↔
        ∀ before, ¬IsPlace body before := by
  have noBreak : '\n' ∉ reference := fun member => by
    cases (isName_of_normalize normalized).isNamePart member
  rw [Metadata.postProcess_eq, normalized]
  exact Metadata.isOnly_wrap_iff noBreak

/-! ### Functions -/

theorem space_ne_nil_of_isNamePart (site : Site) {first : Char} {others : Text}
    (isValue : site.value = first :: others) (isPart : isNamePart first = true) :
    site.space ≠ [] := by
  obtain ⟨char, others, isCons, -, apart⟩ := site.isValue
  obtain ⟨rfl, -⟩ := List.cons.inj (isValue.symm.trans isCons)
  intro isNil
  rw [apart isNil] at isPart
  cases isPart

theorem kept_of_exportsFunction (exports : site.ExportsFunction) (metadata : Metadata) :
    site.Kept metadata := by
  obtain ⟨function, isValue, readable, isFresh⟩ := exports
  obtain ⟨first, others, isCons, isPart⟩ := function.exists_text_eq_cons
  have nonempty := site.space_ne_nil_of_isNamePart (isValue ▸ isCons) isPart
  have read : functionHead? site.onward =
      some ⟨function.declaredHead, function.declaredName, function.rest ++ site.back⟩ := by
    rw [functionHead?_eq, afterExportDefault?_onward, if_neg nonempty, Option.bind_some, ← isValue,
      function.headBehind?_text readable]
  have normalized : normalize site.code =
      (site.front ++ (function.declaration ++ site.back), some function.declaredName) := by
    rw [normalize_code, read, FunctionText.declaration]
    simp only [List.append_assoc]
  refine ⟨_, _, site.back, .function function isValue isFresh, .refl _, normalized, ?_⟩
  rw [isOnly_postProcess_iff normalized]
  exact fun _ => site.not_isPlace_declaration isValue

/-! ### Names -/

/-- A name is read behind the two words. -/
theorem name?_value (site : Site) {name tail : Text} (isValue : site.value = name ++ tail)
    (isName : IsName name) (closing : IsClosing tail) :
    name? (site.value ++ site.back) = some (name, tail ++ site.back) := by
  refine name?_eq_some_iff.mpr ⟨by rw [isValue, List.append_assoc], isName, ?_⟩
  cases tail with
  | nil =>
    rw [List.append_nil] at isValue
    have nonempty : name ≠ [] := by
      obtain ⟨first, others, rfl, -⟩ := isName
      exact List.cons_ne_nil _ _
    apply site.isWhole (name.getLast nonempty)
    · rw [isValue, List.getLast?_eq_some_getLast nonempty]
      rfl
    · exact isName.isNamePart (List.getLast_mem nonempty)
  | cons first others => exact closing.isNamePart_of_mem_head?

/-- The semicolon is passed over with the name. -/
theorem isBehind_semicolon (site : Site) {name tail : Text} (isValue : site.value = name ++ tail)
    (isName : IsName name) (closing : IsClosing tail) :
    IsBehind site.back (dropOne ';' ((tail ++ site.back).dropWhile isBlank)) := by
  obtain ⟨blanks, rfl | rfl, blank⟩ := closing
  · have notClosed : site.value.getLast? ≠ some ';' := by
      intro isLast
      have member := isValue ▸ List.mem_of_getLast? isLast
      rcases List.mem_append.mp member with inName | inBlanks
      · cases isName.isNamePart inName
      · cases blank ';' inBlanks
    have noSemicolon := site.isClosed.resolve_left notClosed
    have same : dropOne ';' (site.back.dropWhile isBlank) = site.back.dropWhile isBlank := by
      rw [dropOne]
      cases found : after? [';'] (site.back.dropWhile isBlank) with
      | none => rfl
      | some rest =>
        rw [trimStart, after?_eq_some_iff.mp found] at noSemicolon
        exact absurd rfl noSemicolon
    rw [List.dropWhile_append_of_pos blank, same]
    exact .dropWhile (fun _ isBlank => isBlank) _
  · have dropped : (blanks ++ [';'] ++ site.back).dropWhile isBlank = [';'] ++ site.back := by
      rw [List.append_assoc]
      exact dropWhile_append_cons blank (by decide) _
    rw [dropped, dropOne, after?_eq_some_iff.mpr rfl]
    exact .refl _

/-- A name with its semicolon is read up to what stands behind them. -/
theorem nameBehind?_value (site : Site) {name tail : Text} (isValue : site.value = name ++ tail)
    (isName : IsName name) (closing : IsClosing tail) :
    ∃ rest, nameBehind? (site.value ++ site.back) = some (name, rest) ∧
      IsBehind site.back rest := by
  have spaces (char : Char) (isSpace : isSpaceOrTab char = true) : isBlank char = true := by
    rw [isSpaceOrTab, Bool.or_eq_true, decide_eq_true_eq, decide_eq_true_eq] at isSpace
    rcases isSpace with rfl | rfl <;> decide
  rw [nameBehind?, site.name?_value isValue isName closing]
  refine ⟨_, rfl, ?_⟩
  exact (((site.isBehind_semicolon isValue isName closing).trans (.dropWhile spaces _)).trans
    (.dropOne (by decide) _)).trans (.dropOne (by decide) _)

/-- The statement that exports a name is taken out whole. -/
theorem normalize_of_name (site : Site) {name tail : Text} (isValue : site.value = name ++ tail)
    (isName : IsName name) (closing : IsClosing tail)
    (notFunction : functionHead? site.onward = none) :
    ∃ rest, normalize site.code = (site.front ++ rest, some name) ∧ IsBehind site.back rest := by
  obtain ⟨rest, isRest, behind⟩ := site.nameBehind?_value isValue isName closing
  obtain ⟨first, others, rfl, isStart, -⟩ := isName
  have nonempty := site.space_ne_nil_of_isNamePart isValue (isNamePart_of_isNameStart isStart)
  have read : binding? site.onward = some (first :: others, rest) := by
    rw [binding?_eq, afterExportDefault?_onward, if_neg nonempty, Option.bind_some, isRest]
  refine ⟨rest, ?_, behind⟩
  rw [normalize_code, notFunction, read]

theorem kept_of_exportsName (exports : site.ExportsName) (metadata : Metadata) :
    site.Kept metadata := by
  obtain ⟨name, tail, isValue, isName, closing, notReserved, notFunction, noPlace⟩ := exports
  obtain ⟨rest, normalized, behind⟩ := site.normalize_of_name isValue isName closing notFunction
  refine ⟨name, [], rest, .expression isValue closing notReserved, behind, normalized, ?_⟩
  rw [isOnly_postProcess_iff normalized]
  rwa [normalized] at noPlace

/-- A name is kept if what follows neither is a default export nor makes the head of a function of
it. -/
theorem exportsName_of_next (site : Site) {name tail : Text} (isValue : site.value = name ++ tail)
    (isName : IsName name) (closing : IsClosing tail) (notReserved : name ≠ "function".toList)
    (notFunction : functionHead? site.onward = none)
    (noDefault : "default".toList.isPrefixOf (trimStart site.back) = false)
    (noExport : ¬BeginsDefault (trimStart site.back)) : site.ExportsName := by
  obtain ⟨rest, read, behind⟩ := site.normalize_of_name isValue isName closing notFunction
  refine ⟨name, tail, isValue, isName, closing, notReserved, notFunction, fun before => ?_⟩
  rw [read]
  exact site.not_isPlace_without behind noDefault noExport

/-- A name that is exported by itself is not taken for the head of a function. -/
theorem functionHead?_eq_none (site : Site) {name tail rest : Text}
    (isValue : site.value = name ++ tail) (isName : IsName name) (closing : IsClosing tail)
    (notReserved : name ≠ "function".toList) (behind : IsBehind site.back rest)
    (normalized : normalize site.code = (site.front ++ ([] ++ rest), some name)) :
    functionHead? site.onward = none := by
  by_contra notNone
  obtain ⟨head, found⟩ := Option.ne_none_iff_exists'.mp notNone
  rw [normalize_code, found] at normalized
  obtain ⟨sameCode, sameName⟩ := Prod.mk.inj normalized
  rw [List.append_assoc] at sameCode
  have isRest : head.declaration ++ head.rest = rest := List.append_cancel_left sameCode
  rw [functionHead?_eq, afterExportDefault?_onward] at found
  split at found
  · cases found
  have named := site.name?_value isValue isName closing
  obtain ⟨afterFunction, more, isFunction, isDeclaration, isHeadName⟩ := exists_of_headBehind? found
  rcases asyncMark_cases (site.value ++ site.back) with unmarked |
    ⟨blanks, marked, isText, ⟨nonempty, blank⟩, isMark⟩
  · rw [unmarked] at isFunction
    simp only at isFunction
    rw [isFunction] at named
    exact headName_ne named notReserved (isHeadName.symm.trans (Option.some.inj sameName))
  · rw [isMark] at isFunction isDeclaration
    simp only at isFunction isDeclaration
    -- The first word behind the name is `function` in the module, but `async` in the rest.
    have isAsync : IsName "async".toList := ⟨'a', "sync".toList, rfl, rfl, List.all_eq_true.mp rfl⟩
    have stops : ∀ char ∈ (blanks ++ marked).head?, isNamePart char = false :=
      isNamePart_of_mem_head?_append blank fun isNil => absurd isNil nonempty
    rw [isText, name?_eq_some_iff.mpr ⟨rfl, isAsync, stops⟩] at named
    have nextWord : ((tail ++ site.back).dropWhile isBlank).head? = some 'f' := by
      rw [← (Prod.mk.inj (Option.some.inj named)).2, List.dropWhile_append_of_pos blank,
        isFunction]
      rfl
    obtain ⟨spaces, isBack, blankSpaces⟩ := behind
    obtain ⟨closingBlanks, rfl | rfl, blankClosing⟩ := closing
    · rw [isBack, List.dropWhile_append_of_pos blankClosing,
        List.dropWhile_append_of_pos blankSpaces, ← isRest, isDeclaration] at nextWord
      exact absurd nextWord (by decide : some 'a' ≠ some 'f')
    · rw [List.append_assoc, List.dropWhile_append_of_pos blankClosing] at nextWord
      exact absurd nextWord (by decide : some ';' ≠ some 'f')

theorem exports_of_kept {metadata : Metadata} (kept : site.Kept metadata) :
    site.ExportsFunction ∨ site.ExportsName := by
  obtain ⟨reference, body, rest, replaces, behind, normalized, only⟩ := kept
  have noPlace := (isOnly_postProcess_iff normalized).mp only
  have isName := isName_of_normalize normalized
  cases replaces with
  | function function isValue isFresh =>
    refine .inl ⟨function, isValue, ?_, isFresh⟩
    rw [FunctionText.declaredName] at isName
    by_cases isNil : function.name = []
    · exact .inl isNil
    · rw [if_neg isNil] at isName
      exact .inr isName
  | expression isValue isClosing notReserved =>
    refine .inr ⟨reference, _, isValue, isName, isClosing, notReserved, ?_, ?_⟩
    · exact site.functionHead?_eq_none isValue isName isClosing notReserved behind normalized
    · rw [normalized]
      exact noPlace

/-- The default export is kept exactly for functions whose names are read and for names. -/
theorem kept_iff (site : Site) (metadata : Metadata) :
    site.Kept metadata ↔ site.ExportsFunction ∨ site.ExportsName :=
  ⟨exports_of_kept, fun exports => exports.elim (kept_of_exportsFunction · metadata)
    (kept_of_exportsName · metadata)⟩

/-! ### Samples -/

/-- A default export in the last line, which is the only one if the lines in front do not begin with
the first letter of `export`. -/
theorem isOnly_of_lastLine (front line : Text) (inert : isInert true front = true)
    (starts : startsLine true front = true) (noBreak : '\n' ∉ line) :
    ∀ before, IsPlace (front ++ (line ++ ['\n'])) before → before = front := by
  intro before isPlace
  obtain ⟨later, rfl, isLater⟩ := (isPlaceFrom_append_of_isInert inert).mp isPlace
  rw [starts] at isLater
  rw [IsPlace.eq_nil_of_line isLater noBreak, List.append_nil]

/-- The default export of an anonymous asynchronous generator. -/
def generatorSample : Site where
  front := "import x from 'y';\n".toList
  gap := [' ']
  space := [' ']
  value := "async function* (props) \x7b\x7d".toList
  back := ['\n']
  names := ["x".toList]
  isStart := rfl
  isGap := ⟨List.cons_ne_nil _ _, List.forall_mem_singleton.mpr rfl⟩
  isSpace := List.forall_mem_singleton.mpr rfl
  isValue := ⟨'a', _, rfl, by decide, nofun⟩
  isWhole := by rintro last ⟨⟩ ⟨⟩
  isClosed := .inr (by decide)
  isOnly := isOnly_of_lastLine "import x from 'y';\n".toList
    "export default async function* (props) \x7b\x7d".toList rfl rfl (by decide)

/-- The function of the sample. -/
def generatorFunction : FunctionText where
  mark := "async ".toList
  star := ['*']
  gap := [' ']
  name := []
  space := []
  rest := "props) \x7b\x7d".toList
  isMark := .inr ⟨[' '], rfl, List.cons_ne_nil _ _, List.forall_mem_singleton.mpr ⟨rfl, rfl⟩⟩
  isStar := .inr ⟨[], rfl, nofun⟩
  isGap := List.forall_mem_singleton.mpr rfl
  isSpace := nofun
  isName := nofun
  isApart := fun named => absurd rfl named

/-- The generator is declared under a name and exported by it. -/
theorem kept_of_generatorSample :
    generatorSample.Kept ⟨.null, [], "guide.mdx".toList, none⟩ :=
  (kept_iff _ _).mpr (.inl ⟨generatorFunction, rfl, .inl rfl, by decide⟩)

/-- The default export of a member of an object. -/
def memberSample : Site where
  front := []
  gap := [' ']
  space := [' ']
  value := "foo.bar;".toList
  back := ['\n']
  names := ["foo".toList]
  isStart := rfl
  isGap := ⟨List.cons_ne_nil _ _, List.forall_mem_singleton.mpr rfl⟩
  isSpace := List.forall_mem_singleton.mpr rfl
  isValue := ⟨'f', _, rfl, by decide, nofun⟩
  isWhole := by rintro last ⟨⟩ ⟨⟩
  isClosed := .inl rfl
  isOnly := isOnly_of_lastLine [] "export default foo.bar;".toList rfl rfl (by decide)

/-- A member access is cut behind the object, which is exported in place of the member. -/
theorem not_kept_of_memberSample :
    normalize memberSample.code = (".bar;\n".toList, some "foo".toList) ∧
      ¬memberSample.Kept ⟨.null, [], "guide.mdx".toList, none⟩ := by
  refine ⟨rfl, fun kept => ?_⟩
  rcases exports_of_kept kept with ⟨function, isValue, -⟩ |
    ⟨name, tail, isValue, isName, closing, -⟩
  · rw [FunctionText.text] at isValue
    rcases function.isMark with isNil | ⟨blanks, isMark, -⟩
    · rw [isNil] at isValue
      exact absurd (List.cons.inj (List.cons.inj isValue).2).1 (by decide : 'u' ≠ 'o')
    · rw [isMark] at isValue
      exact absurd (List.cons.inj isValue).1 (by decide : 'a' ≠ 'f')
  · have read : name? memberSample.value = some ("foo".toList, '.' :: "bar;".toList) := rfl
    rw [name?_eq_some_iff.mpr ⟨isValue, isName, closing.isNamePart_of_mem_head?⟩] at read
    obtain ⟨-, rfl⟩ := Prod.mk.inj (Option.some.inj read)
    obtain ⟨blanks, isTail, blank⟩ := closing
    cases blanks with
    | nil => rcases isTail with isTail | isTail <;> cases isTail
    | cons first others =>
      have isDot : '.' = first := by
        rcases isTail with isTail | isTail <;> exact (List.cons.inj isTail).1
      cases (isDot ▸ blank first List.mem_cons_self : isBlank '.' = true)

end Site

end MdxBuild.DefaultExport

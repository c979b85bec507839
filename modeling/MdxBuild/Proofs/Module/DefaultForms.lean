import MdxBuild.Proofs.Module.DefaultPlace
import MdxBuild.Proofs.Module.FileExport

/-!
# Forms of default exports

What is read behind the two words of a default export. A function whose name is read is read whole,
whatever its marks; a name is read up to the text behind its semicolon. The declaration that takes
the place of an exported function begins no default export.
-/

namespace MdxBuild.DefaultExport

open Text

variable {name rest : Text}

/-! ## Reading behind the two words -/

/-- The name of a function behind the word `function`, and what follows. -/
def headName (afterFunction : Text) : Text × Text :=
  (name? ((starMark afterFunction).2.dropWhile isBlank)).getD
    (contentComponent, (starMark afterFunction).2.dropWhile isBlank)

/-- The head of a function behind `export default`. -/
def headBehind? (text : Text) : Option FunctionHead := do
  let afterFunction ← after? "function".toList (asyncMark text).2
  let rest ← after? ['('] ((headName afterFunction).2.dropWhile isBlank)
  some ⟨(asyncMark text).1 ++ "function".toList ++ (starMark afterFunction).1 ++ [' '] ++
    (headName afterFunction).1 ++ ['('], (headName afterFunction).1, rest⟩

theorem functionHead?_eq (text : Text) :
    functionHead? text = (afterExportDefault? text).bind headBehind? :=
  rfl

/-- The name behind `export default`, and the text behind the statement and its line break. -/
def nameBehind? (text : Text) : Option (Text × Text) := do
  let (name, afterName) ← name? text
  let afterSemicolon := dropOne ';' (afterName.dropWhile isBlank)
  some (name, dropOne '\n' (dropOne '\r' (afterSemicolon.dropWhile isSpaceOrTab)))

theorem binding?_eq (text : Text) : binding? text = (afterExportDefault? text).bind nameBehind? :=
  rfl

/-- What a head that is read says of the text. -/
theorem exists_of_headBehind? {text : Text} {head : FunctionHead}
    (found : headBehind? text = some head) :
    ∃ afterFunction more, (asyncMark text).2 = "function".toList ++ afterFunction ∧
      head.declaration = (asyncMark text).1 ++ ("function".toList ++ more) ∧
      head.name = (headName afterFunction).1 := by
  simp only [headBehind?, Option.bind_eq_bind, Option.bind_eq_some_iff] at found
  obtain ⟨afterFunction, isFunction, rest, -, same⟩ := found
  obtain rfl := Option.some.inj same
  refine ⟨afterFunction, (starMark afterFunction).1 ++ ([' '] ++ ((headName afterFunction).1 ++
    ['('])), after?_eq_some_iff.mp isFunction, ?_, rfl⟩
  simp only [List.append_assoc]

/-- The word `async` is taken for a mark if the word `function` stands behind it. -/
theorem asyncMark_cases (text : Text) : asyncMark text = ([], text) ∨
    ∃ blanks rest, text = "async".toList ++ (blanks ++ rest) ∧
      (blanks ≠ [] ∧ ∀ char ∈ blanks, isBlank char = true) ∧
      asyncMark text = ("async".toList ++ blanks, rest) := by
  rw [asyncMark]
  split
  · next rest found =>
    obtain ⟨behind, isAsync, isRest⟩ := Option.bind_eq_some_iff.mp found
    obtain ⟨blanks, nonempty, blank, rfl, -⟩ := afterBlanks?_eq_some_iff.mp isRest
    obtain rfl := after?_eq_some_iff.mp isAsync
    split
    · refine .inr ⟨blanks, rest, rfl, ⟨nonempty, blank⟩, ?_⟩
      rw [← List.append_assoc, List.length_append, Nat.add_sub_cancel, List.take_left']
      rfl
    · exact .inl rfl
  · exact .inl rfl

theorem starMark_of_head? {text : Text} (noStar : (text.dropWhile isBlank).head? ≠ some '*') :
    starMark text = ([], text) := by
  rw [starMark]
  split
  · next isHead =>
    rw [isHead] at noStar
    exact absurd rfl noStar
  · rfl

/-- The name that a function has behind the word `function` is not a longer word that begins with
it. -/
theorem headName_ne {afterFunction : Text}
    (named : name? ("function".toList ++ afterFunction) = some (name, rest))
    (notReserved : name ≠ "function".toList) : (headName afterFunction).1 ≠ name := by
  have read : name? ("function".toList ++ afterFunction) =
      some ("function".toList ++ afterFunction.takeWhile isNamePart,
        afterFunction.dropWhile isNamePart) := rfl
  obtain ⟨rfl, -⟩ := Prod.mk.inj (Option.some.inj (read.symm.trans named))
  cases afterFunction with
  | nil => exact absurd rfl notReserved
  | cons char others =>
    have isPart : isNamePart char = true := by
      by_contra noPart
      rw [List.takeWhile_cons_of_neg noPart] at notReserved
      exact notReserved rfl
    have notBlank : isBlank char = false := by
      by_contra blank
      rw [isNamePart_of_isBlank ((Bool.not_eq_false _).mp blank)] at isPart
      cases isPart
    have same : (char :: others).dropWhile isBlank = char :: others :=
      List.dropWhile_cons_of_neg (by rw [notBlank]; decide)
    have noStar : ((char :: others).dropWhile isBlank).head? ≠ some '*' := by
      rw [same]
      rintro ⟨⟩
      cases isPart
    rw [headName, starMark_of_head? noStar, List.takeWhile_cons_of_pos isPart]
    simp only [same]
    intro isSame
    rw [name?] at isSame
    split at isSame
    · have lengths := congrArg List.length isSame
      have word : "function".toList.length = 8 := rfl
      simp only [Option.getD_some, List.length_append, List.length_cons] at lengths
      omega
    · exact absurd (List.cons.inj isSame).1 (by decide : 'M' ≠ 'f')

theorem BeginsDefault.of_bind {α : Type} {read : Text → Option α} {text : Text} {found : α}
    (isFound : (afterExportDefault? text).bind read = some found) : BeginsDefault text := by
  obtain ⟨rest, isRest, -⟩ := Option.bind_eq_some_iff.mp isFound
  exact .of_afterExportDefault? isRest

/-! ## Blanks and semicolons -/

/-- The rest of a text behind some of its blanks. -/
def IsBehind (text rest : Text) : Prop :=
  ∃ blanks, text = blanks ++ rest ∧ ∀ char ∈ blanks, isBlank char = true

namespace IsBehind

variable {text middle : Text}

theorem refl (text : Text) : IsBehind text text :=
  ⟨[], rfl, nofun⟩

theorem trans (behind : IsBehind text middle) (others : IsBehind middle rest) :
    IsBehind text rest := by
  obtain ⟨blanks, rfl, blank⟩ := behind
  obtain ⟨more, rfl, moreBlank⟩ := others
  exact ⟨blanks ++ more, (List.append_assoc _ _ _).symm,
    List.forall_mem_append.mpr ⟨blank, moreBlank⟩⟩

theorem dropWhile {inClass : Char → Bool}
    (blank : ∀ char, inClass char = true → isBlank char = true) (text : Text) :
    IsBehind text (text.dropWhile inClass) :=
  ⟨text.takeWhile inClass, List.takeWhile_append_dropWhile.symm,
    fun char member => blank char (List.mem_takeWhile_imp member)⟩

theorem dropOne {char : Char} (blank : isBlank char = true) (text : Text) :
    IsBehind text (dropOne char text) := by
  rw [DefaultExport.dropOne]
  cases found : after? [char] text with
  | none => exact refl text
  | some rest =>
    refine ⟨[char], after?_eq_some_iff.mp found, ?_⟩
    rintro other isChar
    rwa [List.mem_singleton.mp isChar]

end IsBehind

/-- A text of blanks, with or without a semicolon behind them. -/
def IsClosing (tail : Text) : Prop :=
  ∃ blanks, (tail = blanks ∨ tail = blanks ++ [';']) ∧ ∀ char ∈ blanks, isBlank char = true

theorem IsClosing.isNamePart_of_mem_head? {tail : Text} (closing : IsClosing tail) :
    ∀ char ∈ tail.head?, isNamePart char = false := by
  obtain ⟨blanks, rfl | rfl, blank⟩ := closing
  · rw [← List.append_nil tail]
    exact isNamePart_of_mem_head?_append blank fun _ _ isHead => absurd isHead (Option.not_mem_none _)
  · refine isNamePart_of_mem_head?_append blank fun _ => ?_
    rintro char ⟨⟩
    decide

/-! ## Functions -/

/-- A character that ends a line of a program. -/
def isLineTerminator (char : Char) : Bool :=
  char = '\n' || char = '\r' || char = '\u2028' || char = '\u2029'

/-- The text of a function, named or anonymous, with its marks. -/
structure FunctionText where
  /-- The word `async` with the blanks behind it, if the function is asynchronous. -/
  mark : Text
  /-- The star with the blanks in front of it, if the function is a generator. -/
  star : Text
  gap : Text
  /-- The name; an anonymous function has none. -/
  name : Text
  space : Text
  /-- The text behind the parenthesis that opens the parameters. -/
  rest : Text
  isMark : mark = [] ∨ ∃ blanks, mark = "async".toList ++ blanks ∧ blanks ≠ [] ∧
    ∀ char ∈ blanks, isBlank char = true ∧ isLineTerminator char = false
  isStar : star = [] ∨ ∃ blanks, star = blanks ++ ['*'] ∧ ∀ char ∈ blanks, isBlank char = true
  isGap : ∀ char ∈ gap, isBlank char = true
  isSpace : ∀ char ∈ space, isBlank char = true
  isName : ∀ char ∈ name, isBlank char = false ∧ char ≠ '(' ∧ char ≠ '*'
  isApart : name ≠ [] → star = [] → gap ≠ []

namespace FunctionText

variable {function : FunctionText}

/-- The function as it stands in the module. -/
def text (function : FunctionText) : Text :=
  function.mark ++ ("function".toList ++ (function.star ++ (function.gap ++
    (function.name ++ (function.space ++ '(' :: function.rest)))))

/-- The name under which the function can be declared. -/
def declaredName (function : FunctionText) : Text :=
  if function.name = [] then contentComponent else function.name

/-- The declaration of the function up to its parenthesis. -/
def declaredHead (function : FunctionText) : Text :=
  function.mark ++ "function".toList ++ function.star ++ [' '] ++ function.declaredName ++ ['(']

/-- The declaration of the function. -/
def declaration (function : FunctionText) : Text :=
  function.declaredHead ++ function.rest

/-- The function is anonymous, or its name is one that is read. -/
def IsReadable (function : FunctionText) : Prop :=
  function.name = [] ∨ IsName function.name

theorem asyncMark_append (function : FunctionText) (rest : Text) :
    asyncMark (function.mark ++ ("function".toList ++ rest)) =
      (function.mark, "function".toList ++ rest) := by
  rcases function.isMark with isNil | ⟨blanks, isMark, nonempty, blank⟩
  · rw [isNil]
    rfl
  · have found : (after? "async".toList (function.mark ++ ("function".toList ++ rest))).bind
        afterBlanks? = some ("function".toList ++ rest) := by
      refine Option.bind_eq_some_iff.mpr ⟨blanks ++ ("function".toList ++ rest), ?_, ?_⟩
      · rw [after?_eq_some_iff, isMark, List.append_assoc]
      · refine afterBlanks?_eq_some_iff.mpr
          ⟨blanks, nonempty, fun char member => (blank char member).1, rfl, ?_⟩
        rintro char ⟨⟩
        decide
    have isFunction : "function".toList.isPrefixOf ("function".toList ++ rest) = true :=
      List.isPrefixOf_iff_prefix.mpr (List.prefix_append _ _)
    rw [asyncMark, found]
    simp only [isFunction, if_true]
    rw [List.length_append, Nat.add_sub_cancel, List.take_left']
    rfl

theorem starMark_append (function : FunctionText)
    (noStar : (rest.dropWhile isBlank).head? ≠ some '*') :
    starMark (function.star ++ rest) = (function.star, rest) := by
  rcases function.isStar with isNil | ⟨blanks, isStar, blank⟩
  · rw [isNil]
    exact starMark_of_head? noStar
  · have dropped : (function.star ++ rest).dropWhile isBlank = '*' :: rest := by
      rw [isStar, List.append_assoc, List.singleton_append]
      exact dropWhile_append_cons blank (by decide) rest
    have taken : (function.star ++ rest).takeWhile isBlank = blanks := by
      rw [isStar, List.append_assoc, List.singleton_append]
      exact takeWhile_append_cons blank (by decide) rest
    rw [starMark, dropped]
    simp only [taken]
    rw [isStar]

/-- The text behind the star. -/
def behindStar (function : FunctionText) (behind : Text) : Text :=
  function.gap ++ (function.name ++ (function.space ++ '(' :: (function.rest ++ behind)))

theorem text_append (function : FunctionText) (behind : Text) :
    function.text ++ behind = function.mark ++ ("function".toList ++
      (function.star ++ function.behindStar behind)) := by
  simp only [text, behindStar, List.append_assoc, List.cons_append]

theorem dropWhile_space (function : FunctionText) (behind : Text) :
    (function.space ++ '(' :: behind).dropWhile isBlank = '(' :: behind :=
  dropWhile_append_cons function.isSpace (by decide) behind

theorem dropWhile_behindStar (function : FunctionText) (behind : Text) :
    (function.behindStar behind).dropWhile isBlank =
      function.name ++ if function.name = [] then '(' :: (function.rest ++ behind)
        else function.space ++ '(' :: (function.rest ++ behind) := by
  rw [behindStar, List.dropWhile_append_of_pos function.isGap]
  cases isNamed : function.name with
  | nil => exact function.dropWhile_space _
  | cons first others =>
    have notBlank := (function.isName first (isNamed ▸ List.mem_cons_self)).1
    exact List.dropWhile_cons_of_neg (by rw [notBlank]; decide)

theorem starMark_behindStar (function : FunctionText) (behind : Text) :
    starMark (function.star ++ function.behindStar behind) =
      (function.star, function.behindStar behind) := by
  apply starMark_append
  rw [dropWhile_behindStar]
  cases isNamed : function.name with
  | nil => exact (by decide : some '(' ≠ some '*')
  | cons first others =>
    have isFirst := function.isName first (isNamed ▸ List.mem_cons_self)
    simpa using isFirst.2.2

/-- The name of the function is read, and what stands behind it. -/
theorem headName_eq (readable : function.IsReadable) (behind : Text) :
    ∃ blanks, (∀ char ∈ blanks, isBlank char = true) ∧
      headName (function.star ++ function.behindStar behind) =
        (function.declaredName, blanks ++ '(' :: (function.rest ++ behind)) := by
  rw [headName, starMark_behindStar]
  simp only
  rw [dropWhile_behindStar, declaredName]
  rcases readable with isNil | isName
  · rw [isNil]
    exact ⟨[], nofun, rfl⟩
  · have nonempty : function.name ≠ [] := by
      rintro isNil
      obtain ⟨first, others, isCons, -⟩ := isName
      rw [isNil] at isCons
      cases isCons
    have found : name? (function.name ++ (function.space ++ '(' :: (function.rest ++ behind))) =
        some (function.name, function.space ++ '(' :: (function.rest ++ behind)) := by
      refine name?_eq_some_iff.mpr ⟨rfl, isName, ?_⟩
      refine isNamePart_of_mem_head?_append function.isSpace fun _ => ?_
      rintro char ⟨⟩
      decide
    rw [if_neg nonempty, if_neg nonempty, found]
    exact ⟨function.space, function.isSpace, rfl⟩

/-- A function whose name is read is read whole. -/
theorem headBehind?_text (readable : function.IsReadable) (behind : Text) :
    headBehind? (function.text ++ behind) =
      some ⟨function.declaredHead, function.declaredName, function.rest ++ behind⟩ := by
  obtain ⟨blanks, blank, named⟩ := headName_eq readable behind
  have isFunction : after? "function".toList
      ("function".toList ++ (function.star ++ function.behindStar behind)) =
        some (function.star ++ function.behindStar behind) :=
    after?_eq_some_iff.mpr rfl
  have opened : after? ['('] ((blanks ++ '(' :: (function.rest ++ behind)).dropWhile isBlank) =
      some (function.rest ++ behind) := by
    rw [dropWhile_append_cons blank (by decide), after?_eq_some_iff]
    rfl
  rw [text_append, headBehind?, asyncMark_append]
  simp only [isFunction, Option.bind_eq_bind, Option.bind_some, starMark_behindStar, named,
    opened]
  rfl

theorem letter_notMem_mark (function : FunctionText) : 'e' ∉ function.mark := by
  rcases function.isMark with isNil | ⟨blanks, isMark, -, blank⟩
  · rw [isNil]
    exact List.not_mem_nil
  · rw [isMark]
    refine List.not_mem_append (by decide) fun member => ?_
    cases (blank 'e' member).1

theorem letter_notMem_star (function : FunctionText) : 'e' ∉ function.star := by
  rcases function.isStar with isNil | ⟨blanks, isStar, blank⟩
  · rw [isNil]
    exact List.not_mem_nil
  · rw [isStar]
    refine List.not_mem_append (fun member => ?_) (by decide)
    cases blank 'e' member

theorem newline_notMem_declaredName (function : FunctionText) : '\n' ∉ function.declaredName := by
  rw [declaredName]
  split
  · decide
  · intro member
    cases (function.isName '\n' member).1

/-- No default export begins in the head of a declaration. -/
theorem isInert_declaredHead (function : FunctionText) :
    isInert true function.declaredHead = true := by
  have noLetter : 'e' ∉ function.mark ++ "function".toList ++ function.star ++ [' '] :=
    List.not_mem_append (List.not_mem_append (List.not_mem_append function.letter_notMem_mark
      (by decide)) function.letter_notMem_star) (by decide)
  rw [declaredHead, isInert_append, isInert_append, isInert_of_letter_notMem noLetter,
    startsLine_append _ _ [' ']]
  simp only [startsLine]
  rw [Bool.true_and, Bool.and_eq_true]
  exact ⟨isInert_of_notMem function.newline_notMem_declaredName,
    isInert_of_letter_notMem (by decide)⟩

theorem startsLine_declaredHead (function : FunctionText) :
    startsLine true function.declaredHead = false := by
  rw [declaredHead, startsLine_append]
  rfl

theorem noDefault_declaration_append (function : FunctionText) (behind : Text) :
    "default".toList.isPrefixOf ((function.declaration ++ behind).dropWhile isBlank) = false := by
  rw [declaration, declaredHead]
  rcases function.isMark with isNil | ⟨blanks, isMark, -⟩
  · rw [isNil]
    rfl
  · rw [isMark]
    rfl

theorem exists_text_eq_cons (function : FunctionText) :
    ∃ first others, function.text = first :: others ∧ isNamePart first = true := by
  rw [text]
  rcases function.isMark with isNil | ⟨blanks, isMark, -⟩
  · rw [isNil]
    exact ⟨'f', _, rfl, by decide⟩
  · rw [isMark]
    exact ⟨'a', _, rfl, by decide⟩

theorem exists_text_eq (function : FunctionText) :
    ∃ opening, function.text = opening ++ ['('] ++ function.rest :=
  ⟨function.mark ++ ("function".toList ++ (function.star ++ (function.gap ++ (function.name ++
    function.space)))), by simp only [text, List.append_assoc, List.singleton_append]⟩

end FunctionText

end MdxBuild.DefaultExport

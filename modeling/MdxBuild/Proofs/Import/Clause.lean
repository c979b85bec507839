import MdxBuild.Proofs.Import.Binding
import MdxBuild.Script.Token

/-!
# Clauses that are read back

A statement whose clause is one name, or a list of names between braces, is read as it is written: it
binds these names and no others. The names are those that stand for themselves in a clause.
-/

namespace MdxBuild.Import

open Text

variable {text clause name behind : Text} {names : List Text}

/-- A name that stands for itself in a clause. -/
structure IsReadable (name : Text) : Prop where
  nonempty : name ≠ []
  isClause : name.all isClauseChar = true
  noBlank : ∀ char ∈ name, isBlank char = false
  noComma : ',' ∉ name
  noBrace : '{' ∉ name

/-! ## Trimming -/

theorem trimEnd_of_getLast? (notBlank : text.getLast?.any isBlank = false) :
    trimEnd text = text := by
  cases text using List.reverseRecOn with
  | nil => rfl
  | append_singleton text char =>
    rw [List.getLast?_concat] at notBlank
    exact trimEndBy_concat_of_not notBlank text

theorem trim_append_append (front back : Text) (isFront : allBlank front = true)
    (noBlank : ∀ char ∈ name, isBlank char = false) (isBack : allBlank back = true) :
    trim (front ++ (name ++ back)) = name := by
  rw [allBlank, List.all_eq_true] at isFront isBack
  cases name with
  | nil =>
    have all : ∀ char ∈ front ++ ([] ++ back), isBlank char = true := by
      intro char member
      rcases List.mem_append.mp member with inFront | inBack
      · exact isFront char inFront
      · exact isBack char inBack
    rw [trim, trimStart, List.dropWhile_eq_nil_iff.mpr all]
    rfl
  | cons first rest =>
    have isFirst := noBlank first List.mem_cons_self
    rw [trim, trimStart, List.cons_append, dropWhile_append_cons isFront isFirst,
      ← List.cons_append, trimEnd, trimEndBy_append isBack, ← trimEnd]
    apply trimEnd_of_getLast?
    rw [List.getLast?_eq_some_getLast (List.cons_ne_nil first rest)]
    exact noBlank _ (List.getLast_mem _)

theorem trim_of_noBlank (noBlank : ∀ char ∈ name, isBlank char = false) : trim name = name := by
  have isTrimmed := trim_append_append [] [] rfl noBlank rfl
  rwa [List.nil_append, List.append_nil] at isTrimmed

/-! ## Statements -/

/-- Where no blank begins a text, no blanks are passed over. -/
theorem afterBlanks?_of_head? {α : Type} (attempt : Text → Option α)
    (notBlank : text.head?.any isBlank = false) : afterBlanks? attempt text = none := by
  cases text with
  | nil => rfl
  | cons char rest =>
    rw [List.head?_cons, Option.any_some] at notBlank
    rw [afterBlanks?, notBlank]
    rfl

/-- A clause between single blanks, without the word `type` at its start, is found whole. -/
theorem clause?_of_clause (nonempty : clause ≠ []) (opens : clause.head?.any isBlank = false)
    (closes : clause.getLast?.any isBlank = false)
    (untyped : ∀ char rest, clause = "type".toList ++ char :: rest → isBlank char = false) :
    clause? (' ' :: (clause ++ [' '])) = some clause := by
  have opensSpaced : (clause ++ [' ']).head?.any isBlank = false := by
    rwa [List.head?_append_of_ne_nil _ nonempty]
  have isLeading : leadingClause? (clause ++ [' ']) = some clause := by
    have long : 2 ≤ (clause ++ [' ']).length := by
      have counted := List.length_pos_iff.mpr nonempty
      rw [List.length_append, List.length_singleton]
      omega
    have isTrimmed : trimEnd (clause ++ [' ']) = clause := by
      have blank : ∀ char ∈ [' '], isBlank char = true := List.all_eq_true.mp (by decide)
      rw [trimEnd, trimEndBy_append blank]
      exact trimEnd_of_getLast? closes
    rw [leadingClause?, List.getLast?_concat, decide_eq_true long, isTrimmed]
    cases clause with
    | nil => exact absurd rfl nonempty
    | cons => rfl
  have notTyped : (after? "type".toList (clause ++ [' '])).bind (afterBlanks? leadingClause?) =
      none := by
    rw [Option.bind_eq_none_iff]
    intro typed isTyped
    rw [after?_eq_some_iff] at isTyped
    cases typed using List.reverseRecOn with
    | nil =>
      have sameLast := congrArg List.getLast? isTyped
      rw [List.getLast?_concat, List.append_nil] at sameLast
      exact absurd sameLast (by decide)
    | append_singleton typed last =>
      rw [← List.append_assoc] at isTyped
      rcases List.append_inj' isTyped rfl with ⟨isClause, same⟩
      cases same
      cases typed with
      | nil => decide +kernel
      | cons char rest =>
        apply afterBlanks?_of_head?
        exact untyped char rest isClause
  rw [clause?, afterBlanks?, if_pos (by decide), afterBlanks?_of_head? _ opensSpaced]
  simp only [notTyped, isLeading]

/-- An import statement with the clause is read as such. -/
theorem clauseStatement?_of_clause (isClause : clause.all isClauseChar = true)
    (nonempty : clause ≠ []) (opens : clause.head?.any isBlank = false)
    (closes : clause.getLast?.any isBlank = false)
    (untyped : ∀ char rest, clause = "type".toList ++ char :: rest → isBlank char = false)
    (behind : Text) :
    ∃ length, clauseStatement? ("import ".toList ++ (clause ++ (" from '".toList ++ behind))) =
      some (clause, length) := by
  have isImport : "import ".toList = "import".toList ++ [' '] := by decide
  have isFrom : " from '".toList = [' '] ++ ("from".toList ++ [' ', '\'']) := by decide
  refine ⟨_, clauseStatement?_eq_some_iff.mpr
    ⟨' ' :: (clause ++ ([' '] ++ ("from".toList ++ [' ']))), behind, ' ' :: (clause ++ [' ']), ?_, ?_,
      clause?_of_clause nonempty opens closes untyped, rfl⟩⟩
  · apply head?_eq_some_iff.mpr
    constructor
    · rw [List.all_cons, List.all_append, isClause]
      decide
    · refine ⟨[], '\'', ?_, rfl, rfl⟩
      rw [isImport, isFrom]
      simp only [List.append_assoc, List.cons_append, List.nil_append]
  · apply beforeFrom?_eq_some_iff.mpr
    have counted := List.length_pos_iff.mpr nonempty
    refine ⟨⟨[' '], ?_, rfl⟩, ?_, rfl, ?_⟩
    · simp only [List.append_assoc, List.cons_append]
    · rw [List.length_cons, List.length_append, List.length_singleton]
      omega
    · rw [← List.cons_append, List.getLast?_concat]
      rfl

/-- A line with a statement binds what its clause binds. -/
theorem bindings_of_clauseStatement? {line : Text} {length : Nat} (isLine : lines line = [line])
    (isRead : clauseStatement? line = some (clause, length)) :
    bindings line = clauseBindings clause := by
  have notAtEnd : clauseStatement? [] = none := rfl
  rw [bindings, atLineStarts_of_line notAtEnd isLine, isRead]
  exact List.append_nil _

/-! ## Names -/

theorem IsReadable.lastWord_eq (readable : IsReadable name) : lastWord name = name := by
  have all : ∀ char ∈ name.reverse, (!isBlank char) = true := by
    intro char member
    rw [readable.noBlank char (List.mem_reverse.mp member)]
    rfl
  rw [lastWord, tailBy, List.takeWhile_eq_self_iff.mpr all, List.reverse_reverse]

theorem splitBraces_of_notMem (noBrace : '{' ∉ clause) : splitBraces clause = (clause, none) := by
  have noneOpens : clause.dropWhile (· != '{') = [] := by
    rw [List.dropWhile_eq_nil_iff]
    rintro char member
    rw [bne_iff_ne]
    rintro rfl
    exact noBrace member
  rw [splitBraces, noneOpens]

/-- One name as a clause. -/
theorem clauseBindings_of_isReadable (readable : IsReadable name) :
    clauseBindings name = [name] := by
  have isOuter : outerBinding name = some name := by
    rw [outerBinding, trim_of_noBlank readable.noBlank]
    split
    · exact absurd rfl readable.nonempty
    · rw [readable.lastWord_eq]
  rw [clauseBindings, splitBraces_of_notMem readable.noBrace]
  dsimp only
  rw [List.splitOn_eq_singleton readable.noComma, List.filterMap_cons_some isOuter]
  rfl

theorem splitLast?_eq_none {part : Text} {char : Char} (member : char ∈ part)
    (absent : char ∉ text) : splitLast? part text = none := by
  rw [Option.eq_none_iff_forall_ne_some]
  rintro ⟨before, after⟩ isSplit
  apply absent
  rw [append_of_splitLast? isSplit]
  exact List.mem_append_right _ (List.mem_append_left _ member)

theorem after?_eq_none {part : Text} {char : Char} (member : char ∈ part) (absent : char ∉ text) :
    after? part text = none := by
  rw [Option.eq_none_iff_forall_ne_some]
  intro rest isAfter
  apply absent
  rw [after?_eq_some_iff.mp isAfter]
  exact List.mem_append_left _ member

/-- One name in a list of names. -/
theorem namedBinding_of_isReadable (front back : Text) (readable : IsReadable name)
    (isFront : allBlank front = true) (isBack : allBlank back = true) :
    namedBinding (front ++ (name ++ back)) = some name := by
  have noSpace : ' ' ∉ name := fun member => absurd (readable.noBlank ' ' member) (by decide)
  have noAlias : splitLast? " as ".toList name = none :=
    splitLast?_eq_none (by decide +revert : ' ' ∈ " as ".toList) noSpace
  have noType : after? "type ".toList name = none :=
    after?_eq_none (by decide +revert : ' ' ∈ "type ".toList) noSpace
  have isShown : shownName (front ++ (name ++ back)) = name := by
    rw [shownName, trim_append_append front back isFront readable.noBlank isBack, noAlias]
    rfl
  have isName : untyped name = name := by
    rw [untyped, trim_of_noBlank readable.noBlank, noType]
    rfl
  rw [namedBinding_eq, isShown, isName, if_neg]
  rw [List.isEmpty_iff]
  exact readable.nonempty

/-- The text between the braces of a list of names. -/
def listed (names : List Text) : Text :=
  ' ' :: ((", ".toList).intercalate names ++ [' '])

theorem namedBindings_listed (readable : ∀ name ∈ names, IsReadable name) (nonempty : names ≠ []) :
    ((listed names).splitOn ',').filterMap namedBinding = names := by
  have noComma {name back : Text} (isName : IsReadable name) (inBack : ',' ∉ back) :
      ',' ∉ ' ' :: (name ++ back) := by
    rw [List.mem_cons, List.mem_append]
    rintro (isSpace | inName | inBack')
    · exact absurd isSpace (by decide)
    · exact isName.noComma inName
    · exact inBack inBack'
  induction names with
  | nil => exact absurd rfl nonempty
  | cons name others ih =>
    have isName := readable name List.mem_cons_self
    cases others with
    | nil =>
      have isBound : namedBinding (' ' :: (name ++ [' '])) = some name :=
        namedBinding_of_isReadable [' '] [' '] isName rfl rfl
      rw [listed, List.intercalate_singleton,
        List.splitOn_eq_singleton (noComma isName (by decide)), List.filterMap_cons_some isBound]
      rfl
    | cons next others =>
      have isBound : namedBinding (' ' :: (name ++ [])) = some name :=
        namedBinding_of_isReadable [' '] [] isName rfl rfl
      rw [List.append_nil] at isBound
      have isSplit : listed (name :: next :: others) =
          ' ' :: name ++ ',' :: listed (next :: others) := by
        have isSeparator : ", ".toList = [',', ' '] := by decide
        rw [listed, listed, List.intercalate_cons_cons, isSeparator]
        simp only [List.append_assoc, List.cons_append, List.nil_append]
      have single := noComma isName (List.not_mem_nil (a := ','))
      rw [List.append_nil] at single
      rw [isSplit, List.splitOn_append_cons_self, List.splitOn_eq_singleton single,
        List.singleton_append, List.filterMap_cons_some isBound,
        ih (fun other member => readable other (List.mem_cons_of_mem name member))
          (List.cons_ne_nil next others)]

theorem splitLast?_concat (text : Text) (char : Char) :
    splitLast? [char] (text ++ [char]) = some (text, []) := by
  induction text with
  | nil => simp [splitLast?, after?]
  | cons first rest ih => rw [List.cons_append, splitLast?, ih]

/-- A list of names between braces as a clause. -/
theorem clauseBindings_of_braces (readable : ∀ name ∈ names, IsReadable name)
    (nonempty : names ≠ []) :
    clauseBindings ('{' :: (listed names ++ ['}'])) = names := by
  have isSplit : splitBraces ('{' :: (listed names ++ ['}'])) = ([], some (listed names)) := by
    rw [splitBraces, List.takeWhile_cons_of_neg (by decide), List.dropWhile_cons_of_neg (by decide)]
    dsimp only
    rw [splitLast?_concat]
    rfl
  have noneOuter : ([[]] : List Text).filterMap outerBinding = [] := rfl
  rw [clauseBindings, isSplit]
  dsimp only
  rw [List.splitOn_nil, noneOuter, List.nil_append, Option.elim_some,
    namedBindings_listed readable nonempty]

/-! ## Statements for names -/

/-- The statement that imports a name as the default export is read back. -/
theorem clauseStatement?_of_isReadable (readable : IsReadable name) (behind : Text) :
    ∃ length, clauseStatement? ("import ".toList ++ (name ++ (" from '".toList ++ behind))) =
      some (name, length) := by
  have nonempty := readable.nonempty
  apply clauseStatement?_of_clause readable.isClause nonempty
  · rw [List.head?_eq_some_head nonempty]
    exact readable.noBlank _ (List.head_mem nonempty)
  · rw [List.getLast?_eq_some_getLast nonempty]
    exact readable.noBlank _ (List.getLast_mem nonempty)
  · rintro char rest rfl
    exact readable.noBlank char (List.mem_append_right _ List.mem_cons_self)

theorem all_isClauseChar_listed (readable : ∀ name ∈ names, IsReadable name) :
    (listed names).all isClauseChar = true := by
  have all : (", ".toList).all isClauseChar = true := by decide
  rw [List.all_eq_true] at all ⊢
  intro char member
  rw [listed, List.mem_cons, List.mem_append, List.mem_singleton] at member
  rcases member with rfl | inNames | rfl
  · rfl
  · rcases mem_of_mem_intercalate inNames with inSeparator | ⟨name, isName, inName⟩
    · exact all char inSeparator
    · exact List.all_eq_true.mp (readable name isName).isClause char inName
  · rfl

/-- The statement that imports named exports is read back. -/
theorem clauseStatement?_of_braces (readable : ∀ name ∈ names, IsReadable name) (behind : Text) :
    ∃ length, clauseStatement?
        ("import ".toList ++ (('{' :: (listed names ++ ['}'])) ++ (" from '".toList ++ behind))) =
      some ('{' :: (listed names ++ ['}']), length) := by
  apply clauseStatement?_of_clause
  · rw [List.all_cons, List.all_append, all_isClauseChar_listed readable]
    decide
  · exact List.cons_ne_nil _ _
  · rfl
  · rw [← List.cons_append, List.getLast?_concat]
    rfl
  · intro char rest isType
    exact absurd (List.cons.inj isType).1 (by decide)

end MdxBuild.Import

namespace MdxBuild

open Text

/-! ## Identifiers -/

/-- The text is an identifier. -/
def Script.isIdentifier : Text → Bool
  | [] => false
  | first :: rest => isNameStart first && rest.all isNamePart

namespace Text

/-- The codes of the blank characters. -/
def blankCodes : List Nat :=
  [9, 10, 11, 12, 13, 0x20, 0x85, 0xA0, 0x1680, 0x2000, 0x2001, 0x2002, 0x2003, 0x2004, 0x2005,
    0x2006, 0x2007, 0x2008, 0x2009, 0x200A, 0x2028, 0x2029, 0x202F, 0x205F, 0x3000]

theorem toNat_mem_blankCodes {char : Char} (blank : isBlank char = true) :
    char.toNat ∈ blankCodes := by
  simp only [isBlank, Bool.or_eq_true, Bool.and_eq_true, decide_eq_true_eq] at blank
  simp only [blankCodes, List.mem_cons, List.not_mem_nil, or_false]
  omega

end Text

namespace Script

variable {name : Text} {char : Char}

/-- No blank belongs to an identifier. -/
theorem not_isName_of_isBlank (blank : isBlank char = true) :
    isNameStart char = false ∧ isNamePart char = false := by
  have none : (blankCodes.all fun code =>
      !isNameStart (Char.ofNat code) && !isNamePart (Char.ofNat code)) = true := by
    decide +kernel
  have isNone := List.all_eq_true.mp none _ (toNat_mem_blankCodes blank)
  rwa [Char.ofNat_toNat, Bool.and_eq_true, Bool.not_eq_true', Bool.not_eq_true'] at isNone

theorem notMem_of_isIdentifier (identifier : isIdentifier name = true)
    (none : isNameStart char = false ∧ isNamePart char = false) : char ∉ name := by
  cases name with
  | nil => exact List.not_mem_nil
  | cons first rest =>
    rw [isIdentifier, Bool.and_eq_true] at identifier
    intro member
    rcases List.mem_cons.mp member with rfl | member
    · rw [none.1] at identifier
      cases identifier.1
    · have isPart := List.all_eq_true.mp identifier.2 char member
      rw [none.2] at isPart
      cases isPart

theorem newline_notMem_of_isIdentifier (identifier : isIdentifier name = true) : '\n' ∉ name :=
  notMem_of_isIdentifier identifier (not_isName_of_isBlank rfl)

/-- An identifier can stand in a clause if its characters can. -/
theorem isReadable_of_isIdentifier (identifier : isIdentifier name = true)
    (isClause : name.all Import.isClauseChar = true) : Import.IsReadable name where
  nonempty := by
    rintro rfl
    cases identifier
  isClause := isClause
  noBlank := by
    intro char member
    by_contra blank
    rw [Bool.not_eq_false] at blank
    exact notMem_of_isIdentifier identifier (not_isName_of_isBlank blank) member
  noComma := notMem_of_isIdentifier identifier (by decide)
  noBrace := notMem_of_isIdentifier identifier (by decide)

end Script

end MdxBuild

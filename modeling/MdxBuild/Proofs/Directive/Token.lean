import MdxBuild.Proofs.Directive.Attribute

/-!
# Attribute tokens

An attribute is a key, alone or with an equals sign and a value. The attributes of a text are looked
for from left to right, and each is taken as long as it can be. Attributes that are joined by single
spaces are found again as they are: none takes in anything of the next one, whatever quotes and
equals signs stand in them. So passing attributes on leaves out those that every tag is given anyway
and changes nothing else.
-/

namespace MdxBuild.Attribute

open Text

variable {text rest value assignment : Text} {token other : Token} {all : List Token}

/-! ## The form of an attribute -/

/-- A value: what stands between two quotes of one kind, with the quotes, or characters that are
neither blanks nor quotes. -/
inductive IsValue : Text → Prop
  | quoted (quote : Char) (inside : Text) (isQuote : quote = '"' ∨ quote = '\'')
      (noQuote : quote ∉ inside) : IsValue (quote :: (inside ++ [quote]))
  | bare (value : Text) (nonempty : value ≠ [])
      (plain : ∀ char ∈ value, isBareChar char = true) : IsValue value

/-- An equals sign and a value, with blanks in front of the sign and behind it. -/
inductive IsAssignment : Text → Prop
  | intro (before behind value : Text) (blankBefore : ∀ char ∈ before, isBlank char = true)
      (blankBehind : ∀ char ∈ behind, isBlank char = true) (isValue : IsValue value) :
      IsAssignment (before ++ '=' :: (behind ++ value))

/-- The token is an attribute: behind its key it has nothing or an assignment. -/
structure Token.IsAttribute (token : Token) : Prop where
  nonempty : token.key ≠ []
  isKey : ∀ char ∈ token.key, isKeyChar char = true
  isText : ∃ tail, token.text = token.key ++ tail ∧ (tail = [] ∨ IsAssignment tail)

/-- The token is an attribute at the start of the text, and none that stands there is longer. -/
structure Token.Begins (token : Token) (text : Text) : Prop where
  isAttribute : token.IsAttribute
  isPrefix : token.text <+: text
  isLongest : ∀ other : Token, other.IsAttribute → other.text <+: text →
    other.text.length ≤ token.text.length

/-- The tokens are the attributes of the text from left to right. Where attributes begin, the
longest one is taken and the search goes on behind it. -/
inductive Found : Text → List Token → Prop
  | nil : Found [] []
  | passed (char : Char) (rest : Text) (all : List Token)
      (beginsNone : ∀ token : Token, token.IsAttribute → ¬token.text <+: char :: rest)
      (found : Found rest all) : Found (char :: rest) all
  | taken (token : Token) (rest : Text) (all : List Token)
      (begins : token.Begins (token.text ++ rest)) (found : Found rest all) :
      Found (token.text ++ rest) (token :: all)

theorem isBlank_eq_false_of_isBareChar {char : Char} (isBare : isBareChar char = true) :
    isBlank char = false := by
  simp only [isBareChar, Bool.and_eq_true, Bool.not_eq_true'] at isBare
  exact isBare.1.1

theorem isBlank_eq_false_of_isKeyChar {char : Char} (isKey : isKeyChar char = true) :
    isBlank char = false := by
  simp only [isKeyChar, Bool.and_eq_true, Bool.not_eq_true'] at isKey
  exact isKey.1

theorem isKeyChar_of_isBlank {char : Char} (blank : isBlank char = true) :
    isKeyChar char = false := by
  rw [isKeyChar, blank]
  rfl

/-- No value begins with a blank. -/
theorem IsValue.dropWhile_append (isValue : IsValue value) (rest : Text) :
    (value ++ rest).dropWhile isBlank = value ++ rest := by
  cases isValue with
  | quoted quote inside isQuote _ =>
    rcases isQuote with rfl | rfl <;> exact List.dropWhile_cons_of_neg (by decide)
  | bare _ nonempty plain =>
    obtain ⟨char, others, rfl⟩ := List.exists_cons_of_ne_nil nonempty
    have notBlank := isBlank_eq_false_of_isBareChar (plain char List.mem_cons_self)
    exact List.dropWhile_cons_of_neg (by simp [notBlank])

/-- No key goes on into an assignment. -/
theorem IsAssignment.takeWhile_append (isAssignment : IsAssignment assignment) (rest : Text) :
    (assignment ++ rest).takeWhile isKeyChar = [] := by
  obtain ⟨before, behind, value, blankBefore, -, -⟩ := isAssignment
  cases before with
  | nil => exact List.takeWhile_cons_of_neg (by decide)
  | cons char before =>
    have isOther := isKeyChar_of_isBlank (blankBefore char List.mem_cons_self)
    exact List.takeWhile_cons_of_neg (by simp [isOther])

/-! ## Reading -/

theorem valueLength?_quote {quote : Char} (isQuote : quote = '"' ∨ quote = '\'') (rest : Text) :
    valueLength? (quote :: rest) =
      if (rest.takeWhile (· != quote)).length < rest.length then
        some ((rest.takeWhile (· != quote)).length + 2)
      else none := by
  rw [valueLength?, if_pos (by simpa using isQuote)]

theorem valueLength?_bare {char : Char} (noQuote : ¬(char = '"' ∨ char = '\'')) (rest : Text) :
    valueLength? (char :: rest) =
      if (char :: rest).takeWhile isBareChar = [] then none
      else some ((char :: rest).takeWhile isBareChar).length := by
  rw [valueLength?, if_neg (by simpa using noQuote)]
  split <;> simp_all

/-- A value is read whole. Only one without quotes goes on into what follows. -/
theorem valueLength?_append (isValue : IsValue value) (rest : Text) :
    ∃ more, valueLength? (value ++ rest) = some (value.length + more) ∧
      more ≤ (rest.takeWhile isBareChar).length := by
  cases isValue with
  | quoted quote inside isQuote noQuote =>
    have within : ∀ char ∈ inside, (char != quote) = true := fun char member =>
      bne_iff_ne.mpr fun same => noQuote (same ▸ member)
    have isInside : (inside ++ quote :: rest).takeWhile (· != quote) = inside :=
      takeWhile_append_cons within (by simp) rest
    refine ⟨0, ?_, Nat.zero_le _⟩
    rw [List.cons_append, List.append_assoc, List.singleton_append, valueLength?_quote isQuote,
      isInside, if_pos (by simp)]
    simp
  | bare _ nonempty plain =>
    obtain ⟨char, others, rfl⟩ := List.exists_cons_of_ne_nil nonempty
    have noQuote : ¬(char = '"' ∨ char = '\'') := by
      have isBare := plain char List.mem_cons_self
      rintro (rfl | rfl) <;> cases isBare
    have isRead : (char :: (others ++ rest)).takeWhile isBareChar =
        char :: others ++ rest.takeWhile isBareChar :=
      List.takeWhile_append_of_pos plain
    refine ⟨(rest.takeWhile isBareChar).length, ?_, Nat.le_refl _⟩
    rw [List.cons_append, valueLength?_bare noQuote, isRead, if_neg (by simp), List.length_append]

/-- What is read as a value is one. -/
theorem exists_of_valueLength? {length : Nat} (read : valueLength? text = some length) :
    ∃ value rest, text = value ++ rest ∧ value.length = length ∧ IsValue value := by
  cases text with
  | nil => cases read
  | cons char others =>
    by_cases isQuote : char = '"' ∨ char = '\''
    · rw [valueLength?_quote isQuote, Option.ite_none_right_eq_some] at read
      obtain ⟨closed, isLength⟩ := read
      have isSplit := others.takeWhile_append_dropWhile (p := (· != char))
      have noQuote : char ∉ others.takeWhile (· != char) := fun member => by
        simpa using List.mem_takeWhile_imp member
      cases behind : others.dropWhile (· != char) with
      | nil =>
        rw [behind, List.append_nil] at isSplit
        rw [isSplit] at closed
        exact absurd closed (Nat.lt_irrefl _)
      | cons quote rest =>
        obtain rfl : quote = char := by
          have stops := List.head?_dropWhile_not (· != char) others
          rw [behind] at stops
          simpa using stops
        refine ⟨_, rest, ?_, ?_, .quoted quote _ isQuote noQuote⟩
        · rw [List.cons_append, List.append_assoc, List.singleton_append, ← behind, isSplit]
        · simpa using isLength
    · rw [valueLength?_bare isQuote, Option.ite_none_left_eq_some] at read
      obtain ⟨nonempty, isLength⟩ := read
      exact ⟨_, _, List.takeWhile_append_dropWhile.symm, Option.some.inj isLength,
        .bare _ nonempty fun char => List.mem_takeWhile_imp⟩

theorem assignmentLength_sign {before behind : Text}
    (blankBefore : ∀ char ∈ before, isBlank char = true)
    (blankBehind : ∀ char ∈ behind, isBlank char = true)
    (notBlank : rest.dropWhile isBlank = rest) :
    assignmentLength (before ++ '=' :: (behind ++ rest)) =
      (valueLength? rest).elim 0 (before.length + 1 + behind.length + ·) := by
  have fromSign : (before ++ '=' :: (behind ++ rest)).dropWhile isBlank =
      '=' :: (behind ++ rest) :=
    dropWhile_append_cons blankBefore (by decide) _
  have fromValue : (behind ++ rest).dropWhile isBlank = rest := by
    rw [List.dropWhile_append_of_pos blankBehind, notBlank]
  simp only [assignmentLength, fromSign, fromValue, if_true, List.length_append, List.length_cons,
    Nat.add_sub_cancel]
  cases valueLength? rest <;> rfl

/-- An assignment is read whole, and only one with a value without quotes goes on. -/
theorem assignmentLength_append (isAssignment : IsAssignment assignment) (rest : Text) :
    ∃ more, assignmentLength (assignment ++ rest) = assignment.length + more ∧
      more ≤ (rest.takeWhile isBareChar).length := by
  obtain ⟨before, behind, value, blankBefore, blankBehind, isValue⟩ := isAssignment
  obtain ⟨more, isLength, isBounded⟩ := valueLength?_append isValue rest
  refine ⟨more, ?_, isBounded⟩
  rw [List.append_assoc, List.cons_append, List.append_assoc,
    assignmentLength_sign blankBefore blankBehind (isValue.dropWhile_append rest), isLength]
  simp only [Option.elim_some, List.length_append, List.length_cons]
  omega

/-- What is read as an assignment is one, unless there is none. -/
theorem exists_of_assignmentLength (text : Text) : assignmentLength text = 0 ∨
    ∃ assignment rest, text = assignment ++ rest ∧
      assignment.length = assignmentLength text ∧ IsAssignment assignment := by
  cases fromSign : text.dropWhile isBlank with
  | nil =>
    left
    simp only [assignmentLength, fromSign]
  | cons sign others =>
    by_cases isSign : sign = '='
    · have blankBefore : ∀ char ∈ text.takeWhile isBlank, isBlank char = true :=
        fun char => List.mem_takeWhile_imp
      have blankBehind : ∀ char ∈ others.takeWhile isBlank, isBlank char = true :=
        fun char => List.mem_takeWhile_imp
      have isText : text.takeWhile isBlank ++
          '=' :: (others.takeWhile isBlank ++ others.dropWhile isBlank) = text := by
        rw [List.takeWhile_append_dropWhile, ← isSign, ← fromSign, List.takeWhile_append_dropWhile]
      have isLength := assignmentLength_sign blankBefore blankBehind
        (List.dropWhile_idempotent isBlank others)
      rw [isText] at isLength
      cases read : valueLength? (others.dropWhile isBlank) with
      | none =>
        left
        rw [isLength, read, Option.elim_none]
      | some length =>
        right
        obtain ⟨value, rest, isRest, rfl, isValue⟩ := exists_of_valueLength? read
        refine ⟨_, rest, ?_, ?_, .intro _ _ value blankBefore blankBehind isValue⟩
        · rw [List.append_assoc, List.cons_append, List.append_assoc, ← isRest, isText]
        · rw [isLength, read]
          simp only [Option.elim_some, List.length_append, List.length_cons]
          omega
    · left
      simp only [assignmentLength, fromSign, if_neg isSign]

theorem assignmentLength_le (text : Text) : assignmentLength text ≤ text.length := by
  rcases exists_of_assignmentLength text with isZero | ⟨assignment, rest, rfl, isLength, -⟩
  · omega
  · rw [← isLength, List.length_append]
    omega

/-- The number of characters of the token that is read at the start of a text. -/
def Token.reach (text : Text) : Nat :=
  let key := text.takeWhile isKeyChar
  key.length + assignmentLength (text.drop key.length)

/-- The token that is read at the start of a text. -/
def Token.atStart (text : Text) : Token :=
  ⟨text.takeWhile isKeyChar, text.take (reach text)⟩

theorem Token.reach_append {key : Text} (isKey : ∀ char ∈ key, isKeyChar char = true)
    (stops : rest.takeWhile isKeyChar = []) :
    reach (key ++ rest) = key.length + assignmentLength rest := by
  rw [reach, List.takeWhile_append_of_pos isKey, stops, List.append_nil, List.drop_left]

/-- Behind its key, the token at the start of a text has what is read as an assignment. -/
theorem Token.atStart_append {key : Text} (isKey : ∀ char ∈ key, isKeyChar char = true)
    (stops : rest.takeWhile isKeyChar = []) :
    atStart (key ++ rest) = ⟨key, key ++ rest.take (assignmentLength rest)⟩ := by
  rw [atStart, reach_append isKey stops, List.takeWhile_append_of_pos isKey, stops,
    List.append_nil, List.take_length_add_append]

theorem Token.length_text_atStart (text : Text) : (atStart text).text.length = reach text := by
  have isBounded := assignmentLength_le (text.drop (text.takeWhile isKeyChar).length)
  have isPart := (List.takeWhile_prefix (p := isKeyChar) (l := text)).length_le
  rw [List.length_drop] at isBounded
  rw [atStart, List.length_take, reach]
  omega

theorem tokensFrom_eq (skip : Nat) (text : Text) :
    tokensFrom skip text = tokens (text.drop skip) := by
  induction text generalizing skip with
  | nil => cases skip <;> rfl
  | cons char rest ih =>
    cases skip with
    | zero => rfl
    | succ skip => exact ih skip

theorem tokens_cons_of_not {char : Char} (notKey : isKeyChar char = false) (rest : Text) :
    tokens (char :: rest) = tokens rest := by
  rw [tokens, tokensFrom, if_neg (by simp [notKey]), ← tokens]

/-- The search goes on behind the token that is read first. -/
theorem tokens_cons {char : Char} (isKey : isKeyChar char = true) (rest : Text) :
    tokens (char :: rest) = Token.atStart (char :: rest) ::
      tokens ((char :: rest).drop (Token.reach (char :: rest))) := by
  have isFirst : tokens (char :: rest) = Token.atStart (char :: rest) ::
      tokensFrom (Token.reach (char :: rest) - 1) rest := by
    rw [tokens, tokensFrom, if_pos isKey]
    rfl
  have isLong : 0 < Token.reach (char :: rest) := by
    rw [Token.reach, List.takeWhile_cons_of_pos isKey, List.length_cons]
    omega
  obtain ⟨more, isReach⟩ := Nat.exists_eq_succ_of_ne_zero isLong.ne'
  rw [isFirst, tokensFrom_eq, isReach, Nat.succ_sub_one, List.drop_succ_cons]

/-! ## Attributes at the start of a text -/

namespace Token

/-- The key of an attribute can be told from its text. -/
theorem IsAttribute.takeWhile_text (isAttribute : token.IsAttribute) :
    token.text.takeWhile isKeyChar = token.key := by
  obtain ⟨-, isKey, tail, isText, isTail⟩ := isAttribute
  rw [isText, List.takeWhile_append_of_pos isKey]
  rcases isTail with rfl | isAssignment
  · simp
  · have stops := isAssignment.takeWhile_append []
    rw [List.append_nil] at stops
    rw [stops, List.append_nil]

theorem isAttribute_atStart (starts : text.takeWhile isKeyChar ≠ []) :
    (atStart text).IsAttribute := by
  have isKey : ∀ char ∈ text.takeWhile isKeyChar, isKeyChar char = true :=
    fun char => List.mem_takeWhile_imp
  have isSplit := text.takeWhile_append_dropWhile (p := isKeyChar)
  have stops : (text.dropWhile isKeyChar).takeWhile isKeyChar = [] := by
    rw [List.takeWhile_eq_nil_iff]
    exact fun nonempty => List.dropWhile_get_zero_not isKeyChar text nonempty
  have isRead := atStart_append isKey stops
  rw [isSplit] at isRead
  rw [isRead]
  refine ⟨starts, isKey, _, rfl, ?_⟩
  rcases exists_of_assignmentLength (text.dropWhile isKeyChar) with
    isZero | ⟨assignment, rest, isRest, isLength, isAssignment⟩
  · rw [isZero]
    exact .inl rfl
  · rw [← isLength, isRest, List.take_left]
    exact .inr isAssignment

/-- No attribute at the start of a text is longer than the one that is read there. -/
theorem IsAttribute.length_le_reach (isAttribute : other.IsAttribute) (rest : Text) :
    other.text.length ≤ reach (other.text ++ rest) := by
  obtain ⟨-, isKey, tail, isText, isTail⟩ := isAttribute
  rw [isText]
  rcases isTail with rfl | isAssignment
  · rw [List.append_nil, reach, List.takeWhile_append_of_pos isKey, List.length_append]
    omega
  · obtain ⟨more, isLength, -⟩ := assignmentLength_append isAssignment rest
    rw [List.append_assoc, reach_append isKey (isAssignment.takeWhile_append rest), isLength,
      List.length_append]
    omega

theorem begins_atStart (starts : text.takeWhile isKeyChar ≠ []) : (atStart text).Begins text where
  isAttribute := isAttribute_atStart starts
  isPrefix := List.take_prefix _ _
  isLongest := by
    rintro other isAttribute ⟨rest, rfl⟩
    rw [length_text_atStart]
    exact isAttribute.length_le_reach rest

/-- Only one token is the longest attribute at the start of a text. -/
theorem Begins.unique (begins : token.Begins text) (otherBegins : other.Begins text) :
    token = other := by
  have sameLength : token.text.length = other.text.length :=
    Nat.le_antisymm (otherBegins.isLongest token begins.isAttribute begins.isPrefix)
      (begins.isLongest other otherBegins.isAttribute otherBegins.isPrefix)
  have sameText : token.text = other.text :=
    (List.prefix_of_prefix_length_le begins.isPrefix otherBegins.isPrefix
      sameLength.le).eq_of_length sameLength
  have sameKey : token.key = other.key := by
    rw [← begins.isAttribute.takeWhile_text, sameText, otherBegins.isAttribute.takeWhile_text]
  cases token
  cases other
  simp_all

end Token

/-! ## The tokens of a text -/

/-- Attributes begin where a key does. -/
theorem Token.IsAttribute.exists_cons (isAttribute : token.IsAttribute) :
    ∃ char others, token.text = char :: others ∧ isKeyChar char = true := by
  obtain ⟨nonempty, isKey, tail, isText, -⟩ := isAttribute
  obtain ⟨char, others, isCons⟩ := List.exists_cons_of_ne_nil nonempty
  rw [isCons, List.cons_append] at isText
  exact ⟨char, _, isText, isKey char (isCons ▸ List.mem_cons_self)⟩

/-- A character of a key is an attribute. -/
theorem isAttribute_singleton {char : Char} (isKey : isKeyChar char = true) :
    Token.IsAttribute ⟨[char], [char]⟩ where
  nonempty := List.cons_ne_nil char []
  isKey := by simpa using isKey
  isText := ⟨[], rfl, .inl rfl⟩

theorem tokens_append (begins : token.Begins (token.text ++ rest)) :
    tokens (token.text ++ rest) = token :: tokens rest := by
  obtain ⟨char, others, isCons, isKey⟩ := begins.isAttribute.exists_cons
  have isText : token.text ++ rest = char :: (others ++ rest) := by
    rw [isCons, List.cons_append]
  have starts : (token.text ++ rest).takeWhile isKeyChar ≠ [] := by
    rw [isText, List.takeWhile_cons_of_pos isKey]
    exact List.cons_ne_nil _ _
  have isRead : Token.atStart (token.text ++ rest) = token :=
    (Token.begins_atStart starts).unique begins
  have isReach : Token.reach (token.text ++ rest) = token.text.length := by
    rw [← Token.length_text_atStart, isRead]
  rw [isText, tokens_cons isKey, ← isText, isRead, isReach, List.drop_left]

/-- The tokens of a text are the only ones that a search from left to right finds. -/
theorem Found.eq_tokens (found : Found text all) : all = tokens text := by
  induction found with
  | nil => rfl
  | passed char rest all beginsNone _ ih =>
    cases isKey : isKeyChar char with
    | true =>
      exact absurd (List.prefix_append [char] rest) (beginsNone _ (isAttribute_singleton isKey))
    | false => rw [tokens_cons_of_not isKey, ih]
  | taken token rest all begins _ ih => rw [tokens_append begins, ih]

theorem found_tokens (text : Text) : Found text (tokens text) := by
  induction isLength : text.length using Nat.strong_induction_on generalizing text with
  | _ length ih =>
    subst isLength
    cases text with
    | nil => exact .nil
    | cons char rest =>
      cases isKey : isKeyChar char with
      | false =>
        rw [tokens_cons_of_not isKey]
        refine .passed char rest _ ?_ (ih rest.length (Nat.lt_succ_self _) rest rfl)
        intro token isAttribute isPrefix
        obtain ⟨first, others, isCons, isFirst⟩ := isAttribute.exists_cons
        rw [isCons, List.cons_prefix_cons] at isPrefix
        rw [isPrefix.1, isKey] at isFirst
        cases isFirst
      | true =>
        have starts : (char :: rest).takeWhile isKeyChar ≠ [] := by
          rw [List.takeWhile_cons_of_pos isKey]
          exact List.cons_ne_nil _ _
        obtain ⟨token, begins⟩ : ∃ token : Token, token.Begins (char :: rest) :=
          ⟨_, Token.begins_atStart starts⟩
        obtain ⟨behind, isText⟩ := begins.isPrefix
        obtain ⟨first, others, isCons, -⟩ := begins.isAttribute.exists_cons
        have shorter : behind.length < (char :: rest).length := by
          rw [← isText, isCons, List.length_append, List.length_cons]
          omega
        rw [← isText] at begins ⊢
        rw [tokens_append begins]
        exact .taken token behind _ begins (ih behind.length shorter behind rfl)

theorem found_iff : Found text all ↔ all = tokens text :=
  ⟨Found.eq_tokens, fun isTokens => isTokens ▸ found_tokens text⟩

theorem Found.isAttribute (found : Found text all) : ∀ token ∈ all, token.IsAttribute := by
  induction found with
  | nil => simp
  | passed _ _ _ _ _ ih => exact ih
  | taken token _ _ begins _ ih => exact List.forall_mem_cons.mpr ⟨begins.isAttribute, ih⟩

/-! ## Attributes joined by spaces -/

/-- No attribute goes on into the text: neither its key nor an assignment nor a value. -/
structure IsApart (rest : Text) : Prop where
  noKey : rest.takeWhile isKeyChar = []
  noAssignment : assignmentLength rest = 0
  noValue : rest.takeWhile isBareChar = []

theorem isApart_nil : IsApart [] :=
  ⟨rfl, rfl, rfl⟩

/-- A space ends an attribute if a further one begins behind it. -/
theorem isApart_space {char : Char} (isKey : isKeyChar char = true) (rest : Text) :
    IsApart (' ' :: char :: rest) where
  noKey := List.takeWhile_cons_of_neg (by decide)
  noAssignment := by
    have notBlank : ¬isBlank char = true := by simp [isBlank_eq_false_of_isKeyChar isKey]
    have noSign : char ≠ '=' := by
      rintro rfl
      cases isKey
    have fromKey : (' ' :: char :: rest).dropWhile isBlank = char :: rest := by
      rw [List.dropWhile_cons_of_pos (by decide), List.dropWhile_cons_of_neg notBlank]
    simp only [assignmentLength, fromKey, if_neg noSign]
  noValue := List.takeWhile_cons_of_neg (by decide)

/-- In front of a text that stands apart, an attribute is read as it is. -/
theorem Token.IsAttribute.begins (isAttribute : token.IsAttribute) (apart : IsApart rest) :
    token.Begins (token.text ++ rest) := by
  have isReach : reach (token.text ++ rest) = token.text.length := by
    obtain ⟨-, isKey, tail, isText, isTail⟩ := isAttribute
    rw [isText]
    rcases isTail with rfl | isAssignment
    · rw [List.append_nil, reach_append isKey apart.noKey, apart.noAssignment]
      rfl
    · obtain ⟨more, isLength, isBounded⟩ := assignmentLength_append isAssignment rest
      rw [apart.noValue, List.length_nil, Nat.le_zero] at isBounded
      rw [List.append_assoc, reach_append isKey (isAssignment.takeWhile_append rest), isLength,
        isBounded, List.length_append, Nat.add_zero]
  refine ⟨isAttribute, List.prefix_append _ _, ?_⟩
  rintro other isOther ⟨behind, isText⟩
  rw [← isReach, ← isText]
  exact isOther.length_le_reach behind

/-- Attributes that are joined by spaces are found as they are. -/
theorem tokens_intercalate (areAttributes : ∀ token ∈ all, token.IsAttribute) :
    tokens ([' '].intercalate (all.map Token.text)) = all := by
  cases all with
  | nil => rfl
  | cons token others =>
    rw [List.map_cons, intercalate_cons, List.flatMap_map]
    induction others generalizing token with
    | nil =>
      have isAttribute := areAttributes token List.mem_cons_self
      exact tokens_append (isAttribute.begins isApart_nil)
    | cons next others ih =>
      obtain ⟨isAttribute, othersAre⟩ := List.forall_mem_cons.mp areAttributes
      obtain ⟨char, behind, isCons, isKey⟩ :=
        (othersAre next List.mem_cons_self).exists_cons
      have isNext := ih next othersAre
      rw [List.flatMap_cons, List.append_assoc, List.singleton_append]
      rw [tokens_append (isAttribute.begins _), tokens_cons_of_not (by decide), isNext]
      rw [isCons, List.cons_append]
      exact isApart_space isKey _

/-! ## Attributes that are passed on -/

theorem Token.isSynthesized_eq (token : Token) : token.isSynthesized =
    (sameIgnoringCase token.key "type".toList || sameIgnoringCase token.key "title".toList) := by
  have isType : asciiLower "type".toList = "type".toList := by decide
  have isTitle : asciiLower "title".toList = "title".toList := by decide
  rw [isSynthesized, synthesizedKeys, sameIgnoringCase, sameIgnoringCase, isType, isTitle,
    List.contains_cons, List.contains_cons, List.contains_nil, Bool.or_false]

/-- What is passed on has the tokens that are passed on. -/
theorem tokens_passedOn (text : Text) :
    tokens (passedOn text) = (tokens text).filter (!·.isSynthesized) :=
  tokens_intercalate fun token member =>
    (found_tokens text).isAttribute token (List.mem_of_mem_filter member)

theorem passedOn_passedOn (text : Text) : passedOn (passedOn text) = passedOn text := by
  rw [passedOn, tokens_passedOn, List.filter_filter, passedOn]
  simp only [Bool.and_self]

/-- Passing attributes on is a filter of tokens. There is only one list of attributes that a search
from left to right finds in a text. Those whose key is neither `type` nor `title` up to ASCII case
are passed on in order and as they stand, joined by spaces. A search of the result finds them and no
other, so nothing is left to be filtered out. -/
theorem passedOn_filters (text : Text) :
    ∃ all kept, (∀ others, Found text others ↔ others = all) ∧
      kept = all.filter (fun token => !(sameIgnoringCase token.key "type".toList ||
        sameIgnoringCase token.key "title".toList)) ∧
      passedOn text = [' '].intercalate (kept.map Token.text) ∧
      (∀ others, Found (passedOn text) others ↔ others = kept) ∧
      passedOn (passedOn text) = passedOn text := by
  refine ⟨tokens text, tokens (passedOn text), fun _ => found_iff, ?_, ?_, fun _ => found_iff,
    passedOn_passedOn text⟩
  · rw [tokens_passedOn]
    simp only [Token.isSynthesized_eq]
  · rw [tokens_passedOn, passedOn]

/-- A quote that is not closed and an equals sign without a value stay harmless. -/
example : passedOn "TYPE=x 'a= b = \"c d\" Title e=\"f".toList =
    "'a= b \"c d\" e \"f".toList := by
  decide +kernel

end MdxBuild.Attribute

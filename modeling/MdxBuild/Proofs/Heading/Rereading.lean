import MdxBuild.Proofs.Heading.Literals
import MdxBuild.Proofs.Json.Scanning

/-!
# Reading printed literals

Strings are printed with the escapes of JSON and read as literals of the generated code. All
escapes are understood that printing uses, but for those of the backspace and of the form feed:
these are read as the letters `b` and `f`. So exactly the strings without these two characters are
read back, as the text of a heading and as an id.
-/

namespace MdxBuild.Generated

open Text

variable {value rest inside : Text} {char letter : Char}

/-! ## Escapes -/

/-- What a letter behind a backslash is read as, unless it begins a longer escape. -/
def letterEscape (letter : Char) : Char :=
  if letter = 'n' then '\n' else if letter = 't' then '\t' else if letter = 'r' then '\r'
  else letter

theorem decodeFrom_letter (notLong : letter ≠ 'u') (rest : Text) :
    decodeFrom 0 ('\\' :: letter :: rest) = letterEscape letter :: decodeFrom 0 rest := by
  simp only [decodeFrom, letterEscape, bne_self_eq_false, Bool.false_eq_true, if_false, notLong]
  split_ifs <;> rfl

theorem decodeFrom_char (notBackslash : char ≠ '\\') (rest : Text) :
    decodeFrom 0 (char :: rest) = char :: decodeFrom 0 rest := by
  rw [decodeFrom.eq_def]
  exact if_pos (bne_iff_ne.mpr notBackslash)

/-- The long escape of a control character is read as the character. -/
theorem unicodeEscape?_control (control : char.toNat < 32) (rest : Text) :
    unicodeEscape? ('0' :: '0' :: Json.hexDigit (char.toNat / 16) ::
      Json.hexDigit (char.toNat % 16) :: rest) = some (char, 4) := by
  have noBrace : after? ['\x7b'] ('0' :: '0' :: Json.hexDigit (char.toNat / 16) ::
      Json.hexDigit (char.toNat % 16) :: rest) = none := rfl
  have isNumber := Json.hexNumber?_control _ control
  have fits : char.toNat < Nat.pow 2 32 := Nat.lt_trans control (by decide)
  have isCode : hexCode? ['0', '0', Json.hexDigit (char.toNat / 16),
      Json.hexDigit (char.toNat % 16)] = some char.toNat := by
    change (do
      let found ← Json.hexNumber? ['0', '0', Json.hexDigit (char.toNat / 16),
        Json.hexDigit (char.toNat % 16)]
      if found < Nat.pow 2 32 then some found else none) = some char.toNat
    rw [isNumber]
    exact if_pos fits
  have isChar : charOfCode? char.toNat = some char := by
    rw [charOfCode?, if_pos (show char.toNat.isValidChar from char.valid), Char.ofNat_toNat]
  simp only [unicodeEscape?, noBrace, List.take_succ_cons, List.take_zero, isCode,
    Option.bind_some, isChar, Option.map_some]

theorem decodeFrom_control (control : char.toNat < 32) (rest : Text) :
    decodeFrom 0 ('\\' :: 'u' :: '0' :: '0' :: Json.hexDigit (char.toNat / 16) ::
      Json.hexDigit (char.toNat % 16) :: rest) = char :: decodeFrom 0 rest := by
  have isEscape := unicodeEscape?_control control rest
  rw [decodeFrom]
  simp only [isEscape]
  rfl

/-- What a character is read as that was printed into a literal. -/
def reread (char : Char) : Char :=
  if char = '\x08' then 'b' else if char = '\x0c' then 'f' else char

theorem reread_eq_iff : reread char = char ↔ char ≠ '\x08' ∧ char ≠ '\x0c' := by
  rw [reread]
  split_ifs with isBackspace isFormFeed
  · subst isBackspace
    decide
  · subst isFormFeed
    decide
  · exact iff_of_true rfl ⟨isBackspace, isFormFeed⟩

/-- Exactly the strings without backspaces and form feeds are read as what they are. -/
theorem map_reread_eq_iff : value.map reread = value ↔ '\x08' ∉ value ∧ '\x0c' ∉ value := by
  induction value with
  | nil => simp
  | cons char value ih =>
    rw [List.map_cons, List.cons.injEq, reread_eq_iff, ih]
    simp only [List.mem_cons, not_or]
    tauto

/-- A printed character is read as what it is reread as, before anything that follows it. -/
theorem decodeFrom_escapeChar (char : Char) (rest : Text) :
    decodeFrom 0 (Json.escapeChar char ++ rest) = reread char :: decodeFrom 0 rest := by
  unfold Json.escapeChar
  split
  · next isQuote =>
    subst isQuote
    exact decodeFrom_letter (by decide) rest
  split
  · next isBackslash =>
    subst isBackslash
    exact decodeFrom_letter (by decide) rest
  split
  · next isBackspace =>
    subst isBackspace
    exact decodeFrom_letter (by decide) rest
  split
  · next isFormFeed =>
    subst isFormFeed
    exact decodeFrom_letter (by decide) rest
  split
  · next isLineFeed =>
    subst isLineFeed
    exact decodeFrom_letter (by decide) rest
  split
  · next isReturn =>
    subst isReturn
    exact decodeFrom_letter (by decide) rest
  split
  · next isTab =>
    subst isTab
    exact decodeFrom_letter (by decide) rest
  next notBackslash notBackspace notFormFeed _ _ _ =>
    rw [reread_eq_iff.mpr ⟨notBackspace, notFormFeed⟩]
    split
    · next control => exact decodeFrom_control control rest
    · exact decodeFrom_char notBackslash rest

/-- Reading what was printed between quotes rereads each character. -/
theorem decode_escape (value : Text) : decode (Json.escape value) = value.map reread := by
  rw [decode]
  induction value with
  | nil => rfl
  | cons char value ih => rw [Json.escape_cons, decodeFrom_escapeChar, ih, List.map_cons]

/-! ## Printed values -/

/-- A printed string is read as a text, whatever follows it. -/
theorem childrenOf_quote (value rest : Text) :
    childrenOf (Json.quote value ++ rest) = .text (value.map reread) := by
  have printed : Json.quote value ++ rest = '"' :: (Json.escape value ++ '"' :: rest) := by
    simp [Json.quote]
  have noBlank : skipBlanks ('"' :: (Json.escape value ++ '"' :: rest)) =
      '"' :: (Json.escape value ++ '"' :: rest) :=
    List.dropWhile_cons_of_neg (by decide)
  have isLiteral := (literalBody_escape value).literal? (by decide) rest
  have isQuote : isQuote '"' = true := rfl
  have notTemplate : ('"' = '`' && occursIn ['$', '\x7b'] (Json.escape value)) = false := rfl
  rw [printed, childrenOf, readChildren, noBlank]
  simp only [isQuote, if_true, isLiteral, notTemplate, Bool.false_eq_true, if_false,
    Option.getD_some, decode_escape]

/-- The id property is the first one where it stands. -/
theorem property?_idProperty (slug others : Text) :
    property? "id".toList (idProperty slug ++ others) =
      some (Json.quote slug ++ ([','] ++ others)) := by
  have names : Names "id".toList (idProperty slug ++ others)
      (' ' :: (Json.quote slug ++ ([','] ++ others))) := by
    have split : idProperty slug ++ others =
        " id: ".toList ++ (Json.quote slug ++ ([','] ++ others)) := by
      simp [idProperty]
    rw [split]
    exact ⟨rfl, rfl⟩
  rw [property?, propertyFrom?_of_names names.isProperty names]
  rfl

theorem balanced_idProperty (slug : Text) : Balanced (idProperty slug) := by
  have printed : idProperty slug =
      " id: ".toList ++ '"' :: (Json.escape slug ++ '"' :: [',']) := by
    simp [idProperty, Json.quote]
  have comma : Balanced [','] := .plain ',' [] (by decide) .nil
  have keyIsPlain : ∀ char ∈ " id: ".toList, isPlain char = true :=
    List.all_eq_true.mp (by decide)
  rw [printed]
  exact (Balanced.of_all_isPlain keyIsPlain).append
    (.literal '"' _ [','] (by decide) (literalBody_escape slug) comma)

/-- A call behind whose brace an id property stands has it among its props. -/
theorem exists_of_idProperty {code slug : Text} {call : HeadingCall}
    (isBehind : IsBehindBrace code inside call)
    (stands : Bytewise.StandsAt code call.offset (idProperty slug ++ rest)) :
    ∃ others, inside = idProperty slug ++ others := by
  obtain ⟨before, header, closing, after, same, -, balanced, closes, isCall⟩ := isBehind
  have atBrace : Bytewise.StandsAt code (utf8Length (before ++ header))
      ('\x7b' :: (inside ++ closing :: after)) := ⟨before ++ header, same, rfl⟩
  have isOffset : call.offset = utf8Length (before ++ header) + 1 := congrArg (·.offset) isCall
  rw [isOffset] at stands
  have sameRest : inside ++ closing :: after = idProperty slug ++ rest :=
    Except.ok.inj ((atBrace.cons (by decide)).cutFrom.symm.trans stands.cutFrom)
  have isBracketed : bracketed? (idProperty slug ++ rest) = some (inside, after) :=
    bracketed?_eq_some_iff.mpr ⟨balanced, closing, closes, sameRest.symm⟩
  rw [bracketed?, (balanced_idProperty slug).closingFrom?, precede_eq_some] at isBracketed
  obtain ⟨others, -, isInside⟩ := isBracketed
  exact ⟨others, isInside⟩

/-! ## The main statement -/

/-- What is printed is read back with each character reread: between the quotes of a literal, as
the text of a heading whose children are one printed string, and as the id of a call behind whose
brace an id property stands. So it is read back as it was exactly if it has neither a backspace nor
a form feed. -/
theorem printed_read_back_iff (value code : Text) :
    (decode (Json.escape value) = value.map reread ∧
      (∀ inside call rest, IsBehindBrace code inside call →
        property? "children".toList inside = some (Json.quote value ++ rest) →
        call.text? = some (value.map reread)) ∧
      ∀ call ∈ located code, ∀ rest,
        Bytewise.StandsAt code call.offset (idProperty value ++ rest) →
        call.existingId = some (value.map reread)) ∧
    (value.map reread = value ↔ '\x08' ∉ value ∧ '\x0c' ∉ value) := by
  refine ⟨⟨decode_escape value, ?_, ?_⟩, map_reread_eq_iff⟩
  · intro inside call rest isBehind isChildren
    obtain ⟨before, header, closing, after, -, -, -, -, isCall⟩ := isBehind
    have areChildren : call.children = some (.text (value.map reread)) := by
      rw [isCall, HeadingCall.ofProps, isChildren, Option.map_some, childrenOf_quote]
    rw [HeadingCall.text?, areChildren]
    rfl
  · intro call member rest stands
    obtain ⟨inside, isBehind⟩ := isBehindBrace_of_mem_located member
    obtain ⟨others, rfl⟩ := exists_of_idProperty isBehind stands
    obtain ⟨before, header, closing, after, -, -, -, -, isCall⟩ := isBehind
    rw [isCall, HeadingCall.ofProps, property?_idProperty, Option.map_some, childrenOf_quote]
    rfl

/-- A title that takes a short escape, a long one and a character of two bytes. -/
def Trial.title : Text :=
  "a\"\x01é".toList

/-- The props of a heading with this title and an id of the same text. -/
def Trial.titledProps : Text :=
  idProperty Trial.title ++ "children:".toList ++ Json.quote Trial.title

/-- A module with this heading, in front of its props and behind them. -/
def Trial.titled : Text :=
  "_jsx(_components.h1,\x7b".toList ++ (Trial.titledProps ++ "\x7d);".toList)

theorem Trial.bracketed?_titled :
    bracketed? (Trial.titledProps ++ "\x7d);".toList) = some (Trial.titledProps, ");".toList) := by
  decide +kernel

theorem Trial.located_titled :
    located Trial.titled = [.ofProps 21 1 Trial.titledProps] := by
  have isHeader : headers Trial.titled = [(1, Trial.titledProps ++ "\x7d);".toList)] := by
    decide +kernel
  have offset : utf8Length Trial.titled -
      utf8Length (Trial.titledProps ++ "\x7d);".toList) = 21 := by
    decide +kernel
  simp only [located, isHeader, List.filterMap_cons, List.filterMap_nil,
    Trial.bracketed?_titled, Option.map_some, offset]

/-- The title is read back as the text and as the id of the heading. -/
theorem title_read_back_of_titled :
    '\x08' ∉ Trial.title ∧ '\x0c' ∉ Trial.title ∧
      ∃ call ∈ located Trial.titled,
        call.text? = some Trial.title ∧ call.existingId = some Trial.title := by
  have noBackspace : '\x08' ∉ Trial.title := by decide
  have noFormFeed : '\x0c' ∉ Trial.title := by decide
  obtain ⟨⟨-, readsText, readsId⟩, unchanged⟩ :=
    printed_read_back_iff Trial.title Trial.titled
  rw [unchanged.mpr ⟨noBackspace, noFormFeed⟩] at readsText readsId
  have member : .ofProps 21 1 Trial.titledProps ∈ located Trial.titled :=
    Trial.located_titled ▸ List.mem_singleton_self _
  have balanced : Balanced Trial.titledProps :=
    (bracketed?_eq_some_iff.mp Trial.bracketed?_titled).1
  have isBehind : IsBehindBrace Trial.titled Trial.titledProps (.ofProps 21 1 Trial.titledProps) :=
    ⟨[], "_jsx(_components.h1,".toList, '\x7d', ");".toList, rfl, by decide +kernel, balanced,
      rfl, rfl⟩
  have stands : Bytewise.StandsAt Trial.titled 21 (idProperty Trial.title ++
      ("children:".toList ++ Json.quote Trial.title ++ "\x7d);".toList)) :=
    ⟨"_jsx(_components.h1,\x7b".toList, by decide +kernel, by decide⟩
  have isChildren : property? "children".toList Trial.titledProps =
      some (Json.quote Trial.title ++ []) := by
    decide +kernel
  exact ⟨noBackspace, noFormFeed, _, member, readsText _ _ [] isBehind isChildren,
    readsId _ member _ stands⟩

/-- A backspace is read as a letter, so the heading that has one in its text is not recognised. -/
theorem backspace_not_read_back :
    decode (Json.escape ['\x08']) ≠ ['\x08'] ∧
      injectIds [⟨1, ['x'], "a\x08b".toList⟩]
          ("_jsx(\"h1\",\x7bchildren:".toList ++ Json.quote "a\x08b".toList ++ "\x7d)".toList) =
        "_jsx(\"h1\",\x7bchildren:".toList ++ Json.quote "a\x08b".toList ++ "\x7d)".toList := by
  decide +kernel

end MdxBuild.Generated

import MdxBuild.Proofs.Heading.Injection
import MdxBuild.Proofs.Heading.Lexeme

/-!
# Ids and literals

Headers of heading calls are looked for in the whole text of a module, its literals included. An id
is inserted into a literal exactly if the header of its call begins there. If no such call is
assigned a heading, the ids stand between the lexemes of the module, and these stay as they are.
-/

namespace MdxBuild.Generated

open Text Lexeme

variable {headings : List HeadingRecord} {lexemes : List Lexeme} {call : HeadingCall}

/-- The header of the call begins inside a literal. -/
def HeadingCall.BeginsInside (lexemes : List Lexeme) (call : HeadingCall) : Prop :=
  ∃ before header props, spell lexemes = before ++ header ++ '{' :: props ∧
    headingHeader? (header ++ '{' :: props) = some (call.depth, props) ∧
    call.offset = utf8Length (before ++ header) + 1 ∧ IsInside lexemes (utf8Length before)

/-- The id of a call would stand inside a literal exactly if its header begins there. -/
theorem isInside_offset_iff (member : call ∈ located (spell lexemes)) :
    IsInside lexemes call.offset ↔ call.BeginsInside lexemes := by
  constructor
  · intro isInside
    obtain ⟨inside, before, header, closing, after, same, isHeader, -, -, isCall⟩ :=
      isBehindBrace_of_mem_located member
    obtain ⟨spelled, sameHeader, isHeadingHeader⟩ := exists_headingHeader isHeader
    obtain rfl := List.append_cancel_right sameHeader
    have isOffset : call.offset = utf8Length (before ++ header) + 1 := by
      rw [isCall]
      rfl
    refine ⟨before, header, _, same, isHeader, isOffset, ?_⟩
    rwa [isOffset, isInside_behind_header same isHeadingHeader] at isInside
  · rintro ⟨before, header, props, same, isHeader, isOffset, isInside⟩
    obtain ⟨spelled, sameHeader, isHeadingHeader⟩ := exists_headingHeader isHeader
    obtain rfl := List.append_cancel_right sameHeader
    rwa [isOffset, isInside_behind_header same isHeadingHeader]

/-! ## The lexemes of an id -/

/-- Characters outside of literals. -/
def Lexeme.others : (text : Text) → (noQuotes : text.all (!isQuote ·) = true) → List Lexeme
  | [], _ => []
  | char :: rest, noQuotes =>
    have both := (Bool.and_eq_true _ _).mp noQuotes
    .other char ((Bool.not_eq_true' _).mp both.1) :: Lexeme.others rest both.2

@[simp]
theorem Lexeme.spell_others (text : Text) (noQuotes : text.all (!isQuote ·) = true) :
    spell (Lexeme.others text noQuotes) = text := by
  induction text with
  | nil => rfl
  | cons char rest ih => exact congrArg (char :: ·) (ih _)

theorem literalBody_of_all {quote : Char} {inner : Text}
    (others : inner.all (fun char => char != '\\' && char != quote) = true) :
    LiteralBody quote inner :=
  literalBody_of_forall fun char member => by simpa using List.all_eq_true.mp others char member

theorem literalBody_escapeChar (char : Char) : LiteralBody '"' (Json.escapeChar char) := by
  have hidden (char : Char) : LiteralBody '"' ['\\', char] := .hidden char [] .nil
  have digits : ∀ value < 16, Json.hexDigit value ≠ '\\' ∧ Json.hexDigit value ≠ '"' := by decide
  by_cases isQuote : char = '"'
  · rw [Json.escapeChar, if_pos isQuote]
    exact hidden '"'
  by_cases isBackslash : char = '\\'
  · rw [Json.escapeChar, if_neg isQuote, if_pos isBackslash]
    exact hidden '\\'
  rw [Json.escapeChar, if_neg isQuote, if_neg isBackslash]
  iterate 5
    split
    · exact hidden _
  split
  · next isControl =>
    refine .hidden 'u' _ (literalBody_of_forall ?_)
    have high : char.toNat / 16 < 16 := by omega
    have low : char.toNat % 16 < 16 := Nat.mod_lt _ (by decide)
    simp only [List.forall_mem_cons]
    exact ⟨by decide, by decide, digits _ high, digits _ low, List.forall_mem_nil _⟩
  · exact .char char [] isBackslash isQuote .nil

/-- What stands between the quotes of a printed string. -/
theorem literalBody_escape (value : Text) : LiteralBody '"' (Json.escape value) := by
  induction value with
  | nil => exact .nil
  | cons char rest ih => exact (literalBody_escapeChar char).append ih

/-- The lexemes of an id property: its value is a literal. -/
def idLexemes (slug : Text) : List Lexeme :=
  Lexeme.others " id: ".toList (by decide) ++
    .literal '"' (Json.escape slug) (by decide) (literalBody_escape slug) ::
      Lexeme.others [','] (by decide)

theorem spell_idLexemes (slug : Text) : spell (idLexemes slug) = idProperty slug := by
  show spell (idLexemes slug) = " id: ".toList ++ Json.quote slug ++ [',']
  rw [idLexemes, spell_append, spell_others, spell_cons, spell_others, List.append_assoc]
  rfl

/-! ## The lexemes of the result -/

theorem Inserted.start_le {start : Nat} {entries : List (Nat × Text)} {text result : Text}
    (inserted : Inserted start entries text result) : ∀ entry ∈ entries, start ≤ entry.1 := by
  induction inserted with
  | none => exact List.forall_mem_nil _
  | some start piece segment others text result _ ih =>
    rw [List.forall_mem_cons]
    refine ⟨Nat.le_add_right _ _, fun entry member => ?_⟩
    exact Nat.le_trans (Nat.le_add_right _ _) (ih entry member)

/-- Texts of lexemes that are inserted outside of literals come between the lexemes. -/
theorem Inserted.exists_parts {start : Nat} {entries : List (Nat × Text)} {text result : Text}
    {slugs : List Text} (inserted : Inserted start entries text result)
    (areIds : entries.map Prod.snd = slugs.map idProperty) (same : spell lexemes = text)
    (outside : ∀ entry ∈ entries, ¬IsInside lexemes (entry.1 - start)) :
    ∃ (parts : List (List Lexeme × Text)) (last : List Lexeme),
      lexemes = parts.flatMap Prod.fst ++ last ∧ parts.map Prod.snd = slugs ∧
        result = spell (parts.flatMap (fun part => part.1 ++ idLexemes part.2) ++ last) := by
  induction inserted generalizing lexemes slugs with
  | none start text =>
    obtain rfl := List.map_eq_nil_iff.mp areIds.symm
    exact ⟨[], lexemes, rfl, rfl, same.symm⟩
  | some start piece segment others text result behind ih =>
    obtain ⟨outsideFirst, outsideOthers⟩ := List.forall_mem_cons.mp outside
    rw [Nat.add_sub_cancel_left] at outsideFirst
    obtain ⟨slug, slugs, rfl, rfl, areOthers⟩ := List.map_eq_cons_iff.mp areIds.symm
    obtain ⟨first, second, rfl, rfl, rfl⟩ := exists_of_not_isInside same outsideFirst
    have outsideSecond : ∀ entry ∈ others,
        ¬IsInside second (entry.1 - (start + utf8Length (spell first))) := by
      intro entry member isInside
      have atLeast := behind.start_le entry member
      refine outsideOthers entry member ?_
      convert isInside.append first using 1
      omega
    obtain ⟨parts, last, rfl, rfl, rfl⟩ := ih areOthers.symm rfl outsideSecond
    refine ⟨(first, slug) :: parts, last, ?_, rfl, ?_⟩
    · rw [List.flatMap_cons, List.append_assoc]
    · simp only [List.flatMap_cons, spell_append, spell_idLexemes, List.append_assoc]

/-! ## The main statement -/

/-- The calls that are given an id. -/
def identified (headings : List HeadingRecord) (code : Text) : List HeadingCall :=
  ((Assignment.assign headings (located code)).filter fun slot =>
    (slot.slug? headings).isSome).map Slot.call

theorem located_of_mem_identified {code : Text} (member : call ∈ identified headings code) :
    call ∈ located code := by
  obtain ⟨slot, isSlot, rfl⟩ := List.mem_map.mp member
  rw [← Assignment.map_call_assign headings (located code)]
  exact List.mem_map_of_mem (List.mem_of_mem_filter isSlot)

/-- No id is inserted into a literal if and only if no call that is given an id begins inside of
one. If so, the lexemes of the module are kept, each literal as it was, and those of the ids come
between them. -/
theorem ids_outside_literals_iff (headings : List HeadingRecord) (lexemes : List Lexeme) :
    ((∀ call ∈ identified headings (spell lexemes), ¬IsInside lexemes call.offset) ↔
      ∀ call ∈ identified headings (spell lexemes), ¬call.BeginsInside lexemes) ∧
    ((∀ call ∈ identified headings (spell lexemes), ¬call.BeginsInside lexemes) →
      ∃ (parts : List (List Lexeme × Text)) (last : List Lexeme),
        lexemes = parts.flatMap Prod.fst ++ last ∧
        parts.map Prod.snd = (Assignment.assign headings (located (spell lexemes))).filterMap
          (·.slug? headings) ∧
        injectIds headings (spell lexemes) =
          spell (parts.flatMap (fun part => part.1 ++ idLexemes part.2) ++ last)) := by
  have sameCalls : (∀ call ∈ identified headings (spell lexemes), ¬IsInside lexemes call.offset) ↔
      ∀ call ∈ identified headings (spell lexemes), ¬call.BeginsInside lexemes :=
    forall₂_congr fun call member =>
      not_congr (isInside_offset_iff (located_of_mem_identified member))
  refine ⟨sameCalls, fun noneBeginsInside => ?_⟩
  have outside := sameCalls.mpr noneBeginsInside
  have inserted := inserted_injectIds headings (spell lexemes)
  rw [insertions_eq] at inserted
  refine inserted.exists_parts ?_ rfl ?_
  · rw [List.map_filterMap, List.map_filterMap]
    congr 1
    funext slot
    rw [Option.map_map]
    rfl
  · intro entry member
    obtain ⟨slot, isSlot, isEntry⟩ := List.mem_filterMap.mp member
    obtain ⟨slug, isSlug, rfl⟩ := Option.map_eq_some_iff.mp isEntry
    refine outside slot.call (List.mem_map_of_mem (List.mem_filter.mpr ⟨isSlot, ?_⟩))
    exact Option.isSome_of_eq_some isSlug

/-- A module with a heading call in its code and another one in a literal. -/
def Trial.quoting : List Lexeme :=
  Lexeme.others "_jsx(_components.h1,\x7bchildren:".toList (by decide) ++
    .literal '"' "Hi".toList (by decide) (literalBody_of_all (by decide)) ::
    (Lexeme.others "\x7d);x=".toList (by decide) ++
      [.literal '\'' "_jsx(_components.h1,\x7bchildren:\"Yo\"\x7d)".toList (by decide)
        (literalBody_of_all (by decide))])

theorem Trial.spell_quoting : spell Trial.quoting = "_jsx(_components.h1,\x7b".toList ++
    "children:\"Hi\"\x7d);x='_jsx(_components.h1,\x7bchildren:\"Yo\"\x7d)'".toList := by
  decide +kernel

/-- The heading of the call in the code. -/
def Trial.salute : List HeadingRecord :=
  [⟨1, "hi".toList, "Hi".toList⟩]

/-- The call in the literal is not given the id, and the literal is kept. -/
theorem literals_kept_of_quoting :
    ∃ (parts : List (List Lexeme × Text)) (last : List Lexeme),
      Trial.quoting = parts.flatMap Prod.fst ++ last ∧
      parts.map Prod.snd = (Assignment.assign Trial.salute
        (located (spell Trial.quoting))).filterMap (·.slug? Trial.salute) ∧
      injectIds Trial.salute (spell Trial.quoting) =
        spell (parts.flatMap (fun part => part.1 ++ idLexemes part.2) ++ last) := by
  have outside : ∀ call ∈ identified Trial.salute (spell Trial.quoting),
      ¬IsInside Trial.quoting call.offset := by
    intro call member
    have isOffset := List.mem_map_of_mem (f := HeadingCall.offset) member
    have offsets : (identified Trial.salute (spell Trial.quoting)).map HeadingCall.offset =
        [utf8Length "_jsx(_components.h1,\x7b".toList] := by
      rw [Trial.spell_quoting]
      decide +kernel
    rw [offsets, List.mem_singleton] at isOffset
    rw [isOffset, isInside_iff Trial.spell_quoting, not_not]
    decide +kernel
  have statement := ids_outside_literals_iff Trial.salute Trial.quoting
  exact statement.2 (statement.1.mp outside)

/-- A module with a heading call in a literal only. -/
def Trial.sample : List Lexeme :=
  Lexeme.others "_jsx(_components.code,\x7bchildren:".toList (by decide) ++
    .literal '"' "_jsx(_components.h1,\x7bchildren:'Hi'\x7d)".toList (by decide)
      (literalBody_of_all (by decide)) ::
    Lexeme.others "\x7d);".toList (by decide)

theorem Trial.spell_sample : spell Trial.sample =
    "_jsx(_components.code,\x7bchildren:\"_jsx(_components.h1,\x7b".toList ++
      "children:'Hi'\x7d)\"\x7d);".toList := by
  decide +kernel

/-- The call in the literal is given the id, and the first quote of the id ends the literal. -/
theorem id_inside_of_sample :
    (∃ call ∈ identified Trial.salute (spell Trial.sample), IsInside Trial.sample call.offset) ∧
    injectIds Trial.salute (spell Trial.sample) =
      ("_jsx(_components.code,\x7bchildren:\"_jsx(_components.h1,\x7b id: \"hi\"," ++
        "children:'Hi'\x7d)\"\x7d);").toList := by
  have offsets : (identified Trial.salute (spell Trial.sample)).map HeadingCall.offset =
      [utf8Length "_jsx(_components.code,\x7bchildren:\"_jsx(_components.h1,\x7b".toList] := by
    rw [Trial.spell_sample]
    decide +kernel
  constructor
  · obtain ⟨call, rest, isCalls, isOffset, -⟩ := List.map_eq_cons_iff.mp offsets
    refine ⟨call, isCalls ▸ List.mem_cons_self, ?_⟩
    rw [isOffset, isInside_iff Trial.spell_sample]
    decide +kernel
  · rw [Trial.spell_sample]
    decide +kernel

end MdxBuild.Generated

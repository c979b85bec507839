import Mathlib.Logic.Relation
import MdxBuild.Proofs.Heading.Agreement
import MdxBuild.Proofs.Heading.Enclosure

/-!
# What heading calls are read from

The readers of properties and of values work on the whole code. Each one asks others in turn, and
the scans of brackets and of delimiters know nothing of the object that is being read. Yet all of
them go over literals and brackets in step with the search for the bracket that closes the props, so
none of them gets behind this bracket. Therefore a call is read from its own props only.
-/

namespace MdxBuild.Generated.Bytewise

open Text

variable {code text outer : Text} {wall turns depth offset limit close stop : Nat}

/-! ## Readers -/

/-- A reader with what it is given. The scans of brackets and of delimiters are given the number of
brackets that are open, since each round of their loops counts as a reader. -/
inductive Task where
  | propertyValue (turns : Nat) (key : Text) (brace close : Nat)
  | property (key : Text) (close turns offset : Nat)
  | key (turns offset : Nat)
  | value (turns offset limit : Nat)
  | items (turns offset close : Nat)
  | call (turns offset : Nat)
  | closing (turns depth offset : Nat)
  | delimiter (limit turns depth offset : Nat)
  | literal (turns offset : Nat)

/-- Behind the blanks at an offset, something begins before a limit. -/
structure Begins (code : Text) (turns offset limit start : Nat) : Prop where
  blanks : skipBlanksAt code turns offset = .ok start
  before : start < limit

/-- What a reader may ask: another reader, or itself in the next round of its loop. It does so at
places that it has found in the code before. A reader that is done early asks less than this: a
property that is found ends the search, and only an unknown value is skipped up to a delimiter. -/
inductive Asks (code : Text) : Task → Task → Prop
  | property (turns : Nat) (key : Text) (brace close : Nat) :
      Asks code (.propertyValue turns key brace close) (.property key close turns (brace + 1))
  | propertyValue {turns brace close offset : Nat} {key : Text}
      (found : propertyAt code key close turns (brace + 1) = .ok (some offset)) :
      Asks code (.propertyValue turns key brace close) (.value turns offset close)
  | key {turns offset close start : Nat} {key : Text}
      (begins : Begins code turns offset close start) :
      Asks code (.property key close (turns + 1) offset) (.key turns start)
  | behindKey {turns offset close start behind colon : Nat} {key name : Text}
      (begins : Begins code turns offset close start)
      (isKey : readKeyAt code turns start = .ok (name, behind))
      (more : skipBlanksAt code turns behind = .ok colon) :
      Asks code (.property key close (turns + 1) offset) (.delimiter close turns 0 colon)
  | nextProperty {turns offset close start behind colon next : Nat} {key name : Text}
      (begins : Begins code turns offset close start)
      (isKey : readKeyAt code turns start = .ok (name, behind))
      (more : skipBlanksAt code turns behind = .ok colon)
      (found : delimiterAt code turns colon close = .ok next) (inside : next < close) :
      Asks code (.property key close (turns + 1) offset) (.property key close turns (next + 1))
  | keyLiteral {turns offset : Nat} {byte : Char} (isByte : byteAt? code offset = some byte)
      (quote : isQuote byte = true) : Asks code (.key turns offset) (.literal turns offset)
  | valueLiteral {turns offset limit start : Nat} {byte : Char}
      (begins : Begins code turns offset limit start)
      (isByte : byteAt? code start = some byte) (quote : isQuote byte = true) :
      Asks code (.value (turns + 1) offset limit) (.literal turns start)
  | arrayEnd {turns offset limit start : Nat} (begins : Begins code turns offset limit start)
      (isByte : byteAt? code start = some '[') :
      Asks code (.value (turns + 1) offset limit) (.closing turns 0 start)
  | arrayItems {turns offset limit start close : Nat}
      (begins : Begins code turns offset limit start) (isByte : byteAt? code start = some '[')
      (found : closingAt code turns start = .ok (some close)) :
      Asks code (.value (turns + 1) offset limit) (.items turns (start + 1) close)
  | valueCall {turns offset limit start : Nat} (begins : Begins code turns offset limit start) :
      Asks code (.value (turns + 1) offset limit) (.call turns start)
  | unknownEnd {turns offset limit start : Nat} (begins : Begins code turns offset limit start) :
      Asks code (.value (turns + 1) offset limit) (.delimiter limit turns 0 start)
  | item {turns offset close start : Nat} (begins : Begins code turns offset close start) :
      Asks code (.items (turns + 1) offset close) (.value turns start close)
  | behindItem {turns offset close start behind : Nat} {value : Children}
      (begins : Begins code turns offset close start)
      (isItem : valueAt code turns start close = .ok (value, behind)) :
      Asks code (.items (turns + 1) offset close) (.delimiter close turns 0 behind)
  | nextItems {turns offset close start behind next : Nat} {value : Children}
      (begins : Begins code turns offset close start)
      (isItem : valueAt code turns start close = .ok (value, behind))
      (found : delimiterAt code turns behind close = .ok next) (inside : next < close) :
      Asks code (.items (turns + 1) offset close) (.items turns (next + 1) close)
  | propsEnd {turns offset parenthesis brace : Nat} {tag : Text}
      (header : callHeaderAt code offset = .ok (some (tag, parenthesis, brace))) :
      Asks code (.call (turns + 1) offset) (.closing turns 0 brace)
  | callEnd {turns offset parenthesis brace : Nat} {tag : Text}
      (header : callHeaderAt code offset = .ok (some (tag, parenthesis, brace))) :
      Asks code (.call (turns + 1) offset) (.closing turns 0 parenthesis)
  | children {turns offset parenthesis brace close : Nat} {tag : Text}
      (header : callHeaderAt code offset = .ok (some (tag, parenthesis, brace)))
      (found : closingAt code turns brace = .ok (some close)) :
      Asks code (.call (turns + 1) offset)
        (.propertyValue turns "children".toList brace close)
  | closingLiteral {turns depth offset : Nat} {byte : Char}
      (isByte : byteAt? code offset = some byte) (quote : isQuote byte = true) :
      Asks code (.closing (turns + 1) depth offset) (.literal turns offset)
  | closingBehind {turns depth offset next : Nat} {byte : Char}
      (isByte : byteAt? code offset = some byte) (quote : isQuote byte = true)
      (found : literalEndAt code turns offset = .ok (some next)) :
      Asks code (.closing (turns + 1) depth offset) (.closing turns depth next)
  | closingDeeper {turns depth offset : Nat} {byte : Char}
      (isByte : byteAt? code offset = some byte) (opens : isOpening byte = true) :
      Asks code (.closing (turns + 1) depth offset) (.closing turns (depth + 1) (offset + 1))
  | closingOut {turns depth offset : Nat} {byte : Char}
      (isByte : byteAt? code offset = some byte) (closes : isClosing byte = true) :
      Asks code (.closing (turns + 1) (depth + 2) offset) (.closing turns (depth + 1) (offset + 1))
  | closingOn {turns depth offset : Nat} {byte : Char}
      (isByte : byteAt? code offset = some byte) (isPlain : isPlain byte = true) :
      Asks code (.closing (turns + 1) depth offset) (.closing turns depth (offset + 1))
  | delimiterLiteral {limit turns depth offset : Nat} {byte : Char} (before : offset < limit)
      (isByte : byteAt? code offset = some byte) (quote : isQuote byte = true) :
      Asks code (.delimiter limit (turns + 1) depth offset) (.literal turns offset)
  | delimiterBehind {limit turns depth offset next : Nat} {byte : Char} (before : offset < limit)
      (isByte : byteAt? code offset = some byte) (quote : isQuote byte = true)
      (found : literalEndAt code turns offset = .ok (some next)) :
      Asks code (.delimiter limit (turns + 1) depth offset) (.delimiter limit turns depth next)
  | delimiterDeeper {limit turns depth offset : Nat} {byte : Char} (before : offset < limit)
      (isByte : byteAt? code offset = some byte) (opens : isOpening byte = true) :
      Asks code (.delimiter limit (turns + 1) depth offset)
        (.delimiter limit turns (depth + 1) (offset + 1))
  | delimiterOut {limit turns depth offset : Nat} {byte : Char} (before : offset < limit)
      (isByte : byteAt? code offset = some byte) (closes : isClosing byte = true) :
      Asks code (.delimiter limit (turns + 1) (depth + 1) offset)
        (.delimiter limit turns depth (offset + 1))
  | delimiterOn {limit turns depth offset : Nat} {byte : Char} (before : offset < limit)
      (isByte : byteAt? code offset = some byte) (isPlain : isPlain byte = true) :
      Asks code (.delimiter limit (turns + 1) depth offset)
        (.delimiter limit turns depth (offset + 1))

/-- The offset behind what a reader has read. -/
inductive Task.Ends (code : Text) : Task → Nat → Prop
  | property {key : Text} {close turns offset stop : Nat}
      (found : propertyAt code key close turns offset = .ok (some stop)) :
      Task.Ends code (.property key close turns offset) stop
  | key {turns offset stop : Nat} {name : Text}
      (found : readKeyAt code turns offset = .ok (name, stop)) :
      Task.Ends code (.key turns offset) stop
  | value {turns offset limit stop : Nat} {value : Children}
      (found : valueAt code turns offset limit = .ok (value, stop)) :
      Task.Ends code (.value turns offset limit) stop
  | header {turns offset parenthesis brace : Nat} {tag : Text}
      (found : callHeaderAt code offset = .ok (some (tag, parenthesis, brace))) :
      Task.Ends code (.call turns offset) (brace + 1)
  | call {turns offset stop : Nat} {call : Children}
      (found : callAt code turns offset = .ok (some (call, stop))) :
      Task.Ends code (.call turns offset) stop
  | closing {turns depth offset close : Nat}
      (found : closingAtFrom code turns depth offset = .ok (some close)) :
      Task.Ends code (.closing turns depth offset) (close + 1)
  | delimiter {limit turns depth offset stop : Nat}
      (found : delimiterAtFrom code limit turns depth offset = .ok stop) :
      Task.Ends code (.delimiter limit turns depth offset) stop
  | literal {turns offset stop : Nat} (found : literalEndAt code turns offset = .ok (some stop)) :
      Task.Ends code (.literal turns offset) stop

/-! ## One step -/

/-- A reader with all that it reads in front of the wall, and with turns for it. For the scans of
brackets and of delimiters, this is told by the closing bracket that the search for it ends at. -/
inductive Placed (code : Text) (wall : Nat) : Task → Prop
  | propertyValue {turns brace close : Nat} {key text outer : Text} {closing : Char}
      (enclosed : Enclosed code wall (brace + 1) close text closing outer)
      (enough : 2 * utf8Length (text ++ closing :: outer) + 5 ≤ turns) :
      Placed code wall (.propertyValue turns key brace close)
  | property {turns offset close : Nat} {key text outer : Text} {closing : Char}
      (enclosed : Enclosed code wall offset close text closing outer)
      (enough : utf8Length (text ++ closing :: outer) + 1 < turns) :
      Placed code wall (.property key close turns offset)
  | key {turns offset limit : Nat} {text outer : Text} {closing : Char}
      (enclosed : Enclosed code wall offset limit text closing outer) (isProperty : text ≠ [])
      (enough : utf8Length (text ++ closing :: outer) < turns) :
      Placed code wall (.key turns offset)
  | value {turns offset limit : Nat} {text outer : Text} {closing : Char}
      (enclosed : Enclosed code wall offset limit text closing outer)
      (enough : 2 * utf8Length (text ++ closing :: outer) + 5 ≤ turns) :
      Placed code wall (.value turns offset limit)
  | items {turns offset close : Nat} {text outer : Text} {closing : Char}
      (enclosed : Enclosed code wall offset close text closing outer)
      (enough : 2 * utf8Length (text ++ closing :: outer) + 6 ≤ turns) :
      Placed code wall (.items turns offset close)
  | call {turns offset limit : Nat} {text outer : Text} {closing : Char}
      (enclosed : Enclosed code wall offset limit text closing outer)
      (enough : 2 * utf8Length (text ++ closing :: outer) + 4 ≤ turns) :
      Placed code wall (.call turns offset)
  | closing {turns depth offset close : Nat}
      (found : closingAtFrom code turns depth offset = .ok (some close)) (before : close < wall) :
      Placed code wall (.closing turns depth offset)
  | delimiter {limit turns depth offset : Nat}
      (found : closingAtFrom code turns (depth + 1) offset = .ok (some limit))
      (limit_le : limit ≤ wall) : Placed code wall (.delimiter limit turns depth offset)
  | literal {turns offset stop : Nat}
      (found : literalEndAt code turns offset = .ok (some stop)) (stop_le : stop ≤ wall) :
      Placed code wall (.literal turns offset)

section Step

variable {task : Task} {key : Text} {brace : Nat}

theorem Placed.of_propertyValue (placed : Placed code wall (.propertyValue turns key brace close))
    (asks : Asks code (.propertyValue turns key brace close) task) : Placed code wall task := by
  cases placed with
  | @propertyValue _ _ _ _ text outer closing enclosed enough =>
    cases asks with
    | property => exact .property enclosed (by omega)
    | propertyValue found =>
      obtain ⟨value, passes, enclosedValue⟩ := enclosed.of_propertyAt found (by omega)
      have size := utf8Length_le_of_suffix passes.suffix (closing :: outer)
      exact .value enclosedValue (by omega)

theorem Placed.of_property (placed : Placed code wall (.property key close turns offset))
    (asks : Asks code (.property key close turns offset) task) : Placed code wall task := by
  cases placed with
  | @property _ _ _ _ text outer closing enclosed enough =>
    have skipped :=
      utf8Length_le_of_suffix enclosed.balanced.passes_blanks.suffix (closing :: outer)
    have named := utf8Length_le_of_suffix enclosed.balanced.passes_name.suffix (closing :: outer)
    cases asks with
    | key begins =>
      have atKey := enclosed.of_skipBlanksAt begins.blanks (by omega)
      exact .key atKey (atKey.lt_limit_iff.mp begins.before) (by omega)
    | behindKey begins isKey more =>
      have atColon := enclosed.of_name begins.blanks begins.before isKey more (by omega)
      exact .delimiter (atColon.closingAtFrom_eq (by omega)) atColon.limit_le
    | nextProperty begins isKey more found inside =>
      have atColon := enclosed.of_name begins.blanks begins.before isKey more (by omega)
      obtain ⟨others, enclosedOthers, shorter⟩ := atColon.of_delimiterAt found inside (by omega)
      exact .property enclosedOthers (by omega)

theorem Placed.of_key (placed : Placed code wall (.key turns offset))
    (asks : Asks code (.key turns offset) task) : Placed code wall task := by
  cases placed with
  | key enclosed _ enough =>
    cases asks with
    | keyLiteral isByte quote =>
      obtain ⟨stop, found, stop_le⟩ := enclosed.literal isByte quote enough
      exact .literal found stop_le

theorem Placed.of_value (placed : Placed code wall (.value turns offset limit))
    (asks : Asks code (.value turns offset limit) task) : Placed code wall task := by
  cases placed with
  | @value _ _ _ text outer closing enclosed enough =>
    cases turns with
    | zero => cases asks
    | succ turns =>
      have enoughBlanks : utf8Length (text ++ closing :: outer) < turns := by omega
      have skipped :=
        utf8Length_le_of_suffix enclosed.balanced.passes_blanks.suffix (closing :: outer)
      have enoughStart := Nat.lt_of_le_of_lt skipped enoughBlanks
      cases asks with
      | valueLiteral begins isByte quote =>
        have atStart := enclosed.of_skipBlanksAt begins.blanks enoughBlanks
        obtain ⟨stop, found, stop_le⟩ := atStart.literal isByte quote enoughStart
        exact .literal found stop_le
      | arrayEnd begins isByte =>
        have atStart := enclosed.of_skipBlanksAt begins.blanks enoughBlanks
        obtain ⟨close, inside, other, rest, found, before, -, -⟩ :=
          atStart.of_opening isByte (by decide) enoughStart
        exact .closing found (Nat.lt_of_lt_of_le before atStart.limit_le)
      | arrayItems begins isByte found =>
        have atStart := enclosed.of_skipBlanksAt begins.blanks enoughBlanks
        obtain ⟨close, inside, other, rest, same, -, enclosedItems, shorter⟩ :=
          atStart.of_opening isByte (by decide) enoughStart
        obtain rfl := Option.some.inj (Except.ok.inj (found.symm.trans same))
        exact .items enclosedItems (by omega)
      | valueCall begins =>
        exact .call (enclosed.of_skipBlanksAt begins.blanks enoughBlanks) (by omega)
      | unknownEnd begins =>
        have atStart := enclosed.of_skipBlanksAt begins.blanks enoughBlanks
        exact .delimiter (atStart.closingAtFrom_eq enoughStart) atStart.limit_le

theorem Placed.of_items (placed : Placed code wall (.items turns offset close))
    (asks : Asks code (.items turns offset close) task) : Placed code wall task := by
  cases placed with
  | @items _ _ _ text outer closing enclosed enough =>
    have skipped :=
      utf8Length_le_of_suffix enclosed.balanced.passes_blanks.suffix (closing :: outer)
    cases asks with
    | item begins => exact .value (enclosed.of_skipBlanksAt begins.blanks (by omega)) (by omega)
    | behindItem begins isItem =>
      have atStart := enclosed.of_skipBlanksAt begins.blanks (by omega)
      obtain ⟨after, passes, behindItem⟩ := atStart.of_valueAt isItem (by omega)
      have size := utf8Length_le_of_suffix passes.suffix (closing :: outer)
      exact .delimiter (behindItem.closingAtFrom_eq (by omega)) behindItem.limit_le
    | nextItems begins isItem found inside =>
      have atStart := enclosed.of_skipBlanksAt begins.blanks (by omega)
      obtain ⟨after, passes, behindItem⟩ := atStart.of_valueAt isItem (by omega)
      have size := utf8Length_le_of_suffix passes.suffix (closing :: outer)
      obtain ⟨others, enclosedOthers, shorter⟩ :=
        behindItem.of_delimiterAt found inside (by omega)
      exact .items enclosedOthers (by omega)

theorem Placed.of_call (placed : Placed code wall (.call turns offset))
    (asks : Asks code (.call turns offset) task) : Placed code wall task := by
  cases placed with
  | @call _ _ limit text outer closing enclosed enough =>
    cases turns with
    | zero => cases asks
    | succ turns =>
      have enoughHeader : utf8Length (text ++ closing :: outer) < turns := by omega
      cases asks with
      | propsEnd header =>
        obtain ⟨-, close, props, other, rest, found, before, -, -⟩ :=
          enclosed.of_callHeaderAt header enoughHeader
        exact .closing found (Nat.lt_of_lt_of_le before enclosed.limit_le)
      | callEnd header =>
        obtain ⟨⟨close, found, before⟩, -⟩ := enclosed.of_callHeaderAt header enoughHeader
        exact .closing found (Nat.lt_of_lt_of_le before enclosed.limit_le)
      | children header found =>
        obtain ⟨-, close, props, other, rest, same, -, enclosedProps, shorter⟩ :=
          enclosed.of_callHeaderAt header enoughHeader
        obtain rfl := Option.some.inj (Except.ok.inj (found.symm.trans same))
        exact .propertyValue enclosedProps (by omega)

/-- The search for a closing bracket goes on towards the same bracket. -/
theorem Placed.of_closing (placed : Placed code wall (.closing turns depth offset))
    (asks : Asks code (.closing turns depth offset) task) : Placed code wall task := by
  cases placed with
  | closing found before =>
    cases asks with
    | closingLiteral isByte quote =>
      obtain ⟨next, ends, found⟩ := exists_literalEnd isByte quote found
      exact .literal ends (Nat.le_trans (closingAtFrom_le found) (Nat.le_of_lt before))
    | closingBehind isByte quote ends =>
      rw [closingAtFrom_quote isByte quote _ ends] at found
      exact .closing found before
    | closingDeeper isByte opens =>
      rw [closingAtFrom_opening isByte opens] at found
      exact .closing found before
    | closingOut isByte closes =>
      rw [closingAtFrom_closing isByte closes, if_neg (Nat.succ_ne_zero _)] at found
      exact .closing found before
    | closingOn isByte isPlain =>
      rw [closingAtFrom_plain isByte isPlain] at found
      exact .closing found before

/-- The search for a delimiter goes on in step with the search for the closing bracket at its
limit, which is one bracket deeper. -/
theorem Placed.of_delimiter (placed : Placed code wall (.delimiter limit turns depth offset))
    (asks : Asks code (.delimiter limit turns depth offset) task) : Placed code wall task := by
  cases placed with
  | delimiter found limit_le =>
    cases asks with
    | delimiterLiteral _ isByte quote =>
      obtain ⟨next, ends, found⟩ := exists_literalEnd isByte quote found
      exact .literal ends (Nat.le_trans (closingAtFrom_le found) limit_le)
    | delimiterBehind _ isByte quote ends =>
      rw [closingAtFrom_quote isByte quote _ ends] at found
      exact .delimiter found limit_le
    | delimiterDeeper _ isByte opens =>
      rw [closingAtFrom_opening isByte opens] at found
      exact .delimiter found limit_le
    | delimiterOut _ isByte closes =>
      rw [closingAtFrom_closing isByte closes, if_neg (Nat.succ_ne_zero _)] at found
      exact .delimiter found limit_le
    | delimiterOn _ isByte isPlain =>
      rw [closingAtFrom_plain isByte isPlain] at found
      exact .delimiter found limit_le

/-- Whatever reader a placed one asks is placed itself. -/
theorem Placed.step {asking : Task} (placed : Placed code wall asking)
    (asks : Asks code asking task) : Placed code wall task := by
  cases asking with
  | propertyValue => exact placed.of_propertyValue asks
  | property => exact placed.of_property asks
  | key => exact placed.of_key asks
  | value => exact placed.of_value asks
  | items => exact placed.of_items asks
  | call => exact placed.of_call asks
  | closing => exact placed.of_closing asks
  | delimiter => exact placed.of_delimiter asks
  | literal => cases asks

/-- What a placed reader reads ends in front of the wall. -/
theorem Placed.le_wall (placed : Placed code wall task) (ends : task.Ends code stop) :
    stop ≤ wall := by
  cases ends with
  | property found =>
    cases placed with
    | property enclosed enough =>
      obtain ⟨value, -, enclosedValue⟩ := enclosed.of_propertyAt found enough
      exact enclosedValue.le_wall
  | key found =>
    cases placed with
    | key enclosed isProperty enough =>
      exact (enclosed.of_readKeyAt isProperty found enough).le_wall
  | value found =>
    cases placed with
    | value enclosed enough =>
      obtain ⟨after, -, behindValue⟩ := enclosed.of_valueAt found enough
      exact behindValue.le_wall
  | @header turns _ _ _ _ found =>
    cases placed with
    | @call _ _ limit text outer closing enclosed enough =>
      have enoughHeader : utf8Length (text ++ closing :: outer) < turns := by omega
      obtain ⟨-, close, props, other, rest, -, -, enclosedProps, -⟩ :=
        enclosed.of_callHeaderAt found enoughHeader
      exact enclosedProps.le_wall
  | call found =>
    cases placed with
    | call enclosed enough => exact enclosed.of_callAt found enough
  | closing found =>
    cases placed with
    | closing same before =>
      obtain rfl := Option.some.inj (Except.ok.inj (found.symm.trans same))
      exact before
  | delimiter found =>
    cases placed with
    | delimiter _ limit_le => exact Nat.le_trans (delimiterAtFrom_le found) limit_le
  | literal found =>
    cases placed with
    | literal same stop_le =>
      obtain rfl := Option.some.inj (Except.ok.inj (found.symm.trans same))
      exact stop_le

end Step

/-! ## The main statement -/

/-- Whatever reader a placed one brings about is placed itself. -/
theorem Placed.run {first task : Task} (placed : Placed code wall first)
    (asked : Relation.ReflTransGen (Asks code) first task) : Placed code wall task := by
  induction asked with
  | refl => exact placed
  | tail _ asks ih => exact ih.step asks

/-- A heading call is read from its own props only. For each call that is located in a code there is
a bracket that closes its props. Every text that agrees with the code up to and including this
bracket has the same call at the same offset. Of the readers that are asked while a property of the
call is read, by it or by each other, none reads anything that ends behind this bracket: no literal,
no key, no value and with it no array, no nested call and no header of one. -/
theorem locate_reads_own_props (code : Text) {turns : Nat}
    (enough : 2 * utf8Length code + 5 ≤ turns) :
    ∃ calls, locate code turns = .ok calls ∧ ∀ call ∈ calls, ∃ close kept,
      closingAt code turns (call.offset - 1) = .ok (some close) ∧
      cutUpTo (close + 1) code = .ok kept ∧
      (∀ other more, kept <+: other → 2 * utf8Length other + 5 ≤ more →
        ∃ others, locate other more = .ok others ∧ call ∈ others) ∧
      ∀ key task stop,
        Relation.ReflTransGen (Asks code)
          (.propertyValue turns key (call.offset - 1) close) task →
        task.Ends code stop → stop ≤ close := by
  refine ⟨located code, locate_eq enough, fun call member => ?_⟩
  obtain ⟨text, inside, closing, after, rfl, isHeader, balanced, closes, isCall⟩ :=
    exists_of_mem_located member
  have atBrace : StandsAt (text ++ '{' :: (inside ++ closing :: after)) (utf8Length text)
      ('{' :: (inside ++ closing :: after)) := ⟨text, rfl, rfl⟩
  have size := atBrace.utf8Length_le
  have insideStands := atBrace.cons (by decide)
  have atClose := insideStands.append inside
  have isBrace : call.offset - 1 = utf8Length text := by
    rw [isCall]
    rfl
  rw [isBrace]
  refine ⟨_, text ++ '{' :: (inside ++ [closing]),
    closingAt_of_balanced (by decide) closes balanced atBrace (by omega), ?_, ?_, ?_⟩
  · have keptSize : utf8Length text + 1 + utf8Length inside + 1 =
        utf8Length (text ++ '{' :: (inside ++ [closing])) := by
      simp only [utf8Length_append, utf8Length_cons, utf8Length_nil,
        utf8Size_of_isAscii (isAscii_of_isClosing closes)]
      have braceSize : ('{' : Char).utf8Size = 1 := rfl
      omega
    have split : text ++ '{' :: (inside ++ closing :: after) =
        text ++ '{' :: (inside ++ [closing]) ++ after := by
      simp
    rw [keptSize, split]
    exact cutUpTo_append _ after
  · rintro _ more ⟨others, rfl⟩ enoughMore
    refine ⟨_, locate_eq enoughMore, ?_⟩
    have found := mem_located_agree isHeader balanced closes others
    rw [← isCall] at found
    simpa using found
  · intro key task stop asked ends
    have enclosed : Enclosed (text ++ '{' :: (inside ++ closing :: after))
        (utf8Length text + 1 + utf8Length inside) (utf8Length text + 1)
        (utf8Length text + 1 + utf8Length inside) inside closing after :=
      ⟨closes, balanced, insideStands, atClose, Nat.le_refl _⟩
    have sizeInside := insideStands.utf8Length_le
    exact ((Placed.propertyValue enclosed (by omega)).run asked).le_wall ends

/-- A code with a heading whose text holds a brace. -/
def Trial.braced : Text :=
  "_jsx(\"h2\",\x7bchildren:\"a\x7db\"\x7d);x".toList

/-- A code that goes on with an open literal behind the same props. -/
def Trial.bracedBefore : Text :=
  "_jsx(\"h2\",\x7bchildren:\"a\x7db\"\x7d,\"\x7d".toList

/-- The call is found in both codes, and its literal ends right in front of the brace. -/
theorem locate_reads_own_props_of_trial :
    ∃ others, locate Trial.bracedBefore 63 = .ok others ∧
      (∃ call ∈ others, call.offset = 11 ∧ call.text? = some "a\x7db".toList) ∧
      ∃ stop, literalEndAt Trial.braced 62 20 = .ok (some stop) ∧ stop ≤ 25 := by
  obtain ⟨calls, isCalls, reads⟩ :=
    locate_reads_own_props Trial.braced (by decide : 2 * utf8Length Trial.braced + 5 ≤ 63)
  have isLocated : locate Trial.braced 63 = .ok (located Trial.braced) := locate_eq (by decide)
  obtain rfl := Except.ok.inj (isCalls.symm.trans isLocated)
  have isFirst : (located Trial.braced).head?.map (fun call => (call.offset, call.text?)) =
      some (11, some "a\x7db".toList) := by
    decide +kernel
  obtain ⟨call, isHead, same⟩ := Option.map_eq_some_iff.mp isFirst
  obtain ⟨isOffset, isText⟩ := Prod.mk.inj same
  obtain ⟨close, kept, found, isKept, agrees, confined⟩ := reads call (List.mem_of_head? isHead)
  rw [isOffset] at found confined
  obtain rfl : close = 25 := by
    have isClose : closingAt Trial.braced 63 (11 - 1) = .ok (some 25) := rfl
    exact Option.some.inj (Except.ok.inj (found.symm.trans isClose))
  obtain rfl : kept = Trial.braced.take 26 := by
    have isPart : cutUpTo (25 + 1) Trial.braced = .ok (Trial.braced.take 26) := rfl
    exact Except.ok.inj (isKept.symm.trans isPart)
  obtain ⟨others, isOthers, member⟩ := agrees Trial.bracedBefore 63 ⟨_, rfl⟩ (by decide)
  have isValue : propertyAt Trial.braced "children".toList 25 63 (10 + 1) = .ok (some 20) := rfl
  have noBlanks : skipBlanksAt Trial.braced 62 20 = .ok 20 := rfl
  have isQuote : byteAt? Trial.braced 20 = some '"' := rfl
  have isLiteral : literalEndAt Trial.braced 62 20 = .ok (some 25) := rfl
  have asked : Relation.ReflTransGen (Asks Trial.braced)
      (.propertyValue 63 "children".toList (11 - 1) 25) (.literal 62 20) :=
    .tail (.single (.propertyValue isValue)) (.valueLiteral ⟨noBlanks, by decide⟩ isQuote rfl)
  exact ⟨others, isOthers, ⟨call, member, isOffset, isText⟩, 25, isLiteral,
    confined _ _ _ asked (.literal isLiteral)⟩

end MdxBuild.Generated.Bytewise

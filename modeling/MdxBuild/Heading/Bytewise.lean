import MdxBuild.Digest.Content
import MdxBuild.Heading.Assignment

/-!
# Headings at byte offsets

Code is stored as bytes, and what works on it goes by offsets into them. Here heading calls are
located and ids inserted in this way, by loops over the bytes of the whole code that look at one
byte at a time. Every read, every cut and every loop is checked. It is a fault to read or to cut
beyond the end, to cut within a character, and to take more turns than were allowed.
-/

namespace MdxBuild.Generated

open Text

/-- What a scan can do wrong. -/
inductive Fault where
  /-- A read or a cut beyond the end of the code. -/
  | beyondEnd
  /-- A cut that begins or ends within a character. -/
  | withinCharacter
  /-- A cut that ends before it begins. -/
  | backwards
  /-- A loop or a recursion that does not end in the turns that it has. -/
  | endless
deriving DecidableEq, Repr

namespace Bytewise

/-! ## Reads and cuts -/

/-- The byte at an offset, if there is one, as the character with its code. -/
def byteAt? (code : Text) (offset : Nat) : Option Char :=
  (utf8 code)[offset]?.map fun byte => Char.ofNat byte.toNat

/-- The byte at an offset, which must not lie beyond the end. -/
def byteAt (code : Text) (offset : Nat) : Except Fault Char :=
  match byteAt? code offset with
  | some byte => .ok byte
  | none => .error .beyondEnd

/-- The text from an offset on. -/
def cutFrom : (offset : Nat) → Text → Except Fault Text
  | 0, text => .ok text
  | _ + 1, [] => .error .beyondEnd
  | offset + 1, char :: rest =>
    if char.utf8Size ≤ offset + 1 then cutFrom (offset + 1 - char.utf8Size) rest
    else .error .withinCharacter

/-- The text up to an offset. -/
def cutUpTo : (offset : Nat) → Text → Except Fault Text
  | 0, _ => .ok []
  | _ + 1, [] => .error .beyondEnd
  | offset + 1, char :: rest =>
    if char.utf8Size ≤ offset + 1 then
      (cutUpTo (offset + 1 - char.utf8Size) rest).map (char :: ·)
    else .error .withinCharacter

/-- The text between two offsets. -/
def cut (code : Text) (start stop : Nat) : Except Fault Text :=
  if stop < start then .error .backwards
  else do cutUpTo (stop - start) (← cutFrom start code)

/-! ## Loops -/

section Loops

variable (code : Text)

/-- The offset behind the bytes of a class that stand at an offset. -/
def passAt (inClass : Char → Bool) : (turns : Nat) → (offset : Nat) → Except Fault Nat
  | 0, _ => .error .endless
  | turns + 1, offset =>
    match byteAt? code offset with
    | none => .ok offset
    | some byte => if inClass byte then passAt inClass turns (offset + 1) else .ok offset

/-- The offset behind the blanks at an offset. -/
def skipBlanksAt (turns offset : Nat) : Except Fault Nat :=
  passAt code isAsciiBlank turns offset

/-- The offset behind the closing quote of a literal, from an offset inside it. A backslash hides
one byte. -/
def quoteEndAt (quote : Char) : (turns : Nat) → (offset : Nat) → Except Fault (Option Nat)
  | 0, _ => .error .endless
  | turns + 1, offset =>
    match byteAt? code offset with
    | none => .ok none
    | some byte =>
      if byte = '\\' then quoteEndAt quote turns (offset + 2)
      else if byte = quote then .ok (some (offset + 1))
      else quoteEndAt quote turns (offset + 1)

/-- The offset behind the literal at an offset. -/
def literalEndAt (turns offset : Nat) : Except Fault (Option Nat) := do
  quoteEndAt code (← byteAt code offset) turns (offset + 1)

/-- The offset of the bracket that closes all brackets, where so many are open. -/
def closingAtFrom : (turns : Nat) → (depth offset : Nat) → Except Fault (Option Nat)
  | 0, _, _ => .error .endless
  | turns + 1, depth, offset =>
    match byteAt? code offset with
    | none => .ok none
    | some byte =>
      if isQuote byte then do
        match ← literalEndAt code turns offset with
        | none => .ok none
        | some next => closingAtFrom turns depth next
      else if isOpening byte then closingAtFrom turns (depth + 1) (offset + 1)
      else if isClosing byte then
        match depth with
        | 0 => .ok none
        | 1 => .ok (some offset)
        | outer + 2 => closingAtFrom turns (outer + 1) (offset + 1)
      else closingAtFrom turns depth (offset + 1)

/-- The offset of the bracket that closes the one at an offset. -/
def closingAt (turns offset : Nat) : Except Fault (Option Nat) :=
  closingAtFrom code turns 0 offset

/-- The offset of the next comma or closing bracket outside all brackets and literals, where so many
are open, or the limit. -/
def delimiterAtFrom (limit : Nat) : (turns : Nat) → (depth offset : Nat) → Except Fault Nat
  | 0, _, _ => .error .endless
  | turns + 1, depth, offset =>
    if limit ≤ offset then .ok limit
    else do
      let byte ← byteAt code offset
      if isQuote byte then
        match ← literalEndAt code turns offset with
        | none => .ok limit
        | some next => delimiterAtFrom limit turns depth next
      else if isOpening byte then delimiterAtFrom limit turns (depth + 1) (offset + 1)
      else if isClosing byte then
        if depth = 0 then .ok offset else delimiterAtFrom limit turns (depth - 1) (offset + 1)
      else if byte = ',' && depth = 0 then .ok offset
      else delimiterAtFrom limit turns depth (offset + 1)

/-- The offset of the next comma or closing bracket outside all brackets and literals, or the
limit. -/
def delimiterAt (turns offset limit : Nat) : Except Fault Nat :=
  delimiterAtFrom code limit turns 0 offset

/-! ## Properties -/

/-- The key of the property at an offset, and the offset behind it; the empty key where there is
none. -/
def readKeyAt (turns offset : Nat) : Except Fault (Text × Nat) :=
  match byteAt? code offset with
  | none => .ok ([], offset)
  | some byte =>
    if byte = '"' || byte = '\'' then do
      match ← literalEndAt code turns offset with
      | none => .ok ([], offset)
      | some stop => do
        let inner ← cut code (offset + 1) (stop - 1)
        .ok (decode inner, stop)
    else if isNameStart byte then do
      let stop ← passAt code isKeyPart turns offset
      let name ← cut code offset stop
      .ok (name, stop)
    else .ok ([], offset)

/-- The offset of the value of a property, among the properties from an offset up to the closing
brace. -/
def propertyAt (key : Text) (close : Nat) : (turns : Nat) → (offset : Nat) →
    Except Fault (Option Nat)
  | 0, _ => .error .endless
  | turns + 1, offset => do
    let start ← skipBlanksAt code turns offset
    if close ≤ start then .ok none
    else do
      let (name, behindName) ← readKeyAt code turns start
      let colon ← skipBlanksAt code turns behindName
      if name = key ∧ byteAt? code colon = some ':' then do
        let value ← skipBlanksAt code turns (colon + 1)
        .ok (some value)
      else do
        let next ← delimiterAt code turns colon close
        if close ≤ next then .ok none
        else do
          let byte ← byteAt code next
          if byte = ',' then propertyAt key close turns (next + 1) else .ok none

/-! ## Values -/

/-- The literal at an offset and the offset behind it. -/
def literalAt (turns offset : Nat) : Except Fault (Option (Children × Nat)) := do
  let quote ← byteAt code offset
  match ← literalEndAt code turns offset with
  | none => .ok none
  | some stop => do
    let inner ← cut code (offset + 1) (stop - 1)
    if quote = '`' && occursIn ['$', '{'] inner then .ok none
    else .ok (some (.text (decode inner), stop))

/-- The render call at an offset: its tag, the offset of its parenthesis and the offset of the brace
of its props. -/
def callHeaderAt (offset : Nat) : Except Fault (Option (Text × Nat × Nat)) := do
  let rest ← cutFrom offset code
  match renderHeader? rest with
  | none => .ok none
  | some (tag, _, props) =>
    if rest.contains '(' then
      .ok (some (tag, offset + utf8Length (rest.takeWhile (· != '(')),
        offset + (utf8Length rest - utf8Length props) - 1))
    else .ok none

mutual

/-- The value at an offset before a limit, and the offset behind it. -/
def valueAt : (turns : Nat) → (offset limit : Nat) → Except Fault (Children × Nat)
  | 0, _, _ => .error .endless
  | turns + 1, offset, limit => do
    let start ← skipBlanksAt code turns offset
    if limit ≤ start then .ok (.unknown, limit)
    else do
      let byte ← byteAt code start
      let value ←
        if isQuote byte then literalAt code turns start
        else if byte = '[' then do
          match ← closingAt code turns start with
          | none => .ok none
          | some close => do
            let items ← itemsAt turns (start + 1) close
            .ok (some (.array items, close + 1))
        else callAt turns start
      match value with
      | some found => .ok found
      | none => do
        let next ← delimiterAt code turns start limit
        .ok (.unknown, next)

/-- The items of an array, from an offset up to the closing bracket. -/
def itemsAt : (turns : Nat) → (offset close : Nat) → Except Fault (List Children)
  | 0, _, _ => .error .endless
  | turns + 1, offset, close => do
    let start ← skipBlanksAt code turns offset
    if close ≤ start then .ok []
    else do
      let (item, behindItem) ← valueAt turns start close
      let next ← delimiterAt code turns behindItem close
      if close ≤ next then .ok [item]
      else do
        let byte ← byteAt code next
        if byte = ',' then do
          let others ← itemsAt turns (next + 1) close
          .ok (item :: others)
        else .ok [item]

/-- The render call at an offset and the offset behind it. -/
def callAt : (turns : Nat) → (offset : Nat) → Except Fault (Option (Children × Nat))
  | 0, _ => .error .endless
  | turns + 1, offset => do
    match ← callHeaderAt code offset with
    | none => .ok none
    | some (tag, parenthesis, brace) => do
      match ← closingAt code turns brace with
      | none => .ok none
      | some propsClose => do
        match ← closingAt code turns parenthesis with
        | none => .ok none
        | some callClose => do
          match ← propertyAt code "children".toList propsClose turns (brace + 1) with
          | none => .ok (some (.call tag none, callClose + 1))
          | some value => do
            let (children, _) ← valueAt turns value propsClose
            .ok (some (.call tag (some children), callClose + 1))

end

/-- The value of a property of the props that a brace opens. -/
def propertyValueAt (turns : Nat) (key : Text) (brace close : Nat) :
    Except Fault (Option Children) := do
  match ← propertyAt code key close turns (brace + 1) with
  | none => .ok none
  | some offset => do
    let (value, _) ← valueAt code turns offset close
    .ok (some value)

/-! ## Calls -/

/-- The heading call with a header, which ends at an offset. -/
def headingAt (turns depth headerEnd : Nat) : Except Fault (Option HeadingCall) := do
  let brace := headerEnd - 1
  match ← closingAt code turns brace with
  | none => .ok none
  | some close => do
    let children ← propertyValueAt code turns "children".toList brace close
    let id ← propertyValueAt code turns "id".toList brace close
    .ok (some ⟨headerEnd, depth, children, id.map fun value => value.plain?.getD []⟩)

/-- The heading calls with some headers, in order. -/
def headingsAt (turns : Nat) : List (Nat × Text) → Except Fault (List HeadingCall)
  | [] => .ok []
  | (depth, props) :: others => do
    let call ← headingAt code turns depth (utf8Length code - utf8Length props)
    let rest ← headingsAt turns others
    .ok (call.toList ++ rest)

/-- The heading calls of the code, in order. -/
def locate (turns : Nat) : Except Fault (List HeadingCall) :=
  headingsAt code turns (headers code)

/-- The code from an offset on, with texts inserted at offsets. -/
def insertAll (start : Nat) : List (Nat × Text) → Except Fault Text
  | [] => cutFrom start code
  | (offset, inserted) :: others => do
    let before ← cut code start offset
    let behind ← insertAll offset others
    .ok (before ++ inserted ++ behind)

/-- The code with the ids of the headings inserted into the props of their calls. -/
def injectIds (turns : Nat) (headings : List HeadingRecord) : Except Fault Text :=
  if headings.isEmpty then .ok code
  else do
    let calls ← locate code turns
    if calls.isEmpty then .ok code
    else insertAll code 0 (insertions headings (Assignment.assign headings calls))

end Loops

end Bytewise

end MdxBuild.Generated

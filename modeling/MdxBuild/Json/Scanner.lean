import MdxBuild.Json.Fault

/-!
# Scanning JSON texts

The readers of words, strings and numbers. Each takes the text from where the thing begins and
returns it with the rest of the text, or the first fault in reading order.
-/

namespace MdxBuild.Json

/-- A blank between the parts of a JSON text. -/
def isJsonBlank (char : Char) : Bool :=
  char = ' ' || char = '\n' || char = '\t' || char = '\r'

/-- The text behind its leading blanks. -/
def skipBlanks (text : Text) : Text :=
  text.dropWhile isJsonBlank

/-- Reads the rest of one of the words `null`, `true` and `false`. -/
def readWord : (expected : Text) → Text → Except Fault Text
  | [], text => .ok text
  | _ :: _, [] => .error (.endOf .value)
  | first :: expected, char :: rest =>
    if char = first then readWord expected rest else .error .expectedIdent

/-! ## Strings -/

/-- The value of a hexadecimal digit. -/
def hexValue? (char : Char) : Option Nat :=
  if '0' ≤ char && char ≤ '9' then some (char.toNat - '0'.toNat)
  else if 'a' ≤ char && char ≤ 'f' then some (char.toNat - 'a'.toNat + 10)
  else if 'A' ≤ char && char ≤ 'F' then some (char.toNat - 'A'.toNat + 10)
  else none

/-- The number that hexadecimal digits stand for. -/
def hexNumber? (digits : Text) : Option Nat :=
  digits.foldlM (fun value digit => (hexValue? digit).map (16 * value + ·)) 0

/-- The four hexadecimal digits of an escape. They are counted in bytes before they are read. -/
def readHex (text : Text) : Except Fault Nat :=
  if Text.utf8Length (text.take 4) < 4 then .error (.endOf .string)
  else
    match hexNumber? (text.take 4) with
    | some value => .ok value
    | none => .error .invalidEscape

/-- The character of an escape with four digits, whose first unit has been read, and the length of
what follows these four digits and belongs to the escape as well: surrogates come in pairs. -/
def readUnit (unit : Nat) (text : Text) : Except Fault (Char × Nat) :=
  if 0xDC00 ≤ unit && unit ≤ 0xDFFF then .error .loneSurrogate
  else if unit < 0xD800 || 0xDBFF < unit then .ok (Char.ofNat unit, 0)
  else
    match text with
    | [] => .error (.endOf .string)
    | backslash :: rest =>
      if backslash != '\\' then .error .endOfHexEscape
      else
        match rest with
        | [] => .error (.endOf .string)
        | letter :: digits =>
          if letter != 'u' then .error .endOfHexEscape
          else do
            let second ← readHex digits
            if second < 0xDC00 || 0xDFFF < second then .error .loneSurrogate
            else .ok (Char.ofNat ((unit - 0xD800) * 0x400 + (second - 0xDC00) + 0x10000), 6)

/-- The character that a letter behind a backslash stands for. -/
def simpleEscape? (letter : Char) : Option Char :=
  if letter = '"' || letter = '\\' || letter = '/' then some letter
  else if letter = 'b' then some '\x08'
  else if letter = 'f' then some '\x0c'
  else if letter = 'n' then some '\n'
  else if letter = 'r' then some '\r'
  else if letter = 't' then some '\t'
  else none

/-- The character of the escape behind a backslash, and the length of the escape. -/
def readEscape : Text → Except Fault (Char × Nat)
  | [] => .error (.endOf .string)
  | letter :: rest =>
    if letter = 'u' then do
      let unit ← readHex rest
      let (char, length) ← readUnit unit (rest.drop 4)
      .ok (char, length + 5)
    else
      match simpleEscape? letter with
      | some char => .ok (char, 1)
      | none => .error .invalidEscape

/-- The length of the escape behind a backslash, in a string whose value is not wanted: surrogates
need not come in pairs there. -/
def escapeLength : Text → Except Fault Nat
  | [] => .error (.endOf .string)
  | letter :: rest =>
    if letter = 'u' then (readHex rest).map fun _ => 5
    else if (simpleEscape? letter).isSome then .ok 1
    else .error .invalidEscape

/-- Reads a string behind its opening quote; `skip` characters still belong to the escape read
last. -/
def readStringFrom : (skip : Nat) → Text → Except Fault (Text × Text)
  | _, [] => .error (.endOf .string)
  | skip + 1, _ :: rest => readStringFrom skip rest
  | 0, char :: rest =>
    if char = '"' then .ok ([], rest)
    else if char = '\\' then
      match readEscape rest with
      | .error fault => .error fault
      | .ok (escaped, length) =>
        (readStringFrom length rest).map fun (value, after) => (escaped :: value, after)
    else if char.toNat < 32 then .error .controlCharacter
    else (readStringFrom 0 rest).map fun (value, after) => (char :: value, after)

/-- Reads a string behind its opening quote. -/
def readString (text : Text) : Except Fault (Text × Text) :=
  readStringFrom 0 text

/-- Passes over a string behind its opening quote. -/
def skipStringFrom : (skip : Nat) → Text → Except Fault Text
  | _, [] => .error (.endOf .string)
  | skip + 1, _ :: rest => skipStringFrom skip rest
  | 0, char :: rest =>
    if char = '"' then .ok rest
    else if char = '\\' then
      match escapeLength rest with
      | .error fault => .error fault
      | .ok length => skipStringFrom length rest
    else if char.toNat < 32 then .error .controlCharacter
    else skipStringFrom 0 rest

/-! ## Numbers -/

/-- The greatest integer of 64 bits. -/
def greatestUnsigned : Nat :=
  Nat.pow 2 64 - 1

/-- Extends a significand by the digits of a text for as long as it fits 64 bits, and counts
them. -/
def takeDigits (significand : Nat) : Text → Nat × Nat × Text
  | [] => (significand, 0, [])
  | char :: rest =>
    let extended := significand * 10 + (char.toNat - '0'.toNat)
    if char.isDigit && extended ≤ greatestUnsigned then
      let (final, count, after) := takeDigits extended rest
      (final, count + 1, after)
    else (significand, 0, char :: rest)

/-- The text goes on with a digit. -/
def startsDigit (text : Text) : Bool :=
  text.head?.any Char.isDigit

/-- The text goes on with the mark of an exponent. -/
def startsExponent (text : Text) : Bool :=
  text.head?.any fun char => char = 'e' || char = 'E'

/-- The number of double precision with a sign, a significand and a power of ten. -/
def double (positive : Bool) (significand : Nat) (exponent : Int) (rest : Text) :
    Except Fault (Number × Text) :=
  match Decimal.scale? significand exponent with
  | some value => .ok (.double (if positive then value else -value).toBits, rest)
  | none => .error .numberOutOfRange

/-- The greatest exponent that is read digit by digit. -/
def greatestExponent : Nat :=
  Nat.pow 2 31 - 1

/-- The exponent that digits stand for, unless it is too large, and the rest of the text. -/
def takeExponent (exponent : Nat) : Text → Option Nat × Text
  | [] => (some exponent, [])
  | char :: rest =>
    if char.isDigit then
      let extended := exponent * 10 + (char.toNat - '0'.toNat)
      if extended ≤ greatestExponent then takeExponent extended rest else (none, rest)
    else (some exponent, char :: rest)

/-- Reads an exponent behind its mark. -/
def readExponent (positive : Bool) (significand : Nat) (start : Int) (text : Text) :
    Except Fault (Number × Text) :=
  let (exponentPositive, afterSign) :=
    match text with
    | '+' :: rest => (true, rest)
    | '-' :: rest => (false, rest)
    | rest => (true, rest)
  match afterSign with
  | [] => .error (.endOf .value)
  | first :: rest =>
    if first.isDigit then
      match takeExponent (first.toNat - '0'.toNat) rest with
      | (some exponent, after) =>
        double positive significand
          (if exponentPositive then start + exponent else start - exponent) after
      | (none, after) =>
        if significand != 0 && exponentPositive then .error .numberOutOfRange
        else
          .ok (.double (if positive then (0 : Float) else (-0 : Float)).toBits,
            after.dropWhile Char.isDigit)
    else .error .invalidNumber

/-- Reads the rest of a number behind all of its digits. -/
def finishDouble (positive : Bool) (significand : Nat) (exponent : Int) (text : Text) :
    Except Fault (Number × Text) :=
  if startsExponent text then readExponent positive significand exponent (text.drop 1)
  else double positive significand exponent text

/-- Reads the decimals of a number behind its point. Decimals that no longer fit the significand
are dropped. -/
def readDecimals (positive : Bool) (significand : Nat) (exponent : Int) (text : Text) :
    Except Fault (Number × Text) :=
  let (final, count, after) := takeDigits significand text
  if startsDigit after then
    finishDouble positive final (exponent - count) (after.dropWhile Char.isDigit)
  else if count = 0 then
    .error (if after.isEmpty then .endOf .value else .invalidNumber)
  else finishDouble positive final (exponent - count) after

/-- Reads a number of which the significand holds the whole part, up to digits that did not fit. -/
def readFraction (positive : Bool) (significand : Nat) (text : Text) :
    Except Fault (Number × Text) :=
  if startsDigit text then
    let after := text.dropWhile Char.isDigit
    let dropped : Int := text.length - after.length
    if after.head? = some '.' then readDecimals positive significand dropped (after.drop 1)
    else finishDouble positive significand dropped after
  else if text.head? = some '.' then readDecimals positive significand 0 (text.drop 1)
  else if startsExponent text then readExponent positive significand 0 (text.drop 1)
  else if positive then .ok (.integer significand, text)
  else if 1 ≤ significand && significand ≤ Nat.pow 2 63 then .ok (.integer (-significand), text)
  else .ok (.double (-(Float.ofNat significand)).toBits, text)

/-- Reads a number behind its sign. -/
def readNumber (positive : Bool) (text : Text) : Except Fault (Number × Text) :=
  match text with
  | [] => .error (.endOf .value)
  | first :: rest =>
    if first = '0' then
      if startsDigit rest then .error .invalidNumber else readFraction positive 0 rest
    else if first.isDigit then
      let (significand, _, after) := takeDigits (first.toNat - '0'.toNat) rest
      readFraction positive significand after
    else .error .invalidNumber

/-- Passes over an exponent behind its mark. -/
def skipExponent (text : Text) : Except Fault Text :=
  let isSigned := text.head?.any fun char => char = '+' || char = '-'
  let afterSign := if isSigned then text.drop 1 else text
  if startsDigit afterSign then .ok (afterSign.dropWhile Char.isDigit) else .error .invalidNumber

/-- Passes over the decimals and the exponent of a number. -/
def skipFraction (text : Text) : Except Fault Text :=
  if text.head? = some '.' then
    if startsDigit (text.drop 1) then
      let after := (text.drop 1).dropWhile Char.isDigit
      if startsExponent after then skipExponent (after.drop 1) else .ok after
    else .error .invalidNumber
  else if startsExponent text then skipExponent (text.drop 1)
  else .ok text

/-- Passes over a number behind its sign. -/
def skipNumber (text : Text) : Except Fault Text :=
  match text with
  | [] => .error .invalidNumber
  | first :: rest =>
    if first = '0' then
      if startsDigit rest then .error .invalidNumber else skipFraction rest
    else if first.isDigit then skipFraction (rest.dropWhile Char.isDigit)
    else .error .invalidNumber

end MdxBuild.Json

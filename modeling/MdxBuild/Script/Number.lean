import MdxBuild.Script.Token

/-!
# Numbers of module code

Numbers are kept as they are written: decimal ones with a fraction and an exponent, whole ones in
another base behind a mark, whole ones without bound before an `n`, and the old way of base eight
behind a zero. Single underscores may stand between digits.
-/

namespace MdxBuild.Script

open Text

/-! ## Reading -/

/-- Digits of a class with single underscores between them, at least one digit. -/
def digitsFrom (inClass : Char → Bool) : (behindDigit : Bool) → Text → Option (Text × Text)
  | true, '_' :: rest =>
    (digitsFrom inClass false rest).map fun (run, behind) => ('_' :: run, behind)
  | behindDigit, char :: rest =>
    if inClass char then
      (digitsFrom inClass true rest).map fun (run, behind) => (char :: run, behind)
    else if behindDigit then some ([], char :: rest)
    else none
  | behindDigit, [] => if behindDigit then some ([], []) else none

/-- Decimal digits at the start of a text. -/
def digits? (text : Text) : Option (Text × Text) :=
  digitsFrom Char.isDigit false text

/-- Decimal digits at the start of a text, or none. -/
def optionalDigits? (text : Text) : Option (Text × Text) :=
  if text.head?.any Char.isDigit then digits? text else some ([], text)

/-- The exponent at the start of a text, possibly empty. -/
def exponent? (text : Text) : Option (Text × Text) :=
  match text with
  | mark :: rest =>
    if mark = 'e' || mark = 'E' then
      let (sign, behind) := match rest with
        | '+' :: behind => (['+'], behind)
        | '-' :: behind => (['-'], behind)
        | behind => ([], behind)
      (digits? behind).map fun (power, remainder) => (mark :: sign ++ power, remainder)
    else some ([], text)
  | [] => some ([], [])

/-- What follows the dot of a number: the fraction, whose digits `fraction` reads, and the
exponent. -/
def fractionRest? (fraction : Text → Option (Text × Text)) (text : Text) :
    Option (Text × Text) := do
  let (digits, behind) ← fraction text
  let (power, remainder) ← exponent? behind
  some ('.' :: digits ++ power, remainder)

/-- A digit of a number that is written in another base, after a mark for the base. -/
def isBaseDigit (mark char : Char) : Bool :=
  match mark.toLower with
  | 'x' => char.isDigit || ('a' ≤ char.toLower && char.toLower ≤ 'f')
  | 'o' => isOctalDigit char
  | 'b' => char = '0' || char = '1'
  | _ => false

/-- A mark for the base of a number. -/
def isBaseMark (char : Char) : Bool :=
  ['x', 'o', 'b'].contains char.toLower

/-- The sign of a whole number without bound at the start of a text, or nothing. -/
def wholeMark (text : Text) : Text × Text :=
  match text with
  | 'n' :: rest => (['n'], rest)
  | _ => ([], text)

/-- The number in decimal notation at the start of a text. -/
def decimal? (text : Text) : Option (Text × Text) := do
  let (whole, behind) ← digits? text
  let (others, remainder) ← match behind with
    | '.' :: rest => fractionRest? optionalDigits? rest
    | 'n' :: rest => some (['n'], rest)
    | _ => exponent? behind
  some (whole ++ others, remainder)

/-- The number at the start of a text that has a zero and further digits: it is a whole one in base
eight, unless one of the digits is none of that base. -/
def afterZero? (text : Text) : Option (Text × Text) := do
  let run := text.takeWhile Char.isDigit
  let behind := text.drop run.length
  let (others, remainder) ←
    if run.all isOctalDigit then some ([], behind)
    else
      match behind with
      | '.' :: rest => fractionRest? optionalDigits? rest
      | 'e' :: _ => exponent? behind
      | _ => some ([], behind)
  some (run ++ others, remainder)

/-- The number at the start of a text, whatever follows it. -/
def numeral? (text : Text) : Option (Text × Text) :=
  match text with
  | '0' :: mark :: rest =>
    if isBaseMark mark then do
      let (run, behind) ← digitsFrom (isBaseDigit mark) false rest
      let (sign, remainder) := wholeMark behind
      some ('0' :: mark :: run ++ sign, remainder)
    else if mark.isDigit then afterZero? text
    else if mark = '_' then none
    else decimal? text
  | '.' :: rest => fractionRest? digits? rest
  | _ => decimal? text

/-- The number at the start of a text; neither a name nor a digit may follow it directly. -/
def number? (text : Text) : Option (Text × Text) := do
  let (digits, rest) ← numeral? (token text)
  if rest.head?.any fun char => char.isDigit || isNameStart char then none else some (digits, rest)

/-! ## Properties -/

/-- A number is digits alone, behind which a dot would belong to it. -/
def isWhole (digits : Text) : Bool :=
  digits.all fun char => char.isDigit || char = '_'

/-- The number that decimal digits spell. -/
def digitsValue (digits : Text) : Nat :=
  digits.foldl (fun value char => 10 * value + (char.toNat - 48)) 0

/-- The least whole number that is nearer to the first power of two beyond the range of floating
point numbers than to the largest number in the range, or as near to both. -/
def leastInfinite : Nat :=
  Nat.pow 2 1024 - Nat.pow 2 970

/-- The decimal number `value · 10 ^ power` is infinite as a floating point number. -/
def isBeyondRange (value : Nat) (power : Int) : Bool :=
  let magnitude := (ofNat value).length + power
  if value = 0 || magnitude < 300 then false
  else if 320 < magnitude then true
  else if 0 ≤ power then leastInfinite ≤ value * Nat.pow 10 power.toNat
  else leastInfinite * Nat.pow 10 (-power).toNat ≤ value

/-- The number is written in decimal notation and infinite as a floating point number. -/
def isInfinite (digits : Text) : Bool :=
  let plain := digits.filter (· != '_')
  let mantissa := plain.takeWhile fun char => char.isDigit || char = '.'
  let whole := mantissa.takeWhile Char.isDigit
  let fraction := mantissa.drop (whole.length + 1)
  match plain.drop mantissa.length with
  | [] => isBeyondRange (digitsValue (whole ++ fraction)) (-fraction.length)
  | mark :: power =>
    if mark = 'e' || mark = 'E' then
      let size := digitsValue (power.filter Char.isDigit)
      isBeyondRange (digitsValue (whole ++ fraction))
        ((if power.head? = some '-' then -(size : Int) else size) - fraction.length)
    else false

end MdxBuild.Script

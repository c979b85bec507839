import MdxBuild.Decimal.Shortest

/-!
# The decimal form of double-precision numbers

A finite number prints with the fewest digits that read back. It is positional from a hundred
thousandth up to ten to the sixteenth, always with a point; beyond that it has an exponent with its
sign.
-/

namespace MdxBuild.Decimal

/-- How numbers are laid out. -/
structure Layout where
  /-- The least decimal exponent that is written positionally. -/
  leastPositional : Int
  /-- The greatest decimal exponent that is written positionally. -/
  greatestPositional : Int
  /-- The sign of an exponent that is not negative. -/
  exponentPlus : Text

/-- Numbers in JSON texts are positional from `0.00001` up to below `1e+16`. -/
def jsonLayout : Layout :=
  ⟨-5, 15, ['+']⟩

/-- A decimal without zeros at the end of its digits. -/
def Scientific.reduce : (steps : Nat) → Scientific → Scientific
  | 0, decimal => decimal
  | steps + 1, decimal =>
    if decimal.digits != 0 && decimal.digits % 10 = 0 then
      reduce steps ⟨decimal.digits / 10, decimal.exponent + 1⟩
    else decimal

/-- The text of a positive decimal. -/
def Layout.render (layout : Layout) (decimal : Scientific) : Text :=
  let reduced := decimal.reduce 20
  let digits := Text.ofNat reduced.digits
  let exponent := reduced.exponent + digits.length - 1
  if layout.leastPositional ≤ exponent && exponent ≤ layout.greatestPositional then
    if exponent < 0 then
      "0.".toList ++ List.replicate ((-exponent).toNat - 1) '0' ++ digits
    else
      let whole := exponent.toNat + 1
      if digits.length ≤ whole then
        digits ++ List.replicate (whole - digits.length) '0' ++ ".0".toList
      else digits.take whole ++ ['.'] ++ digits.drop whole
  else
    let mantissa :=
      if digits.length = 1 then digits else digits.take 1 ++ ['.'] ++ digits.drop 1
    let sign := if exponent < 0 then ['-'] else layout.exponentPlus
    mantissa ++ ['e'] ++ sign ++ Text.ofNat exponent.natAbs

/-- The text of the double-precision number with the given bits; `null` for infinities and for what
is no number. -/
def ofBits (layout : Layout) (bits : UInt64) : Text :=
  let whole := bits.toNat
  let fraction := whole % Nat.pow 2 52
  let biased := whole / Nat.pow 2 52 % Nat.pow 2 11
  let sign := if Nat.pow 2 63 ≤ whole then ['-'] else []
  if biased = 2047 then "null".toList
  else if biased = 0 && fraction = 0 then sign ++ "0.0".toList
  else sign ++ layout.render (Interval.ofBits biased fraction).shortest

/-- The number of double precision that a significand of at most 64 bits and a power of ten stand
for: the significand is rounded first and scaled by rounded powers of ten. There is none beyond
the greatest finite number. Three divisions take every such significand to zero. -/
def scale? (significand : Nat) (exponent : Int) : Option Float :=
  go 4 (Float.ofNat significand) exponent
where
  /-- Scales by at most `1e308` at a time. -/
  go : Nat → Float → Int → Option Float
    | 0, number, _ => some number
    | steps + 1, number, exponent =>
      if exponent.natAbs ≤ 308 then
        let power := Float.ofScientific 1 false exponent.natAbs
        if 0 ≤ exponent then
          let scaled := number * power
          if scaled.isInf then none else some scaled
        else some (number / power)
      else if number == 0 then some number
      else if 0 ≤ exponent then none
      else go steps (number / Float.ofScientific 1 false 308) (exponent + 308)

end MdxBuild.Decimal

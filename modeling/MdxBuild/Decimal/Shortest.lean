import MdxBuild.Text.Basic

/-!
# Shortest decimals

Every finite binary number has decimals that round to it; the shortest of them, and of these the
nearest, is the one to print. The search is exact: the numbers that round to a given one form an
interval, and on the grid of the decimals with a given number of digits only the two neighbours of
the number itself need a test.
-/

namespace MdxBuild.Decimal

/-- The number `coefficient · 2 ^ exponent`. -/
structure Dyadic where
  coefficient : Nat
  exponent : Int
deriving DecidableEq, Repr

/-- The decimal `digits · 10 ^ exponent`. -/
structure Scientific where
  digits : Nat
  exponent : Int
deriving DecidableEq, Repr

/-- `base ^ exponent` as the pair of a numerator and a denominator. -/
def powerPair (base : Nat) (exponent : Int) : Nat × Nat :=
  if 0 ≤ exponent then (base.pow exponent.toNat, 1) else (1, base.pow (-exponent).toNat)

/-- The place of a decimal before, at or behind the number `coefficient · 2 ^ exponent`. -/
def Scientific.order (decimal : Scientific) (coefficient : Nat) (exponent : Int) : Ordering :=
  let ten := powerPair 10 decimal.exponent
  let two := powerPair 2 exponent
  compare (decimal.digits * ten.1 * two.2) (coefficient * two.1 * ten.2)

/-- The reals that round to a number: the ends of their interval, scaled by `2 ^ exponent`, and
whether the ends belong to it. -/
structure Interval where
  lower : Nat
  value : Nat
  upper : Nat
  exponent : Int
  closed : Bool
deriving DecidableEq, Repr

namespace Interval

/-- The interval of a positive double-precision number with the given biased exponent and fraction
bits. Below a power of two the neighbour is only half as far away. -/
def ofBits (biased fraction : Nat) : Interval :=
  let number : Dyadic :=
    if biased = 0 then ⟨fraction, -1074⟩ else ⟨Nat.pow 2 52 + fraction, (biased : Int) - 1075⟩
  let below := if fraction = 0 && 1 < biased then 1 else 2
  { lower := 4 * number.coefficient - below
    value := 4 * number.coefficient
    upper := 4 * number.coefficient + 2
    exponent := number.exponent - 2
    closed := number.coefficient % 2 = 0 }

/-- A decimal lies in the interval. -/
def holds (interval : Interval) (decimal : Scientific) : Bool :=
  let atLower := decimal.order interval.lower interval.exponent
  let atUpper := decimal.order interval.upper interval.exponent
  (atLower = .gt || (interval.closed && atLower = .eq)) &&
    (atUpper = .lt || (interval.closed && atUpper = .eq))

/-- The largest decimal on the grid `10 ^ gridExponent` that is not above the interval's number. -/
def floorOn (interval : Interval) (gridExponent : Int) : Nat :=
  let ten := powerPair 10 gridExponent
  let two := powerPair 2 interval.exponent
  (interval.value * two.1 * ten.2) / (two.2 * ten.1)

/-- The interval's number is nearer to the upper of two neighbours on a grid, or exactly between
them with an odd lower one. -/
def prefersUpper (interval : Interval) (lowerDigits : Nat) (gridExponent : Int) : Bool :=
  let ten := powerPair 10 gridExponent
  let two := powerPair 2 interval.exponent
  let number := 2 * interval.value * two.1 * ten.2
  let middle := (2 * lowerDigits + 1) * ten.1 * two.2
  middle < number || (middle = number && lowerDigits % 2 = 1)

/-- The decimal on a grid that rounds to the interval's number, the nearer one of two. -/
def onGrid? (interval : Interval) (gridExponent : Int) : Option Scientific :=
  let lower : Scientific := ⟨interval.floorOn gridExponent, gridExponent⟩
  let upper : Scientific := ⟨lower.digits + 1, gridExponent⟩
  match interval.holds lower && lower.digits != 0, interval.holds upper with
  | true, true => some (if interval.prefersUpper lower.digits gridExponent then upper else lower)
  | true, false => some lower
  | false, true => some upper
  | false, false => none

/-- The number of digits before the decimal point: the least `k` with the number below `10 ^ k`.
The search starts from a value known to be too small. -/
def magnitude (interval : Interval) : (steps : Nat) → Int → Int
  | 0, candidate => candidate
  | steps + 1, candidate =>
    let ten := powerPair 10 candidate
    let two := powerPair 2 interval.exponent
    if interval.value * two.1 * ten.2 < ten.1 * two.2 then candidate
    else magnitude interval steps (candidate + 1)

/-- The first hit on the grids with `count`, `count + 1`, … digits. -/
def search (interval : Interval) (top : Int) : (steps count : Nat) → Scientific
  | 0, count => ⟨interval.floorOn (top - count), top - count⟩
  | steps + 1, count =>
    match interval.onGrid? (top - count) with
    | some decimal => decimal
    | none => search interval top steps (count + 1)

/-- The shortest decimal that rounds to the interval's number. -/
def shortest (interval : Interval) : Scientific :=
  interval.search (interval.magnitude 700 (-330)) 17 1

end Interval

end MdxBuild.Decimal

/-
  GraphSchema.Number.Shortest — the fewest decimal digits that read back as a double.

  The reals that round to a double form an interval around it, half way to each
  neighbour; the ends belong to it when the significand is even. For one digit, two
  digits and so on the decimals with that many digits form a grid, and the two grid
  points next to the double are tried: the first grid with a point in the interval wins,
  of two points the nearer one, and of two equally near the even one.
-/

import GraphSchema.Number.Digits
import GraphSchema.Number.Double

namespace GraphSchema

/-- `digits`, read as `d.ddd` times ten to the `exponent`. -/
structure DigitRun where
  digits : List Char
  exponent : Int
  deriving DecidableEq, Repr

namespace Double

/-- Ends of the rounding interval, in quarters of the unit of the significand. The gap
below a power of two is half as wide. -/
def lowQuarters (x : Double) : Nat :=
  4 * x.significand - (if x.significand = Nat.pow 2 52 ∧ -1074 < x.exponent then 1 else 2)

def highQuarters (x : Double) : Nat := 4 * x.significand + 2

/-- Whether `c * 10 ^ k` rounds to `x`. -/
def roundsFrom (x : Double) (c : Nat) (k : Int) : Bool :=
  let quarter := x.exponent - 2
  let decimal := c * Nat.pow 10 k.toNat * Nat.pow 2 (-quarter).toNat
  let low := x.lowQuarters * Nat.pow 2 quarter.toNat * Nat.pow 10 (-k).toNat
  let high := x.highQuarters * Nat.pow 2 quarter.toNat * Nat.pow 10 (-k).toNat
  if x.significand % 2 = 0 then low ≤ decimal && decimal ≤ high
  else low < decimal && decimal < high

/-- Whether `10 ^ k` is at most `x`. -/
def atLeastPowerOfTen (x : Double) (k : Int) : Bool :=
  x.denominator * Nat.pow 10 k.toNat ≤ x.numerator * Nat.pow 10 (-k).toNat

/-- The decimal exponent of the first digit: estimated from the binary one, which is off
by one at most. -/
def decimalExponent (x : Double) : Int :=
  let guess := Int.fdiv (((x.significand.log2 : Int) + x.exponent) * 30103) 100000
  if x.atLeastPowerOfTen (guess + 1) then guess + 1
  else if x.atLeastPowerOfTen guess then guess
  else guess - 1

/-- The point of the grid `10 ^ k` that rounds to `x` and is nearest to it. -/
def gridPoint? (x : Double) (k : Int) : Option Nat :=
  let num := x.numerator * Nat.pow 10 (-k).toNat
  let den := x.denominator * Nat.pow 10 k.toNat
  let below := num / den
  let above := below + 1
  match x.roundsFrom below k, x.roundsFrom above k with
  | true, true => some (roundHalfEven num den)
  | true, false => some below
  | false, true => some above
  | false, false => none

def dropTrailingZeros (digits : List Char) : List Char :=
  (digits.reverse.dropWhile (· == '0')).reverse

/-- The digits of a grid point, without zeros at the end. -/
def runOf (c : Nat) (k : Int) : DigitRun :=
  let digits := natDigits c
  ⟨dropTrailingZeros digits, k + digits.length - 1⟩

/-- Seventeen digits tell all doubles apart. -/
def maxDigits : Nat := 17

/-- The shortest run of a double other than zero. -/
def shortest (x : Double) : DigitRun :=
  let first := x.decimalExponent
  let grids := (List.range maxDigits).map fun (more : Nat) => first - more
  match grids.findSome? fun k => (x.gridPoint? k).map (runOf · k) with
  | some run => run
  | none => runOf x.numerator 0

end Double

end GraphSchema

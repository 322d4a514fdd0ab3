/-
  GraphSchema.Number.Double — the finite numbers of double precision.

  A double is a sign and `significand * 2 ^ exponent` in exact integers. The significand
  has 53 bits, fewer only at the smallest exponent, so every number but zero has one
  representation, and zero has two (`-0.0` differs from `0.0` in its sign alone).
  Rounding takes the nearest double and, half way between two, the even one; what lies
  beyond the largest double has none (`ofRatio?` gives `none`).
-/

namespace GraphSchema

/-- The significand fills 53 bits, or the exponent is the smallest there is. -/
def Double.Canonical (significand : Nat) (exponent : Int) : Prop :=
  significand < Nat.pow 2 53 ∧ -1074 ≤ exponent ∧ exponent ≤ 971 ∧
    (Nat.pow 2 52 ≤ significand ∨ exponent = -1074)

instance (significand : Nat) (exponent : Int) :
    Decidable (Double.Canonical significand exponent) := by
  unfold Double.Canonical
  infer_instance

structure Double where
  negative : Bool
  significand : Nat
  exponent : Int
  canonical : Double.Canonical significand exponent
  deriving DecidableEq

namespace Double

def zero (negative : Bool) : Double := ⟨negative, 0, -1074, by decide⟩

def one : Double := ⟨false, Nat.pow 2 52, -52, by decide⟩

instance : Inhabited Double := ⟨zero false⟩

def isZero (x : Double) : Bool := x.significand == 0

/-- The magnitude is `numerator / denominator`. -/
def numerator (x : Double) : Nat := x.significand * Nat.pow 2 x.exponent.toNat

def denominator (x : Double) : Nat := Nat.pow 2 (-x.exponent).toNat

/-- Equal as numbers: the two zeros are. -/
def same (x y : Double) : Bool := x == y || (x.isZero && y.isZero)

/-- The integer this number equals, if it is one. -/
def toInt? (x : Double) : Option Int :=
  if x.numerator % x.denominator = 0 then
    let magnitude : Int := x.numerator / x.denominator
    some (if x.negative then -magnitude else magnitude)
  else none

/-! ## Rounding -/

/-- The integer nearest to `num / den`; of two equally near the even one. -/
def roundHalfEven (num den : Nat) : Nat :=
  let floor := num / den
  let rest := num % den
  if 2 * rest < den then floor
  else if den < 2 * rest then floor + 1
  else if floor % 2 = 0 then floor
  else floor + 1

/-- `num / den` in units of `2 ^ exponent`, rounded. -/
def roundTo (num den : Nat) (exponent : Int) : Nat :=
  roundHalfEven (num * Nat.pow 2 (-exponent).toNat) (den * Nat.pow 2 exponent.toNat)

/-- The exponent at which `num / den` has a 53-bit integer part, or the smallest. -/
def exponentFor (num den : Nat) : Int :=
  let low : Int := max (-1074) ((num.log2 : Int) - den.log2 - 53)
  let bound := low + 53
  if den * Nat.pow 2 bound.toNat ≤ num * Nat.pow 2 (-bound).toNat then low + 1 else low

def ofParts? (negative : Bool) (significand : Nat) (exponent : Int) : Option Double :=
  if h : Canonical significand exponent then some ⟨negative, significand, exponent, h⟩ else none

/-- The double nearest to `num / den`, which must not be too large for one. -/
def ofRatio? (negative : Bool) (num den : Nat) : Option Double :=
  if num = 0 then some (zero negative)
  else
    let exponent := exponentFor num den
    let significand := roundTo num den exponent
    if significand = Nat.pow 2 53 then ofParts? negative (Nat.pow 2 52) (exponent + 1)
    else ofParts? negative significand exponent

def ofInt? (n : Int) : Option Double := ofRatio? (n < 0) n.natAbs 1

theorem same_refl (x : Double) : x.same x = true := by simp [same]

/-- Parts that form a double give that double. -/
theorem ofParts?_eq_some_iff {negative : Bool} {significand : Nat} {exponent : Int} {x : Double} :
    ofParts? negative significand exponent = some x ↔
      x.negative = negative ∧ x.significand = significand ∧ x.exponent = exponent := by
  unfold ofParts?
  split
  · rename_i h
    rcases x with ⟨n, s, e, c⟩
    simp [eq_comm]
  · rename_i h
    simp only [reduceCtorEq, false_iff]
    rintro ⟨-, hs, he⟩
    exact h (hs ▸ he ▸ x.canonical)

end Double

end GraphSchema

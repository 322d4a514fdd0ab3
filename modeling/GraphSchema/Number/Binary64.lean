/-
  GraphSchema.Number.Binary64 — all values of double precision, and how text is read
  as one.

  Besides the finite doubles there are two infinities and a value that is not a number.
  The text of a number is an optional sign, digits with an optional point among, before
  or after them (at least one digit in all), and an optional exponent; `inf`, `infinity`
  and `nan` count in any mixture of cases, with a sign too. Nothing else is a number: no
  blanks, no separators, no other digits than ASCII ones. A number too large for a double
  reads as an infinity, one too small as a zero, and both keep their sign.
-/

import GraphSchema.Number.Digits
import GraphSchema.Number.Double

namespace GraphSchema

inductive Binary64 where
  | finite (value : Double)
  | infinite (negative : Bool)
  | nan
  deriving DecidableEq

namespace Binary64

/-- The double, unless it is an infinity or not a number. -/
def finite? : Binary64 → Option Double
  | finite value => some value
  | _ => none

end Binary64

/-- The number `digits * 10 ^ exponent`, with a sign that zero keeps too. -/
structure Decimal where
  negative : Bool
  digits : Nat
  exponent : Int
  deriving DecidableEq, Repr

namespace Decimal

/-- The nearest double, if the number is not too large for one. The powers of ten that
settle the matter without a division are cut off first. -/
def toDouble? (d : Decimal) : Option Double :=
  if d.digits = 0 then some (Double.zero d.negative)
  else
    let top : Int := (natDigits d.digits).length + d.exponent
    if 310 < top then none
    else if top < -330 then some (Double.zero d.negative)
    else
      Double.ofRatio? d.negative (d.digits * Nat.pow 10 d.exponent.toNat) (Nat.pow 10 (-d.exponent).toNat)

def toBinary64 (d : Decimal) : Binary64 :=
  match d.toDouble? with
  | some value => .finite value
  | none => .infinite d.negative

/-- The exponent that ends a number: nothing, or `e` with an integer. -/
def readExponent? : List Char → Option Int
  | [] => some 0
  | c :: rest => if c = 'e' ∨ c = 'E' then readInt? rest else none

/-- An unsigned number: integer digits, a fraction, an exponent. -/
def readUnsigned? (negative : Bool) (cs : List Char) : Option Decimal :=
  let whole := cs.takeWhile Char.isDigit
  let (fraction, rest) :=
    match cs.dropWhile Char.isDigit with
    | '.' :: rest => (rest.takeWhile Char.isDigit, rest.dropWhile Char.isDigit)
    | rest => ([], rest)
  if whole ++ fraction = [] then none
  else
    (readExponent? rest).map fun exponent =>
      ⟨negative, natOfDigits (whole ++ fraction), exponent - fraction.length⟩

end Decimal

namespace Binary64

/-- An infinity or not a number, by its word in lower case. -/
def readWord? (negative : Bool) (cs : List Char) : Option Binary64 :=
  let word := String.ofList (cs.map Char.toLower)
  if word = "inf" ∨ word = "infinity" then some (infinite negative)
  else if word = "nan" then some nan
  else none

def readSigned? (negative : Bool) (cs : List Char) : Option Binary64 :=
  match Decimal.readUnsigned? negative cs with
  | some decimal => some decimal.toBinary64
  | none => readWord? negative cs

def ofChars? : List Char → Option Binary64
  | '-' :: rest => readSigned? true rest
  | '+' :: rest => readSigned? false rest
  | cs => readSigned? false cs

def ofText? (text : String) : Option Binary64 := ofChars? text.toList

end Binary64

end GraphSchema

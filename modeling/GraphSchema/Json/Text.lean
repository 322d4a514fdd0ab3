/-
  GraphSchema.Json.Text — the compact text of a value.

  No blanks; members in the order they are stored; strings as `Text.Quoted` writes them;
  integers in decimal. A floating number is written with the fewest digits that read
  back, and always so that it is no integer: positional with a point and a digit on each
  side where its first digit stands between `10 ^ -5` and `10 ^ 15`, and with a signed
  exponent elsewhere.
-/

import GraphSchema.Json.Basic
import GraphSchema.Number.Shortest
import GraphSchema.Text.Quoted

namespace GraphSchema

/-- Which decimal exponents of the first digit are written positionally. -/
structure FloatLayout where
  least : Int
  greatest : Int

namespace FloatLayout

/-- Digits around a point; zeros fill the places between. -/
def positional (run : DigitRun) : List Char :=
  if run.exponent < 0 then
    '0' :: '.' :: (List.replicate (-run.exponent - 1).toNat '0' ++ run.digits)
  else
    let whole := run.exponent.toNat + 1
    let fraction := run.digits.drop whole
    run.digits.take whole ++ List.replicate (whole - run.digits.length) '0' ++
      '.' :: (if fraction.isEmpty then ['0'] else fraction)

/-- The first digit, a point if more follow, and the exponent with its sign. -/
def scientific (run : DigitRun) : List Char :=
  let mantissa :=
    match run.digits with
    | first :: second :: rest => first :: '.' :: second :: rest
    | digits => digits
  mantissa ++ 'e' :: (if run.exponent < 0 then '-' else '+') :: natDigits run.exponent.natAbs

def magnitude (layout : FloatLayout) (run : DigitRun) : List Char :=
  if layout.least ≤ run.exponent ∧ run.exponent ≤ layout.greatest then positional run
  else scientific run

def text (layout : FloatLayout) (x : Double) : String :=
  let digits := if x.isZero then ['0', '.', '0'] else layout.magnitude x.shortest
  String.ofList (if x.negative then '-' :: digits else digits)

end FloatLayout

namespace Json

/-- Positional from 0.00001 up to sixteen digits before the point. -/
def floatLayout : FloatLayout := ⟨-5, 15⟩

mutual

def text : Json → String
  | .null => "null"
  | .bool value => if value then "true" else "false"
  | .int value => intText value
  | .float value => floatLayout.text value
  | .string value => quoted value
  | .array items => "[" ++ itemsText items ++ "]"
  | .object members => "\x7b" ++ membersText members ++ "\x7d"

def itemsText : List Json → String
  | [] => ""
  | [item] => item.text
  | item :: rest => item.text ++ "," ++ itemsText rest

def membersText : List (String × Json) → String
  | [] => ""
  | [(name, value)] => quoted name ++ ":" ++ value.text
  | (name, value) :: rest => quoted name ++ ":" ++ value.text ++ "," ++ membersText rest

end

end Json

end GraphSchema

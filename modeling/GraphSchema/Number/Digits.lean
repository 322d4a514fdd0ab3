/-
  GraphSchema.Number.Digits — decimal digits, read and written.

  Only the ASCII digits count. `natOfDigits` reads a run of digits of any length, leading
  zeros included, and `readInt?` one with an optional sign in front; `intText` writes the
  digits without leading zeros and a minus where it belongs.
-/

namespace GraphSchema

/-- The number of a digit character: 0 for `0` up to 9 for `9`. -/
def digitValue (c : Char) : Nat := c.toNat - '0'.toNat

def natOfDigits (cs : List Char) : Nat := cs.foldl (fun n c => 10 * n + digitValue c) 0

/-- A non-empty run of digits, as a number. -/
def readNat? (cs : List Char) : Option Nat :=
  if cs ≠ [] ∧ cs.all Char.isDigit then some (natOfDigits cs) else none

/-- An optional plus or minus, then at least one digit. -/
def readInt? : List Char → Option Int
  | '-' :: digits => (readNat? digits).map fun n => -(n : Int)
  | '+' :: digits => (readNat? digits).map fun n => (n : Int)
  | digits => (readNat? digits).map fun n => (n : Int)

def natDigits (n : Nat) : List Char := Nat.toDigits 10 n

def natText (n : Nat) : String := String.ofList (natDigits n)

def intText (n : Int) : String :=
  if n < 0 then "-" ++ natText n.natAbs else natText n.natAbs

end GraphSchema

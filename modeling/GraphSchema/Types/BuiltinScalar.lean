/-
  GraphSchema.Types.BuiltinScalar — `Int`, `Float`, `String`, `Boolean` and `ID`.

  Answers are coerced liberally: numbers in text count, after white space is taken off
  both ends, and so do booleans. Input is read strictly: each scalar accepts values of
  its own form, a `Float` also integers and an `ID` integers besides strings. `Int` holds
  whole numbers of 32 bits with a sign, however they were written.
-/

import GraphSchema.Json.Text
import GraphSchema.Text.Blank
import GraphSchema.Types.Scalar

namespace GraphSchema

namespace BuiltinScalar

/-- An integer of 32 bits with a sign. -/
def int32? (n : Int) : Option Json :=
  if Int32.minValue.toInt ≤ n ∧ n ≤ Int32.maxValue.toInt then some (.int n) else none

/-! ## Int -/

/-- The integer of 32 bits that a floating number equals. -/
def integral32? (x : Double) : Option Json := x.toInt?.bind int32?

/-- An integer that 64 bits with a sign do not hold is taken as a floating number. -/
def intOfNumber : Json → Option Json
  | .int n =>
    if Int64.minValue.toInt ≤ n ∧ n ≤ Int64.maxValue.toInt then int32? n
    else (Double.ofInt? n).bind integral32?
  | .float x => integral32? x
  | _ => none

theorem intOfNumber_toInt (n : Int64) : intOfNumber (.int n.toInt) = int32? n.toInt :=
  if_pos ⟨n.minValue_le_toInt, n.toInt_le⟩

def serializeInt : Json → Option Json
  | .bool b => int32? (if b then 1 else 0)
  | .string s => (readInt? (trimBlanks s.toList)).bind int32?
  | value => intOfNumber value

def intOfLiteral : Literal → Option Json
  | .int n _ => int32? n.toInt
  | _ => none

def int : ScalarType where
  name := "Int"
  description := some <|
    "The `Int` scalar type represents non-fractional signed whole numeric values. " ++
      "Int can represent values between -(2^31) and 2^31 - 1."
  serialize := serializeInt
  readers := some ⟨intOfNumber, intOfLiteral⟩

/-! ## Float -/

def floatOfNumber : Json → Option Json
  | .int n => (Double.ofInt? n).map .float
  | .float x => some (.float x)
  | _ => none

def serializeFloat : Json → Option Json
  | .bool b => some (.float (if b then .one else .zero false))
  | .string s => ((Binary64.ofChars? (trimBlanks s.toList)).bind Binary64.finite?).map .float
  | value => floatOfNumber value

def floatOfLiteral : Literal → Option Json
  | .float x _ => x.finite?.map .float
  | .int n _ => (Double.ofInt? n.toInt).map .float
  | _ => none

def float : ScalarType where
  name := "Float"
  description := some
    "The `Float` scalar type represents signed double-precision fractional values."
  serialize := serializeFloat
  readers := some ⟨floatOfNumber, floatOfLiteral⟩

/-! ## String -/

def stringOfText : Json → Option Json
  | .string s => some (.string s)
  | _ => none

/-- Numbers and booleans become their text. -/
def serializeString : Json → Option Json
  | .string s => some (.string s)
  | .int n => some (.string (Json.text (.int n)))
  | .float x => some (.string (Json.text (.float x)))
  | .bool b => some (.string (Json.text (.bool b)))
  | _ => none

def stringOfLiteral : Literal → Option Json
  | .string s _ => some (.string s)
  | _ => none

def string : ScalarType where
  name := "String"
  description := some <|
    "The `String` scalar type represents textual data, represented as UTF-8 character " ++
      "sequences."
  serialize := serializeString
  readers := some ⟨stringOfText, stringOfLiteral⟩

/-! ## Boolean -/

def booleanOfTruth : Json → Option Json
  | .bool b => some (.bool b)
  | _ => none

/-- Zero, the empty text and the text `false` are false. -/
def serializeBoolean : Json → Option Json
  | .bool b => some (.bool b)
  | .int n => some (.bool (n != 0))
  | .float x => some (.bool (!x.isZero))
  | .string s => some (.bool (s != "" && s != "false"))
  | _ => none

def booleanOfLiteral : Literal → Option Json
  | .boolean b _ => some (.bool b)
  | _ => none

def boolean : ScalarType where
  name := "Boolean"
  description := some "The `Boolean` scalar type represents `true` or `false`."
  serialize := serializeBoolean
  readers := some ⟨booleanOfTruth, booleanOfLiteral⟩

/-! ## ID -/

/-- Strings stay, integers become their decimal text. -/
def coerceId : Json → Option Json
  | .string s => some (.string s)
  | .int n => some (.string (intText n))
  | _ => none

def idOfLiteral : Literal → Option Json
  | .string s _ => some (.string s)
  | .int n _ => some (.string (intText n.toInt))
  | _ => none

def id : ScalarType where
  name := "ID"
  description := some <|
    "The `ID` scalar type represents a unique identifier, often used to refetch an object " ++
      "or as key for a cache."
  serialize := coerceId
  readers := some ⟨coerceId, idOfLiteral⟩

def all : List ScalarType := [int, float, string, boolean, id]

def names : List String := all.map ScalarType.name

end BuiltinScalar

def isBuiltinScalar (name : String) : Bool := BuiltinScalar.names.contains name

end GraphSchema

/-
  GraphSchema.Types.Scalar — custom scalar types.

  A scalar turns runtime values into answers (`serialize`) and, if it may be used for
  input, reads variables and literals. The two readers come together or not at all: a
  configuration with only one of them is refused, as is one that cannot serialize. A
  scalar without readers passes variables through unchanged and accepts no literal.
-/

import GraphSchema.TypeError
import GraphSchema.Request.Literal

namespace GraphSchema

structure ScalarConfig where
  name : String
  description : Option String := none
  serialize : Option (Json → Option Json) := none
  parseValue : Option (Json → Option Json) := none
  parseLiteral : Option (Literal → Option Json) := none

/-- How input is read, from a variable's value and from a literal. -/
structure ScalarReaders where
  value : Json → Option Json
  literal : Literal → Option Json

structure ScalarType where
  name : String
  description : Option String
  serialize : Json → Option Json
  readers : Option ScalarReaders

namespace ScalarType

/-- The two readers of a configuration, if it has both or neither. -/
def readersOf (config : ScalarConfig) : Except TypeError (Option ScalarReaders) :=
  match config.parseValue, config.parseLiteral with
  | some value, some literal => .ok (some ⟨value, literal⟩)
  | none, none => .ok none
  | _, _ => .error (.incompleteParseFunctions config.name)

def ofConfig (config : ScalarConfig) : Except TypeError ScalarType := do
  checkTypeName config.name
  match config.serialize with
  | none => .error (.missingSerialize config.name)
  | some serialize =>
    let readers ← readersOf config
    .ok ⟨config.name, config.description, serialize, readers⟩

def isInputCapable (scalar : ScalarType) : Bool := scalar.readers.isSome

def parseValue (scalar : ScalarType) (value : Json) : Option Json :=
  match scalar.readers with
  | some readers => readers.value value
  | none => some value

def parseLiteral (scalar : ScalarType) (literal : Literal) : Option Json :=
  scalar.readers.bind fun readers => readers.literal literal

end ScalarType

end GraphSchema

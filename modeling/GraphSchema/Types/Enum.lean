/-
  GraphSchema.Types.Enum — enum types.

  The values of an enum are kept in the order of their names, whatever order they were
  declared in. Each stands for an internal value, by default the string of its own name.
  Two tables say where among the values a name stands, and where an internal value does,
  which is told by its JSON text; of values with one text the last counts. A runtime
  value is answered by the name of the value its text leads to. Input is a declared
  name, as a string in a variable or as an enum literal, and reads as the internal value.
-/

import GraphSchema.Collection.Keyed
import GraphSchema.Json.Text
import GraphSchema.Request.Literal
import GraphSchema.TypeError

namespace GraphSchema

structure EnumValueConfig where
  value : Option Json := none
  description : Option String := none
  deprecationReason : Option String := none

structure EnumConfig where
  name : String
  description : Option String := none
  values : Keyed EnumValueConfig := .empty

structure EnumValue where
  name : String
  value : Json
  description : Option String
  deprecationReason : Option String

namespace EnumValue

def isDeprecated (value : EnumValue) : Bool := value.deprecationReason.isSome

/-- A declared value; without an internal value it stands for the string of its name. -/
def ofConfig (name : String) (config : EnumValueConfig) : Except TypeError EnumValue := do
  checkName name
  .ok ⟨name, config.value.getD (.string name), config.description, config.deprecationReason⟩

end EnumValue

/-- Where each key stands among the values; of values with one key the last counts. -/
def EnumValue.placesBy (key : EnumValue → String) (values : List EnumValue) :
    Keyed (Fin values.length) :=
  .ofList ((List.finRange values.length).map fun place => (key (values.get place), place))

structure EnumType where
  name : String
  description : Option String
  values : List EnumValue
  sorted : values.Pairwise fun x y => x.name < y.name
  /-- Where a name stands. -/
  byName : Keyed (Fin values.length)
  byName_eq : byName = EnumValue.placesBy EnumValue.name values
  /-- Where an internal value stands, by its JSON text. -/
  byText : Keyed (Fin values.length)
  byText_eq : byText = EnumValue.placesBy (fun value => value.value.text) values

namespace EnumType

/-- The enum of the given values, with its tables. -/
def ofSorted (name : String) (description : Option String) (values : List EnumValue)
    (sorted : values.Pairwise fun x y => x.name < y.name) : EnumType :=
  ⟨name, description, values, sorted, EnumValue.placesBy EnumValue.name values, rfl,
    EnumValue.placesBy (fun value => value.value.text) values, rfl⟩

def ofConfig (config : EnumConfig) : Except TypeError EnumType := do
  checkTypeName config.name
  if config.values.isEmpty then .error (.emptyEnum config.name)
  let values ← config.values.traverse EnumValue.ofConfig
  .ok (ofSorted config.name config.description (sortOn EnumValue.name values.values)
    (pairwise_sortOn EnumValue.name values.values))

def value? (type : EnumType) (name : String) : Option EnumValue :=
  (type.byName.get? name).map type.values.get

def serialize (type : EnumType) (value : Json) : Option Json :=
  (type.byText.get? value.text).map fun place => .string (type.values.get place).name

def parseValue (type : EnumType) (value : Json) : Option Json :=
  (value.string?.bind type.value?).map EnumValue.value

def parseLiteral (type : EnumType) (literal : Literal) : Option Json :=
  (literal.enum?.bind type.value?).map EnumValue.value

end EnumType

end GraphSchema

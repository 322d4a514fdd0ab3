/-
  GraphSchema.Schema.Conformance — whether an object provides what an interface promises.

  For each field of the interface the object must have a field of that name whose type
  may stand in for the promised one, and each promised argument with exactly the promised
  type. A type stands in for another if it adds non-null markers, or if it names an object
  that the other's interface or union may turn out to be, under the same lists. All faults
  of a pair are reported, in the order of the interface's fields and their arguments.
-/

import GraphSchema.Types.Definition

namespace GraphSchema

/-- Whether the object `found` is a possible type of `expected`. -/
def isPossibleIn (types : Keyed TypeDefinition) (found expected : String) : Bool :=
  match types.get? expected with
  | some (.interface interface) => interface.isPossibleType found
  | some (.union union) => union.isPossibleType found
  | _ => false

/-- Whether a field of type `found` satisfies a promise of type `expected`. -/
def isCovariant (types : Keyed TypeDefinition) : TypeRef → TypeRef → Bool
  | .nonNull found, .nonNull expected => isCovariant types found expected
  | .list found, .list expected => isCovariant types found expected
  | .nonNull found, expected => isCovariant types found expected
  | .named found, .named expected => found == expected || isPossibleIn types found expected
  | _, _ => false

/-- The faults of one promised argument. -/
def checkArgument (interface object field : String) (found : FieldDefinition)
    (expected : Argument) : List TypeError :=
  match found.argument? expected.name with
  | none => [.missingInterfaceArgument interface object field expected.name]
  | some argument =>
    if argument.type = expected.type then []
    else [.interfaceArgumentMismatch interface object field expected.name expected.type
      argument.type]

/-- The faults of one promised field. -/
def checkField (types : Keyed TypeDefinition) (interface : String) (object : ObjectType)
    (field : String) (expected : FieldDefinition) : List TypeError :=
  match object.field? field with
  | none => [.missingInterfaceField interface object.name field]
  | some found =>
    (if isCovariant types found.type expected.type then []
      else [.interfaceFieldMismatch interface object.name field expected.type found.type]) ++
    expected.args.flatMap (checkArgument interface object.name field found)

def checkImplementation (types : Keyed TypeDefinition) (interface : InterfaceType)
    (object : ObjectType) : List TypeError :=
  interface.fields.entries.flatMap fun (field, expected) =>
    checkField types interface.name object field expected

/-- The faults of every implementation of every interface, in the order of the types. -/
def conformanceErrors (types : Keyed TypeDefinition) : List TypeError :=
  types.values.flatMap fun
    | .interface interface => interface.implementations.flatMap (checkImplementation types interface)
    | _ => []

end GraphSchema

/-
  GraphSchema.TypeError — what can be wrong with the definition of a type.

  One constructor a cause. `TypeError.message` is the text a host shows, kept word for
  word; `TypeError.code` is the stable code a report is filed under. `SchemaError`
  gathers every error of a failed publication, in the order they were found.
-/

import GraphSchema.Name
import GraphSchema.TypeRef

namespace GraphSchema

inductive TypeError where
  | unnamed
  | invalidName (name : String)
  | duplicateType (name : String)
  | unknownType (name : String)
  | missingSerialize (scalar : String)
  | incompleteParseFunctions (scalar : String)
  | emptyFields (owner : String)
  | fieldNotOutput (owner field : String) (type : TypeRef)
  | argumentNotInput (owner field argument : String) (type : TypeRef)
  | inputFieldNotInput (owner field : String) (type : TypeRef)
  | notAnInterface (object name : String)
  | unresolvableImplementation (interface object : String)
  | emptyUnion (union : String)
  | notAnObject (union name : String)
  | unresolvableMember (union object : String)
  | emptyEnum (enum : String)
  | nonNullOfNonNull (type : TypeRef)
  | cannotAddField (typeName field : String)
  | missingInterfaceField (interface object field : String)
  | interfaceFieldMismatch (interface object field : String) (expected found : TypeRef)
  | missingInterfaceArgument (interface object field argument : String)
  | interfaceArgumentMismatch (interface object field argument : String)
      (expected found : TypeRef)
  | invalidQueryRoot (name : String)
  | invalidMutationRoot (name : String)
  deriving DecidableEq, Repr

namespace TypeError

def message : TypeError → String
  | unnamed => "Type must be named."
  | invalidName name =>
    "Names must match /^[_a-zA-Z][_a-zA-Z0-9]*$/ but \"" ++ name ++ "\" does not."
  | duplicateType name =>
    "Schema must contain unique named types but contains multiple types named \"" ++ name ++ "\"."
  | unknownType name => "Unknown type \"" ++ name ++ "\"."
  | missingSerialize scalar =>
    scalar ++ " must provide \"serialize\" function. If this custom Scalar is also used as an " ++
      "input type, ensure \"parseValue\" and \"parseLiteral\" functions are also provided."
  | incompleteParseFunctions scalar =>
    scalar ++ " must provide both \"parseValue\" and \"parseLiteral\" functions."
  | emptyFields owner =>
    owner ++ " fields must be an object with field names as keys or a function which return " ++
      "such an object."
  | fieldNotOutput owner field type =>
    owner ++ "." ++ field ++ " field type must be Output Type but got: " ++ type.display ++ "."
  | argumentNotInput owner field argument type =>
    owner ++ "." ++ field ++ "(" ++ argument ++ ":) argument type must be Input Type but got: " ++
      type.display ++ "."
  | inputFieldNotInput owner field type =>
    owner ++ "." ++ field ++ " field type must be Input Type but got: " ++ type.display ++ "."
  | notAnInterface object name =>
    object ++ " may only implement Interface types, it cannot implement: " ++ name ++ "."
  | unresolvableImplementation interface object =>
    "Interface Type " ++ interface ++ " does not provide a \"resolveType\" function and " ++
      "implementing Type " ++ object ++ " does not provide a \"isTypeOf\" function. " ++
      "There is no way to resolve this implementing type during execution."
  | emptyUnion union => "Must provide Array of types for Union " ++ union ++ "."
  | notAnObject union name =>
    union ++ " may only contain Object types, it cannot contain: " ++ name ++ "."
  | unresolvableMember union object =>
    "Union Type " ++ union ++ " does not provide a \"resolveType\" function and possible " ++
      "Type " ++ object ++ " does not provide a \"isTypeOf\" function. There is no way to resolve " ++
      "this possible type during execution."
  | emptyEnum enum => enum ++ " values must be an object with value names as keys."
  | nonNullOfNonNull type =>
    "Can only create NonNull of a Nullable Type but got: " ++ type.display ++ "."
  | cannotAddField typeName field =>
    "Cannot add field \"" ++ field ++ "\" to " ++ typeName ++
      ": only Object and Interface types have fields."
  | missingInterfaceField interface object field =>
    "\"" ++ interface ++ "\" expects field \"" ++ field ++ "\" but \"" ++ object ++
      "\" does not provide it."
  | interfaceFieldMismatch interface object field expected found =>
    interface ++ "." ++ field ++ " expects type \"" ++ expected.display ++ "\" but " ++ object ++
      "." ++ field ++ " provides type \"" ++ found.display ++ "\"."
  | missingInterfaceArgument interface object field argument =>
    interface ++ "." ++ field ++ " expects argument \"" ++ argument ++ "\" but " ++ object ++
      "." ++ field ++ " does not provide it."
  | interfaceArgumentMismatch interface object field argument expected found =>
    interface ++ "." ++ field ++ "(" ++ argument ++ ":) expects type \"" ++ expected.display ++
      "\" but " ++ object ++ "." ++ field ++ "(" ++ argument ++ ":) provides type \"" ++
      found.display ++ "\"."
  | invalidQueryRoot name => "Schema query must be Object Type but got: " ++ name ++ "."
  | invalidMutationRoot name => "Schema mutation must be Object Type but got: " ++ name ++ "."

def code : TypeError → String
  | unnamed => "gqlt::types::unnamed"
  | invalidName _ => "gqlt::types::invalid_name"
  | duplicateType _ => "gqlt::types::duplicate_type"
  | unknownType _ => "gqlt::types::unknown_type"
  | missingSerialize _ => "gqlt::types::missing_serialize"
  | incompleteParseFunctions _ => "gqlt::types::incomplete_parse_functions"
  | emptyFields _ => "gqlt::types::empty_fields"
  | fieldNotOutput _ _ _ => "gqlt::types::field_not_output"
  | argumentNotInput _ _ _ _ => "gqlt::types::argument_not_input"
  | inputFieldNotInput _ _ _ => "gqlt::types::input_field_not_input"
  | notAnInterface _ _ => "gqlt::types::not_an_interface"
  | unresolvableImplementation _ _ => "gqlt::types::unresolvable_implementation"
  | emptyUnion _ => "gqlt::types::empty_union"
  | notAnObject _ _ => "gqlt::types::not_an_object"
  | unresolvableMember _ _ => "gqlt::types::unresolvable_member"
  | emptyEnum _ => "gqlt::types::empty_enum"
  | nonNullOfNonNull _ => "gqlt::types::non_null_of_non_null"
  | cannotAddField _ _ => "gqlt::types::cannot_add_field"
  | missingInterfaceField _ _ _ => "gqlt::types::missing_interface_field"
  | interfaceFieldMismatch _ _ _ _ _ => "gqlt::types::interface_field_mismatch"
  | missingInterfaceArgument _ _ _ _ => "gqlt::types::missing_interface_argument"
  | interfaceArgumentMismatch _ _ _ _ _ _ => "gqlt::types::interface_argument_mismatch"
  | invalidQueryRoot _ => "gqlt::types::invalid_query_root"
  | invalidMutationRoot _ => "gqlt::types::invalid_mutation_root"

end TypeError

/-! ## Checks that need no other type -/

/-- Refuses what is not a name. -/
def checkName (name : String) : Except TypeError Unit :=
  if isValidName name then .ok () else .error (.invalidName name)

/-- Refuses a type without a name, or whose name is not one. -/
def checkTypeName (name : String) : Except TypeError Unit :=
  if name = "" then .error .unnamed else checkName name

theorem checkName_eq_ok_iff {name : String} : checkName name = .ok () ↔ isValidName name = true := by
  unfold checkName
  split <;> simp_all

theorem checkTypeName_eq_ok_iff {name : String} :
    checkTypeName name = .ok () ↔ isValidName name = true := by
  unfold checkTypeName
  split
  · simp_all
  · exact checkName_eq_ok_iff

/-- Marks a reference non-null, unless it already is. -/
def TypeRef.toNonNull (type : TypeRef) : Except TypeError TypeRef :=
  if type.isNonNull then .error (.nonNullOfNonNull type) else .ok (.nonNull type)

/-! ## A failed publication -/

/-- Every error found while publishing a schema, in the order found. -/
structure SchemaError where
  errors : List TypeError
  deriving DecidableEq, Repr

namespace SchemaError

/-- A single error speaks for itself; several are counted and listed, one a line. -/
def message (failure : SchemaError) : String :=
  match failure.errors with
  | [error] => error.message
  | errors =>
    "schema has " ++ toString errors.length ++ " invalid definitions" ++
      String.join (errors.map fun error => "\n  - " ++ error.message)

def code : String := "gqlt::types::invalid_schema"

end SchemaError

end GraphSchema

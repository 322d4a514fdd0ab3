/-
  GraphSchema.Print.Dump — configurations and types written out for diagnosis.

  A record is its name with its fields in braces, `name: value`; where it has more than is
  shown, two dots end it. Functions show only whether they are there, configuration that
  is made later shows as `Lazy(..)`, and types refer to other types by name. Text stands
  in quotes, with what has no shape of its own, or would be drawn on the character before
  it, written by its number.
-/

import GraphSchema.Json.Text
import GraphSchema.Schema.Basic
import GraphSchema.Text.Lines
import GraphSchema.Text.Printable

namespace GraphSchema

namespace Dump

/-! ## Forms -/

def hexText (n : Nat) : List Char := Nat.toDigits 16 n

def escape (c : Char) : List Char :=
  if c = '\x00' then ['\\', '0']
  else if c = '\t' then ['\\', 't']
  else if c = '\r' then ['\\', 'r']
  else if c = '\n' then ['\\', 'n']
  else if c = '\\' then ['\\', '\\']
  else if c = '"' then ['\\', '"']
  else if isExtending c || !isPrintable c then
    ['\\', 'u', '\x7b'] ++ hexText c.toNat ++ ['\x7d']
  else [c]

def text (s : String) : String := String.ofList ('"' :: s.toList.flatMap escape ++ ['"'])

def bool (b : Bool) : String := if b then "true" else "false"

def option (shown : Option String) : String :=
  match shown with
  | none => "None"
  | some shown => "Some(" ++ shown ++ ")"

def list (items : List String) : String := "[" ++ joinWith ", " items ++ "]"

def texts (items : List String) : String := list (items.map text)

def braced (items : List String) : String := "\x7b" ++ joinWith ", " items ++ "\x7d"

def map (entries : List (String × String)) : String :=
  braced (entries.map fun (key, shown) => text key ++ ": " ++ shown)

def recordFields (fields : List (String × String)) : List String :=
  fields.map fun (name, shown) => name ++ ": " ++ shown

/-- A record that shows all it has. -/
def whole (name : String) (fields : List (String × String)) : String :=
  name ++ " \x7b " ++ joinWith ", " (recordFields fields) ++ " \x7d"

/-- A record that has more than it shows. -/
def part (name : String) (fields : List (String × String)) : String :=
  name ++ " \x7b " ++ joinWith ", " (recordFields fields ++ [".."]) ++ " \x7d"

def deferred {α : Type} (shown : α → String) : Deferred α → String
  | .now value => "Value(" ++ shown value ++ ")"
  | .later _ => "Lazy(..)"

/-! ## Values and references -/

def typeRef : TypeRef → String
  | .named name => "Named(" ++ text name ++ ")"
  | .list item => "List(" ++ typeRef item ++ ")"
  | .nonNull item => "NonNull(" ++ typeRef item ++ ")"

mutual

def json : Json → String
  | .null => "Null"
  | .bool b => "Bool(" ++ bool b ++ ")"
  | .int n => "Number(" ++ Json.text (.int n) ++ ")"
  | .float x => "Number(" ++ Json.text (.float x) ++ ")"
  | .string s => "String(" ++ text s ++ ")"
  | .array items => "Array [" ++ jsonItems items ++ "]"
  | .object members => "Object \x7b" ++ jsonMembers members ++ "\x7d"

def jsonItems : List Json → String
  | [] => ""
  | [item] => json item
  | item :: rest => json item ++ ", " ++ jsonItems rest

def jsonMembers : List (String × Json) → String
  | [] => ""
  | [(name, item)] => text name ++ ": " ++ json item
  | (name, item) :: rest => text name ++ ": " ++ json item ++ ", " ++ jsonMembers rest

end

def optionalJson (value : Option Json) : String := option (value.map json)

def optionalText (value : Option String) : String := option (value.map text)

/-! ## Configurations -/

def scalarConfig (config : ScalarConfig) : String :=
  part "ScalarConfig" [
    ("name", text config.name),
    ("serialize", bool config.serialize.isSome),
    ("parse_value", bool config.parseValue.isSome),
    ("parse_literal", bool config.parseLiteral.isSome)]

def argumentConfig (config : ArgumentConfig) : String :=
  whole "ArgumentConfig" [
    ("ty", typeRef config.type),
    ("default_value", optionalJson config.defaultValue),
    ("description", optionalText config.description)]

def entries {α : Type} (shown : α → String) (values : Keyed α) : String :=
  map (values.entries.map fun (key, value) => (key, shown value))

def fieldConfig (config : FieldConfig) : String :=
  part "FieldConfig" [
    ("ty", typeRef config.type),
    ("args", entries argumentConfig config.args),
    ("resolve", bool config.resolve.isSome)]

def objectConfig (config : ObjectConfig) : String :=
  part "ObjectConfig" [
    ("name", text config.name),
    ("fields", deferred (entries fieldConfig) config.fields),
    ("interfaces", deferred texts config.interfaces),
    ("is_type_of", bool config.isTypeOf.isSome)]

def interfaceConfig (config : InterfaceConfig) : String :=
  part "InterfaceConfig" [
    ("name", text config.name),
    ("fields", deferred (entries fieldConfig) config.fields),
    ("resolve_type", bool config.resolveType.isSome)]

def unionConfig (config : UnionConfig) : String :=
  part "UnionConfig" [
    ("name", text config.name),
    ("types", texts config.types),
    ("resolve_type", bool config.resolveType.isSome)]

def inputFieldConfig (config : InputFieldConfig) : String :=
  whole "InputFieldConfig" [
    ("ty", typeRef config.type),
    ("default_value", optionalJson config.defaultValue),
    ("description", optionalText config.description)]

def inputObjectConfig (config : InputObjectConfig) : String :=
  part "InputObjectConfig" [
    ("name", text config.name),
    ("fields", deferred (entries inputFieldConfig) config.fields)]

/-- The configuration a call registers; enums and added fields have no such form. -/
def registration? : Registration → Option String
  | .scalar config => some (scalarConfig config)
  | .object config => some (objectConfig config)
  | .interface config => some (interfaceConfig config)
  | .union config => some (unionConfig config)
  | .inputObject config => some (inputObjectConfig config)
  | .enum _ => none
  | .addField _ _ _ => none

/-! ## Types -/

def argument (argument : Argument) : String :=
  whole "Argument" [
    ("name", text argument.name),
    ("ty", typeRef argument.type),
    ("default_value", optionalJson argument.defaultValue),
    ("description", optionalText argument.description)]

def fieldDefinition (field : FieldDefinition) : String :=
  part "FieldDefinition" [
    ("name", text field.name),
    ("ty", typeRef field.type),
    ("args", list (field.args.map argument)),
    ("deprecation_reason", optionalText field.deprecationReason),
    ("resolve", bool field.hasResolver)]

def scalarType (type : ScalarType) : String :=
  part "ScalarType" [("name", text type.name), ("input_capable", bool type.isInputCapable)]

def objectType (type : ObjectType) : String :=
  part "ObjectType" [
    ("name", text type.name),
    ("fields", texts type.fields.keys),
    ("interfaces", texts type.interfaces),
    ("is_type_of", bool type.hasIsTypeOf)]

def interfaceType (type : InterfaceType) : String :=
  part "InterfaceType" [
    ("name", text type.name),
    ("fields", texts type.fields.keys),
    ("implementations", texts (type.implementations.map (·.name))),
    ("resolve_type", bool type.hasResolveType)]

def unionType (type : UnionType) : String :=
  part "UnionType" [
    ("name", text type.name),
    ("types", texts (type.types.map (·.name))),
    ("resolve_type", bool type.hasResolveType)]

def inputField (field : InputField) : String :=
  whole "InputObjectField" [
    ("name", text field.name),
    ("ty", typeRef field.type),
    ("default_value", optionalJson field.defaultValue),
    ("description", optionalText field.description)]

def inputObjectType (type : InputObjectType) : String :=
  whole "InputObjectType" [
    ("name", text type.name),
    ("description", optionalText type.description),
    ("fields", entries inputField type.fields)]

/-- A definition under the word of its kind; enums have no such form. -/
def definition? : TypeDefinition → Option String
  | .scalar type => some ("Scalar(" ++ scalarType type ++ ")")
  | .object type => some ("Object(" ++ objectType type ++ ")")
  | .interface type => some ("Interface(" ++ interfaceType type ++ ")")
  | .union type => some ("Union(" ++ unionType type ++ ")")
  | .inputObject type => some ("InputObject(" ++ inputObjectType type ++ ")")
  | .enum _ => none

/-! ## Schemas and accounts -/

def schema (schema : Schema) : String :=
  whole "Schema" [
    ("query", text schema.query.name),
    ("mutation", optionalText (schema.mutation.map (·.name))),
    ("types", texts schema.types.keys)]

def resolveInfo (info : ResolveInfo) : String :=
  part "ResolveInfo" [
    ("field_name", text info.fieldName),
    ("return_type", text info.returnType.display),
    ("parent_type", text info.parentType),
    ("fragments", texts info.fragments.keys)]

end Dump

end GraphSchema

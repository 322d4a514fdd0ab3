/-
  GraphSchema.Types.Field — output fields and their arguments.

  The field map of an object or interface is built whole or not at all: the first fault,
  in the order of the configuration, is its error. For each field that is its name, then
  its type, then for each argument its name and its type. The arguments of a built field
  are in the order of their names.
-/

import GraphSchema.Execution.Info
import GraphSchema.Types.KindTable

namespace GraphSchema

structure ArgumentConfig where
  type : TypeRef
  defaultValue : Option Json := none
  description : Option String := none

structure FieldConfig where
  type : TypeRef
  args : Keyed ArgumentConfig := .empty
  resolve : Option Resolver := none
  deprecationReason : Option String := none
  description : Option String := none

structure Argument where
  name : String
  type : TypeRef
  defaultValue : Option Json
  description : Option String

structure FieldDefinition where
  name : String
  type : TypeRef
  args : List Argument
  deprecationReason : Option String
  description : Option String
  resolver : Option Resolver

namespace FieldDefinition

def argument? (field : FieldDefinition) (name : String) : Option Argument :=
  field.args.find? fun argument => argument.name == name

def isDeprecated (field : FieldDefinition) : Bool := field.deprecationReason.isSome

def hasResolver (field : FieldDefinition) : Bool := field.resolver.isSome

/-- Runs the resolver; without one, reads the member of the source under the field's name,
or null. -/
def resolve (field : FieldDefinition) (params : ResolveParams) : Except FieldError Json :=
  match field.resolver with
  | some resolver => resolver params
  | none => .ok (.ofOption (params.source.member? field.name))

end FieldDefinition

/-! ## Building a field map -/

/-- An argument of `owner.field`; its type must be an input type. -/
def ArgumentConfig.define (owner field : String) (kinds : KindTable) (name : String)
    (config : ArgumentConfig) : Except TypeError Argument := do
  checkName name
  if !(← kinds.acceptsInput config.type) then
    .error (.argumentNotInput owner field name config.type)
  .ok ⟨name, config.type, config.defaultValue, config.description⟩

/-- A field of `owner`; its type must be an output type. -/
def FieldConfig.define (owner : String) (kinds : KindTable) (name : String)
    (config : FieldConfig) : Except TypeError FieldDefinition := do
  checkName name
  if !(← kinds.acceptsOutput config.type) then
    .error (.fieldNotOutput owner name config.type)
  let args ← config.args.traverse (ArgumentConfig.define owner name kinds)
  .ok ⟨name, config.type, sortOn Argument.name args.values, config.deprecationReason,
    config.description, config.resolve⟩

/-- The fields of `owner`, which must have at least one. -/
def defineFields (owner : String) (kinds : KindTable) (configs : Keyed FieldConfig) :
    Except TypeError (Keyed FieldDefinition) :=
  if configs.isEmpty then .error (.emptyFields owner)
  else configs.traverse (FieldConfig.define owner kinds)

end GraphSchema

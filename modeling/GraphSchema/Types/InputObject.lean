/-
  GraphSchema.Types.InputObject — input object types.

  In contrast to output fields, an input field that is not valid is left out and the rest
  is built: its name is no name, or its type is unknown or no input type. Every entry
  left out is reported with its reason. Only a configuration without any entry is refused.
-/

import GraphSchema.Types.Deferred
import GraphSchema.Types.KindTable

namespace GraphSchema

structure InputFieldConfig where
  type : TypeRef
  defaultValue : Option Json := none
  description : Option String := none

structure InputObjectConfig where
  name : String
  description : Option String := none
  fields : Deferred (Keyed InputFieldConfig) := .now .empty

namespace InputObjectConfig

def withFields (config : InputObjectConfig) (fields : Deferred (Keyed InputFieldConfig)) :
    InputObjectConfig :=
  { config with fields }

def withField (config : InputObjectConfig) (name : String) (field : InputFieldConfig) :
    InputObjectConfig :=
  { config with fields := config.fields.map (·.insert name field) }

end InputObjectConfig

structure InputField where
  name : String
  type : TypeRef
  defaultValue : Option Json
  description : Option String

structure InputObjectType where
  name : String
  description : Option String
  fields : Keyed InputField

namespace InputObjectType

def field? (input : InputObjectType) (name : String) : Option InputField := input.fields.get? name

end InputObjectType

/-- An input field of `owner`, or why it is left out. -/
def InputFieldConfig.define (owner : String) (kinds : KindTable) (name : String)
    (config : InputFieldConfig) : Except TypeError InputField := do
  checkName name
  if !(← kinds.acceptsInput config.type) then
    .error (.inputFieldNotInput owner name config.type)
  .ok ⟨name, config.type, config.defaultValue, config.description⟩

namespace InputObjectConfig

def define (config : InputObjectConfig) (kinds : KindTable) : Except TypeError InputObjectType :=
  let configs := config.fields.resolve
  if configs.isEmpty then .error (.emptyFields config.name)
  else
    .ok ⟨config.name, config.description,
      configs.filterMap fun name field => (field.define config.name kinds name).toOption⟩

/-- The entries left out, each with its reason, in order. -/
def skipped (config : InputObjectConfig) (kinds : KindTable) : List (String × TypeError) :=
  config.fields.resolve.entries.filterMap fun (name, field) =>
    match field.define config.name kinds name with
    | .ok _ => none
    | .error reason => some (name, reason)

end InputObjectConfig

end GraphSchema

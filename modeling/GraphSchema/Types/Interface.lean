/-
  GraphSchema.Types.Interface — interface types.

  The implementations of an interface are the objects that list it, in the order in which
  these were registered; they are its possible types. Their names are kept beside them,
  and whether an object is possible is asked of the names.
-/

import GraphSchema.Types.Object

namespace GraphSchema

structure InterfaceConfig where
  name : String
  description : Option String := none
  fields : Deferred (Keyed FieldConfig) := .now .empty
  resolveType : Option TypeResolver := none

namespace InterfaceConfig

def withFields (config : InterfaceConfig) (fields : Deferred (Keyed FieldConfig)) :
    InterfaceConfig :=
  { config with fields }

def withField (config : InterfaceConfig) (name : String) (field : FieldConfig) :
    InterfaceConfig :=
  { config with fields := config.fields.map (·.insert name field) }

end InterfaceConfig

structure InterfaceType where
  name : String
  description : Option String
  fields : Keyed FieldDefinition
  resolveType : Option TypeResolver
  implementations : List ObjectType
  /-- The names of the implementations. -/
  possible : List String
  possible_eq : possible = implementations.map ObjectType.name

namespace InterfaceType

def field? (interface : InterfaceType) (name : String) : Option FieldDefinition :=
  interface.fields.get? name

def isPossibleType (interface : InterfaceType) (object : String) : Bool :=
  interface.possible.contains object

def hasResolveType (interface : InterfaceType) : Bool := interface.resolveType.isSome

end InterfaceType

/-- Publishes the interface with fields added to its own, among the objects built. -/
def InterfaceConfig.define (config : InterfaceConfig) (added : Keyed FieldConfig)
    (objects : List ObjectType) (kinds : KindTable) : Except TypeError InterfaceType := do
  let fields ← defineFields config.name kinds (config.fields.resolve.merge added)
  let implementations := objects.filter (·.implements config.name)
  .ok ⟨config.name, config.description, fields, config.resolveType, implementations,
    implementations.map ObjectType.name, rfl⟩

end GraphSchema

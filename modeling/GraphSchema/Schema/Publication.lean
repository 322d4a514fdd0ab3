/-
  GraphSchema.Schema.Publication — building every type of a registry.

  Objects are built first, each against the kind table alone. Unions and interfaces take
  their possible types from the objects that were built, and input objects come last. The
  types that were built are then checked for conformance, even if others failed. The
  errors are those of objects, unions, interfaces and input objects, each group in order
  of registration, and then those of conformance; any error means that nothing is
  published. What is published keeps the order of registration.
-/

import GraphSchema.Registry.Basic
import GraphSchema.Schema.Conformance

namespace GraphSchema

/-- A registry to be published, with options. -/
structure Publication where
  registry : TypeRegistry
  options : BuildOptions

namespace Publication

def kinds (publication : Publication) : KindTable := publication.registry.kindTable

/-- An object built with the fields added to it. -/
def buildObject (publication : Publication) (name : String) (config : ObjectConfig) :
    Except TypeError ObjectType :=
  config.define (publication.registry.addedTo name) publication.kinds publication.options

/-- The objects that could be built, in order of registration. -/
def objects (publication : Publication) : List ObjectType :=
  publication.registry.entries.entries.filterMap fun
    | (name, .object config) => (publication.buildObject name config).toOption
    | _ => none

def build (publication : Publication) (name : String) : Registered → Except TypeError TypeDefinition
  | .scalar type => .ok (.scalar type)
  | .enum type => .ok (.enum type)
  | .object config => (publication.buildObject name config).map .object
  | .union config => (config.define publication.objects publication.kinds).map .union
  | .interface config =>
    (config.define (publication.registry.addedTo name) publication.objects publication.kinds).map
      .interface
  | .inputObject config => (config.define publication.kinds).map .inputObject

/-- The types that could be built, in order of registration. -/
def types (publication : Publication) : Keyed TypeDefinition :=
  publication.registry.entries.filterMap fun name entry => (publication.build name entry).toOption

/-- The errors of the entries of one kind, in order of registration. -/
def errorsOfKind (publication : Publication) (kind : TypeKind) : List TypeError :=
  publication.registry.entries.entries.filterMap fun (name, entry) =>
    match publication.build name entry with
    | .error error => if entry.kind = kind then some error else none
    | .ok _ => none

/-- The kinds whose definitions can fail, in the order in which they are built. -/
def phases : List TypeKind := [.object, .union, .interface, .inputObject]

def definitionErrors (publication : Publication) : List TypeError :=
  phases.flatMap publication.errorsOfKind

def errors (publication : Publication) : List TypeError :=
  publication.definitionErrors ++ conformanceErrors publication.types

end Publication

/-- The types of a registry, if there is nothing wrong with any. -/
def publish (registry : TypeRegistry) (options : BuildOptions) :
    Except SchemaError (Keyed TypeDefinition) :=
  let publication : Publication := ⟨registry, options⟩
  if publication.errors.isEmpty then .ok publication.types
  else .error ⟨publication.errors⟩

end GraphSchema

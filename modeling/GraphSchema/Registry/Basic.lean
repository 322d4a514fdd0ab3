/-
  GraphSchema.Registry.Basic — types under construction, by name.

  A host registers types one after another and may then add fields to the objects and
  interfaces among them. What can be decided from a type alone is checked at once:
  its name, the functions of a scalar, the values of an enum, that a union has members.
  All that depends on other types waits for publication, so types may be registered in
  any order. A call that is refused changes nothing.
  - `register` puts a new name last; a name already taken is refused.
  - `addField` keeps the added fields apart from the type's own until publication.
-/

import GraphSchema.Types.BuiltinScalar
import GraphSchema.Types.Enum
import GraphSchema.Types.InputObject
import GraphSchema.Types.Interface
import GraphSchema.Types.Union

namespace GraphSchema

/-- Scalars and enums are built when registered, all else when published. -/
inductive Registered where
  | scalar (type : ScalarType)
  | enum (type : EnumType)
  | object (config : ObjectConfig)
  | interface (config : InterfaceConfig)
  | union (config : UnionConfig)
  | inputObject (config : InputObjectConfig)

namespace Registered

def name : Registered → String
  | scalar type => type.name
  | enum type => type.name
  | object config => config.name
  | interface config => config.name
  | union config => config.name
  | inputObject config => config.name

def namedKind : Registered → NamedKind
  | scalar type => .scalar type.isInputCapable
  | enum _ => .enum
  | object _ => .object
  | interface config => .interface config.resolveType.isSome
  | union config => .union config.resolveType.isSome
  | inputObject _ => .inputObject

def kind (entry : Registered) : TypeKind := entry.namedKind.kind

/-- Only objects and interfaces have output fields. -/
def hasFields : Registered → Bool
  | object _ => true
  | interface _ => true
  | _ => false

end Registered

structure TypeRegistry where
  entries : Keyed Registered
  added : Keyed (Keyed FieldConfig)

namespace TypeRegistry

def empty : TypeRegistry := ⟨.empty, .empty⟩

/-- A registry that holds the built-in scalars. -/
def standard : TypeRegistry :=
  ⟨.ofList (BuiltinScalar.all.map fun scalar => (scalar.name, .scalar scalar)), .empty⟩

def contains (registry : TypeRegistry) (name : String) : Bool := registry.entries.contains name

def kind? (registry : TypeRegistry) (name : String) : Option TypeKind :=
  (registry.entries.get? name).map Registered.kind

def size (registry : TypeRegistry) : Nat := registry.entries.size

def isEmpty (registry : TypeRegistry) : Bool := registry.entries.isEmpty

def names (registry : TypeRegistry) : List String := registry.entries.keys

/-- The fields added to a type. -/
def addedTo (registry : TypeRegistry) (name : String) : Keyed FieldConfig :=
  (registry.added.get? name).getD .empty

def kindTable (registry : TypeRegistry) : KindTable :=
  .classify (registry.entries.entries.map fun entry => (entry.1, entry.2.namedKind))

/-! ## Registering -/

/-- Puts a checked entry under its name and gives the reference to it. -/
def register (registry : TypeRegistry) (entry : Registered) :
    Except TypeError (TypeRegistry × TypeRef) :=
  if registry.contains entry.name then .error (.duplicateType entry.name)
  else .ok ({ registry with entries := registry.entries.insert entry.name entry },
    .named entry.name)

def registerScalar (registry : TypeRegistry) (config : ScalarConfig) :
    Except TypeError (TypeRegistry × TypeRef) := do
  let type ← ScalarType.ofConfig config
  registry.register (.scalar type)

def registerEnum (registry : TypeRegistry) (config : EnumConfig) :
    Except TypeError (TypeRegistry × TypeRef) := do
  let type ← EnumType.ofConfig config
  registry.register (.enum type)

def registerObject (registry : TypeRegistry) (config : ObjectConfig) :
    Except TypeError (TypeRegistry × TypeRef) := do
  checkTypeName config.name
  registry.register (.object config)

def registerInterface (registry : TypeRegistry) (config : InterfaceConfig) :
    Except TypeError (TypeRegistry × TypeRef) := do
  checkTypeName config.name
  registry.register (.interface config)

def registerUnion (registry : TypeRegistry) (config : UnionConfig) :
    Except TypeError (TypeRegistry × TypeRef) := do
  config.check
  registry.register (.union config)

def registerInputObject (registry : TypeRegistry) (config : InputObjectConfig) :
    Except TypeError (TypeRegistry × TypeRef) := do
  checkTypeName config.name
  registry.register (.inputObject config)

/-! ## Adding fields -/

/-- Adds a field to a registered object or interface; a field added before under that name
is replaced. -/
def addField (registry : TypeRegistry) (typeName field : String) (config : FieldConfig) :
    Except TypeError TypeRegistry :=
  match registry.entries.get? typeName with
  | none => .error (.unknownType typeName)
  | some entry =>
    if entry.hasFields then do
      checkName field
      .ok { registry with
        added := registry.added.insert typeName ((registry.addedTo typeName).insert field config) }
    else .error (.cannotAddField typeName field)

end TypeRegistry

/-! ## Calls -/

/-- A call a host makes on a registry. -/
inductive Registration where
  | scalar (config : ScalarConfig)
  | enum (config : EnumConfig)
  | object (config : ObjectConfig)
  | interface (config : InterfaceConfig)
  | union (config : UnionConfig)
  | inputObject (config : InputObjectConfig)
  | addField (typeName field : String) (config : FieldConfig)

namespace Registration

/-- The registry after the call, and the reference to a type it registered. -/
def apply (registry : TypeRegistry) :
    Registration → Except TypeError (TypeRegistry × Option TypeRef)
  | scalar config => (registry.registerScalar config).map fun done => (done.1, some done.2)
  | enum config => (registry.registerEnum config).map fun done => (done.1, some done.2)
  | object config => (registry.registerObject config).map fun done => (done.1, some done.2)
  | interface config => (registry.registerInterface config).map fun done => (done.1, some done.2)
  | union config => (registry.registerUnion config).map fun done => (done.1, some done.2)
  | inputObject config =>
    (registry.registerInputObject config).map fun done => (done.1, some done.2)
  | addField typeName field config =>
    (registry.addField typeName field config).map fun registry => (registry, none)

/-- A refused call leaves the registry as it was. -/
def after (registry : TypeRegistry) (call : Registration) : TypeRegistry :=
  match call.apply registry with
  | .ok (registry, _) => registry
  | .error _ => registry

end Registration

/-- The registry after a run of calls. -/
def TypeRegistry.run (registry : TypeRegistry) (calls : List Registration) : TypeRegistry :=
  calls.foldl Registration.after registry

end GraphSchema

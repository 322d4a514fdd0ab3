/-
  GraphSchema.Schema.Basic — a published schema and what can be asked of it.

  A schema is made of a registry that published without errors and the names of its root
  types, which must be objects: the query root, and a mutation root if one is configured.
  Faults of the two roots are reported together. References are resolved against the
  schema, and the account a host's functions get of a field is made from it.
-/

import GraphSchema.Schema.Publication
import GraphSchema.Schema.ResolvedType

namespace GraphSchema

structure SchemaConfig where
  query : String := "Query"
  mutation : Option String := none
  options : BuildOptions := {}

structure Schema where
  query : ObjectType
  mutation : Option ObjectType
  types : Keyed TypeDefinition

namespace Schema

/-- The root object of a name; `notObject` is the fault of a type of another kind. -/
def root (types : Keyed TypeDefinition) (notObject : String → TypeError) (name : String) :
    Except TypeError ObjectType :=
  match types.get? name with
  | some (.object type) => .ok type
  | some _ => .error (notObject name)
  | none => .error (.unknownType name)

def queryRoot (types : Keyed TypeDefinition) (config : SchemaConfig) :
    Except TypeError ObjectType :=
  root types .invalidQueryRoot config.query

/-- The mutation root, where one is configured. -/
def mutationRoot (types : Keyed TypeDefinition) (config : SchemaConfig) :
    Except TypeError (Option ObjectType) :=
  match config.mutation with
  | none => .ok none
  | some name => (root types .invalidMutationRoot name).map some

/-- The schema of published types. -/
def ofTypes (config : SchemaConfig) (types : Keyed TypeDefinition) : Except SchemaError Schema :=
  match queryRoot types config, mutationRoot types config with
  | .ok query, .ok mutation => .ok ⟨query, mutation, types⟩
  | .error fault, .ok _ => .error ⟨[fault]⟩
  | .ok _, .error fault => .error ⟨[fault]⟩
  | .error first, .error second => .error ⟨[first, second]⟩

def ofRegistry (config : SchemaConfig) (registry : TypeRegistry) : Except SchemaError Schema := do
  let types ← publish registry config.options
  ofTypes config types

/-! ## Looking up types -/

def type? (schema : Schema) (name : String) : Option TypeDefinition := schema.types.get? name

def object? (schema : Schema) (name : String) : Option ObjectType :=
  (schema.type? name).bind TypeDefinition.object?

def composite? (schema : Schema) (name : String) : Option CompositeType :=
  (schema.type? name).bind TypeDefinition.composite?

def abstract? (schema : Schema) (name : String) : Option AbstractType :=
  (schema.type? name).bind TypeDefinition.abstract?

/-- What a reference stands for; none if its name is no type of the schema. -/
def resolve? (schema : Schema) : TypeRef → Option ResolvedType
  | .named name => (schema.type? name).map .named
  | .list item => (schema.resolve? item).map .list
  | .nonNull item => (schema.resolve? item).map .nonNull

/-! ## Accounts for a host's functions -/

def outline (schema : Schema) : SchemaOutline where
  query := schema.query.name
  mutation := schema.mutation.map ObjectType.name
  types := schema.types.entries.map fun (name, type) => (name, type.kind)

/-- The account of `parent.field`; none unless `parent` has that field. -/
def resolveInfo? (schema : Schema) (parent field : String) : Option ResolveInfo := do
  let parentType ← schema.composite? parent
  let definition ← parentType.field? field
  let _ ← schema.resolve? definition.type
  some {
    fieldName := field
    returnType := definition.type
    parentType := parentType.name
    schema := schema.outline }

/-- Every document is valid: no rules are checked yet. -/
def validate (_schema : Schema) (_document : Document) : ValidationResult := .valid

end Schema

end GraphSchema

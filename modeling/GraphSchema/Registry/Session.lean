/-
  GraphSchema.Registry.Session — calls on one registry.

  A host holds one registry, and its calls read and write that one. A call checks and
  writes in turn; where it is refused it stops, and what it had written until then stays
  written. That it had written nothing, so that `Registration.apply` says all there is to
  say of a call, is for the order of checks and writes to ensure.
-/

import GraphSchema.Registry.Basic

namespace GraphSchema

/-- Checks and writes on a registry, which a refusal ends but does not undo. -/
abbrev Session := EStateM TypeError TypeRegistry

namespace Session

/-- Passes on the outcome of a check. -/
def check {α : Type} : Except TypeError α → Session α
  | .ok a => pure a
  | .error error => throw error

/-- Puts a checked entry under its name and gives the reference to it. -/
def insert (entry : Registered) : Session TypeRef := do
  if (← get).contains entry.name then throw (.duplicateType entry.name)
  modify fun registry => { registry with entries := registry.entries.insert entry.name entry }
  return .named entry.name

def registerScalar (config : ScalarConfig) : Session TypeRef := do
  let type ← check (ScalarType.ofConfig config)
  insert (.scalar type)

def registerEnum (config : EnumConfig) : Session TypeRef := do
  let type ← check (EnumType.ofConfig config)
  insert (.enum type)

def registerObject (config : ObjectConfig) : Session TypeRef := do
  check (checkTypeName config.name)
  insert (.object config)

def registerInterface (config : InterfaceConfig) : Session TypeRef := do
  check (checkTypeName config.name)
  insert (.interface config)

def registerUnion (config : UnionConfig) : Session TypeRef := do
  check config.check
  insert (.union config)

def registerInputObject (config : InputObjectConfig) : Session TypeRef := do
  check (checkTypeName config.name)
  insert (.inputObject config)

/-- Adds a field to a registered object or interface. -/
def addField (typeName field : String) (config : FieldConfig) : Session Unit := do
  match (← get).entries.get? typeName with
  | none => throw (.unknownType typeName)
  | some entry =>
    if !entry.hasFields then throw (.cannotAddField typeName field)
  check (checkName field)
  modify fun registry => { registry with
    added := registry.added.insert typeName ((registry.addedTo typeName).insert field config) }

/-- Carries out a call; the result is the reference to a type it registered. -/
def perform : Registration → Session (Option TypeRef)
  | .scalar config => some <$> registerScalar config
  | .enum config => some <$> registerEnum config
  | .object config => some <$> registerObject config
  | .interface config => some <$> registerInterface config
  | .union config => some <$> registerUnion config
  | .inputObject config => some <$> registerInputObject config
  | .addField typeName field config => do
    addField typeName field config
    return none

/-- The registry that a call leaves, accepted or refused. -/
def left (registry : TypeRegistry) (call : Registration) : TypeRegistry :=
  match (perform call).run registry with
  | .ok _ after => after
  | .error _ after => after

end Session

end GraphSchema

/-
  GraphSchema.Types.Object — object types.

  An object lists the interfaces it implements. Each must be an interface, and a value of
  the object must be recognisable through it: the interface names types itself, or, where
  the build options say that suffices, the object has a predicate. An interface listed
  again counts once. Interfaces are checked before fields.
-/

import GraphSchema.Types.Deferred
import GraphSchema.Types.Field

namespace GraphSchema

structure BuildOptions where
  /-- Every implemented interface must name the types of values itself. -/
  requireInterfaceResolveType : Bool := true
  deriving DecidableEq, Repr

structure ObjectConfig where
  name : String
  description : Option String := none
  fields : Deferred (Keyed FieldConfig) := .now .empty
  interfaces : Deferred (List String) := .now []
  isTypeOf : Option TypePredicate := none

namespace ObjectConfig

def withFields (config : ObjectConfig) (fields : Deferred (Keyed FieldConfig)) : ObjectConfig :=
  { config with fields }

def withField (config : ObjectConfig) (name : String) (field : FieldConfig) : ObjectConfig :=
  { config with fields := config.fields.map (·.insert name field) }

def withInterfaces (config : ObjectConfig) (interfaces : Deferred (List String)) : ObjectConfig :=
  { config with interfaces }

def withInterface (config : ObjectConfig) (name : String) : ObjectConfig :=
  { config with interfaces := config.interfaces.map (· ++ [name]) }

end ObjectConfig

structure ObjectType where
  name : String
  description : Option String
  fields : Keyed FieldDefinition
  interfaces : List String
  isTypeOf : Option TypePredicate

namespace ObjectType

def field? (object : ObjectType) (name : String) : Option FieldDefinition := object.fields.get? name

def implements (object : ObjectType) (interface : String) : Bool :=
  object.interfaces.contains interface

def hasIsTypeOf (object : ObjectType) : Bool := object.isTypeOf.isSome

/-- What the object's predicate says of a value, if it has one. -/
def accepts? (object : ObjectType) (value : Json) (info : ResolveInfo) : Option Bool :=
  object.isTypeOf.map fun isTypeOf => isTypeOf value info

end ObjectType

namespace ObjectConfig

/-- Refuses an interface that `object` may not implement. -/
def checkInterface (object : String) (hasIsTypeOf : Bool) (kinds : KindTable)
    (options : BuildOptions) (name : String) : Except TypeError Unit :=
  match kinds.named? name with
  | none => .error (.unknownType name)
  | some (.interface resolvesType) =>
    if resolvesType || (!options.requireInterfaceResolveType && hasIsTypeOf) then .ok ()
    else .error (.unresolvableImplementation name object)
  | some _ => .error (.notAnInterface object name)

/-- The names without repeats, in order of first mention. -/
def distinct (names : List String) : List String :=
  names.foldl (fun kept name => if kept.contains name then kept else kept ++ [name]) []

/-- Publishes the object with fields added to its own. -/
def define (config : ObjectConfig) (added : Keyed FieldConfig) (kinds : KindTable)
    (options : BuildOptions) : Except TypeError ObjectType := do
  let names := config.interfaces.resolve
  names.forM (checkInterface config.name config.isTypeOf.isSome kinds options)
  let fields ← defineFields config.name kinds (config.fields.resolve.merge added)
  .ok ⟨config.name, config.description, fields, distinct names, config.isTypeOf⟩

end ObjectConfig

end GraphSchema

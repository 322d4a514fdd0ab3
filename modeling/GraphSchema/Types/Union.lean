/-
  GraphSchema.Types.Union — union types.

  The members of a union are objects, in order of first mention. Each must be
  recognisable: the union names types itself, or the object has a predicate. A member
  that is an object but failed to build is left out, since it has its own error. The names
  of the members are kept beside them, and whether an object is possible is asked of the
  names.
-/

import GraphSchema.Types.Object

namespace GraphSchema

structure UnionConfig where
  name : String
  description : Option String := none
  types : List String := []
  resolveType : Option TypeResolver := none

namespace UnionConfig

def withType (config : UnionConfig) (name : String) : UnionConfig :=
  { config with types := config.types ++ [name] }

/-- A union must be named and mention at least one type. -/
def check (config : UnionConfig) : Except TypeError Unit := do
  checkTypeName config.name
  if config.types.isEmpty then .error (.emptyUnion config.name)

end UnionConfig

structure UnionType where
  name : String
  description : Option String
  types : List ObjectType
  resolveType : Option TypeResolver
  /-- The names of the members. -/
  possible : List String
  possible_eq : possible = types.map ObjectType.name

namespace UnionType

def isPossibleType (union : UnionType) (object : String) : Bool :=
  union.possible.contains object

def hasResolveType (union : UnionType) : Bool := union.resolveType.isSome

end UnionType

namespace UnionConfig

/-- The object a member name stands for; none if that object failed to build. -/
def member? (config : UnionConfig) (objects : List ObjectType) (kinds : KindTable)
    (name : String) : Except TypeError (Option ObjectType) :=
  match objects.find? (·.name == name) with
  | some object =>
    if config.resolveType.isSome || object.hasIsTypeOf then .ok (some object)
    else .error (.unresolvableMember config.name name)
  | none =>
    match kinds.named? name with
    | some .object => .ok none
    | some _ => .error (.notAnObject config.name name)
    | none => .error (.unknownType name)

/-- The members in order of first mention; the first fault is the error. -/
def members (config : UnionConfig) (objects : List ObjectType) (kinds : KindTable) :
    List String → Except TypeError (List ObjectType)
  | [] => .ok []
  | name :: rest => do
    let member ← config.member? objects kinds name
    let others ← config.members objects kinds rest
    .ok (member.toList ++ others.filter (·.name != name))

def define (config : UnionConfig) (objects : List ObjectType) (kinds : KindTable) :
    Except TypeError UnionType := do
  config.check
  let types ← config.members objects kinds config.types
  .ok ⟨config.name, config.description, types, config.resolveType, types.map ObjectType.name, rfl⟩

end UnionConfig

end GraphSchema

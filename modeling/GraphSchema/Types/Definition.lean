/-
  GraphSchema.Types.Definition — built types, and the ways of looking at one.

  A definition is of one of six kinds. Objects, interfaces and unions are composite: a
  selection of fields may be made on them. Interfaces and unions are abstract: the object
  type of a value is only known at run time, and is one of their possible types. Scalars
  and enums are leaves: they turn values into answers and read input.
-/

import GraphSchema.Types.Enum
import GraphSchema.Types.InputObject
import GraphSchema.Types.Interface
import GraphSchema.Types.Scalar
import GraphSchema.Types.Union

namespace GraphSchema

inductive TypeDefinition where
  | scalar (type : ScalarType)
  | object (type : ObjectType)
  | interface (type : InterfaceType)
  | union (type : UnionType)
  | enum (type : EnumType)
  | inputObject (type : InputObjectType)

inductive CompositeType where
  | object (type : ObjectType)
  | interface (type : InterfaceType)
  | union (type : UnionType)

inductive AbstractType where
  | interface (type : InterfaceType)
  | union (type : UnionType)

inductive LeafType where
  | scalar (type : ScalarType)
  | enum (type : EnumType)

namespace TypeDefinition

def name : TypeDefinition → String
  | scalar type => type.name
  | object type => type.name
  | interface type => type.name
  | union type => type.name
  | enum type => type.name
  | inputObject type => type.name

def description : TypeDefinition → Option String
  | scalar type => type.description
  | object type => type.description
  | interface type => type.description
  | union type => type.description
  | enum type => type.description
  | inputObject type => type.description

def kind : TypeDefinition → TypeKind
  | scalar _ => .scalar
  | object _ => .object
  | interface _ => .interface
  | union _ => .union
  | enum _ => .enum
  | inputObject _ => .inputObject

/-- May be the type of a field. -/
def isOutput : TypeDefinition → Bool
  | inputObject _ => false
  | _ => true

/-- May be the type of an argument or input field. -/
def isInput : TypeDefinition → Bool
  | scalar type => type.isInputCapable
  | enum _ => true
  | inputObject _ => true
  | _ => false

def leaf? : TypeDefinition → Option LeafType
  | scalar type => some (.scalar type)
  | enum type => some (.enum type)
  | _ => none

def isLeaf (type : TypeDefinition) : Bool := type.leaf?.isSome

def object? : TypeDefinition → Option ObjectType
  | object type => some type
  | _ => none

def composite? : TypeDefinition → Option CompositeType
  | object type => some (.object type)
  | interface type => some (.interface type)
  | union type => some (.union type)
  | _ => none

def abstract? : TypeDefinition → Option AbstractType
  | interface type => some (.interface type)
  | union type => some (.union type)
  | _ => none

end TypeDefinition

namespace LeafType

def serialize : LeafType → Json → Option Json
  | scalar type => type.serialize
  | enum type => type.serialize

def parseValue : LeafType → Json → Option Json
  | scalar type => type.parseValue
  | enum type => type.parseValue

def parseLiteral : LeafType → Literal → Option Json
  | scalar type => type.parseLiteral
  | enum type => type.parseLiteral

/-- A declared value of an enum; scalars declare none. -/
def value? : LeafType → String → Option EnumValue
  | scalar _, _ => none
  | enum type, name => type.value? name

end LeafType

namespace AbstractType

def name : AbstractType → String
  | interface type => type.name
  | union type => type.name

/-- The objects a value of the type may turn out to be, in order. -/
def possibleTypes : AbstractType → List ObjectType
  | interface type => type.implementations
  | union type => type.types

def isPossibleType (type : AbstractType) (object : String) : Bool :=
  match type with
  | interface type => type.isPossibleType object
  | union type => type.isPossibleType object

def resolveType : AbstractType → Option TypeResolver
  | interface type => type.resolveType
  | union type => type.resolveType

end AbstractType

namespace CompositeType

def definition : CompositeType → TypeDefinition
  | object type => .object type
  | interface type => .interface type
  | union type => .union type

def name (type : CompositeType) : String := type.definition.name

/-- A union has no fields of its own. -/
def fields? : CompositeType → Option (Keyed FieldDefinition)
  | object type => some type.fields
  | interface type => some type.fields
  | union _ => none

def field? (type : CompositeType) (name : String) : Option FieldDefinition :=
  type.fields?.bind fun fields => fields.get? name

def abstract? (type : CompositeType) : Option AbstractType := type.definition.abstract?

end CompositeType

end GraphSchema

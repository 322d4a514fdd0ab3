/-
  GraphSchema.Schema.ResolvedType — types with their wrappers, as references resolve to
  them.

  A resolved type is a definition inside any nesting of lists and non-null types. Only the
  definition has a name and a description. Whether it may be used for input or output
  depends on the definition alone; whether it is composite, abstract or an object is asked
  of the type as it stands, so a wrapper is none of them.
-/

import GraphSchema.Types.Definition

namespace GraphSchema

inductive ResolvedType where
  | named (definition : TypeDefinition)
  | list (item : ResolvedType)
  | nonNull (item : ResolvedType)

namespace ResolvedType

/-- The definition under all wrappers. -/
def definition : ResolvedType → TypeDefinition
  | named definition => definition
  | list item => item.definition
  | nonNull item => item.definition

def display : ResolvedType → String
  | named definition => definition.name
  | list item => "[" ++ item.display ++ "]"
  | nonNull item => item.display ++ "!"

def name? : ResolvedType → Option String
  | named definition => some definition.name
  | _ => none

def description : ResolvedType → Option String
  | named definition => definition.description
  | _ => none

def kind : ResolvedType → TypeKind
  | named definition => definition.kind
  | list _ => .list
  | nonNull _ => .nonNull

def nullable : ResolvedType → ResolvedType
  | nonNull item => item
  | other => other

def isWrapper : ResolvedType → Bool
  | named _ => false
  | _ => true

def isInput : ResolvedType → Bool
  | named definition => definition.isInput
  | list item => item.isInput
  | nonNull item => item.isInput

def isOutput : ResolvedType → Bool
  | named definition => definition.isOutput
  | list item => item.isOutput
  | nonNull item => item.isOutput

def isLeaf (type : ResolvedType) : Bool := type.definition.isLeaf

def composite? : ResolvedType → Option CompositeType
  | named definition => definition.composite?
  | _ => none

def abstract? : ResolvedType → Option AbstractType
  | named definition => definition.abstract?
  | _ => none

def object? : ResolvedType → Option ObjectType
  | named definition => definition.object?
  | _ => none

theorem isInput_eq (type : ResolvedType) : type.isInput = type.definition.isInput := by
  induction type with
  | named _ => rfl
  | list _ ih => exact ih
  | nonNull _ ih => exact ih

theorem isOutput_eq (type : ResolvedType) : type.isOutput = type.definition.isOutput := by
  induction type with
  | named _ => rfl
  | list _ ih => exact ih
  | nonNull _ ih => exact ih

end ResolvedType

end GraphSchema

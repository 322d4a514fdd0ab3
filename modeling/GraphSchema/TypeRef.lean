/-
  GraphSchema.TypeRef — references to types by name.

  A field, an argument or an input field points at another type through a reference:
  the type's name inside any nesting of list and non-null markers. A reference holds no
  type, so types may refer to each other in cycles; what a name stands for is decided
  when a schema is published.
  - `innermostName_nullable`: taking a marker off does not change the name a reference
    ends in.
-/

namespace GraphSchema

inductive TypeRef where
  | named (name : String)
  | list (item : TypeRef)
  | nonNull (item : TypeRef)
  deriving DecidableEq, Repr

namespace TypeRef

/-- The name under all markers. -/
def innermostName : TypeRef → String
  | named name => name
  | list item => item.innermostName
  | nonNull item => item.innermostName

/-- The written form: `Name`, `[item]` and `item!`. -/
def display : TypeRef → String
  | named name => name
  | list item => "[" ++ item.display ++ "]"
  | nonNull item => item.display ++ "!"

def isNonNull : TypeRef → Bool
  | nonNull _ => true
  | _ => false

def isList : TypeRef → Bool
  | list _ => true
  | _ => false

/-- The reference without its outer non-null marker, if it has one. -/
def nullable : TypeRef → TypeRef
  | nonNull item => item
  | other => other

/-- No non-null marker stands directly inside another. -/
def Checked : TypeRef → Prop
  | named _ => True
  | list item => item.Checked
  | nonNull item => item.isNonNull = false ∧ item.Checked

@[simp] theorem innermostName_nullable (type : TypeRef) :
    type.nullable.innermostName = type.innermostName := by
  cases type <;> rfl

end TypeRef

end GraphSchema

/-
  GraphSchema.Schema.Dispatch — the object type of a value of an abstract type.

  If the abstract type names types itself, its answer decides alone, and must be a
  possible type. Otherwise the possible types are tried in order, and the first whose
  predicate accepts the value is taken. A value may have no type.
-/

import GraphSchema.Types.Definition

namespace GraphSchema

namespace AbstractType

/-- The possible type of a name. -/
def possibleType? (type : AbstractType) (name : String) : Option ObjectType :=
  type.possibleTypes.find? fun object => object.name == name

def objectType? (type : AbstractType) (value : Json) (info : ResolveInfo) : Option ObjectType :=
  match type.resolveType with
  | some resolveType => (resolveType value info).bind type.possibleType?
  | none => type.possibleTypes.find? fun object => object.accepts? value info == some true

end AbstractType

end GraphSchema

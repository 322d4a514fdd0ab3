/-
  GraphSchema.Execution.Info — what the functions of a host are told.

  While a request is executed, a host's functions are called with the value at hand and
  an account of where in the request they are: the field and its parent, the type it
  answers with, the fragments, variables and operation of the request, and an outline of
  the schema. The outline names types and kinds and holds no functions, so the account
  can be stated before any type is.
  - `TypePredicate` tells whether a value belongs to an object type.
  - `TypeResolver` names the object type of a value, or none.
  - `Resolver` answers a field, or fails it.
-/

import GraphSchema.Collection.Keyed
import GraphSchema.Execution.Context
import GraphSchema.Report.FieldError
import GraphSchema.Request.Document
import GraphSchema.TypeRef
import GraphSchema.Types.Kind

namespace GraphSchema

/-- The roots of a schema, and its types in order with their kinds. -/
structure SchemaOutline where
  query : String
  mutation : Option String
  types : List (String × TypeKind)

structure ResolveInfo where
  fieldName : String
  returnType : TypeRef
  parentType : String
  schema : SchemaOutline
  selections : List Selection := []
  fragments : Keyed Fragment := .empty
  rootValue : Json := .null
  operation : Option Operation := none
  variableValues : Keyed Json := .empty

namespace ResolveInfo

/-- Takes the fragments of a document; of two with one name the later counts, in the place
of the earlier. -/
def withDocument (info : ResolveInfo) (document : Document) : ResolveInfo :=
  { info with
    fragments := .ofList (document.fragments.map fun fragment => (fragment.name.value, fragment)) }

def fragment? (info : ResolveInfo) (name : String) : Option Fragment := info.fragments.get? name

end ResolveInfo

structure ResolveParams where
  source : Json
  args : Keyed Json
  info : ResolveInfo
  context : Context

namespace ResolveParams

def argument? (params : ResolveParams) (name : String) : Option Json := params.args.get? name

/-- An argument, if it is given and reads as the wanted type. -/
def argumentAs? (α : Type) [Decode α] (params : ResolveParams) (name : String) : Option α :=
  (params.args.get? name).bind decode?

end ResolveParams

abbrev TypePredicate := Json → ResolveInfo → Bool

abbrev TypeResolver := Json → ResolveInfo → Option String

abbrev Resolver := ResolveParams → Except FieldError Json

end GraphSchema

/-
  GraphSchema.Request.Document — request documents: operations, fragments, selected
  fields.

  Only what the type layer reads is kept. An operation is looked up by its name; without
  a name there must be exactly one to choose (`operation?`).
-/

import GraphSchema.Request.Literal

namespace GraphSchema

/-- A selected field: an optional alias, the field's name, and its arguments in order. -/
structure Selection where
  aliasName : Option Name
  name : Name
  arguments : List (Name × Literal)
  span : Span

namespace Selection

/-- A field without alias and arguments stands where its name stands. -/
def ofName (name : Name) : Selection := ⟨none, name, [], name.span⟩

/-- The key under which the field's value is answered: its alias, else its name. -/
def responseKey (field : Selection) : String := (field.aliasName.getD field.name).value

/-- The first argument of that name. -/
def argument? (field : Selection) (name : String) : Option Literal :=
  (field.arguments.find? fun argument => argument.1.value == name).map (·.2)

end Selection

inductive OperationKind where
  | query
  | mutation
  | subscription
  deriving DecidableEq, Repr

namespace OperationKind

def word : OperationKind → String
  | query => "query"
  | mutation => "mutation"
  | subscription => "subscription"

def ofWord? (word : String) : Option OperationKind :=
  [query, mutation, subscription].find? fun kind => kind.word == word

end OperationKind

structure Operation where
  kind : OperationKind
  name : Option Name
  fields : List Selection
  span : Span

structure Fragment where
  name : Name
  typeCondition : Name
  fields : List Selection
  span : Span

inductive Definition where
  | operation (operation : Operation)
  | fragment (fragment : Fragment)

structure Document where
  definitions : List Definition

namespace Document

def operations (document : Document) : List Operation :=
  document.definitions.filterMap fun
    | .operation operation => some operation
    | .fragment _ => none

def fragments (document : Document) : List Fragment :=
  document.definitions.filterMap fun
    | .operation _ => none
    | .fragment fragment => some fragment

/-- The operation of that name; without a name, the only one. -/
def operation? (document : Document) (name : Option String) : Option Operation :=
  match name with
  | some name => document.operations.find? fun operation => operation.name.any (·.value == name)
  | none =>
    match document.operations with
    | [only] => some only
    | _ => none

end Document

end GraphSchema

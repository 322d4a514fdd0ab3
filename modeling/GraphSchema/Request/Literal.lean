/-
  GraphSchema.Request.Literal — value literals as a request document writes them.

  A literal keeps where it stood. `toJson?` is the value of a constant literal: an enum
  name becomes its string, and of two entries with one name in an object the later
  counts. A literal with a variable inside, or with a floating number that is not finite,
  has no such value, wherever inside it that stands, also in an entry that a later one
  of its name covers.
-/

import GraphSchema.Json.Basic
import GraphSchema.Number.Binary64
import GraphSchema.Request.Span

namespace GraphSchema

/-- A name and where it stands. -/
structure Name where
  value : String
  span : Span
  deriving DecidableEq, Repr

inductive Literal where
  | var (name : Name)
  | int (value : Int64) (span : Span)
  | float (value : Binary64) (span : Span)
  | string (value : String) (span : Span)
  | boolean (value : Bool) (span : Span)
  | null (span : Span)
  | enum (name : Name)
  | list (items : List Literal) (span : Span)
  | object (entries : List (Name × Literal)) (span : Span)

namespace Literal

def span : Literal → Span
  | var name => name.span
  | int _ span => span
  | float _ span => span
  | string _ span => span
  | boolean _ span => span
  | null span => span
  | enum name => name.span
  | list _ span => span
  | object _ span => span

/-- The name of an enum literal. -/
def enum? : Literal → Option String
  | enum name => some name.value
  | _ => none

mutual

def toJson? : Literal → Option Json
  | var _ => none
  | int value _ => some (.int value.toInt)
  | float value _ => value.finite?.map .float
  | string value _ => some (.string value)
  | boolean value _ => some (.bool value)
  | null _ => some .null
  | enum name => some (.string name.value)
  | list items _ => (itemsToJson? items).map .array
  | object entries _ => (entriesToJson? entries).map Json.ofMembers

def itemsToJson? : List Literal → Option (List Json)
  | [] => some []
  | item :: rest =>
    match item.toJson?, itemsToJson? rest with
    | some value, some values => some (value :: values)
    | _, _ => none

def entriesToJson? : List (Name × Literal) → Option (List (String × Json))
  | [] => some []
  | (name, item) :: rest =>
    match item.toJson?, entriesToJson? rest with
    | some value, some values => some ((name.value, value) :: values)
    | _, _ => none

end

end Literal

end GraphSchema

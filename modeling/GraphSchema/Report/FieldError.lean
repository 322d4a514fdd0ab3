/-
  GraphSchema.Report.FieldError — the failure of one field while a request is executed.

  It carries a message, the path of response keys and list indexes that leads to the
  field, and extensions by key. A path may be present and empty, which differs from no
  path; so may extensions. Of several values given for one extension key the last counts,
  and the code is the extension under the key `code`.
-/

import GraphSchema.Report.Envelope

namespace GraphSchema

inductive PathSegment where
  | field (name : String)
  | index (position : UInt64)
  deriving DecidableEq, Repr

namespace PathSegment

instance : Encode PathSegment where
  encode
    | field name => .string name
    | index position => encode position

/-- Text is a field, else it must be an index. -/
instance : Decode PathSegment where
  decode?
    | .string name => some (field name)
    | other => (decode? other).map index

instance : LawfulCoding PathSegment where
  decode?_encode segment := by
    cases segment with
    | field name => rfl
    | index position =>
      show ((decode? (encode position)).map index) = some (index position)
      simp [decode?_encode]

end PathSegment

structure FieldError where
  message : String
  path : Option (List PathSegment)
  extensions : Option (SortedMap Json)

namespace FieldError

def ofMessage (message : String) : FieldError := ⟨message, none, none⟩

def withPath (error : FieldError) (path : List PathSegment) : FieldError :=
  { error with path := some path }

def withExtension (error : FieldError) (key : String) (value : Json) : FieldError :=
  { error with extensions := some ((error.extensions.getD .empty).insert key value) }

def withCode (error : FieldError) (code : String) : FieldError :=
  error.withExtension "code" (.string code)

/-- Equal as errors: extensions compare as values do. -/
def same (a b : FieldError) : Bool :=
  a.message == b.message && a.path == b.path &&
    match a.extensions, b.extensions with
    | none, none => true
    | some x, some y => (Json.ofSortedMap x).same (.ofSortedMap y)
    | _, _ => false

/-- The extensions become the details. -/
def format (error : FieldError) : FormattedError :=
  ⟨error.message, [], error.extensions.map Json.ofSortedMap⟩

/-- The members of the JSON form, in the order they are written. -/
def members (error : FieldError) : List (String × Json) :=
  [("message", Json.string error.message)] ++
  (match error.path with
    | none => []
    | some path => [("path", encode path)]) ++
  match error.extensions with
  | none => []
  | some extensions => [("extensions", Json.ofSortedMap extensions)]

instance : Encode FieldError := ⟨fun error => .object error.members⟩

/-- Extensions are an object. -/
instance : Decode (SortedMap Json) where
  decode?
    | .object members => some (.ofList members)
    | _ => none

instance : Decode FieldError where
  decode?
    | .object members => do
      let message ← (members.lookup "message").bind decode?
      let path ← Decode.optional? (members.lookup "path")
      let extensions ← Decode.optional? (members.lookup "extensions")
      some ⟨message, path, extensions⟩
    | .array [message, path, extensions] => do
      let message ← decode? message
      let path ← Decode.optional? (some path)
      let extensions ← Decode.optional? (some extensions)
      some ⟨message, path, extensions⟩
    | _ => none

end FieldError

end GraphSchema

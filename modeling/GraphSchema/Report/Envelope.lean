/-
  GraphSchema.Report.Envelope — the shape in which every failure reaches a client.

  A formatted error is a message, the places in the document it refers to, and optional
  details. As JSON it has `message`, then `locations` unless there are none, then
  `details` if it carries any (null details are written). It is read from an object,
  whatever else the object holds, or from an array of its fields in that order; missing
  locations are none, and missing or null details are none, while null locations are
  refused.
-/

import GraphSchema.Json.Decode
import GraphSchema.Request.Location

namespace GraphSchema

instance : Encode Span where
  encode span := .object [("start", encode span.start), ("end", encode span.stop)]

instance : Decode Span where
  decode?
    | .object members => do
      let start ← (members.lookup "start").bind decode?
      let stop ← (members.lookup "end").bind decode?
      some ⟨start, stop⟩
    | .array [start, stop] => do
      let start ← decode? start
      let stop ← decode? stop
      some ⟨start, stop⟩
    | _ => none

instance : Encode SourceLocation where
  encode location := .object [("line", encode location.line), ("column", encode location.column)]

instance : Decode SourceLocation where
  decode?
    | .object members => do
      let line ← (members.lookup "line").bind decode?
      let column ← (members.lookup "column").bind decode?
      some ⟨line, column⟩
    | .array [line, column] => do
      let line ← decode? line
      let column ← decode? column
      some ⟨line, column⟩
    | _ => none

instance : LawfulCoding Span where
  decode?_encode span := by
    show ((some (encode span.start)).bind decode?).bind (fun start =>
      ((some (encode span.stop)).bind decode?).bind fun stop => some (Span.mk start stop)) = some span
    simp [decode?_encode]

instance : LawfulCoding SourceLocation where
  decode?_encode location := by
    show ((some (encode location.line)).bind decode?).bind (fun line =>
      ((some (encode location.column)).bind decode?).bind fun column =>
        some (SourceLocation.mk line column)) = some location
    simp [decode?_encode]

structure FormattedError where
  message : String
  locations : List SourceLocation
  details : Option Json

namespace FormattedError

def ofMessage (message : String) : FormattedError := ⟨message, [], none⟩

def withLocation (error : FormattedError) (location : SourceLocation) : FormattedError :=
  { error with locations := error.locations ++ [location] }

def withDetails (error : FormattedError) (details : Json) : FormattedError :=
  { error with details := some details }

/-- The members of the JSON form, in the order they are written. -/
def members (error : FormattedError) : List (String × Json) :=
  [("message", Json.string error.message)] ++
  (if error.locations.isEmpty then [] else [("locations", encode error.locations)]) ++
  match error.details with
  | none => []
  | some details => [("details", details)]

instance : Encode FormattedError := ⟨fun error => .object error.members⟩

instance : Decode FormattedError where
  decode?
    | .object members => do
      let message ← (members.lookup "message").bind decode?
      let locations ←
        match members.lookup "locations" with
        | none => some []
        | some locations => decode? locations
      let details ← Decode.optional? (members.lookup "details")
      some ⟨message, locations, details⟩
    | .array [message] => (decode? message).map fun message => ⟨message, [], none⟩
    | .array [message, locations] => do
      let message ← decode? message
      let locations ← decode? locations
      some ⟨message, locations, none⟩
    | .array [message, locations, details] => do
      let message ← decode? message
      let locations ← decode? locations
      let details ← Decode.optional? (some details)
      some ⟨message, locations, details⟩
    | _ => none

end FormattedError

/-! ## Errors a host reports -/

/-- An error tied to places in the document. -/
structure LocatedError where
  message : String
  locations : List SourceLocation

namespace LocatedError

/-- Each span counts where it starts. -/
def atSpans (message source : String) (spans : List Span) : LocatedError :=
  ⟨message, spans.map (·.location source)⟩

end LocatedError

/-- Any error: already formatted, located, or known by its message alone. -/
inductive Failure where
  | formatted (error : FormattedError)
  | located (error : LocatedError)
  | other (message : String)

namespace Failure

def message : Failure → String
  | formatted error => error.message
  | located error => error.message
  | other message => message

/-- A formatted error stays as it is, a located one keeps its places, and of any other
only the message is kept. -/
def format : Failure → FormattedError
  | formatted error => error
  | located error => ⟨error.message, error.locations, none⟩
  | other message => .ofMessage message

end Failure

/-! ## The outcome of validating a document -/

structure ValidationResult where
  isValid : Bool
  errors : List FormattedError

namespace ValidationResult

def valid : ValidationResult := ⟨true, []⟩

/-- Valid exactly if there are no errors. -/
def ofErrors (errors : List FormattedError) : ValidationResult := ⟨errors.isEmpty, errors⟩

instance : Encode ValidationResult where
  encode result := .object (
    ("is_valid", .bool result.isValid) ::
    if result.errors.isEmpty then [] else [("errors", encode result.errors)])

end ValidationResult

end GraphSchema

/-
  GraphSchema.Event — what a host's log shows of the library's work.

  Nothing here changes an outcome: events are read off the calls and their results. Each
  has a level, a message, and named texts. A log at some level shows the events of that
  level and the more severe ones.
-/

import GraphSchema.Schema.Basic
import GraphSchema.Schema.Dispatch

namespace GraphSchema

inductive Level where
  | warn
  | debug
  | trace
  deriving DecidableEq, Repr

namespace Level

def word : Level → String
  | warn => "WARN"
  | debug => "DEBUG"
  | trace => "TRACE"

/-- The level a host asks for, in lower case. -/
def ofWord? (word : String) : Option Level :=
  [warn, debug, trace].find? fun level => level.word.toLower == word

def verbosity : Level → Nat
  | warn => 0
  | debug => 1
  | trace => 2

/-- Whether a log at this level shows an event of the other. -/
def shows (log event : Level) : Bool := event.verbosity ≤ log.verbosity

end Level

structure Event where
  level : Level
  message : String
  fields : List (String × String)
  deriving DecidableEq, Repr

namespace Event

/-- A field that is left out where there is nothing to show. -/
def optional (name : String) : Option String → List (String × String)
  | none => []
  | some text => [(name, text)]

/-! ## Registering -/

def registered (entry : Registered) : Event :=
  ⟨.debug, "registered type", [("type_name", entry.name), ("kind", entry.kind.word)]⟩

/-- A call that was accepted. -/
def ofRegistration (registry : TypeRegistry) (call : Registration) : List Event :=
  match call.apply registry with
  | .error _ => []
  | .ok (after, _) =>
    match call with
    | .addField typeName field _ =>
      [⟨.debug, "added field", [("type_name", typeName), ("field", field)]⟩]
    | _ => (after.entries.values.getLast?.map registered).toList

/-! ## Publishing -/

/-- An input field left out, and why. -/
def ofSkipped (typeName field : String) : TypeError → Event
  | .invalidName _ =>
    ⟨.warn, "skipping input field with invalid name", [("type_name", typeName), ("field", field)]⟩
  | .inputFieldNotInput owner name type =>
    ⟨.warn, "skipping input field: " ++ (TypeError.inputFieldNotInput owner name type).message,
      [("type_name", typeName)]⟩
  | reason =>
    ⟨.warn, "skipping input field: " ++ reason.message,
      [("type_name", typeName), ("field", field)]⟩

def ofEntry (kinds : KindTable) : Registered → List Event
  | .inputObject config =>
    (config.skipped kinds).map fun (field, reason) => ofSkipped config.name field reason
  | _ => []

def published (schema : Schema) : Event :=
  ⟨.debug, "schema published",
    [("types", natText schema.types.size), ("query", schema.query.name)] ++
      optional "mutation" (schema.mutation.map ObjectType.name)⟩

def ofPublication (config : SchemaConfig) (registry : TypeRegistry) : List Event :=
  let publication : Publication := ⟨registry, config.options⟩
  let started : Event := ⟨.debug, "publishing schema", [("types", natText registry.size)]⟩
  let skipped := registry.entries.values.flatMap (ofEntry publication.kinds)
  let outcome :=
    match publish registry config.options with
    | .error failure =>
      [⟨.debug, "schema publication failed", [("errors", natText failure.errors.length)]⟩]
    | .ok types =>
      match Schema.ofTypes config types with
      | .error _ => []
      | .ok schema => [published schema]
  started :: skipped ++ outcome

/-! ## Answering -/

/-- A name that is no possible type is worth a note; so is the outcome of trying the
predicates. -/
def ofDispatch (type : AbstractType) (value : Json) (info : ResolveInfo) : List Event :=
  match type.resolveType with
  | some resolveType =>
    match resolveType value info with
    | none => []
    | some name =>
      if (type.possibleType? name).isSome then []
      else
        [⟨.debug, "resolve_type returned a type that is not a possible type",
          [("abstract_type", type.name), ("resolved", name)]⟩]
  | none =>
    [⟨.trace, "resolved abstract type with is_type_of",
      ("abstract_type", type.name) ::
        optional "resolved" ((type.objectType? value info).map ObjectType.name)⟩]

def ofValidation (schema : Schema) (document : Document) : Event :=
  ⟨.trace, "validating document",
    [("query", schema.query.name), ("definitions", natText document.definitions.length)]⟩

end Event

end GraphSchema

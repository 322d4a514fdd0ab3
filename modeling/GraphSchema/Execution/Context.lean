/-
  GraphSchema.Execution.Context — values a host hands to its resolvers, under keys.

  What a host sets is turned into a runtime value first. The keys of a map are written as
  text: numbers, truth values and characters have one, and a variant has its name. A map with
  a key that has no text has no such value, and setting one is refused and changes nothing. A
  floating number that is not finite has no text either, but where it is no key it becomes
  null. A read is typed: it gives a value only if the one under the key reads as the wanted
  type.

  A host holds one context, and its calls write that one (`write`); where a call is refused
  it stops, and what it had written until then stays written. That it had written nothing,
  so that `set` says all there is to say of a call, is for the order of its steps to ensure.
-/

import GraphSchema.Json.Decode
import GraphSchema.Json.Text
import GraphSchema.Number.Binary64

namespace GraphSchema

/-- The key of a host's map. -/
inductive HostKey where
  /-- Text, or the name of a variant. -/
  | text (key : String)
  | int (key : Int)
  | bool (key : Bool)
  | char (key : Char)
  | float (key : Binary64)
  /-- A key made of parts. -/
  | tuple (parts : List Int)
  deriving DecidableEq

/-- The text a key is written as, if it has one. -/
def HostKey.text? : HostKey → Option String
  | text key => some key
  | int key => some (intText key)
  | bool key => some (if key then "true" else "false")
  | char key => some (String.singleton key)
  | float key => key.finite?.map Json.floatLayout.text
  | tuple _ => none

/-- Data as a host holds it. -/
inductive HostValue where
  | json (value : Json)
  | float (value : Binary64)
  | list (items : List HostValue)
  | map (entries : List (HostKey × HostValue))

inductive EncodeError where
  | keyWithoutText
  deriving DecidableEq, Repr

namespace HostValue

mutual

def toJson : HostValue → Except EncodeError Json
  | json value => .ok value
  | float value => .ok (.ofOption (value.finite?.map .float))
  | list items =>
    match itemsToJson items with
    | .error e => .error e
    | .ok values => .ok (.array values)
  | map entries =>
    match entriesToJson entries with
    | .error e => .error e
    | .ok members => .ok (.ofMembers members)

def itemsToJson : List HostValue → Except EncodeError (List Json)
  | [] => .ok []
  | item :: rest =>
    match item.toJson with
    | .error e => .error e
    | .ok value =>
      match itemsToJson rest with
      | .error e => .error e
      | .ok values => .ok (value :: values)

def entriesToJson : List (HostKey × HostValue) → Except EncodeError (List (String × Json))
  | [] => .ok []
  | (key, item) :: rest =>
    match key.text? with
    | none => .error .keyWithoutText
    | some name =>
      match item.toJson with
      | .error e => .error e
      | .ok value =>
        match entriesToJson rest with
        | .error e => .error e
        | .ok members => .ok ((name, value) :: members)

end

end HostValue

structure Context where
  data : SortedMap Json

namespace Context

def empty : Context := ⟨.empty⟩

instance : Inhabited Context := ⟨empty⟩

def set (context : Context) (key : String) (value : HostValue) : Except EncodeError Context :=
  match value.toJson with
  | .error e => .error e
  | .ok value => .ok ⟨context.data.insert key value⟩

/-- Sets a value, step by step. -/
def write (key : String) (value : HostValue) : EStateM EncodeError Context Unit := do
  match value.toJson with
  | .error e => throw e
  | .ok value => modify fun context => { context with data := context.data.insert key value }

/-- The context that a call leaves, accepted or refused. -/
def left (context : Context) (call : String × HostValue) : Context :=
  match (write call.1 call.2).run context with
  | .ok _ after => after
  | .error _ after => after

/-- The context after calls in turn. -/
def after (context : Context) (calls : List (String × HostValue)) : Context :=
  calls.foldl left context

/-- The value under a key, if it reads as the wanted type. -/
def get? (α : Type) [Decode α] (context : Context) (key : String) : Option α :=
  (context.data.get? key).bind decode?

end Context

end GraphSchema

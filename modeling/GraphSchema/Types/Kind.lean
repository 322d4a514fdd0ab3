/-
  GraphSchema.Types.Kind — the eight kinds a type can have.

  Six kinds have names of their own; lists and non-null types wrap another type. The word
  of a kind is what introspection and logs show. As a value a kind is its word, or an
  object with the word as its only member and null under it.
-/

import GraphSchema.Json.Decode

namespace GraphSchema

inductive TypeKind where
  | scalar
  | object
  | interface
  | union
  | enum
  | inputObject
  | list
  | nonNull
  deriving DecidableEq, Repr

namespace TypeKind

def word : TypeKind → String
  | scalar => "SCALAR"
  | object => "OBJECT"
  | interface => "INTERFACE"
  | union => "UNION"
  | enum => "ENUM"
  | inputObject => "INPUT_OBJECT"
  | list => "LIST"
  | nonNull => "NON_NULL"

def all : List TypeKind := [scalar, object, interface, union, enum, inputObject, list, nonNull]

def ofWord? (word : String) : Option TypeKind := all.find? fun kind => kind.word == word

theorem ofWord?_word (kind : TypeKind) : ofWord? kind.word = some kind := by
  cases kind <;> decide

instance : Encode TypeKind := ⟨fun kind => .string kind.word⟩

instance : Decode TypeKind where
  decode?
    | .string word => ofWord? word
    | .object [(word, .null)] => ofWord? word
    | _ => none

instance : LawfulCoding TypeKind := ⟨ofWord?_word⟩

end TypeKind

end GraphSchema

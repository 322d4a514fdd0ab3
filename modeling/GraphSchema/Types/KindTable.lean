/-
  GraphSchema.Types.KindTable — what is known of every type before any is built.

  References are checked against this table, so that a type may mention one that comes
  later. It is filled name by name (`note`): with the kind of each, and beside it with the
  names a check has to tell from others of their kind, which are the scalars that read no
  input and the interfaces and unions that name the types of values themselves. Put
  together again, that is all an entry says of itself (`named?`), and what a reference may be used
  for depends on nothing else (`acceptsOutput_eq`, `acceptsInput_eq`).
-/

import GraphSchema.Collection.Keyed
import GraphSchema.TypeError
import GraphSchema.Types.Kind

namespace GraphSchema

/-- What an entry says of itself. -/
inductive NamedKind where
  | scalar (inputCapable : Bool)
  | enum
  | object
  | interface (resolvesType : Bool)
  | union (resolvesType : Bool)
  | inputObject
  deriving DecidableEq, Repr

namespace NamedKind

def kind : NamedKind → TypeKind
  | scalar _ => .scalar
  | enum => .enum
  | object => .object
  | interface _ => .interface
  | union _ => .union
  | inputObject => .inputObject

/-- A field may answer with anything but an input object. -/
def isOutput : NamedKind → Bool
  | inputObject => false
  | _ => true

/-- Input is read by enums, input objects, and scalars that have readers. -/
def isInput : NamedKind → Bool
  | scalar inputCapable => inputCapable
  | enum => true
  | inputObject => true
  | _ => false

/-- A scalar without readers. -/
def isOutputOnly : NamedKind → Bool
  | scalar inputCapable => !inputCapable
  | _ => false

/-- An interface or union that names the types of values itself. -/
def resolvesTypes : NamedKind → Bool
  | interface resolvesType => resolvesType
  | union resolvesType => resolvesType
  | _ => false

/-- The kind with what is noted of it besides; a wrapper is the kind of no entry. -/
def of? (kind : TypeKind) (outputOnly resolvable : Bool) : Option NamedKind :=
  match kind with
  | .scalar => some (scalar !outputOnly)
  | .enum => some enum
  | .object => some object
  | .interface => some (interface resolvable)
  | .union => some (union resolvable)
  | .inputObject => some inputObject
  | .list => none
  | .nonNull => none

/-- An entry is its kind and what is noted of it. -/
theorem of?_kind (kind : NamedKind) :
    of? kind.kind kind.isOutputOnly kind.resolvesTypes = some kind := by
  cases kind <;> simp [NamedKind.kind, of?, isOutputOnly, resolvesTypes]

end NamedKind

structure KindTable where
  kinds : Keyed TypeKind
  /-- Scalars without readers. -/
  outputOnly : List String
  /-- Interfaces and unions that name the types of values themselves. -/
  resolvable : List String
  /-- Lists and non-null types have no names. -/
  unwrapped : ∀ name, kinds.get? name ≠ some .list ∧ kinds.get? name ≠ some .nonNull

namespace KindTable

def empty : KindTable := ⟨.empty, [], [], fun _ => by simp⟩

/-- Notes the kind of a name, and whether its entry is one that checks tell from its kind. -/
def note (table : KindTable) (name : String) (kind : NamedKind) : KindTable where
  kinds := table.kinds.insert name kind.kind
  outputOnly := if kind.isOutputOnly then name :: table.outputOnly else table.outputOnly
  resolvable := if kind.resolvesTypes then name :: table.resolvable else table.resolvable
  unwrapped := by
    intro other
    rw [Keyed.get?_insert]
    split
    · cases kind <;> simp [NamedKind.kind]
    · exact table.unwrapped other

/-- The table of named entries, noted one after another. -/
def classify (entries : List (String × NamedKind)) : KindTable :=
  entries.foldl (fun table entry => table.note entry.1 entry.2) empty

/-- What the table knows of a name. -/
def named? (table : KindTable) (name : String) : Option NamedKind :=
  (table.kinds.get? name).bind fun kind =>
    NamedKind.of? kind (table.outputOnly.contains name) (table.resolvable.contains name)

/-- The kind a reference ends in. -/
def innermost (table : KindTable) (type : TypeRef) : Except TypeError TypeKind :=
  match table.kinds.get? type.innermostName with
  | some kind => .ok kind
  | none => .error (.unknownType type.innermostName)

def acceptsOutput (table : KindTable) (type : TypeRef) : Except TypeError Bool :=
  (table.innermost type).map fun kind => kind != .inputObject

def acceptsInput (table : KindTable) (type : TypeRef) : Except TypeError Bool :=
  (table.innermost type).map fun
    | .scalar => !table.outputOnly.contains type.innermostName
    | .enum => true
    | .inputObject => true
    | _ => false

/-- All that is known of the name a reference ends in. -/
def known (table : KindTable) (type : TypeRef) : Except TypeError NamedKind :=
  match table.named? type.innermostName with
  | some kind => .ok kind
  | none => .error (.unknownType type.innermostName)

theorem acceptsOutput_eq (table : KindTable) (type : TypeRef) :
    table.acceptsOutput type = (table.known type).map NamedKind.isOutput := by
  have wrappers := table.unwrapped type.innermostName
  unfold acceptsOutput innermost known named?
  cases found : table.kinds.get? type.innermostName with
  | none => rfl
  | some kind =>
    cases kind with
    | list => exact absurd found wrappers.1
    | nonNull => exact absurd found wrappers.2
    | _ => rfl

theorem acceptsInput_eq (table : KindTable) (type : TypeRef) :
    table.acceptsInput type = (table.known type).map NamedKind.isInput := by
  have wrappers := table.unwrapped type.innermostName
  unfold acceptsInput innermost known named?
  cases found : table.kinds.get? type.innermostName with
  | none => rfl
  | some kind =>
    cases kind with
    | list => exact absurd found wrappers.1
    | nonNull => exact absurd found wrappers.2
    | _ => rfl

end KindTable

end GraphSchema

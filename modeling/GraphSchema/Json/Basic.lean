/-
  GraphSchema.Json.Basic — runtime values.

  Values that resolvers, coercions and envelopes pass around: the JSON data model with
  integers and floating numbers kept apart. The members of an object are stored as a
  list; a value is canonical when, at every depth, their names strictly increase, so no
  name occurs twice (`Json.Canonical`). `Json.ofMembers` builds a canonical object from
  any list of members: of two with one name the later counts.

  `Json.same` is the equality programs use: numbers compare as numbers, so the two
  floating zeros are equal, but an integer never equals a floating number.
-/

import GraphSchema.Collection.Sorted
import GraphSchema.Number.Double

namespace GraphSchema

inductive Json where
  | null
  | bool (value : Bool)
  | int (value : Int)
  | float (value : Double)
  | string (value : String)
  | array (items : List Json)
  | object (members : List (String × Json))

instance : Inhabited Json := ⟨.null⟩

namespace Json

/-- An object of the given members, sorted by name. -/
def ofMembers (members : List (String × Json)) : Json := .object (sortOn Prod.fst members)

def ofSortedMap (members : SortedMap Json) : Json := .object members.entries

def ofOption (value : Option Json) : Json := value.getD .null

/-- The member of an object under a name; nothing else has members. -/
def member? (name : String) : Json → Option Json
  | .object members => members.lookup name
  | _ => none

def string? : Json → Option String
  | .string value => some value
  | _ => none

/-! ## Canonical values -/

mutual

def Canonical : Json → Prop
  | .array items => CanonicalItems items
  | .object members => members.Pairwise (fun x y => x.1 < y.1) ∧ CanonicalMembers members
  | _ => True

def CanonicalItems : List Json → Prop
  | [] => True
  | item :: rest => item.Canonical ∧ CanonicalItems rest

def CanonicalMembers : List (String × Json) → Prop
  | [] => True
  | (_, value) :: rest => value.Canonical ∧ CanonicalMembers rest

end

/-- A value whose members are sorted by name at every depth. -/
def sortMembers : Json → Json
  | .array items => .array (sortItems items)
  | .object members => ofMembers (sortValues members)
  | other => other
where
  sortItems : List Json → List Json
    | [] => []
    | item :: rest => item.sortMembers :: sortItems rest
  sortValues : List (String × Json) → List (String × Json)
    | [] => []
    | (name, value) :: rest => (name, value.sortMembers) :: sortValues rest

/-! ## Equality -/

mutual

def same : Json → Json → Bool
  | .null, .null => true
  | .bool a, .bool b => a == b
  | .int a, .int b => a == b
  | .float a, .float b => a.same b
  | .string a, .string b => a == b
  | .array as, .array bs => sameItems as bs
  | .object as, .object bs => sameMembers as bs
  | _, _ => false

def sameItems : List Json → List Json → Bool
  | [], [] => true
  | a :: as, b :: bs => a.same b && sameItems as bs
  | _, _ => false

def sameMembers : List (String × Json) → List (String × Json) → Bool
  | [], [] => true
  | (m, a) :: as, (n, b) :: bs => m == n && a.same b && sameMembers as bs
  | _, _ => false

end

end Json

end GraphSchema

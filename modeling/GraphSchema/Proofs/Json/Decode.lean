/-
  GraphSchema.Proofs.Json.Decode — reading back what was written, with its members sorted.

  What is written names its members in an order of its own, and a runtime value keeps them
  sorted. Objects are read by name, so a type that reads back what it writes reads it back
  in either order (`SortedCoding`): what is found under a name in the sorted object is what
  is found there in the written one, sorted itself (`exists_sorted_members`).
-/

import GraphSchema.Json.Decode
import GraphSchema.Proofs.Json.Equality

namespace GraphSchema

variable {α : Type}

namespace Json

theorem lookup_map_sortValue (members : List (String × Json)) (name : String) :
    (members.map sortValue).lookup name = (members.lookup name).map sortMembers := by
  induction members with
  | nil => rfl
  | cons member rest ih =>
    have hentry : (sortValue member :: rest.map sortValue).lookup name =
        if name = member.1 then some member.2.sortMembers else (rest.map sortValue).lookup name :=
      Keyed.lookup_entry ..
    rw [List.map_cons, hentry, ih, Keyed.lookup_entry]
    split <;> rfl

/-- Members of distinct names are found in the sorted object, sorted themselves. -/
theorem exists_sorted_members {members : List (String × Json)}
    (hnd : (members.map Prod.fst).Nodup) :
    ∃ sorted, (object members).sortMembers = .object sorted ∧
      ∀ name, sorted.lookup name = (members.lookup name).map sortMembers := by
  refine ⟨_, sortMembers_object members, fun name => ?_⟩
  rw [lookup_sortOn_of_nodup (map_fst_sortValue members ▸ hnd), lookup_map_sortValue]

end Json

/-- What is written reads back, as it is and with its members sorted. -/
class SortedCoding (α : Type) [Encode α] [Decode α] : Prop extends LawfulCoding α where
  decode?_sorted : ∀ value : α, decode? (encode value).sortMembers = some value

export SortedCoding (decode?_sorted)

instance : SortedCoding UInt32 := ⟨decode?_encode⟩

instance [Encode α] [Decode α] [SortedCoding α] : SortedCoding (List α) where
  decode?_sorted items := by
    show decode? (Json.array (items.map encode)).sortMembers = some items
    rw [Json.sortMembers_array]
    show Decode.items? ((items.map encode).map Json.sortMembers) = some items
    induction items with
    | nil => rfl
    | cons item rest ih => rw [List.map_cons, List.map_cons, Decode.items?, decode?_sorted, ih]

end GraphSchema

/-
  GraphSchema.Collection.Sorted — lists in increasing order of a text key.

  Text is compared by code points, which is also the order of its UTF-8 bytes. Of
  several elements with one key the last one put stays. An order of keys that answers
  show is kept by construction: `sortOn` gives strictly increasing keys
  (`pairwise_sortOn`), so two lists with the same elements under distinct keys sort to
  the same list.
-/

namespace GraphSchema

variable {α : Type}

/-- Puts an element at its place, instead of the one with its key if there is one. -/
def insertOn (key : α → String) (a : α) : List α → List α
  | [] => [a]
  | b :: rest =>
    if key a = key b then a :: rest
    else if key a < key b then a :: b :: rest
    else b :: insertOn key a rest

def sortOn (key : α → String) (as : List α) : List α :=
  as.foldl (fun sorted a => insertOn key a sorted) []

theorem mem_insertOn {key : α → String} {a x : α} {as : List α} (h : x ∈ insertOn key a as) :
    x = a ∨ x ∈ as := by
  induction as with
  | nil => simpa [insertOn] using h
  | cons b rest ih =>
    simp only [insertOn] at h
    split at h
    · rcases List.mem_cons.mp h with h | h <;> simp [h]
    · split at h
      · rcases List.mem_cons.mp h with h | h
        · exact Or.inl h
        · exact Or.inr h
      · rcases List.mem_cons.mp h with h | h
        · simp [h]
        · rcases ih h with h | h <;> simp [h]

theorem pairwise_insertOn {key : α → String} {a : α} {as : List α}
    (h : as.Pairwise fun x y => key x < key y) :
    (insertOn key a as).Pairwise fun x y => key x < key y := by
  induction as with
  | nil => simp [insertOn]
  | cons b rest ih =>
    rw [List.pairwise_cons] at h
    simp only [insertOn]
    split
    · rename_i hk
      rw [List.pairwise_cons]
      exact ⟨fun y hy => hk ▸ h.1 y hy, h.2⟩
    · rename_i hne
      split
      · rename_i hlt
        rw [List.pairwise_cons]
        refine ⟨fun y hy => ?_, List.pairwise_cons.mpr h⟩
        rcases List.mem_cons.mp hy with rfl | hy
        · exact hlt
        · exact String.lt_trans hlt (h.1 y hy)
      · rename_i hnlt
        rw [List.pairwise_cons]
        refine ⟨fun y hy => ?_, ih h.2⟩
        rcases mem_insertOn hy with rfl | hy
        · have hle : key b ≤ key y := String.not_lt.mp hnlt
          refine Decidable.byContradiction fun hcon => hne ?_
          exact String.le_antisymm (String.not_lt.mp hcon) hle
        · exact h.1 y hy

theorem pairwise_foldl_insertOn {key : α → String} (as sorted : List α)
    (h : sorted.Pairwise fun x y => key x < key y) :
    (as.foldl (fun sorted a => insertOn key a sorted) sorted).Pairwise
      fun x y => key x < key y := by
  induction as generalizing sorted with
  | nil => exact h
  | cons a rest ih => exact ih _ (pairwise_insertOn h)

/-- Keys strictly increase, so none occurs twice. -/
theorem pairwise_sortOn (key : α → String) (as : List α) :
    (sortOn key as).Pairwise fun x y => key x < key y :=
  pairwise_foldl_insertOn as [] List.Pairwise.nil

/-! ## Maps sorted by key -/

/-- Values under text keys, in increasing order of the keys. -/
structure SortedMap (α : Type) where
  entries : List (String × α)
  sorted : entries.Pairwise fun x y => x.1 < y.1

namespace SortedMap

theorem ext_entries {m n : SortedMap α} (h : m.entries = n.entries) : m = n := by
  cases m
  cases n
  simp_all

def empty : SortedMap α := ⟨[], List.Pairwise.nil⟩

instance : Inhabited (SortedMap α) := ⟨empty⟩

def insert (m : SortedMap α) (key : String) (value : α) : SortedMap α where
  entries := insertOn Prod.fst (key, value) m.entries
  sorted := pairwise_insertOn m.sorted

def ofList (entries : List (String × α)) : SortedMap α where
  entries := sortOn Prod.fst entries
  sorted := pairwise_sortOn Prod.fst entries

def get? (m : SortedMap α) (key : String) : Option α := m.entries.lookup key

end SortedMap

end GraphSchema

/-
  GraphSchema.Collection.Keyed — values under distinct text keys, in the order the keys
  first came.

  Putting a value under a key that is already there replaces the value and keeps the
  key's place; a new key goes to the end.
  - `get?_insert`: what was put is found, and nothing else changes.
  - `get?_erase`: what was taken out is gone, and nothing else changes.
  - `keys_insert`: a key keeps its place, a new one is last.
  - `keys_mapValues`: converting the values keeps the keys.
-/

namespace GraphSchema

structure Keyed (α : Type) where
  entries : List (String × α)
  keys_nodup : (entries.map Prod.fst).Nodup
  deriving DecidableEq

namespace Keyed

variable {α β ε : Type}

theorem ext_entries {m n : Keyed α} (h : m.entries = n.entries) : m = n := by
  cases m
  cases n
  simp_all

def empty : Keyed α := ⟨[], List.nodup_nil⟩

instance : Inhabited (Keyed α) := ⟨empty⟩

def keys (m : Keyed α) : List String := m.entries.map Prod.fst

def values (m : Keyed α) : List α := m.entries.map Prod.snd

def size (m : Keyed α) : Nat := m.entries.length

def isEmpty (m : Keyed α) : Bool := m.entries.isEmpty

def get? (m : Keyed α) (key : String) : Option α := m.entries.lookup key

def contains (m : Keyed α) (key : String) : Bool := (m.get? key).isSome

/-! ## Putting a value under a key -/

def put (key : String) (value : α) : List (String × α) → List (String × α)
  | [] => [(key, value)]
  | entry :: rest => if entry.1 = key then (key, value) :: rest else entry :: put key value rest

theorem map_fst_put (key : String) (value : α) (entries : List (String × α)) :
    (put key value entries).map Prod.fst =
      if key ∈ entries.map Prod.fst then entries.map Prod.fst
      else entries.map Prod.fst ++ [key] := by
  induction entries with
  | nil => simp [put]
  | cons entry rest ih =>
    by_cases h : entry.1 = key
    · simp [put, h]
    · have h' : ¬ key = entry.1 := fun e => h e.symm
      simp only [put, h, if_false, List.map_cons, ih, List.mem_cons, h', false_or]
      split <;> simp

theorem lookup_entry (key : String) (entry : String × α) (rest : List (String × α)) :
    (entry :: rest).lookup key = if key = entry.1 then some entry.2 else rest.lookup key := by
  rcases entry with ⟨k, v⟩
  by_cases h : key = k
  · simp [h]
  · have hb : (key == k) = false := by simp [h]
    simp [List.lookup_cons, h, hb]

theorem lookup_put (key other : String) (value : α) (entries : List (String × α)) :
    (put key value entries).lookup other =
      if other = key then some value else entries.lookup other := by
  induction entries with
  | nil => simp [put, lookup_entry]
  | cons entry rest ih =>
    by_cases h : entry.1 = key
    · by_cases h2 : other = key <;> simp [put, lookup_entry, h, h2]
    · by_cases h2 : other = entry.1
      · have h3 : ¬ other = key := fun e => h (h2 ▸ e)
        simp [put, lookup_entry, h, h2]
      · simp [put, lookup_entry, h, h2, ih]

def insert (m : Keyed α) (key : String) (value : α) : Keyed α where
  entries := put key value m.entries
  keys_nodup := by
    rw [map_fst_put]
    split
    · exact m.keys_nodup
    · rename_i h
      rw [List.nodup_append]
      refine ⟨m.keys_nodup, by simp, ?_⟩
      intro a ha b hb hab
      simp at hb
      exact h (hb ▸ hab ▸ ha)

/-- Puts every entry of a list in turn, so the last value under a key counts. -/
def insertAll (m : Keyed α) (entries : List (String × α)) : Keyed α :=
  entries.foldl (fun m entry => m.insert entry.1 entry.2) m

def ofList (entries : List (String × α)) : Keyed α := empty.insertAll entries

/-- Puts the entries of a second map over those of the first. -/
def merge (m n : Keyed α) : Keyed α := m.insertAll n.entries

@[simp] theorem get?_empty (key : String) : (empty : Keyed α).get? key = none := rfl

theorem get?_insert (m : Keyed α) (key other : String) (value : α) :
    (m.insert key value).get? other = if other = key then some value else m.get? other :=
  lookup_put key other value m.entries

theorem keys_insert (m : Keyed α) (key : String) (value : α) :
    (m.insert key value).keys = if key ∈ m.keys then m.keys else m.keys ++ [key] :=
  map_fst_put key value m.entries

/-! ## Looking up -/

theorem lookup_isSome_iff {key : String} {entries : List (String × α)} :
    (entries.lookup key).isSome = true ↔ key ∈ entries.map Prod.fst := by
  induction entries with
  | nil => simp
  | cons entry rest ih =>
    by_cases h : key = entry.1
    · simp [lookup_entry, h]
    · simp [lookup_entry, h, ih]

theorem contains_iff_mem_keys {m : Keyed α} {key : String} :
    m.contains key = true ↔ key ∈ m.keys := lookup_isSome_iff

theorem lookup_eq_some_iff_mem {key : String} {value : α} {entries : List (String × α)}
    (h : (entries.map Prod.fst).Nodup) :
    entries.lookup key = some value ↔ (key, value) ∈ entries := by
  induction entries with
  | nil => simp
  | cons entry rest ih =>
    rcases entry with ⟨k, v⟩
    simp only [List.map_cons, List.nodup_cons] at h
    by_cases hk : key = k
    · subst hk
      have hnot : (key, value) ∉ rest := fun hm => h.1 (List.mem_map.mpr ⟨_, hm, rfl⟩)
      simp [hnot, eq_comm]
    · simp [lookup_entry, hk, ih h.2]

/-- An entry is found under its key, and only entries are found. -/
theorem get?_eq_some_iff {m : Keyed α} {key : String} {value : α} :
    m.get? key = some value ↔ (key, value) ∈ m.entries :=
  lookup_eq_some_iff_mem m.keys_nodup

theorem get?_eq_none_iff {m : Keyed α} {key : String} : m.get? key = none ↔ key ∉ m.keys := by
  rw [← contains_iff_mem_keys, contains]
  simp

/-! ## Taking a value out -/

def erase (m : Keyed α) (key : String) : Keyed α where
  entries := m.entries.filter fun entry => entry.1 != key
  keys_nodup := (List.filter_sublist.map Prod.fst).nodup m.keys_nodup

theorem get?_erase (m : Keyed α) (key other : String) :
    (m.erase key).get? other = if other = key then none else m.get? other := by
  show (m.entries.filter fun entry => entry.1 != key).lookup other = _
  unfold get?
  induction m.entries with
  | nil => simp
  | cons entry rest ih =>
    by_cases h : entry.1 = key
    · rw [List.filter_cons_of_neg (by simp [h]), ih, lookup_entry, h]
      by_cases ho : other = key
      · simp [ho]
      · simp [ho]
    · rw [List.filter_cons_of_pos (by simpa using h), lookup_entry, lookup_entry, ih]
      by_cases ho : other = entry.1
      · simp [ho, h]
      · simp [ho]

/-! ## Converting the values -/

def mapValues (f : String → α → β) (m : Keyed α) : Keyed β where
  entries := m.entries.map fun entry => (entry.1, f entry.1 entry.2)
  keys_nodup := by
    have h : (m.entries.map fun entry => (entry.1, f entry.1 entry.2)).map Prod.fst
        = m.entries.map Prod.fst := by simp [List.map_map, Function.comp_def]
    rw [h]
    exact m.keys_nodup

@[simp] theorem keys_mapValues (f : String → α → β) (m : Keyed α) :
    (m.mapValues f).keys = m.keys := by
  simp [keys, mapValues, List.map_map, Function.comp_def]

/-- Converts entry after entry and stops at the first that fails. -/
def traverseEntries (f : String → α → Except ε β) :
    List (String × α) → Except ε (List (String × β))
  | [] => .ok []
  | entry :: rest =>
    match f entry.1 entry.2 with
    | .error e => .error e
    | .ok value =>
      match traverseEntries f rest with
      | .error e => .error e
      | .ok values => .ok ((entry.1, value) :: values)

theorem map_fst_traverseEntries {f : String → α → Except ε β} {entries : List (String × α)}
    {out : List (String × β)} (h : traverseEntries f entries = .ok out) :
    out.map Prod.fst = entries.map Prod.fst := by
  induction entries generalizing out with
  | nil =>
    simp only [traverseEntries, Except.ok.injEq] at h
    simp [← h]
  | cons entry rest ih =>
    simp only [traverseEntries] at h
    split at h
    · simp at h
    · split at h
      · simp at h
      · rename_i values hv
        simp only [Except.ok.injEq] at h
        simp [← h, ih hv]

def traverse (f : String → α → Except ε β) (m : Keyed α) : Except ε (Keyed β) :=
  match h : traverseEntries f m.entries with
  | .error e => .error e
  | .ok entries => .ok ⟨entries, map_fst_traverseEntries h ▸ m.keys_nodup⟩

theorem traverse_eq_ok_iff {f : String → α → Except ε β} {m : Keyed α} {n : Keyed β} :
    m.traverse f = .ok n ↔ traverseEntries f m.entries = .ok n.entries := by
  unfold traverse
  split
  · rename_i e h
    simp [h]
  · rename_i entries h
    simp only [Except.ok.injEq, h]
    exact ⟨fun e => by rw [← e], fun e => ext_entries e⟩

theorem traverse_eq_error_iff {f : String → α → Except ε β} {m : Keyed α} {e : ε} :
    m.traverse f = .error e ↔ traverseEntries f m.entries = .error e := by
  unfold traverse
  split <;> rename_i h <;> simp [h]

/-- The entries that convert, under their keys. -/
def filterMapEntries (f : String → α → Option β) : List (String × α) → List (String × β)
  | [] => []
  | entry :: rest =>
    match f entry.1 entry.2 with
    | none => filterMapEntries f rest
    | some value => (entry.1, value) :: filterMapEntries f rest

theorem map_fst_filterMapEntries (f : String → α → Option β) (entries : List (String × α)) :
    ((filterMapEntries f entries).map Prod.fst).Sublist (entries.map Prod.fst) := by
  induction entries with
  | nil => exact List.Sublist.slnil
  | cons entry rest ih =>
    simp only [filterMapEntries]
    split
    · exact ih.cons entry.1
    · exact ih.cons_cons entry.1

theorem mem_filterMapEntries {f : String → α → Option β} {entries : List (String × α)}
    {key : String} {value : β} :
    (key, value) ∈ filterMapEntries f entries ↔
      ∃ a, (key, a) ∈ entries ∧ f key a = some value := by
  induction entries with
  | nil => simp [filterMapEntries]
  | cons entry rest ih =>
    rcases entry with ⟨k, v⟩
    simp only [filterMapEntries, List.mem_cons, Prod.mk.injEq]
    split
    · rename_i h
      rw [ih]
      constructor
      · rintro ⟨a, ha, hf⟩
        exact ⟨a, Or.inr ha, hf⟩
      · rintro ⟨a, ⟨rfl, rfl⟩ | ha, hf⟩
        · simp [h] at hf
        · exact ⟨a, ha, hf⟩
    · rename_i w h
      simp only [List.mem_cons, Prod.mk.injEq, ih]
      constructor
      · rintro (⟨rfl, rfl⟩ | ⟨a, ha, hf⟩)
        · exact ⟨v, Or.inl ⟨rfl, rfl⟩, h⟩
        · exact ⟨a, Or.inr ha, hf⟩
      · rintro ⟨a, ⟨rfl, rfl⟩ | ha, hf⟩
        · exact Or.inl ⟨rfl, by simpa [h, eq_comm] using hf⟩
        · exact Or.inr ⟨a, ha, hf⟩

def filterMap (f : String → α → Option β) (m : Keyed α) : Keyed β where
  entries := filterMapEntries f m.entries
  keys_nodup := (map_fst_filterMapEntries f m.entries).nodup m.keys_nodup

end Keyed

end GraphSchema

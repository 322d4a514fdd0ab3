/-
  GraphSchema.Proofs.Collection.Keyed — keyed values, as lookups see them.

  Keys in order and what is found under them are all there is to a map (`ext_get?`), so a
  value may be put into a second map first and merged with it later (`merge_insert`). A
  conversion of every value is one of the value found (`get?_mapValues`), and so is a
  conversion that leaves values out (`get?_filterMap_eq_some_iff`). Where each value that converts is
  told by a condition and has one result, a checked conversion is a conversion of all of
  them under that condition (`traverse_eq_ok_iff_forall`).
-/

import GraphSchema.Collection.Keyed
import GraphSchema.Proofs.Outcome
import Mathlib.Data.List.Basic
import Mathlib.Data.List.Induction

namespace GraphSchema

namespace Keyed

variable {α β ε : Type}

theorem eq_of_get?_eq_get? {m : Keyed α} {key : String} {a b : α} (ha : m.get? key = some a)
    (hb : m.get? key = some b) : a = b :=
  Option.some.inj (ha.symm.trans hb)

/-- The order of the entries does not matter for what is found under a key. -/
theorem get?_eq_of_perm {m n : Keyed α} (h : m.entries.Perm n.entries) (key : String) :
    m.get? key = n.get? key := by
  apply Option.ext
  intro a
  rw [get?_eq_some_iff, get?_eq_some_iff, h.mem_iff]

theorem isEmpty_eq_false_iff {m : Keyed α} : m.isEmpty = false ↔ ∃ key a, m.get? key = some a := by
  simp only [get?_eq_some_iff, isEmpty, List.isEmpty_eq_false_iff, ne_eq]
  constructor
  · intro h
    obtain ⟨entry, hentry⟩ := List.exists_mem_of_ne_nil _ h
    exact ⟨entry.1, entry.2, hentry⟩
  · intro hsome hnil
    obtain ⟨key, a, h⟩ := hsome
    rw [hnil] at h
    cases h

/-- What a list of entries leaves in a map is one of the entries. -/
theorem mem_of_get?_insertAll {m : Keyed α} {entries : List (String × α)} {key : String} {a : α}
    (h : (m.insertAll entries).get? key = some a) : (key, a) ∈ entries ∨ m.get? key = some a := by
  induction entries generalizing m with
  | nil => exact Or.inr h
  | cons entry rest ih =>
    have hrest : ((m.insert entry.1 entry.2).insertAll rest).get? key = some a := h
    rcases ih hrest with h | h
    · exact Or.inl (List.mem_cons_of_mem entry h)
    · rw [get?_insert] at h
      split at h
      · rename_i hkey
        rw [hkey, ← Option.some.inj h]
        exact Or.inl (List.mem_cons_self ..)
      · exact Or.inr h

/-- A new key comes last. -/
theorem entries_insert_of_get?_eq_none {m : Keyed α} {key : String} (h : m.get? key = none) (a : α) :
    (m.insert key a).entries = m.entries ++ [(key, a)] := by
  have hput : ∀ entries : List (String × α), entries.lookup key = none →
      put key a entries = entries ++ [(key, a)] := by
    intro entries
    induction entries with
    | nil => intro _; rfl
    | cons entry rest ih =>
      intro hnone
      rw [lookup_entry] at hnone
      split at hnone
      · cases hnone
      · rename_i hne
        rw [put, if_neg (Ne.symm hne), ih hnone]
        rfl
  exact hput m.entries h

/-! ## Putting many values -/

theorem insertAll_append (m : Keyed α) (first second : List (String × α)) :
    m.insertAll (first ++ second) = (m.insertAll first).insertAll second :=
  List.foldl_append ..

theorem get?_insertAll_of_not_mem {m : Keyed α} {entries : List (String × α)} {key : String}
    (h : key ∉ entries.map Prod.fst) : (m.insertAll entries).get? key = m.get? key := by
  induction entries generalizing m with
  | nil => rfl
  | cons entry rest ih =>
    rw [List.map_cons, List.mem_cons, not_or] at h
    have hrest : ((m.insert entry.1 entry.2).insertAll rest).get? key =
        (m.insert entry.1 entry.2).get? key := ih h.2
    exact hrest.trans ((get?_insert ..).trans (if_neg h.1))

theorem exists_get?_insertAll {m : Keyed α} {entries : List (String × α)} {key : String}
    (h : key ∈ entries.map Prod.fst) : ∃ a, (m.insertAll entries).get? key = some a := by
  induction entries generalizing m with
  | nil => cases h
  | cons entry rest ih =>
    by_cases hrest : key ∈ rest.map Prod.fst
    · exact ih hrest
    · have hkey : key = entry.1 := (List.mem_cons.mp h).resolve_right hrest
      refine ⟨entry.2, ?_⟩
      have hput : ((m.insert entry.1 entry.2).insertAll rest).get? key =
          (m.insert entry.1 entry.2).get? key := get?_insertAll_of_not_mem hrest
      exact hput.trans ((get?_insert ..).trans (if_pos hkey))

theorem contains_ofList_iff {entries : List (String × α)} {key : String} :
    (ofList entries).contains key = true ↔ key ∈ entries.map Prod.fst := by
  constructor
  · intro h
    obtain ⟨a, ha⟩ := Option.isSome_iff_exists.mp h
    rcases mem_of_get?_insertAll ha with hmem | hnone
    · exact List.mem_map.mpr ⟨_, hmem, rfl⟩
    · cases hnone
  · intro h
    exact Option.isSome_iff_exists.mpr (exists_get?_insertAll h)

/-- Of several values under one key the last counts. -/
theorem get?_ofList_eq_some_iff_last {entries : List (String × α)} {key : String} {a : α} :
    (ofList entries).get? key = some a ↔
      ∃ before after, entries = before ++ (key, a) :: after ∧ key ∉ after.map Prod.fst := by
  constructor
  · induction entries using List.reverseRecOn with
    | nil => exact fun h => by cases h
    | append_singleton earlier last ih =>
      intro h
      rw [ofList, insertAll_append] at h
      have hput : ((empty.insertAll earlier).insert last.1 last.2).get? key = some a := h
      rw [get?_insert] at hput
      split at hput
      · rename_i hkey
        cases hput
        exact ⟨earlier, [], by rw [hkey], by simp⟩
      · rename_i hkey
        obtain ⟨before, after, rfl, hafter⟩ := ih hput
        exact ⟨before, after ++ [last], by simp, by simp [hafter, hkey]⟩
  · intro h
    obtain ⟨before, after, rfl, hafter⟩ := h
    have hput : (((empty.insertAll before).insert key a).insertAll after).get? key = some a := by
      rw [get?_insertAll_of_not_mem hafter, get?_insert, if_pos rfl]
    rw [ofList, insertAll_append]
    exact hput

/-- If a key is never given two values, each value is found under its key. -/
theorem get?_ofList_eq_some_iff {entries : List (String × α)}
    (hsame : ∀ key a b, (key, a) ∈ entries → (key, b) ∈ entries → a = b) {key : String} {a : α} :
    (ofList entries).get? key = some a ↔ (key, a) ∈ entries := by
  have hmem : ∀ b, (ofList entries).get? key = some b → (key, b) ∈ entries := by
    intro b hb
    rcases mem_of_get?_insertAll hb with h | h
    · exact h
    · cases h
  refine ⟨hmem a, fun h => ?_⟩
  obtain ⟨b, hb⟩ : ∃ b, (ofList entries).get? key = some b :=
    exists_get?_insertAll (List.mem_map.mpr ⟨(key, a), h, rfl⟩)
  rw [hb, hsame key b a (hmem b hb) h]

theorem entries_insertAll_of_nodup {m : Keyed α} {entries : List (String × α)}
    (h : (m.entries ++ entries).map Prod.fst |>.Nodup) :
    (m.insertAll entries).entries = m.entries ++ entries := by
  induction entries generalizing m with
  | nil => exact (List.append_nil _).symm
  | cons entry rest ih =>
    have hfresh : m.get? entry.1 = none := by
      rw [get?_eq_none_iff]
      rw [List.map_append, List.map_cons] at h
      exact fun hmem => (List.nodup_append.mp h).2.2 entry.1 hmem entry.1 (List.mem_cons_self ..) rfl
    have hinsert := entries_insert_of_get?_eq_none hfresh entry.2
    have hrest : ((m.insert entry.1 entry.2).insertAll rest).entries =
        (m.insert entry.1 entry.2).entries ++ rest := ih (by simpa [hinsert] using h)
    exact hrest.trans (by rw [hinsert, List.append_assoc]; rfl)

/-- A list of values under distinct keys is kept as it is. -/
theorem entries_ofList {entries : List (String × α)} (h : (entries.map Prod.fst).Nodup) :
    (ofList entries).entries = entries :=
  entries_insertAll_of_nodup h

/-! ## The order in which values are put -/

/-- The entries are the keys, each with the value found under it. -/
theorem filterMap_keys (m : Keyed α) :
    (m.keys.filterMap fun key => (m.get? key).map fun a => (key, a)) = m.entries := by
  rw [keys, List.filterMap_map]
  have hsome : ∀ entry ∈ m.entries,
      ((fun key => (m.get? key).map fun a => (key, a)) ∘ Prod.fst) entry = some entry := by
    intro entry hentry
    rw [Function.comp_apply, get?_eq_some_iff.mpr hentry]
    rfl
  rw [List.filterMap_congr hsome, List.filterMap_some]

/-- A map is its keys in order and what is found under them. -/
theorem ext_get? {m n : Keyed α} (hkeys : m.keys = n.keys) (hget : ∀ key, m.get? key = n.get? key) :
    m = n := by
  apply ext_entries
  rw [← filterMap_keys m, ← filterMap_keys n, hkeys]
  simp only [hget]

/-- The last value put under a key counts. -/
theorem insert_insert (m : Keyed α) (key : String) (a b : α) :
    (m.insert key a).insert key b = m.insert key b := by
  apply ext_get?
  · simp only [keys_insert]
    by_cases h : key ∈ m.keys <;> simp [h]
  · intro other
    simp only [get?_insert]
    by_cases h : other = key <;> simp [h]

/-- Putting what is there changes nothing. -/
theorem insert_eq_self {m : Keyed α} {key : String} {a : α} (h : m.get? key = some a) :
    m.insert key a = m := by
  apply ext_get?
  · rw [keys_insert, if_pos (contains_iff_mem_keys.mp (by rw [contains, h]; rfl))]
  · intro other
    rw [get?_insert]
    split
    · rename_i hother
      rw [hother, h]
    · rfl

/-- A key that is there keeps its place, so its value can be replaced earlier or later. -/
theorem insert_comm {m : Keyed α} {key other : String} (hkey : key ∈ m.keys) (hne : other ≠ key)
    (a b : α) : (m.insert other b).insert key a = (m.insert key a).insert other b := by
  apply ext_get?
  · simp only [keys_insert, hkey, if_true]
    by_cases h : other ∈ m.keys <;> simp [h, hkey]
  · intro found
    simp only [get?_insert]
    by_cases h : found = key
    · simp [h, hne.symm]
    · simp [h]

theorem insertAll_insert {m : Keyed α} {entries : List (String × α)} {key : String}
    (hkey : key ∈ m.keys) (hfree : key ∉ entries.map Prod.fst) (a : α) :
    (m.insertAll entries).insert key a = (m.insert key a).insertAll entries := by
  induction entries generalizing m with
  | nil => rfl
  | cons entry rest ih =>
    rw [List.map_cons, List.mem_cons, not_or] at hfree
    have hkept : key ∈ (m.insert entry.1 entry.2).keys := by
      rw [keys_insert]
      split
      · exact hkey
      · exact List.mem_append_left _ hkey
    have hrest : ((m.insert entry.1 entry.2).insertAll rest).insert key a =
        ((m.insert entry.1 entry.2).insert key a).insertAll rest := ih hkept hfree.2
    exact hrest.trans (by rw [insert_comm hkey (Ne.symm hfree.1)]; rfl)

/-- A value put into the second map is put last into both together. -/
theorem merge_insert (m n : Keyed α) (key : String) (a : α) :
    m.merge (n.insert key a) = (m.merge n).insert key a := by
  have hput : ∀ (entries : List (String × α)) (m : Keyed α), (entries.map Prod.fst).Nodup →
      m.insertAll (put key a entries) = (m.insertAll entries).insert key a := by
    intro entries
    induction entries with
    | nil => intro m _; rfl
    | cons entry rest ih =>
      intro m hnd
      obtain ⟨first, b⟩ := entry
      rw [List.map_cons, List.nodup_cons] at hnd
      by_cases hfirst : first = key
      · subst hfirst
        have hmem : first ∈ (m.insert first b).keys := by
          rw [← contains_iff_mem_keys, contains, get?_insert, if_pos rfl]
          rfl
        calc m.insertAll (put first a ((first, b) :: rest))
            = (m.insert first a).insertAll rest := by rw [put, if_pos rfl]; rfl
          _ = ((m.insert first b).insert first a).insertAll rest := by rw [insert_insert]
          _ = ((m.insert first b).insertAll rest).insert first a :=
            (insertAll_insert hmem hnd.1 a).symm
      · rw [put, if_neg hfirst]
        exact ih (m.insert first b) hnd.2
  exact hput n.entries m n.keys_nodup

/-- Values collected in a map of their own are put as if they had been put one by one. -/
theorem merge_ofList (m : Keyed α) (entries : List (String × α)) :
    m.merge (ofList entries) = m.insertAll entries := by
  have hall : ∀ n : Keyed α, m.merge (n.insertAll entries) = (m.merge n).insertAll entries := by
    induction entries with
    | nil => intro n; rfl
    | cons entry rest ih =>
      intro n
      have hrest : m.merge ((n.insert entry.1 entry.2).insertAll rest) =
          (m.merge (n.insert entry.1 entry.2)).insertAll rest := ih _
      exact hrest.trans (by rw [merge_insert]; rfl)
  exact hall .empty

/-! ## Converting the values -/

theorem lookup_map_value (f : String → α → β) (key : String) (entries : List (String × α)) :
    (entries.map fun entry => (entry.1, f entry.1 entry.2)).lookup key =
      (entries.lookup key).map (f key) := by
  induction entries with
  | nil => rfl
  | cons entry rest ih =>
    by_cases h : key = entry.1
    · simp [lookup_entry, h]
    · simp [lookup_entry, h, ih]

theorem get?_mapValues (f : String → α → β) (m : Keyed α) (key : String) :
    (m.mapValues f).get? key = (m.get? key).map (f key) :=
  lookup_map_value f key m.entries

theorem get?_mapValues_eq_some_iff {f : String → α → β} {m : Keyed α} {key : String} {b : β} :
    (m.mapValues f).get? key = some b ↔ ∃ a, m.get? key = some a ∧ f key a = b := by
  rw [get?_mapValues, Option.map_eq_some_iff]

@[simp] theorem isEmpty_mapValues (f : String → α → β) (m : Keyed α) :
    (m.mapValues f).isEmpty = m.isEmpty := by
  simp [isEmpty, mapValues]

theorem mapValues_mapValues {γ : Type} (f : String → α → β) (g : String → β → γ) (m : Keyed α) :
    (m.mapValues f).mapValues g = m.mapValues fun key a => g key (f key a) :=
  ext_entries (List.map_map ..)

/-- A conversion that changes no value changes nothing. -/
theorem mapValues_eq_self {f : String → α → α} {m : Keyed α}
    (h : ∀ key a, m.get? key = some a → f key a = a) : m.mapValues f = m := by
  apply ext_get?
  · exact keys_mapValues f m
  · intro key
    rw [get?_mapValues]
    cases hkey : m.get? key with
    | none => rfl
    | some a => exact congrArg some (h key a hkey)

theorem mapValues_insert (f : String → α → β) (m : Keyed α) (key : String) (a : α) :
    (m.insert key a).mapValues f = (m.mapValues f).insert key (f key a) := by
  apply ext_get?
  · simp only [keys_mapValues, keys_insert]
  · intro other
    simp only [get?_mapValues, get?_insert]
    split
    · rename_i hkey
      rw [hkey]
      rfl
    · rfl

/-- It is the same to merge two maps and to convert the values before or after. -/
theorem mapValues_merge (f : String → α → β) (m n : Keyed α) :
    (m.merge n).mapValues f = (m.mapValues f).merge (n.mapValues f) := by
  have hall : ∀ (entries : List (String × α)) (m : Keyed α), (m.insertAll entries).mapValues f =
      (m.mapValues f).insertAll (entries.map fun entry => (entry.1, f entry.1 entry.2)) := by
    intro entries
    induction entries with
    | nil => exact fun _ => rfl
    | cons entry rest ih =>
      intro m
      have hrest : ((m.insert entry.1 entry.2).insertAll rest).mapValues f = _ := ih _
      exact hrest.trans (by rw [mapValues_insert]; rfl)
  exact hall n.entries m

theorem mem_values_iff {m : Keyed α} {a : α} : a ∈ m.values ↔ ∃ key, m.get? key = some a := by
  simp only [values, List.mem_map, get?_eq_some_iff, Prod.exists, exists_eq_right]

theorem mem_values_mapValues_iff {f : String → α → β} {m : Keyed α} {b : β} :
    b ∈ (m.mapValues f).values ↔ ∃ key a, m.get? key = some a ∧ f key a = b := by
  simp only [values, mapValues, List.mem_map, get?_eq_some_iff]
  constructor
  · intro h
    obtain ⟨_, ⟨entry, hentry, heq⟩, hb⟩ := h
    subst heq
    exact ⟨entry.1, entry.2, hentry, hb⟩
  · intro h
    obtain ⟨key, a, h, hb⟩ := h
    exact ⟨_, ⟨(key, a), h, rfl⟩, hb⟩

theorem get?_filterMap_eq_some_iff {f : String → α → Option β} {m : Keyed α} {key : String} {b : β} :
    (m.filterMap f).get? key = some b ↔ ∃ a, m.get? key = some a ∧ f key a = some b := by
  simp only [get?_eq_some_iff]
  exact mem_filterMapEntries

theorem get?_filterMap (f : String → α → Option β) (m : Keyed α) (key : String) :
    (m.filterMap f).get? key = (m.get? key).bind (f key) := by
  apply Option.ext
  intro b
  rw [get?_filterMap_eq_some_iff, Option.bind_eq_some_iff]

theorem filterMapEntries_eq_filterMap (f : String → α → Option β) (entries : List (String × α)) :
    filterMapEntries f entries =
      entries.filterMap fun entry => (f entry.1 entry.2).map fun b => (entry.1, b) := by
  induction entries with
  | nil => rfl
  | cons entry rest ih =>
    rw [filterMapEntries, ih]
    cases h : f entry.1 entry.2 with
    | none => simp [h]
    | some b => simp [h]

theorem filterMap_mapValues {γ : Type} (f : String → α → β) (g : String → β → Option γ)
    (m : Keyed α) : (m.mapValues f).filterMap g = m.filterMap fun key a => g key (f key a) := by
  apply ext_entries
  show filterMapEntries g (m.entries.map fun entry => (entry.1, f entry.1 entry.2)) =
    filterMapEntries (fun key a => g key (f key a)) m.entries
  simp only [filterMapEntries_eq_filterMap, List.filterMap_map, Function.comp_def]

theorem mapValues_filterMap {γ : Type} (f : String → α → Option β) (g : String → β → γ)
    (m : Keyed α) : (m.filterMap f).mapValues g = m.filterMap fun key a => (f key a).map (g key) := by
  apply ext_entries
  show (filterMapEntries f m.entries).map _ = filterMapEntries _ m.entries
  simp only [filterMapEntries_eq_filterMap, List.map_filterMap, Option.map_map, Function.comp_def]

/-- What converts more of the values keeps the entries that convert anyway, in their order. -/
theorem entries_filterMap_sublist {f g : String → α → Option β}
    (h : ∀ key a b, f key a = some b → g key a = some b) (m : Keyed α) :
    (m.filterMap f).entries.Sublist (m.filterMap g).entries := by
  show (filterMapEntries f m.entries).Sublist (filterMapEntries g m.entries)
  induction m.entries with
  | nil => exact List.Sublist.slnil
  | cons entry rest ih =>
    simp only [filterMapEntries]
    cases hf : f entry.1 entry.2 with
    | some b =>
      rw [h entry.1 entry.2 b hf]
      exact ih.cons_cons _
    | none =>
      cases g entry.1 entry.2 with
      | some b => exact ih.cons _
      | none => exact ih

theorem values_filterMap (f : String → α → Option β) (m : Keyed α) :
    (m.filterMap f).values = m.entries.filterMap fun entry => f entry.1 entry.2 := by
  show (filterMapEntries f m.entries).map Prod.snd = _
  rw [filterMapEntries_eq_filterMap, List.map_filterMap]
  simp [Function.comp_def]

/-- Values that are named as the keys they come from are named differently. -/
theorem nodup_map_filterMap {m : Keyed α} {f : String × α → Option β} {name : β → String}
    (hname : ∀ entry ∈ m.entries, ∀ b, f entry = some b → name b = entry.1) :
    ((m.entries.filterMap f).map name).Nodup := by
  have hsub : ∀ entries : List (String × α),
      (∀ entry ∈ entries, ∀ b, f entry = some b → name b = entry.1) →
      ((entries.filterMap f).map name).Sublist (entries.map Prod.fst) := by
    intro entries
    induction entries with
    | nil => exact fun _ => List.Sublist.slnil
    | cons entry rest ih =>
      intro h
      have hrest := ih fun other hother => h other (List.mem_cons_of_mem entry hother)
      cases hentry : f entry with
      | none =>
        rw [List.filterMap_cons_none hentry]
        exact hrest.cons entry.1
      | some b =>
        rw [List.filterMap_cons_some hentry, List.map_cons, h entry (List.mem_cons_self ..) b hentry]
        exact hrest.cons_cons entry.1
  exact m.keys_nodup.sublist (hsub m.entries hname)

/-! ## Checking the values -/

theorem traverseEntries_eq_ok_iff_forall {f : String → α → Except ε β} {valid : String → α → Prop}
    {convert : String → α → β} (hf : ∀ key a b, f key a = .ok b ↔ valid key a ∧ convert key a = b)
    {entries : List (String × α)} {out : List (String × β)} :
    traverseEntries f entries = .ok out ↔
      (∀ entry ∈ entries, valid entry.1 entry.2) ∧
        entries.map (fun entry => (entry.1, convert entry.1 entry.2)) = out := by
  induction entries generalizing out with
  | nil => simp [traverseEntries]
  | cons entry rest ih =>
    rw [traverseEntries]
    split
    · rename_i e hfirst
      have hnot : ¬ valid entry.1 entry.2 := fun hv => by
        have := (hf _ _ _).mpr ⟨hv, rfl⟩
        rw [hfirst] at this
        cases this
      simp [hnot]
    · rename_i b hfirst
      obtain ⟨hv, rfl⟩ := (hf _ _ _).mp hfirst
      split
      · rename_i e hrest
        have hnot : ¬ ∀ entry ∈ rest, valid entry.1 entry.2 := fun hall => by
          have := ih.mpr ⟨hall, rfl⟩
          rw [hrest] at this
          cases this
        simp only [List.forall_mem_cons, hv, true_and, hnot, false_and, reduceCtorEq]
      · rename_i tail hrest
        obtain ⟨hall, rfl⟩ := ih.mp hrest
        simp only [Except.ok.injEq, List.forall_mem_cons, List.map_cons]
        exact ⟨fun h => ⟨⟨hv, hall⟩, h⟩, fun h => h.2⟩

theorem failsWith_traverseEntries {kind : ε → Prop} {f : String → α → Except ε β}
    (hf : ∀ key a, FailsWith kind (f key a)) (entries : List (String × α)) :
    FailsWith kind (traverseEntries f entries) := by
  induction entries with
  | nil => exact failsWith_ok []
  | cons entry rest ih =>
    rw [traverseEntries]
    split
    · rename_i e hfirst
      exact failsWith_error.mpr (hf _ _ e hfirst)
    · split
      · rename_i e hrest
        exact failsWith_error.mpr (ih e hrest)
      · exact failsWith_ok _

/-- The error of a checked conversion is that of one of its values. -/
theorem failsWith_traverse {kind : ε → Prop} {f : String → α → Except ε β}
    (hf : ∀ key a, FailsWith kind (f key a)) (m : Keyed α) : FailsWith kind (m.traverse f) := by
  intro e h
  exact failsWith_traverseEntries hf m.entries e (traverse_eq_error_iff.mp h)

/-- A checked conversion that succeeds where `valid` holds, with the result `convert`. -/
theorem traverse_eq_ok_iff_forall {f : String → α → Except ε β} {valid : String → α → Prop}
    {convert : String → α → β} (hf : ∀ key a b, f key a = .ok b ↔ valid key a ∧ convert key a = b)
    {m : Keyed α} {n : Keyed β} :
    m.traverse f = .ok n ↔
      (∀ key a, m.get? key = some a → valid key a) ∧ m.mapValues convert = n := by
  rw [traverse_eq_ok_iff, traverseEntries_eq_ok_iff_forall hf]
  refine and_congr ?_ ⟨fun h => ext_entries h, fun h => by rw [← h]; rfl⟩
  constructor
  · intro h key a ha
    exact h (key, a) (get?_eq_some_iff.mp ha)
  · intro h entry hentry
    exact h entry.1 entry.2 (get?_eq_some_iff.mpr hentry)

/-- Where each value converts after a list of checks, all values convert after all checks, in
order. -/
theorem traverse_eq_forM {ι : Type} {f : String → α → Except ε β} {items : String → α → List ι}
    {check : ι → Except ε Unit} {convert : String → α → β}
    (h : ∀ key a, f key a = (items key a).forM check >>= fun _ => .ok (convert key a))
    (m : Keyed α) :
    m.traverse f = (m.entries.flatMap fun entry => items entry.1 entry.2).forM check >>= fun _ =>
      .ok (m.mapValues convert) := by
  have hentries : ∀ entries : List (String × α), traverseEntries f entries =
      (entries.flatMap fun entry => items entry.1 entry.2).forM check >>= fun _ =>
        .ok (entries.map fun entry => (entry.1, convert entry.1 entry.2)) := by
    intro entries
    induction entries with
    | nil => rfl
    | cons entry rest ih =>
      have hsplit : ((entry :: rest).flatMap fun entry => items entry.1 entry.2).forM check =
          (items entry.1 entry.2).forM check >>= fun _ =>
            (rest.flatMap fun entry => items entry.1 entry.2).forM check := by
        rw [List.flatMap_cons]
        exact List.forM_append
      rw [traverseEntries, h, ih, hsplit]
      cases (items entry.1 entry.2).forM check with
      | error e => rfl
      | ok done =>
        cases (rest.flatMap fun entry => items entry.1 entry.2).forM check <;> rfl
  have hm := hentries m.entries
  cases hchecks : (m.entries.flatMap fun entry => items entry.1 entry.2).forM check with
  | error e =>
    rw [hchecks] at hm
    exact traverse_eq_error_iff.mpr hm
  | ok done =>
    rw [hchecks] at hm
    exact traverse_eq_ok_iff.mpr hm

/-- It is the same to change the values before they are checked or after. -/
theorem traverse_mapValues {γ δ : Type} {f : String → α → Except ε γ} {g : String → β → Except ε δ}
    {before : String → α → β} {after : String → γ → δ}
    (h : ∀ key a, g key (before key a) = (f key a).map (after key)) (m : Keyed α) :
    (m.mapValues before).traverse g = (m.traverse f).map fun n => n.mapValues after := by
  have hentries : ∀ entries : List (String × α),
      traverseEntries g (entries.map fun entry => (entry.1, before entry.1 entry.2)) =
        (traverseEntries f entries).map (List.map fun entry => (entry.1, after entry.1 entry.2)) := by
    intro entries
    induction entries with
    | nil => rfl
    | cons entry rest ih =>
      simp only [List.map_cons, traverseEntries, h, ih]
      cases f entry.1 entry.2 with
      | error e => rfl
      | ok c => cases traverseEntries f rest <;> rfl
  cases hm : m.traverse f with
  | error e =>
    refine traverse_eq_error_iff.mpr ((hentries m.entries).trans ?_)
    rw [traverse_eq_error_iff.mp hm]
    rfl
  | ok n =>
    refine traverse_eq_ok_iff.mpr ((hentries m.entries).trans ?_)
    rw [traverse_eq_ok_iff.mp hm]
    rfl

end Keyed

end GraphSchema

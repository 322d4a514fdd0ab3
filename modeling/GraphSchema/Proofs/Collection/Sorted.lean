/-
  GraphSchema.Proofs.Collection.Sorted — what sorting by a text key keeps.

  Elements under distinct keys are all kept (`mem_sortOn_iff`), so a sorted list is
  searched by key with the same result as the list it was made from (`find?_sortOn`), and
  the order of that list does not matter (`sortOn_eq_of_perm`). Of several entries under one
  key the last is found (`lookup_sortOn`), and what is found under each key is all there is
  to sorted entries (`eq_of_lookup`).
-/

import GraphSchema.Collection.Keyed
import GraphSchema.Collection.Sorted
import Mathlib.Data.List.Nodup
import Mathlib.Data.List.Perm.Basic

namespace GraphSchema

variable {α : Type} {key : α → String}

theorem mem_insertOn_self (a : α) (as : List α) : a ∈ insertOn key a as := by
  induction as with
  | nil => simp [insertOn]
  | cons b rest ih =>
    simp only [insertOn]
    split
    · simp
    · split
      · simp
      · simp [ih]

theorem mem_insertOn_of_ne {a x : α} {as : List α} (h : x ∈ as) (hne : key x ≠ key a) :
    x ∈ insertOn key a as := by
  induction as with
  | nil => cases h
  | cons b rest ih =>
    simp only [insertOn]
    split
    · rename_i hk
      rcases List.mem_cons.mp h with rfl | h
      · exact absurd hk.symm hne
      · exact List.mem_cons_of_mem a h
    · split
      · exact List.mem_cons_of_mem a h
      · rcases List.mem_cons.mp h with rfl | h
        · exact List.mem_cons_self ..
        · exact List.mem_cons_of_mem b (ih h)

theorem mem_foldl_insertOn {as sorted : List α} {x : α}
    (h : x ∈ as.foldl (fun sorted a => insertOn key a sorted) sorted) : x ∈ as ∨ x ∈ sorted := by
  induction as generalizing sorted with
  | nil => exact Or.inr h
  | cons a rest ih =>
    rcases ih h with h | h
    · exact Or.inl (List.mem_cons_of_mem a h)
    · rcases mem_insertOn h with rfl | h
      · exact Or.inl (List.mem_cons_self ..)
      · exact Or.inr h

theorem mem_foldl_insertOn_of_fresh {as sorted : List α} {x : α} (h : x ∈ sorted)
    (hfresh : key x ∉ as.map key) :
    x ∈ as.foldl (fun sorted a => insertOn key a sorted) sorted := by
  induction as generalizing sorted with
  | nil => exact h
  | cons a rest ih =>
    simp only [List.map_cons, List.mem_cons, not_or] at hfresh
    exact ih (mem_insertOn_of_ne h hfresh.1) hfresh.2

theorem mem_foldl_insertOn_of_mem {as : List α} (hnd : (as.map key).Nodup) {sorted : List α} {x : α}
    (h : x ∈ as) : x ∈ as.foldl (fun sorted a => insertOn key a sorted) sorted := by
  induction as generalizing sorted with
  | nil => cases h
  | cons a rest ih =>
    rw [List.map_cons, List.nodup_cons] at hnd
    rcases List.mem_cons.mp h with rfl | h
    · rw [List.foldl_cons]
      exact mem_foldl_insertOn_of_fresh (mem_insertOn_self x sorted) hnd.1
    · exact ih hnd.2 h

theorem mem_of_mem_sortOn {as : List α} {x : α} (h : x ∈ sortOn key as) : x ∈ as := by
  rcases mem_foldl_insertOn h with h | h
  · exact h
  · cases h

theorem mem_sortOn_iff {as : List α} (hnd : (as.map key).Nodup) {x : α} :
    x ∈ sortOn key as ↔ x ∈ as :=
  ⟨mem_of_mem_sortOn, mem_foldl_insertOn_of_mem hnd⟩

/-! ## Searching -/

theorem find?_key_eq_some_iff {as : List α} (hnd : (as.map key).Nodup) {k : String} {a : α} :
    as.find? (fun x => key x == k) = some a ↔ a ∈ as ∧ key a = k := by
  induction as with
  | nil => simp
  | cons b rest ih =>
    rw [List.map_cons, List.nodup_cons] at hnd
    rw [List.find?_cons]
    by_cases hb : key b = k
    · simp only [hb, beq_self_eq_true, Option.some.injEq, List.mem_cons]
      constructor
      · intro heq
        exact ⟨Or.inl heq.symm, heq ▸ hb⟩
      · intro h
        obtain ⟨hmem, hak⟩ := h
        rcases hmem with heq | ha
        · exact heq.symm
        · exact absurd (List.mem_map.mpr ⟨a, ha, hak.trans hb.symm⟩) hnd.1
    · have hne : (key b == k) = false := by simp [hb]
      simp only [hne, ih hnd.2, List.mem_cons]
      constructor
      · intro h
        obtain ⟨ha, hak⟩ := h
        exact ⟨Or.inr ha, hak⟩
      · intro h
        obtain ⟨hmem, hak⟩ := h
        rcases hmem with heq | ha
        · exact absurd (heq ▸ hak) hb
        · exact ⟨ha, hak⟩

/-- Two orders of elements under distinct keys are searched with the same result. -/
theorem find?_key_perm {as bs : List α} (hnd : (as.map key).Nodup) (h : as.Perm bs) (k : String) :
    as.find? (fun x => key x == k) = bs.find? fun x => key x == k := by
  have hndOther : (bs.map key).Nodup := (h.map key).nodup_iff.mp hnd
  apply Option.ext
  intro a
  rw [find?_key_eq_some_iff hnd, find?_key_eq_some_iff hndOther, h.mem_iff]

theorem nodup_of_increasing {as : List α} (h : as.Pairwise fun x y => key x < key y) :
    (as.map key).Nodup := by
  rw [List.nodup_iff_pairwise_ne, List.pairwise_map]
  refine h.imp fun {x y} hlt heq => ?_
  rw [heq] at hlt
  exact String.lt_irrefl _ hlt

theorem nodup_map_sortOn (as : List α) : ((sortOn key as).map key).Nodup :=
  nodup_of_increasing (pairwise_sortOn key as)

theorem perm_sortOn {as : List α} (hnd : (as.map key).Nodup) : (sortOn key as).Perm as := by
  rw [List.perm_ext_iff_of_nodup (List.Nodup.of_map key (nodup_map_sortOn as))
    (List.Nodup.of_map key hnd)]
  exact fun a => mem_sortOn_iff hnd

theorem eq_of_increasing_of_perm {as bs : List α} (has : as.Pairwise fun x y => key x < key y)
    (hbs : bs.Pairwise fun x y => key x < key y) (h : as.Perm bs) : as = bs := by
  refine List.Perm.eq_of_pairwise (fun a b _ _ hab hba => ?_) has hbs h
  exact absurd (String.lt_trans hab hba) (String.lt_irrefl _)

theorem sortOn_of_increasing {as : List α} (h : as.Pairwise fun x y => key x < key y) :
    sortOn key as = as :=
  eq_of_increasing_of_perm (pairwise_sortOn key as) h (perm_sortOn (nodup_of_increasing h))

/-- Elements under distinct keys are sorted alike, in whatever order they come. -/
theorem sortOn_eq_of_perm {as bs : List α} (hnd : (as.map key).Nodup) (h : as.Perm bs) :
    sortOn key as = sortOn key bs := by
  have hndOther : (bs.map key).Nodup := (h.map key).nodup_iff.mp hnd
  exact eq_of_increasing_of_perm (pairwise_sortOn key as) (pairwise_sortOn key bs)
    ((perm_sortOn hnd).trans (h.trans (perm_sortOn hndOther).symm))

/-- Elements may be changed before or after they are sorted, if they keep their keys. -/
theorem sortOn_map {β : Type} {keyAfter : β → String} {f : α → β}
    (hkey : ∀ a, keyAfter (f a) = key a) (as : List α) :
    sortOn keyAfter (as.map f) = (sortOn key as).map f := by
  have hinsert : ∀ (a : α) (sorted : List α),
      insertOn keyAfter (f a) (sorted.map f) = (insertOn key a sorted).map f := by
    intro a sorted
    induction sorted with
    | nil => rfl
    | cons b rest ih =>
      simp only [List.map_cons, insertOn, hkey, ih]
      split
      · rfl
      · split <;> rfl
  have hfold : ∀ sorted : List α,
      (as.map f).foldl (fun sorted a => insertOn keyAfter a sorted) (sorted.map f) =
        (as.foldl (fun sorted a => insertOn key a sorted) sorted).map f := by
    induction as with
    | nil => exact fun _ => rfl
    | cons a rest ih =>
      intro sorted
      rw [List.map_cons, List.foldl_cons, List.foldl_cons, hinsert, ih]
  exact hfold []

/-- Sorting does not change what is found under a key. -/
theorem find?_sortOn {as : List α} (hnd : (as.map key).Nodup) (k : String) :
    (sortOn key as).find? (fun x => key x == k) = as.find? fun x => key x == k := by
  apply Option.ext
  intro a
  rw [find?_key_eq_some_iff (nodup_map_sortOn as), find?_key_eq_some_iff hnd, mem_sortOn_iff hnd]

/-! ## Entries -/

theorem exists_lookup_iff {entries : List (String × α)} {name : String} :
    (∃ a, entries.lookup name = some a) ↔ name ∈ entries.map Prod.fst := by
  rw [← Option.isSome_iff_exists, Keyed.lookup_isSome_iff]

theorem lookup_eq_none_iff {entries : List (String × α)} {name : String} :
    entries.lookup name = none ↔ name ∉ entries.map Prod.fst := by
  rw [← exists_lookup_iff, Option.eq_none_iff_forall_ne_some, not_exists]

theorem mem_of_lookup {entries : List (String × α)} {name : String} {a : α}
    (h : entries.lookup name = some a) : (name, a) ∈ entries := by
  obtain ⟨before, after, rfl, _⟩ := List.lookup_eq_some_iff.mp h
  exact List.mem_append_right before (List.mem_cons_self ..)

theorem lookup_insertOn (entry : String × α) (entries : List (String × α)) (name : String) :
    (insertOn Prod.fst entry entries).lookup name = (entry :: entries).lookup name := by
  induction entries with
  | nil => rfl
  | cons first rest ih =>
    simp only [insertOn]
    split
    · rename_i heq
      simp only [Keyed.lookup_entry, heq]
      split <;> rfl
    · rename_i hne
      split
      · rfl
      · simp only [Keyed.lookup_entry, ih]
        split
        · rename_i hfirst
          rw [if_neg fun hentry => hne (hentry.symm.trans hfirst)]
        · rfl

theorem lookup_foldl_insertOn (entries sorted : List (String × α)) (name : String) :
    (entries.foldl (fun sorted entry => insertOn Prod.fst entry sorted) sorted).lookup name =
      (entries.reverse ++ sorted).lookup name := by
  induction entries generalizing sorted with
  | nil => rfl
  | cons entry rest ih =>
    rw [List.foldl_cons, ih, List.lookup_append, lookup_insertOn, ← List.lookup_append,
      List.reverse_cons, List.append_assoc]
    rfl

/-- Of several entries under one key the last counts. -/
theorem lookup_sortOn (entries : List (String × α)) (name : String) :
    (sortOn Prod.fst entries).lookup name = entries.reverse.lookup name := by
  rw [sortOn, lookup_foldl_insertOn, List.append_nil]

theorem lookup_sortOn_of_nodup {entries : List (String × α)} (hnd : (entries.map Prod.fst).Nodup)
    (name : String) : (sortOn Prod.fst entries).lookup name = entries.lookup name := by
  apply Option.ext
  intro a
  rw [Keyed.lookup_eq_some_iff_mem (nodup_map_sortOn entries), Keyed.lookup_eq_some_iff_mem hnd,
    mem_sortOn_iff hnd]

theorem eq_of_lookup {as bs : List (String × α)} (has : as.Pairwise fun x y => x.1 < y.1)
    (hbs : bs.Pairwise fun x y => x.1 < y.1) (h : ∀ name, as.lookup name = bs.lookup name) :
    as = bs := by
  have hnd := nodup_of_increasing has
  have hndOther := nodup_of_increasing hbs
  refine eq_of_increasing_of_perm has hbs ?_
  rw [List.perm_ext_iff_of_nodup (List.Nodup.of_map _ hnd) (List.Nodup.of_map _ hndOther)]
  intro entry
  rw [← Keyed.lookup_eq_some_iff_mem hnd, ← Keyed.lookup_eq_some_iff_mem hndOther, h]

namespace SortedMap

theorem get?_insert (m : SortedMap α) (name other : String) (a : α) :
    (m.insert name a).get? other = if other = name then some a else m.get? other :=
  (lookup_insertOn (name, a) m.entries other).trans (Keyed.lookup_entry ..)

theorem ofList_entries (m : SortedMap α) : ofList m.entries = m :=
  ext_entries (sortOn_of_increasing m.sorted)

end SortedMap

end GraphSchema

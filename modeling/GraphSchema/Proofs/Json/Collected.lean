/-
  GraphSchema.Proofs.Json.Collected — arrays and objects made part by part.

  What is converted part by part comes to an array with a value for each item, or to the
  members of an object. Entries may repeat a name, members do not: an object collects from
  entries one member for each of their names, and the member stands for the last entry of its
  name (`Json.Collects`). What a part stands for is a relation here, which need not be a
  function; where it leaves no choice for any part, it leaves none for the whole
  (`eq_of_forall₂`, `Collects.unique`).
-/

import GraphSchema.Json.Basic
import GraphSchema.Proofs.Collection.Sorted
import Mathlib.Data.List.Forall2

namespace GraphSchema

variable {α β : Type}

theorem exists_forall₂ {R : α → β → Prop} {as : List α} (h : ∀ a ∈ as, ∃ b, R a b) :
    ∃ bs, List.Forall₂ R as bs := by
  induction as with
  | nil => exact ⟨[], .nil⟩
  | cons a rest ih =>
    rw [List.forall_mem_cons] at h
    obtain ⟨b, hb⟩ := h.1
    obtain ⟨bs, hbs⟩ := ih h.2
    exact ⟨b :: bs, .cons hb hbs⟩

theorem eq_of_forall₂ {R : α → β → Prop} {as : List α} {bs cs : List β}
    (hunique : ∀ a ∈ as, ∀ b c, R a b → R a c → b = c) (hbs : List.Forall₂ R as bs)
    (hcs : List.Forall₂ R as cs) : bs = cs := by
  induction hbs generalizing cs with
  | nil =>
    cases hcs
    rfl
  | cons hfirst _ ih =>
    rw [List.forall_mem_cons] at hunique
    cases hcs with
    | cons hother hrest => rw [hunique.1 _ _ hfirst hother, ih hunique.2 hrest]

namespace Json

variable {R S : α → Json → Prop} {entries : List (String × α)} {members : List (String × Json)}

/-- A member for each entry, under its name. -/
def Pairs (R : α → Json → Prop) : List (String × α) → List (String × Json) → Prop :=
  List.Forall₂ fun entry member => member.1 = entry.1 ∧ R entry.2 member.2

/-- Sorted members, one for each name among the entries, that stand for the last entries of
their names. -/
structure Collects (R : α → Json → Prop) (entries : List (String × α))
    (members : List (String × Json)) : Prop where
  increasing : members.Pairwise fun x y => x.1 < y.1
  names : ∀ name, name ∈ members.map Prod.fst ↔ name ∈ entries.map Prod.fst
  values : ∀ name a value, entries.reverse.lookup name = some a →
    members.lookup name = some value → R a value

theorem exists_pairs (h : ∀ entry ∈ entries, ∃ value, R entry.2 value) :
    ∃ members, Pairs R entries members := by
  refine exists_forall₂ fun entry hentry => ?_
  obtain ⟨value, hvalue⟩ := h entry hentry
  exact ⟨(entry.1, value), rfl, hvalue⟩

namespace Pairs

theorem imp (h : Pairs R entries members) (himp : ∀ a value, R a value → S a value) :
    Pairs S entries members :=
  List.Forall₂.imp (fun _ _ hpair => ⟨hpair.1, himp _ _ hpair.2⟩) h

theorem names (h : Pairs R entries members) : members.map Prod.fst = entries.map Prod.fst := by
  induction h with
  | nil => rfl
  | cons hfirst _ ih => rw [List.map_cons, List.map_cons, hfirst.1, ih]

theorem of_lookup (h : Pairs R entries members) {name : String} {a : α} {value : Json}
    (ha : entries.lookup name = some a) (hvalue : members.lookup name = some value) :
    R a value := by
  induction h with
  | nil => cases ha
  | cons hfirst _ ih =>
    rw [Keyed.lookup_entry] at ha hvalue
    rw [hfirst.1] at hvalue
    split at ha
    · rename_i heq
      rw [if_pos heq] at hvalue
      cases ha
      cases hvalue
      exact hfirst.2
    · rename_i hne
      rw [if_neg hne] at hvalue
      exact ih ha hvalue

/-- Sorting collects. -/
theorem collects (h : Pairs R entries members) :
    Collects R entries (sortOn Prod.fst members) where
  increasing := pairwise_sortOn Prod.fst members
  names name := by
    rw [← exists_lookup_iff, lookup_sortOn, exists_lookup_iff, List.map_reverse,
      List.mem_reverse, h.names]
  values name a value ha hvalue := by
    rw [lookup_sortOn] at hvalue
    have hreverse : Pairs R entries.reverse members.reverse := List.forall₂_reverse_iff.mpr h
    exact hreverse.of_lookup ha hvalue

end Pairs

theorem Collects.unique {others : List (String × Json)}
    (hunique : ∀ entry ∈ entries, ∀ value other, R entry.2 value → R entry.2 other → value = other)
    (h : Collects R entries members) (hothers : Collects R entries others) : members = others := by
  refine eq_of_lookup h.increasing hothers.increasing fun name => ?_
  cases hlast : entries.reverse.lookup name with
  | none =>
    rw [lookup_eq_none_iff, List.map_reverse, List.mem_reverse] at hlast
    rw [lookup_eq_none_iff.mpr fun hmem => hlast ((h.names name).mp hmem),
      lookup_eq_none_iff.mpr fun hmem => hlast ((hothers.names name).mp hmem)]
  | some a =>
    have hentry : (name, a) ∈ entries := List.mem_reverse.mp (mem_of_lookup hlast)
    have hname : name ∈ entries.map Prod.fst := List.mem_map.mpr ⟨_, hentry, rfl⟩
    obtain ⟨value, hvalue⟩ := exists_lookup_iff.mpr ((h.names name).mpr hname)
    obtain ⟨other, hother⟩ := exists_lookup_iff.mpr ((hothers.names name).mpr hname)
    rw [hvalue, hother, hunique _ hentry value other (h.values _ _ _ hlast hvalue)
      (hothers.values _ _ _ hlast hother)]

end Json

end GraphSchema

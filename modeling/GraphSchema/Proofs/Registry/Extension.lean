/-
  GraphSchema.Proofs.Registry.Extension — one more type in a registry.

  A type that is registered comes last, under a name that was free, and fields that are
  then added to it are kept apart from those of other types (`extends_of_calls`). So all
  that was registered is found as before (`Extends.get?_eq_of_get?`), and the kind table
  knows it still (`Extends.kindTable_within`).
-/

import GraphSchema.Proofs.Schema.Phases
import GraphSchema.Proofs.Types.Agreement

namespace GraphSchema

namespace TypeRegistry

/-- The registry with one more entry, and whatever fields were added to that one. -/
structure Extends (extended registry : TypeRegistry) (name : String) (entry : Registered) :
    Prop where
  free : registry.entries.get? name = none
  entries : extended.entries = registry.entries.insert name entry
  added : ∀ key, key ≠ name → extended.addedTo key = registry.addedTo key

variable {registry registered extended : TypeRegistry} {name : String} {entry : Registered}

/-! ## Calls -/

/-- A call that gives a reference to a type has registered it. -/
theorem extends_of_apply {call : Registration}
    (h : call.apply registry = .ok (registered, some (.named name))) :
    ∃ entry, registered.Extends registry name entry := by
  generalize hreference : some (TypeRef.named name) = reference at h
  have heffect := Registration.effect_of_apply h
  cases heffect with
  | registered entry _ _ hfree =>
    cases hreference
    exact ⟨entry, by simpa [contains, Keyed.contains] using hfree, rfl, fun _ _ => rfl⟩
  | addedField _ _ _ _ _ _ _ => cases hreference

/-- Adding a field, or being refused to, changes only what is added to that type. -/
theorem Extends.addField (h : extended.Extends registry name entry) (field : String)
    (config : FieldConfig) :
    ((Registration.addField name field config).after extended).Extends registry name entry := by
  unfold Registration.after
  split
  · rename_i after _ hafter
    obtain ⟨next, hnext, heq⟩ := map_eq_ok_iff.mp hafter
    cases heq
    unfold TypeRegistry.addField at hnext
    split at hnext
    · cases hnext
    · split at hnext
      · obtain ⟨_, _, heq⟩ := bind_eq_ok_iff.mp hnext
        cases heq
        refine ⟨h.free, h.entries, ?_⟩
        intro key hkey
        rw [← h.added key hkey]
        simp only [addedTo, Keyed.get?_insert, if_neg hkey]
      · cases hnext
  · exact h

/-- Any type, registered with any fields added to it. -/
theorem extends_of_calls {call : Registration}
    (h : call.apply registry = .ok (registered, some (.named name)))
    (fields : List (String × FieldConfig)) :
    ∃ entry, (registered.run (fields.map fun field => .addField name field.1 field.2)).Extends
      registry name entry := by
  obtain ⟨entry, hregistered⟩ := extends_of_apply h
  refine ⟨entry, ?_⟩
  clear h
  induction fields generalizing registered with
  | nil => exact hregistered
  | cons field rest ih => exact ih (hregistered.addField field.1 field.2)

/-! ## Lookups -/

namespace Extends

variable (h : extended.Extends registry name entry)
include h

theorem entries_eq : extended.entries.entries = registry.entries.entries ++ [(name, entry)] := by
  rw [h.entries]
  exact Keyed.entries_insert_of_get?_eq_none h.free entry

theorem get?_self : extended.entries.get? name = some entry := by
  rw [h.entries, Keyed.get?_insert, if_pos rfl]

theorem get?_of_ne {key : String} (hkey : key ≠ name) :
    extended.entries.get? key = registry.entries.get? key := by
  rw [h.entries, Keyed.get?_insert, if_neg hkey]

theorem ne_of_get? {key : String} {other : Registered}
    (hother : registry.entries.get? key = some other) : key ≠ name := by
  intro heq
  rw [heq, h.free] at hother
  cases hother

theorem get?_of_get? {key : String} {other : Registered}
    (hother : registry.entries.get? key = some other) :
    extended.entries.get? key = some other := by
  rw [h.get?_of_ne (h.ne_of_get? hother), hother]

theorem kindTable_within : registry.kindTable.Within extended.kindTable := by
  intro key kind hkind
  rw [named?_kindTable, Option.map_eq_some_iff] at hkind ⊢
  obtain ⟨other, hother, hsame⟩ := hkind
  exact ⟨other, h.get?_of_get? hother, hsame⟩

/-- The kind table learns of nothing but the new name. -/
theorem named?_of_ne {key : String} (hkey : key ≠ name) :
    extended.kindTable.named? key = registry.kindTable.named? key := by
  rw [named?_kindTable, named?_kindTable, h.get?_of_ne hkey]

end Extends

end TypeRegistry

end GraphSchema

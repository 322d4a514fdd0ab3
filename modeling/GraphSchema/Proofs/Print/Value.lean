/-
  GraphSchema.Proofs.Print.Value — a default value is read in one way only.

  Values are printed as their JSON text is, but for a space behind each separator and for the
  names of members, which stand without quotes. A valid name ends at the colon and does not
  look like the end of an object, so what tells a JSON text apart tells a printed value apart.
  - `value_inj`: values with valid names that are printed alike are one value, floating
    numbers included, down to the sign of a zero; so are default values (`defaultValue_inj`).
-/

import GraphSchema.Proofs.Json.Text
import GraphSchema.Proofs.Print.Parts

namespace GraphSchema

namespace Sdl

open Json (Named)

theorem values_eq (items : List Json) : values items = joinWith ", " (items.map value) :=
  eq_joinWith rfl (fun _ => rfl) (fun _ _ _ => rfl) items

theorem entries_eq (members : List (String × Json)) :
    entries members = joinWith ", " (members.map fun m => m.1 ++ (": " ++ value m.2)) := by
  refine eq_joinWith rfl (fun m => String.append_assoc) (fun m next rest => ?_) members
  exact congrArg (fun member => member ++ ", " ++ entries (next :: rest)) String.append_assoc

theorem value_spells : Json.Spells value " " id where
  leaf item hleaf := by
    cases item with
    | array _ => cases hleaf
    | object _ => cases hleaf
    | _ => rfl
  array items := by rw [value, values_eq]; rfl
  object members := by rw [value, entries_eq]; rfl

theorem exists_cons_of_isValidName {name : String} (h : isValidName name = true) :
    ∃ c rest, name.toList = c :: rest ∧ c ≠ '\x7d' := by
  cases hname : name.toList with
  | nil =>
    rw [isValidName, hname] at h
    cases h
  | cons c rest =>
    have hc : isNameRest c = true :=
      isNameRest_of_isValidName h c (hname ▸ List.mem_cons_self ..)
    refine ⟨c, rest, rfl, fun hbrace => ?_⟩
    rw [hbrace] at hc
    exact absurd hc (by decide)

theorem tells_value :
    Tells (Named fun name => isValidName name = true) value id (StopsAt isNumeric) :=
  value_spells.tells (tells_name.mono fun _ hx => stopsAt_of_prefix hx (by decide))
    fun _ => exists_cons_of_isValidName

theorem eq_of_value_eq {a b : Json} (ha : a.Named fun name => isValidName name = true)
    (hb : b.Named fun name => isValidName name = true) (h : value a = value b) : a = b :=
  (tells_value ha hb (stopsAt_nil _) (stopsAt_nil _)
    (congrArg (fun text => text.toList ++ []) h)).1

/-- Values with valid names are printed alike only if they are one value. -/
theorem value_inj {a b : Json} (ha : a.Named fun name => isValidName name = true)
    (hb : b.Named fun name => isValidName name = true) : value a = value b ↔ a = b :=
  ⟨eq_of_value_eq ha hb, congrArg value⟩

def oneTag : Json := .object [("limit", .int 10), ("tags", .array [.string "a, b: c"])]

def twoTags : Json := .object [("limit", .int 10), ("tags", .array [.string "a", .string "b: c"])]

theorem tags_named : (oneTag.Named fun name => isValidName name = true) ∧
    twoTags.Named fun name => isValidName name = true := by
  have hnames : isValidName "limit" = true ∧ isValidName "tags" = true := by decide
  have hint : ∀ n, (Json.int n).Named fun name => isValidName name = true :=
    fun _ => Json.named_leaf rfl
  have hstring : ∀ text, (Json.string text).Named fun name => isValidName name = true :=
    fun _ => Json.named_leaf rfl
  simp [oneTag, twoTags, Json.named_object_iff, Json.named_array_iff, hnames, hint, hstring]

/-- A comma in a text is not one between two. -/
theorem tags_told : (oneTag.Named fun name => isValidName name = true) ∧
    (twoTags.Named fun name => isValidName name = true) ∧
    value oneTag = "\x7blimit: 10, tags: [\"a, b: c\"]\x7d" ∧ value oneTag ≠ value twoTags := by
  refine ⟨tags_named.1, tags_named.2, by decide +kernel, fun h => ?_⟩
  have hsame := (value_inj tags_named.1 tags_named.2).mp h
  simp [oneTag, twoTags] at hsame

/-- So are default values, also where there is none. -/
theorem defaultValue_inj {a b : Option Json}
    (ha : ∀ item ∈ a, item.Named fun name => isValidName name = true)
    (hb : ∀ item ∈ b, item.Named fun name => isValidName name = true) :
    defaultValue a = defaultValue b ↔ a = b := by
  refine ⟨fun h => ?_, congrArg defaultValue⟩
  have htext := congrArg String.toList h
  cases a with
  | none =>
    cases b with
    | none => rfl
    | some item => simp [defaultValue] at htext
  | some item =>
    cases b with
    | none => simp [defaultValue] at htext
    | some other =>
      simp only [defaultValue, String.toList_append, List.append_cancel_left_eq] at htext
      exact congrArg some (eq_of_value_eq (ha item rfl) (hb other rfl) (String.toList_inj.mp htext))

end Sdl

end GraphSchema

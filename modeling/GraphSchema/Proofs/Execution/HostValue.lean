/-
  GraphSchema.Proofs.Execution.HostValue — which data of a host has a value, and which value.

  Data is refused for one thing alone: a map, at whatever depth, with a key without a text
  (`KeyWithoutText`, `toJson_eq_error_iff`). All other data has the value that mirrors it
  (`Mirrors`, `toJson_eq_ok_iff`): an array has the items of the list in turn, an object one
  member for each text that is a key's, which mirrors the last entry under such a key. A
  floating number that is not finite (`NotFinite`) is no reason to refuse unless it is a key,
  and the value has a null in its place, so that what was written cannot be told from a null
  there.
-/

import GraphSchema.Execution.Context
import GraphSchema.Proofs.Json.Collected

namespace GraphSchema

namespace HostValue

/-! ## Induction on data -/

/-- The data has neither items nor entries. -/
def isLeaf : HostValue → Bool
  | list _ | map _ => false
  | _ => true

theorem sizeOf_item_lt {item : HostValue} {items : List HostValue} (h : item ∈ items) :
    sizeOf item < sizeOf (list items) := by
  have := List.sizeOf_lt_of_mem h
  rw [list.sizeOf_spec]
  omega

theorem sizeOf_entry_lt {key : HostKey} {item : HostValue} {entries : List (HostKey × HostValue)}
    (h : (key, item) ∈ entries) : sizeOf item < sizeOf (map entries) := by
  have := List.sizeOf_lt_of_mem h
  rw [map.sizeOf_spec]
  rw [Prod.mk.sizeOf_spec] at this
  omega

/-- From the items to the list, from the entries to the map. -/
@[elab_as_elim]
theorem inductionOn {motive : HostValue → Prop}
    (leaf : ∀ value, value.isLeaf = true → motive value)
    (list : ∀ items, (∀ item ∈ items, motive item) → motive (.list items))
    (map : ∀ entries, (∀ key item, (key, item) ∈ entries → motive item) → motive (.map entries))
    (value : HostValue) : motive value :=
  match value with
  | .list items => list items fun item _ => inductionOn leaf list map item
  | .map entries => map entries fun _ item _ => inductionOn leaf list map item
  | .json _ => leaf _ rfl
  | .float _ => leaf _ rfl
termination_by sizeOf value
decreasing_by
  · exact sizeOf_item_lt ‹_›
  · exact sizeOf_entry_lt ‹_›

/-! ## What stands inside -/

/-- The data itself, or something inside an item or an entry of it. -/
inductive Inside (inner : HostValue) : HostValue → Prop
  | self : Inside inner inner
  | item {item : HostValue} {items : List HostValue} : item ∈ items → Inside inner item →
      Inside inner (.list items)
  | entry {key : HostKey} {item : HostValue} {entries : List (HostKey × HostValue)} :
      (key, item) ∈ entries → Inside inner item → Inside inner (.map entries)

/-- A map somewhere inside has a key without a text. -/
def KeyWithoutText (value : HostValue) : Prop :=
  ∃ entries key item, Inside (.map entries) value ∧ (key, item) ∈ entries ∧ key.text? = none

/-- A number that is not finite stands somewhere inside, and not as a key. -/
def NotFinite (value : HostValue) : Prop := ∃ x, Inside (.float x) value ∧ x.finite? = none

theorem KeyWithoutText.of_inside {inner value : HostValue} (h : inner.KeyWithoutText)
    (hinside : Inside inner value) : value.KeyWithoutText := by
  obtain ⟨entries, key, item, hmap, hmem, hnone⟩ := h
  refine ⟨entries, key, item, ?_, hmem, hnone⟩
  induction hinside with
  | self => exact hmap
  | item hitem _ ih => exact .item hitem ih
  | entry hentry _ ih => exact .entry hentry ih

/-! ## The value that mirrors data -/

/-- The entries of a map under the texts of their keys. -/
def named (entries : List (HostKey × HostValue)) : List (String × HostValue) :=
  entries.filterMap fun entry => entry.1.text?.map fun key => (key, entry.2)

inductive Mirrors : HostValue → Json → Prop
  | json (value : Json) : Mirrors (.json value) value
  | float (value : Double) : Mirrors (.float (.finite value)) (.float value)
  | notFinite {value : Binary64} : value.finite? = none → Mirrors (.float value) .null
  | list {items : List HostValue} {values : List Json} : List.Forall₂ Mirrors items values →
      Mirrors (.list items) (.array values)
  /-- Sorted members under the texts of the keys; each mirrors the last entry under its key. -/
  | map {entries : List (HostKey × HostValue)} {members : List (String × Json)} :
      members.Pairwise (fun x y => x.1 < y.1) →
      (∀ name, name ∈ members.map Prod.fst ↔ name ∈ (named entries).map Prod.fst) →
      (∀ name item value, (named entries).reverse.lookup name = some item →
        members.lookup name = some value → Mirrors item value) →
      Mirrors (.map entries) (.object members)

theorem mirrors_map_iff {entries : List (HostKey × HostValue)} {members : List (String × Json)} :
    Mirrors (.map entries) (.object members) ↔ Json.Collects Mirrors (named entries) members := by
  constructor
  · intro h
    cases h with
    | map hincreasing hnames hvalues => exact ⟨hincreasing, hnames, hvalues⟩
  · exact fun h => .map h.increasing h.names h.values

theorem exists_entry_of_named {entries : List (HostKey × HostValue)} {entry : String × HostValue}
    (h : entry ∈ named entries) : ∃ key, (key, entry.2) ∈ entries := by
  obtain ⟨place, hplace, htext⟩ := List.mem_filterMap.mp h
  obtain ⟨key, _, rfl⟩ := Option.map_eq_some_iff.mp htext
  exact ⟨place.1, hplace⟩

theorem Mirrors.unique {value : HostValue} {json other : Json} (h : value.Mirrors json)
    (hother : value.Mirrors other) : json = other := by
  induction value using inductionOn generalizing json other with
  | leaf value hleaf =>
    cases h with
    | json _ =>
      cases hother
      rfl
    | float _ =>
      cases hother with
      | float _ => rfl
      | notFinite hnot => cases hnot
    | notFinite hnot =>
      cases hother with
      | float _ => cases hnot
      | notFinite _ => rfl
    | list _ => cases hleaf
    | map _ _ _ => cases hleaf
  | list items ih =>
    cases h with
    | list hvalues =>
      cases hother with
      | list hothers =>
        exact congrArg Json.array
          (eq_of_forall₂ (fun item hitem _ _ => ih item hitem) hvalues hothers)
  | map entries ih =>
    have hunique : ∀ entry ∈ named entries, ∀ json other,
        entry.2.Mirrors json → entry.2.Mirrors other → json = other := by
      intro entry hentry _ _
      obtain ⟨key, hkey⟩ := exists_entry_of_named hentry
      exact ih key entry.2 hkey
    cases json with
    | object members =>
      cases other with
      | object others =>
        exact congrArg Json.object
          ((mirrors_map_iff.mp h).unique hunique (mirrors_map_iff.mp hother))
      | _ => cases hother
    | _ => cases h

/-! ## Conversion -/

theorem itemsToJson_eq_ok_iff {items : List HostValue} {values : List Json} :
    itemsToJson items = .ok values ↔
      List.Forall₂ (fun item value => item.toJson = .ok value) items values := by
  induction items generalizing values with
  | nil => cases values <;> simp [itemsToJson]
  | cons item rest ih =>
    rw [itemsToJson]
    cases values with
    | nil => cases item.toJson <;> cases itemsToJson rest <;> simp
    | cons value values =>
      rw [List.forall₂_cons, ← ih]
      cases item.toJson <;> cases itemsToJson rest <;> simp

theorem entriesToJson_of_pairs {entries : List (HostKey × HostValue)}
    {members : List (String × Json)}
    (htext : ∀ key item, (key, item) ∈ entries → key.text? ≠ none)
    (h : Json.Pairs (fun item value => item.toJson = .ok value) (named entries) members) :
    entriesToJson entries = .ok members := by
  induction entries generalizing members with
  | nil =>
    cases h
    rfl
  | cons entry rest ih =>
    obtain ⟨key, item⟩ := entry
    cases hkey : key.text? with
    | none => exact absurd hkey (htext key item (List.mem_cons_self ..))
    | some name =>
      have hnamed : named ((key, item) :: rest) = (name, item) :: named rest := by
        simp only [named, List.filterMap_cons, hkey, Option.map_some]
      rw [hnamed] at h
      cases h with
      | @cons _ member _ others hfirst hrest =>
        have hname : member.1 = name := hfirst.1
        have hitem : item.toJson = .ok member.2 := hfirst.2
        have hothers : entriesToJson rest = .ok others :=
          ih (fun key item hmem => htext key item (List.mem_cons_of_mem _ hmem)) hrest
        simp only [entriesToJson, hkey, hitem, hothers, ← hname]

/-- Data whose keys all have a text is converted, and its value mirrors it. -/
theorem exists_mirrors {value : HostValue} (h : ¬ value.KeyWithoutText) :
    ∃ json, value.toJson = .ok json ∧ value.Mirrors json := by
  induction value using inductionOn with
  | leaf value hleaf =>
    cases value with
    | json value => exact ⟨value, rfl, .json value⟩
    | float value =>
      cases value with
      | finite value => exact ⟨_, rfl, .float value⟩
      | infinite _ => exact ⟨_, rfl, .notFinite rfl⟩
      | nan => exact ⟨_, rfl, .notFinite rfl⟩
    | list _ => cases hleaf
    | map _ => cases hleaf
  | list items ih =>
    obtain ⟨values, hvalues⟩ := exists_forall₂ fun item hitem =>
      ih item hitem fun hkey => h (hkey.of_inside (.item hitem .self))
    refine ⟨.array values, ?_, .list (hvalues.imp fun _ _ hvalue => hvalue.2)⟩
    rw [toJson, itemsToJson_eq_ok_iff.mpr (hvalues.imp fun _ _ hvalue => hvalue.1)]
  | map entries ih =>
    have htext : ∀ key item, (key, item) ∈ entries → key.text? ≠ none :=
      fun key item hmem hnone => h ⟨entries, key, item, .self, hmem, hnone⟩
    have heach : ∀ entry ∈ named entries, ∃ json,
        entry.2.toJson = .ok json ∧ entry.2.Mirrors json := by
      intro entry hentry
      obtain ⟨key, hkey⟩ := exists_entry_of_named hentry
      exact ih key entry.2 hkey fun hinner => h (hinner.of_inside (.entry hkey .self))
    obtain ⟨members, hmembers⟩ := Json.exists_pairs
      (R := fun (item : HostValue) json => item.toJson = .ok json ∧ item.Mirrors json) heach
    have hconverted : entriesToJson entries = .ok members :=
      entriesToJson_of_pairs htext (hmembers.imp fun _ _ hvalue => hvalue.1)
    refine ⟨Json.ofMembers members, ?_, ?_⟩
    · rw [toJson, hconverted]
    · exact mirrors_map_iff.mpr (hmembers.imp fun _ _ hvalue => hvalue.2).collects

theorem itemsToJson_eq_error {item : HostValue} {items : List HostValue} (h : item ∈ items)
    (hitem : item.toJson = .error .keyWithoutText) : itemsToJson items = .error .keyWithoutText := by
  induction items with
  | nil => cases h
  | cons first rest ih =>
    rw [itemsToJson]
    rcases List.mem_cons.mp h with rfl | hrest
    · rw [hitem]
    · rw [ih hrest]
      cases first.toJson with
      | error e => cases e; rfl
      | ok _ => rfl

/-- An entry that cannot be converted, for its key or for what it holds. -/
theorem entriesToJson_eq_error {key : HostKey} {item : HostValue}
    {entries : List (HostKey × HostValue)} (h : (key, item) ∈ entries)
    (hentry : key.text? = none ∨ item.toJson = .error .keyWithoutText) :
    entriesToJson entries = .error .keyWithoutText := by
  induction entries with
  | nil => cases h
  | cons first rest ih =>
    obtain ⟨other, value⟩ := first
    rw [entriesToJson]
    cases hother : other.text? with
    | none => rfl
    | some name =>
      rcases List.mem_cons.mp h with heq | hrest
      · cases heq
        rcases hentry with hkey | hitem
        · rw [hother] at hkey
          cases hkey
        · rw [hitem]
      · rw [ih hrest]
        cases value.toJson with
        | error e => cases e; rfl
        | ok _ => rfl

theorem toJson_eq_error {value : HostValue} (h : value.KeyWithoutText) :
    value.toJson = .error .keyWithoutText := by
  obtain ⟨entries, key, item, hinside, hmem, hnone⟩ := h
  induction hinside with
  | self => rw [toJson, entriesToJson_eq_error hmem (.inl hnone)]
  | item hitem _ ih => rw [toJson, itemsToJson_eq_error hitem ih]
  | entry hentry _ ih => rw [toJson, entriesToJson_eq_error hentry (.inr ih)]

theorem toJson_eq_ok_iff {value : HostValue} {json : Json} :
    value.toJson = .ok json ↔ ¬ value.KeyWithoutText ∧ value.Mirrors json := by
  constructor
  · intro h
    have hkey : ¬ value.KeyWithoutText := by
      intro hkey
      rw [toJson_eq_error hkey] at h
      cases h
    obtain ⟨found, hfound, hmirrors⟩ := exists_mirrors hkey
    cases h.symm.trans hfound
    exact ⟨hkey, hmirrors⟩
  · intro h
    obtain ⟨found, hfound, hmirrors⟩ := exists_mirrors h.1
    rw [hfound, hmirrors.unique h.2]

theorem toJson_eq_error_iff {value : HostValue} {e : EncodeError} :
    value.toJson = .error e ↔ value.KeyWithoutText := by
  cases e
  refine ⟨fun h => ?_, toJson_eq_error⟩
  by_contra hkey
  obtain ⟨json, hjson, _⟩ := exists_mirrors hkey
  rw [h] at hjson
  cases hjson

end HostValue

end GraphSchema

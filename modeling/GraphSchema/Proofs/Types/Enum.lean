/-
  GraphSchema.Proofs.Types.Enum — what the tables of an enum find.

  A table is filled value by value in the order of the names, so a key leads to the last
  value that has it (`get?_placesBy_eq_some_iff`). Names are distinct, and the last of
  several values is the one with the greatest name. So a name leads to its value
  (`value?_eq_some_iff`), and a runtime value, which its text tells, to the greatest name
  that stands for it (`serialize_eq_some_iff`).

  Where the values stand depends on their names alone. An enum declared in another order
  is therefore the same enum, also where several names stand for one internal value
  (`ofConfig_reordered`).
-/

import GraphSchema.Proofs.Json.Text
import GraphSchema.Proofs.Types.Building
import Mathlib.Data.List.FinRange
import Mathlib.Data.List.Pairwise

namespace GraphSchema

/-! ## Tables -/

theorem EnumValue.get?_placesBy_eq_some_iff {key : EnumValue → String} {values : List EnumValue}
    {k : String} {place : Fin values.length} :
    (placesBy key values).get? k = some place ↔
      key (values.get place) = k ∧ ∀ other, key (values.get other) = k → other ≤ place := by
  have increasing := List.pairwise_lt_finRange values.length
  rw [placesBy, Keyed.get?_ofList_eq_some_iff_last]
  constructor
  · intro h
    obtain ⟨before, after, split, last⟩ := h
    obtain ⟨earlier, rest, places, -, hrest⟩ := List.map_eq_append_iff.mp split
    obtain ⟨_, later, rfl, hplace, hlater⟩ := List.map_eq_cons_iff.mp hrest
    cases hplace
    refine ⟨rfl, fun other hother => ?_⟩
    -- Whatever comes later has another key.
    have hsplit : other ∈ earlier ++ place :: later := places ▸ List.mem_finRange other
    rw [places, List.pairwise_append] at increasing
    rcases List.mem_append.mp hsplit with hearlier | hrest
    · exact (increasing.2.2 other hearlier place (List.mem_cons_self ..)).le
    · rcases List.mem_cons.mp hrest with heq | hmem
      · exact heq.le
      · rw [← hlater, List.map_map] at last
        exact absurd (List.mem_map.mpr ⟨other, hmem, hother⟩) last
  · intro h
    obtain ⟨hkey, last⟩ := h
    obtain ⟨earlier, later, places⟩ := List.append_of_mem (List.mem_finRange place)
    rw [places, List.pairwise_append, List.pairwise_cons] at increasing
    refine ⟨earlier.map fun place => (key (values.get place), place),
      later.map fun place => (key (values.get place), place), ?_, fun hmem => ?_⟩
    · rw [places, List.map_append, List.map_cons, hkey]
    · obtain ⟨entry, hentry, hother⟩ := List.mem_map.mp hmem
      obtain ⟨other, hlater, rfl⟩ := List.mem_map.mp hentry
      exact absurd (last other hother) (not_le_of_gt (increasing.2.1.1 other hlater))

theorem EnumValue.get?_placesBy_eq_none_iff {key : EnumValue → String} {values : List EnumValue}
    {k : String} : (placesBy key values).get? k = none ↔ ∀ value ∈ values, key value ≠ k := by
  rw [← Option.not_isSome_iff_eq_none, ← Keyed.contains, placesBy, Keyed.contains_ofList_iff]
  constructor
  · intro h value hvalue hkey
    obtain ⟨place, rfl⟩ := List.mem_iff_get.mp hvalue
    refine h (List.mem_map.mpr ⟨_, List.mem_map.mpr ⟨place, List.mem_finRange place, rfl⟩, hkey⟩)
  · intro h hmem
    obtain ⟨entry, hentry, hkey⟩ := List.mem_map.mp hmem
    obtain ⟨place, _, rfl⟩ := List.mem_map.mp hentry
    exact h _ (List.get_mem ..) hkey

namespace EnumType

variable {type : EnumType}

/-- Names follow the order of the values. -/
theorem name_le_name_iff {i j : Fin type.values.length} :
    (type.values.get j).name ≤ (type.values.get i).name ↔ j ≤ i := by
  have increasing := List.pairwise_iff_get.mp type.sorted
  rcases lt_trichotomy i j with h | h | h
  · exact iff_of_false (fun hle => hle (increasing i j h)) (not_le_of_gt h)
  · subst h
    exact iff_of_true (String.le_refl _) (Fin.le_refl _)
  · exact iff_of_true (String.not_lt.mp (fun hlt => String.lt_irrefl _ (String.lt_trans hlt (increasing j i h)))) h.le

/-- A name leads to its value. -/
theorem value?_eq_some_iff {name : String} {value : EnumValue} :
    type.value? name = some value ↔ value ∈ type.values ∧ value.name = name := by
  rw [value?, type.byName_eq, Option.map_eq_some_iff]
  constructor
  · intro h
    obtain ⟨place, hplace, rfl⟩ := h
    exact ⟨List.get_mem .., (EnumValue.get?_placesBy_eq_some_iff.mp hplace).1⟩
  · intro h
    obtain ⟨hmem, rfl⟩ := h
    obtain ⟨place, rfl⟩ := List.mem_iff_get.mp hmem
    refine ⟨place, EnumValue.get?_placesBy_eq_some_iff.mpr ⟨rfl, fun other hother => ?_⟩, rfl⟩
    exact name_le_name_iff.mp (hother ▸ String.le_refl _)

/-- A runtime value leads to the greatest name that stands for it. -/
theorem serialize_eq_some_iff {value out : Json} :
    type.serialize value = some out ↔
      ∃ declared ∈ type.values, declared.value = value ∧
        (∀ other ∈ type.values, other.value = value → other.name ≤ declared.name) ∧
        .string declared.name = out := by
  rw [serialize, type.byText_eq, Option.map_eq_some_iff]
  constructor
  · intro h
    obtain ⟨place, hplace, hout⟩ := h
    obtain ⟨htext, last⟩ := EnumValue.get?_placesBy_eq_some_iff.mp hplace
    refine ⟨_, List.get_mem .., Json.text_inj.mp htext, fun other hother hsame => ?_, hout⟩
    obtain ⟨otherPlace, rfl⟩ := List.mem_iff_get.mp hother
    exact name_le_name_iff.mpr (last otherPlace (Json.text_inj.mpr hsame))
  · intro h
    obtain ⟨declared, hmem, hsame, greatest, hout⟩ := h
    obtain ⟨place, rfl⟩ := List.mem_iff_get.mp hmem
    refine ⟨place, EnumValue.get?_placesBy_eq_some_iff.mpr
      ⟨Json.text_inj.mpr hsame, fun other hother => ?_⟩, hout⟩
    exact name_le_name_iff.mp (greatest _ (List.get_mem ..) (Json.text_inj.mp hother))

theorem serialize_eq_none_iff {value : Json} :
    type.serialize value = none ↔ ∀ declared ∈ type.values, declared.value ≠ value := by
  rw [serialize, Option.map_eq_none_iff, type.byText_eq, EnumValue.get?_placesBy_eq_none_iff]
  exact forall₂_congr fun declared _ => not_congr Json.text_inj

end EnumType

/-! ## The order of declaration -/

/-- The values are those configured, in the order of their names. -/
structure EnumType.Holds (type : EnumType) (config : EnumConfig) : Prop where
  sorted : type.values.Pairwise fun x y => x.name < y.name
  configured : ∀ value, value ∈ type.values ↔
    ∃ name valueConfig, config.values.get? name = some valueConfig ∧
      value = ⟨name, valueConfig.value.getD (.string name), valueConfig.description,
        valueConfig.deprecationReason⟩

/-- The two enums show the same values and give the same answers. -/
structure EnumType.SameAnswers (type other : EnumType) : Prop where
  values : type.values = other.values
  value? : ∀ name, type.value? name = other.value? name
  serialize : ∀ value, type.serialize value = other.serialize value
  parseValue : ∀ value, type.parseValue value = other.parseValue value
  parseLiteral : ∀ literal, type.parseLiteral literal = other.parseLiteral literal

theorem EnumType.SameAnswers.refl (type : EnumType) : type.SameAnswers type :=
  ⟨rfl, fun _ => rfl, fun _ => rfl, fun _ => rfl, fun _ => rfl⟩

namespace EnumConfig

variable {config : EnumConfig} {values : Keyed EnumValueConfig}

theorem holds_published (config : EnumConfig) : config.published.Holds config := by
  refine ⟨config.published.sorted, fun value => ?_⟩
  rw [mem_values_published_iff]
  simp only [EnumValue.published, eq_comm]

theorem valid_iff_of_perm (reordered : config.values.entries.Perm values.entries) :
    config.Valid ↔ { config with values }.Valid := by
  have found := Keyed.get?_eq_of_perm reordered
  have empty : config.values.isEmpty = values.isEmpty := by
    rw [Bool.eq_iff_iff, Keyed.isEmpty, Keyed.isEmpty, List.isEmpty_iff, List.isEmpty_iff]
    exact ⟨fun h => (h ▸ reordered).nil_eq.symm, fun h => (h ▸ reordered).eq_nil⟩
  constructor
  · intro h
    exact ⟨h.name, empty ▸ h.nonempty, fun name value hvalue =>
      h.values name value ((found name).trans hvalue)⟩
  · intro h
    exact ⟨h.name, empty ▸ h.nonempty, fun name value hvalue =>
      h.values name value ((found name).symm.trans hvalue)⟩

theorem published_eq_of_perm (reordered : config.values.entries.Perm values.entries) :
    config.published = { config with values }.published := by
  have same : sortOn EnumValue.name config.publishedValues.values =
      sortOn EnumValue.name (publishedValues { config with values }).values :=
    sortOn_eq_of_perm config.nodup_name_publishedValues ((reordered.map _).map _)
  simp only [published, same]

end EnumConfig

/-- An enum is built from its declarations in any order or in none, and is the same enum. -/
theorem EnumType.ofConfig_reordered {config : EnumConfig} {values : Keyed EnumValueConfig}
    (reordered : config.values.entries.Perm values.entries) :
    Alike (fun _ _ => True) (fun type other => type.Holds config ∧ type.SameAnswers other)
      (ofConfig config) (ofConfig { config with values }) := by
  have same := EnumConfig.valid_iff_of_perm reordered
  by_cases h : config.Valid
  · have built := EnumConfig.ofConfig_eq_ok_iff.mpr ⟨h, rfl⟩
    have rebuilt := EnumConfig.ofConfig_eq_ok_iff.mpr ⟨same.mp h, rfl⟩
    rw [built, rebuilt, ← EnumConfig.published_eq_of_perm reordered]
    exact .ok ⟨config.holds_published, .refl _⟩
  · cases built : ofConfig config with
    | ok type => exact absurd (EnumConfig.ofConfig_eq_ok_iff.mp built).1 h
    | error error =>
      cases rebuilt : ofConfig { config with values } with
      | ok other => exact absurd (same.mpr (EnumConfig.ofConfig_eq_ok_iff.mp rebuilt).1) h
      | error other => exact .error trivial

namespace EnumType

def workdays : List (String × EnumValueConfig) := [("MON", {}), ("FRI", {})]

/-- Two names for one internal value. -/
def weekend : List (String × EnumValueConfig) :=
  [("SUN", { value := some (.string "rest") }), ("SAT", { value := some (.string "rest") })]

def week : EnumConfig := { name := "Weekday", values := .ofList (workdays ++ weekend) }

/-- A week that is declared with its end in front is the same: a day of rest is Sunday,
whichever of its days was declared last, and either day is read as one of rest. -/
theorem week_reordered :
    ∃ type other, ofConfig week = .ok type ∧
      ofConfig { week with values := .ofList (weekend ++ workdays) } = .ok other ∧
      type.SameAnswers other ∧ other.values.map EnumValue.name = ["FRI", "MON", "SAT", "SUN"] ∧
      (other.serialize (.string "rest")).bind Json.string? = some "SUN" ∧
      (other.parseValue (.string "SAT")).bind Json.string? = some "rest" := by
  have reordered : week.values.entries.Perm (Keyed.ofList (weekend ++ workdays)).entries := by
    rw [week, Keyed.entries_ofList (by decide), Keyed.entries_ofList (by decide)]
    exact List.perm_append_comm
  obtain ⟨type, built, names, sunday, read⟩ : ∃ type, ofConfig week = .ok type ∧
      type.values.map EnumValue.name = ["FRI", "MON", "SAT", "SUN"] ∧
      (type.serialize (.string "rest")).bind Json.string? = some "SUN" ∧
      (type.parseValue (.string "SAT")).bind Json.string? = some "rest" :=
    exists_ok_of_check (by decide +kernel)
  have same := ofConfig_reordered reordered
  rw [built] at same
  generalize rebuilt : ofConfig { week with values := .ofList (weekend ++ workdays) } = result at same
  cases same with
  | ok answers =>
    obtain ⟨-, answers⟩ := answers
    refine ⟨type, _, built, rfl, answers, ?_⟩
    rw [← answers.values, ← answers.serialize, ← answers.parseValue]
    exact ⟨names, sunday, read⟩

end EnumType

end GraphSchema

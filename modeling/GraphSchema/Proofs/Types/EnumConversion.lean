/-
  GraphSchema.Proofs.Types.EnumConversion — from internal values to names and back.

  A host answers with internal values, a client reads and writes names. Where no internal
  value holds a floating number, each conversion is the lookup that a reader of the
  configuration expects (`ofConfig_converts`): an internal value is answered by the greatest
  of the names that stand for a value equal to it, in whatever order its members are
  written, and a name reads as what it stands for, so that a name whose value no other name
  shares comes back. Nothing but declared names is read.

  An internal value is looked up by its text, and the text shows the sign of a floating
  zero, which equality does not see. Two equal values that differ in such a sign are
  answered differently as soon as one of them is declared (`serialize_same_iff`):
  `tank_zero_lost` is an enum that knows `0.0` and not `-0.0`.
-/

import GraphSchema.Proofs.Json.Equality
import GraphSchema.Proofs.Types.Enum

namespace GraphSchema

namespace EnumConfig

/-- What a declared name stands for. -/
def internal? (config : EnumConfig) (name : String) : Option Json :=
  (config.values.get? name).map fun value => value.value.getD (.string name)

/-- The name is declared and stands for a value equal to the given one. -/
def StandsFor (config : EnumConfig) (name : String) (value : Json) : Prop :=
  ∃ internal, config.internal? name = some internal ∧ internal.Equals value

/-- The given value itself is what some name stands for. -/
def Declares (config : EnumConfig) (value : Json) : Prop :=
  ∃ name, config.internal? name = some value

/-- Internal values are runtime values, and no floating number stands inside. -/
def FloatFree (config : EnumConfig) : Prop :=
  ∀ name internal, config.internal? name = some internal → internal.Canonical ∧ internal.FloatFree

end EnumConfig

namespace EnumType

variable {config : EnumConfig} {type : EnumType}

theorem Holds.internal?_eq_some_iff (h : type.Holds config) {name : String} {internal : Json} :
    config.internal? name = some internal ↔
      ∃ declared ∈ type.values, declared.name = name ∧ declared.value = internal := by
  rw [EnumConfig.internal?, Option.map_eq_some_iff]
  constructor
  · intro hfound
    obtain ⟨valueConfig, hget, rfl⟩ := hfound
    exact ⟨_, (h.configured _).mpr ⟨name, valueConfig, hget, rfl⟩, rfl, rfl⟩
  · intro hdeclared
    obtain ⟨declared, hmem, rfl, rfl⟩ := hdeclared
    obtain ⟨name, valueConfig, hget, rfl⟩ := (h.configured declared).mp hmem
    exact ⟨valueConfig, hget, rfl⟩

theorem holds_of_ofConfig (built : ofConfig config = .ok type) : type.Holds config := by
  obtain ⟨-, rfl⟩ := EnumConfig.ofConfig_eq_ok_iff.mp built
  exact config.holds_published

/-- A value is answered by the greatest of the names declared for it. -/
theorem Holds.serialize_eq_some_iff (h : type.Holds config) {value out : Json} :
    type.serialize value = some out ↔
      ∃ name, config.internal? name = some value ∧
        (∀ other, config.internal? other = some value → other ≤ name) ∧ out = .string name := by
  simp only [h.internal?_eq_some_iff]
  rw [EnumType.serialize_eq_some_iff]
  constructor
  · intro hdeclared
    obtain ⟨declared, hmem, hvalue, greatest, rfl⟩ := hdeclared
    refine ⟨_, ⟨declared, hmem, rfl, hvalue⟩, fun other hother => ?_, rfl⟩
    obtain ⟨second, hsecond, rfl, hshared⟩ := hother
    exact greatest second hsecond hshared
  · intro hname
    obtain ⟨name, ⟨declared, hmem, rfl, hvalue⟩, greatest, rfl⟩ := hname
    exact ⟨declared, hmem, hvalue,
      fun other hother hshared => greatest _ ⟨other, hother, rfl, hshared⟩, rfl⟩

theorem Holds.serialize_eq_none_iff (h : type.Holds config) {value : Json} :
    type.serialize value = none ↔ ¬ config.Declares value := by
  unfold EnumConfig.Declares
  simp only [h.internal?_eq_some_iff]
  rw [EnumType.serialize_eq_none_iff]
  constructor
  · intro hall hdeclared
    obtain ⟨name, declared, hmem, -, hvalue⟩ := hdeclared
    exact hall declared hmem hvalue
  · intro hnot declared hmem hvalue
    exact hnot ⟨declared.name, declared, hmem, rfl, hvalue⟩

theorem Holds.value?_map_value (h : type.Holds config) (name : String) :
    (type.value? name).map EnumValue.value = config.internal? name := by
  apply Option.ext
  intro internal
  rw [Option.map_eq_some_iff, h.internal?_eq_some_iff]
  simp only [value?_eq_some_iff, and_assoc]

/-! ## Lookup both ways -/

/-- Values are converted to names and back as the configuration says. -/
structure Converts (type : EnumType) (config : EnumConfig) : Prop where
  /-- A runtime value, however its members are written, leads to the greatest name for it. -/
  serialize : ∀ {written : Json}, written.Distinct → ∀ out,
    type.serialize written.sortMembers = some out ↔
      ∃ name, config.StandsFor name written ∧
        (∀ other, config.StandsFor other written → other ≤ name) ∧ out = .string name
  /-- The name it leads to reads as a value equal to it. -/
  readBack : ∀ {written : Json}, written.Distinct → ∀ name : Name,
    type.serialize written.sortMembers = some (.string name.value) →
      ∃ value, value.Equals written ∧ type.parseValue (.string name.value) = some value ∧
        type.parseLiteral (.enum name) = some value
  /-- A name that shares its value with no other comes back. -/
  unshared : ∀ {name : String} {internal : Json}, config.internal? name = some internal →
    (∀ other, config.StandsFor other internal → other = name) →
      type.parseValue (.string name) = some internal ∧
        type.serialize internal = some (.string name)
  /-- Strings of declared names are read from variables, and nothing else. -/
  parseValue : ∀ value out, type.parseValue value = some out ↔
    ∃ name, value = .string name ∧ config.internal? name = some out
  /-- Enum literals of declared names are read from documents, and nothing else. -/
  parseLiteral : ∀ literal out, type.parseLiteral literal = some out ↔
    ∃ name : Name, literal = .enum name ∧ config.internal? name.value = some out

theorem Holds.parseValue_eq_some_iff (h : type.Holds config) {value out : Json} :
    type.parseValue value = some out ↔
      ∃ name, value = .string name ∧ config.internal? name = some out := by
  cases value with
  | string name =>
    rw [EnumType.parseValue, Json.string?, Option.bind_some, h.value?_map_value]
    simp
  | _ => simp [EnumType.parseValue, Json.string?]

theorem Holds.parseLiteral_eq_some_iff (h : type.Holds config) {literal : Literal} {out : Json} :
    type.parseLiteral literal = some out ↔
      ∃ name : Name, literal = .enum name ∧ config.internal? name.value = some out := by
  cases literal with
  | enum name =>
    rw [EnumType.parseLiteral, Literal.enum?, Option.bind_some, h.value?_map_value]
    simp
  | _ => simp [EnumType.parseLiteral, Literal.enum?]

/-- Without floating numbers a name stands for a value if it is declared for the runtime
value that is written so. -/
theorem standsFor_iff (hfree : config.FloatFree) {name : String} {written : Json}
    (hwritten : written.Distinct) :
    config.StandsFor name written ↔ config.internal? name = some written.sortMembers := by
  constructor
  · intro hstands
    obtain ⟨internal, hinternal, hequals⟩ := hstands
    obtain ⟨hcanonical, hnone⟩ := hfree name internal hinternal
    rw [hinternal, (Json.equals_iff_eq hcanonical hnone hwritten).mp hequals]
  · intro hinternal
    obtain ⟨hcanonical, hnone⟩ := hfree name _ hinternal
    exact ⟨_, hinternal, (Json.equals_iff_eq hcanonical hnone hwritten).mpr rfl⟩

theorem ofConfig_converts (built : ofConfig config = .ok type) (hfree : config.FloatFree) :
    type.Converts config := by
  have h := holds_of_ofConfig built
  have hserialize : ∀ {written : Json}, written.Distinct → ∀ out,
      type.serialize written.sortMembers = some out ↔
        ∃ name, config.StandsFor name written ∧
          (∀ other, config.StandsFor other written → other ≤ name) ∧ out = .string name := by
    intro written hwritten out
    simp only [standsFor_iff hfree hwritten]
    exact h.serialize_eq_some_iff
  refine ⟨hserialize, ?_, ?_, fun _ _ => h.parseValue_eq_some_iff,
    fun _ _ => h.parseLiteral_eq_some_iff⟩
  · intro written hwritten name hfound
    obtain ⟨found, ⟨internal, hinternal, hequals⟩, -, hname⟩ := (hserialize hwritten _).mp hfound
    cases hname
    exact ⟨internal, hequals, h.parseValue_eq_some_iff.mpr ⟨_, rfl, hinternal⟩,
      h.parseLiteral_eq_some_iff.mpr ⟨_, rfl, hinternal⟩⟩
  · intro name internal hinternal hunshared
    obtain ⟨hcanonical, -⟩ := hfree name internal hinternal
    refine ⟨h.parseValue_eq_some_iff.mpr ⟨_, rfl, hinternal⟩, ?_⟩
    refine h.serialize_eq_some_iff.mpr ⟨name, hinternal, fun other hother => ?_, rfl⟩
    have hstands : config.StandsFor other internal := by
      rw [standsFor_iff hfree hcanonical.distinct, Json.sortMembers_of_canonical hcanonical]
      exact hother
    exact (hunshared other hstands ▸ String.le_refl _)

def metre : Json := .object [("si", .bool true), ("unit", .string "m")]

/-- The unit with its members the other way round. -/
def turnedMetre : Json := .object [("unit", .string "m"), ("si", .bool true)]

/-- The unit is what the other sorts to. -/
theorem canonical_metre : metre.Canonical := Json.canonical_sortMembers turnedMetre

/-- One unit in two spellings, and one that stands for its name. -/
def lengths : EnumConfig where
  name := "Length"
  values := .ofList [("METRE", { value := some metre }), ("METER", { value := some metre }), ("FOOT", {})]

theorem lengths_floatFree : lengths.FloatFree := by
  have hmetre : metre.FloatFree := by
    refine Json.everywhere_object_iff.mpr ⟨fun x => by simp, fun name value hmember => ?_⟩
    simp only [List.mem_cons, Prod.mk.injEq, List.not_mem_nil, or_false] at hmember
    obtain ⟨-, rfl⟩ | ⟨-, rfl⟩ := hmember
    · exact (Json.everywhere_leaf_iff rfl).mpr fun x => by simp
    · exact (Json.everywhere_leaf_iff rfl).mpr fun x => by simp
  intro name internal hinternal
  obtain ⟨valueConfig, hget, rfl⟩ := Option.map_eq_some_iff.mp hinternal
  have hentry := Keyed.get?_eq_some_iff.mp hget
  rw [lengths, Keyed.entries_ofList (by decide)] at hentry
  simp only [List.mem_cons, Prod.mk.injEq, List.not_mem_nil, or_false] at hentry
  obtain ⟨-, rfl⟩ | ⟨-, rfl⟩ | ⟨-, rfl⟩ := hentry
  · exact ⟨canonical_metre, hmetre⟩
  · exact ⟨canonical_metre, hmetre⟩
  · exact ⟨by simp [Json.Canonical], (Json.everywhere_leaf_iff rfl).mpr fun x => by simp⟩

theorem turnedMetre_distinct : turnedMetre.Distinct := by
  refine Json.everywhere_object_iff.mpr ⟨fun members heq => ?_, fun name value hmember => ?_⟩
  · cases heq
    decide
  · simp only [List.mem_cons, Prod.mk.injEq, List.not_mem_nil, or_false] at hmember
    obtain ⟨-, rfl⟩ | ⟨-, rfl⟩ := hmember
    · exact (Json.everywhere_leaf_iff rfl).mpr fun members heq => by cases heq
    · exact (Json.everywhere_leaf_iff rfl).mpr fun members heq => by cases heq

/-- However its members are written, the unit is answered by the greater of its spellings,
which reads as the same unit. A spelling in small letters is not read. -/
theorem lengths_converted :
    ∃ type, ofConfig lengths = .ok type ∧
      type.serialize turnedMetre.sortMembers = some (.string "METRE") ∧
      (∃ value, value.Equals turnedMetre ∧ type.parseValue (.string "METRE") = some value) ∧
      type.parseValue (.string "metre") = none := by
  obtain ⟨type, built, answer⟩ : ∃ type, ofConfig lengths = .ok type ∧
      (type.serialize turnedMetre.sortMembers).bind Json.string? = some "METRE" :=
    exists_ok_of_check (by decide +kernel)
  obtain ⟨out, hout, hname⟩ := Option.bind_eq_some_iff.mp answer
  have serialized : type.serialize turnedMetre.sortMembers = some (.string "METRE") := by
    cases out with
    | string name => rw [hout, ← Option.some.inj hname]
    | _ => cases hname
  have converts := ofConfig_converts built lengths_floatFree
  obtain ⟨value, hequals, hparsed, -⟩ :=
    converts.readBack turnedMetre_distinct ⟨"METRE", default⟩ serialized
  refine ⟨type, built, serialized, ⟨value, hequals, hparsed⟩, ?_⟩
  rw [Option.eq_none_iff_forall_ne_some]
  intro out hread
  obtain ⟨name, heq, hinternal⟩ := (converts.parseValue _ _).mp hread
  cases heq
  cases hinternal

/-! ## Equal values -/

/-- Equal values have one answer if no floating zero stands inside, and in general exactly if
they are one value or neither is declared. A value that equals a declared one is found only
if it is declared itself. -/
theorem serialize_same_iff (built : ofConfig config = .ok type) {v w : Json}
    (hsame : v.same w = true) :
    (v.ZeroFree → type.serialize v = type.serialize w) ∧
      (type.serialize v = type.serialize w ↔ v = w ∨ ¬ config.Declares v ∧ ¬ config.Declares w) ∧
      ((type.serialize w).isSome = true ↔ config.Declares w) := by
  have h := holds_of_ofConfig built
  refine ⟨fun hfree => congrArg type.serialize (Json.eq_of_same hfree hsame), ⟨?_, ?_⟩, ?_⟩
  · intro hanswer
    cases hv : type.serialize v with
    | none =>
      rw [hv] at hanswer
      exact Or.inr ⟨h.serialize_eq_none_iff.mp hv, h.serialize_eq_none_iff.mp hanswer.symm⟩
    | some out =>
      -- One name answers both, and it is declared for one value.
      rw [hv] at hanswer
      obtain ⟨name, hname, -, rfl⟩ := h.serialize_eq_some_iff.mp hv
      obtain ⟨other, hother, -, heq⟩ := h.serialize_eq_some_iff.mp hanswer.symm
      cases heq
      rw [hname] at hother
      exact Or.inl (Option.some.inj hother)
  · intro hcases
    rcases hcases with rfl | ⟨hv, hw⟩
    · rfl
    · rw [h.serialize_eq_none_iff.mpr hv, h.serialize_eq_none_iff.mpr hw]
  · rw [← not_iff_not, ← h.serialize_eq_none_iff, Bool.not_eq_true, Option.isSome_eq_false_iff,
      Option.isNone_iff_eq_none]

/-- Levels as floating numbers. -/
def tank : EnumConfig where
  name := "Level"
  values := .ofList [
    ("EMPTY", { value := some (.float (.zero false)) }),
    ("FULL", { value := some (.float .one) })]

/-- The empty level is found under the zero it was declared with. -/
theorem tank_zeros_apart :
    ∃ type, ofConfig tank = .ok type ∧ (type.serialize (.float (.zero false))).isSome = true ∧
      type.serialize (.float (.zero false)) ≠ type.serialize (.float (.zero true)) := by
  obtain ⟨type, built⟩ : ∃ type, ofConfig tank = .ok type := exists_of_isOk (by decide +kernel)
  have same : (Json.float (.zero false)).same (.float (.zero true)) = true := by decide
  have declared : tank.Declares (.float (.zero false)) := ⟨"EMPTY", rfl⟩
  obtain ⟨-, apart, -⟩ := serialize_same_iff built same
  obtain ⟨-, -, found⟩ := serialize_same_iff built (Json.same_refl (.float (.zero false)))
  refine ⟨type, built, found.mpr declared, fun equal => ?_⟩
  rcases apart.mp equal with heq | hneither
  · simp [Double.zero] at heq
  · exact hneither.1 declared

/-- Minus zero equals the empty level and is not found. -/
theorem tank_zero_lost :
    ∃ type, ofConfig tank = .ok type ∧
      (Json.float (.zero false)).same (.float (.zero true)) = true ∧
      (type.serialize (.float (.zero false))).bind Json.string? = some "EMPTY" ∧
      type.serialize (.float (.zero true)) = none := by
  obtain ⟨type, built, hfound, hnone⟩ : ∃ type, ofConfig tank = .ok type ∧
      (type.serialize (.float (.zero false))).bind Json.string? = some "EMPTY" ∧
      (type.serialize (.float (.zero true))).isNone = true :=
    exists_ok_of_check (by decide +kernel)
  exact ⟨type, built, by decide, hfound, Option.isNone_iff_eq_none.mp hnone⟩

end EnumType

end GraphSchema

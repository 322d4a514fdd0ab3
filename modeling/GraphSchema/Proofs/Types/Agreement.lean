/-
  GraphSchema.Proofs.Types.Agreement — what building a type depends on.

  Builders ask the kind table for names and look through nothing else of it, and a union
  asks the objects for names. Under tables that know the same of every name (`Agrees`) a
  type is built alike, to the same result or with the same error. Under a table that knows
  more names (`Within`), what was valid stays valid.
-/

import GraphSchema.Proofs.Types.Building

namespace GraphSchema

namespace KindTable

/-- The two tables know the same of every name. -/
def Agrees (kinds other : KindTable) : Prop := ∀ name, kinds.named? name = other.named? name

variable {kinds other : KindTable}

theorem Agrees.acceptsOutput (h : kinds.Agrees other) : kinds.acceptsOutput = other.acceptsOutput := by
  funext type
  simp only [acceptsOutput_eq, known, h type.innermostName]

theorem Agrees.acceptsInput (h : kinds.Agrees other) : kinds.acceptsInput = other.acceptsInput := by
  funext type
  simp only [acceptsInput_eq, known, h type.innermostName]

end KindTable

section

variable {kinds other : KindTable} (h : kinds.Agrees other)
include h

theorem FieldConfig.define_agrees (owner : String) :
    FieldConfig.define owner kinds = FieldConfig.define owner other := by
  have hargument : ∀ field, ArgumentConfig.define owner field kinds =
      ArgumentConfig.define owner field other := by
    intro field
    funext name config
    simp only [ArgumentConfig.define, h.acceptsInput]
  funext name config
  simp only [FieldConfig.define, hargument, h.acceptsOutput]

theorem defineFields_agrees (owner : String) (configs : Keyed FieldConfig) :
    defineFields owner kinds configs = defineFields owner other configs := by
  simp only [defineFields, FieldConfig.define_agrees h]

theorem ObjectConfig.define_agrees (config : ObjectConfig) (added : Keyed FieldConfig)
    (options : BuildOptions) :
    config.define added kinds options = config.define added other options := by
  have hinterface : checkInterface config.name config.isTypeOf.isSome kinds options =
      checkInterface config.name config.isTypeOf.isSome other options := by
    funext name
    simp only [checkInterface, h name]
  simp only [define, hinterface, defineFields_agrees h]

theorem UnionConfig.define_agrees {objects others : List ObjectType}
    (hobjects : ∀ name, objects.find? (·.name == name) = others.find? (·.name == name))
    (config : UnionConfig) : config.define objects kinds = config.define others other := by
  have hmember : config.member? objects kinds = config.member? others other := by
    funext name
    simp only [member?, hobjects name, h name]
  have hmembers : ∀ names, config.members objects kinds names = config.members others other names := by
    intro names
    induction names with
    | nil => rfl
    | cons name rest ih => simp only [members, hmember, ih]
  simp only [define, hmembers]

theorem InputObjectConfig.define_agrees (config : InputObjectConfig) :
    config.define kinds = config.define other := by
  have hfield : InputFieldConfig.define config.name kinds =
      InputFieldConfig.define config.name other := by
    funext name field
    simp only [InputFieldConfig.define, h.acceptsInput]
  simp only [define, hfield]

end

/-! ## Larger tables -/

/-- What this table knows of a name, the other knows too. -/
def KindTable.Within (kinds other : KindTable) : Prop :=
  ∀ name kind, kinds.named? name = some kind → other.named? name = some kind

section

variable {kinds other : KindTable} {name : String}

theorem KindTable.Within.acceptsOutput (h : kinds.Within other) {type : TypeRef} {b : Bool}
    (haccepts : kinds.acceptsOutput type = .ok b) : other.acceptsOutput type = .ok b := by
  obtain ⟨kind, hkind, houtput⟩ := acceptsOutput_eq_ok_iff.mp haccepts
  exact acceptsOutput_eq_ok_iff.mpr ⟨kind, h _ kind hkind, houtput⟩

theorem KindTable.Within.acceptsInput (h : kinds.Within other) {type : TypeRef} {b : Bool}
    (haccepts : kinds.acceptsInput type = .ok b) : other.acceptsInput type = .ok b := by
  obtain ⟨kind, hkind, hinput⟩ := acceptsInput_eq_ok_iff.mp haccepts
  exact acceptsInput_eq_ok_iff.mpr ⟨kind, h _ kind hkind, hinput⟩

theorem FieldConfig.Valid.mono {config : FieldConfig} (h : kinds.Within other)
    (hvalid : config.Valid kinds name) : config.Valid other name where
  name := hvalid.name
  type := h.acceptsOutput hvalid.type
  args := by
    intro argument argumentConfig hargument
    have hargumentValid := hvalid.args argument argumentConfig hargument
    exact ⟨hargumentValid.name, h.acceptsInput hargumentValid.type⟩

theorem ValidFields.mono {configs : Keyed FieldConfig} (h : kinds.Within other)
    (hvalid : ValidFields kinds configs) : ValidFields other configs where
  nonempty := hvalid.nonempty
  valid := fun name config hconfig => (hvalid.valid name config hconfig).mono h

theorem ObjectConfig.Valid.mono {config : ObjectConfig} {added : Keyed FieldConfig}
    {options : BuildOptions} (h : kinds.Within other) (hvalid : config.Valid added kinds options) :
    config.Valid added other options where
  interfaces := by
    intro name hname
    obtain ⟨resolvesType, hkind, hresolves⟩ := checkInterface_eq_ok_iff.mp (hvalid.interfaces name hname)
    exact checkInterface_eq_ok_iff.mpr ⟨resolvesType, h name _ hkind, hresolves⟩
  fields := hvalid.fields.mono h

theorem InputFieldConfig.Valid.mono {config : InputFieldConfig} (h : kinds.Within other)
    (hvalid : config.Valid kinds name) : config.Valid other name :=
  ⟨hvalid.name, h.acceptsInput hvalid.type⟩

end

end GraphSchema

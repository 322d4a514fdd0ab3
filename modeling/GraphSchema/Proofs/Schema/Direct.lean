/-
  GraphSchema.Proofs.Schema.Direct — a registry with everything given at once.

  Fields may be added to a type after it was registered, and fields and interfaces may be
  given as functions. Whatever is published is made of the fields with the added ones put
  over them, and of what the functions give: a registry publishes the same as the one that
  has all this in its configurations (`publish_direct`).
-/

import GraphSchema.Schema.Publication
import GraphSchema.Proofs.Collection.Keyed

namespace GraphSchema

/-! ## Configurations -/

/-- The configuration with its fields as they are built, and the added ones among them. -/
def ObjectConfig.direct (config : ObjectConfig) (added : Keyed FieldConfig) : ObjectConfig :=
  { config with
    fields := .now (config.fields.resolve.merge added)
    interfaces := .now config.interfaces.resolve }

def InterfaceConfig.direct (config : InterfaceConfig) (added : Keyed FieldConfig) :
    InterfaceConfig :=
  { config with fields := .now (config.fields.resolve.merge added) }

def InputObjectConfig.direct (config : InputObjectConfig) : InputObjectConfig :=
  { config with fields := .now config.fields.resolve }

theorem ObjectConfig.define_direct (config : ObjectConfig) (added : Keyed FieldConfig)
    (kinds : KindTable) (options : BuildOptions) :
    (config.direct added).define .empty kinds options = config.define added kinds options := rfl

theorem InterfaceConfig.define_direct (config : InterfaceConfig) (added : Keyed FieldConfig)
    (objects : List ObjectType) (kinds : KindTable) :
    (config.direct added).define .empty objects kinds = config.define added objects kinds := rfl

theorem InputObjectConfig.define_direct (config : InputObjectConfig) (kinds : KindTable) :
    config.direct.define kinds = config.define kinds := rfl

/-! ## Registries -/

def Registered.direct (added : Keyed FieldConfig) : Registered → Registered
  | scalar type => scalar type
  | enum type => enum type
  | object config => object (config.direct added)
  | interface config => interface (config.direct added)
  | union config => union config
  | inputObject config => inputObject config.direct

@[simp] theorem Registered.namedKind_direct (added : Keyed FieldConfig) (entry : Registered) :
    (entry.direct added).namedKind = entry.namedKind := by
  cases entry <;> rfl

@[simp] theorem Registered.name_direct (added : Keyed FieldConfig) (entry : Registered) :
    (entry.direct added).name = entry.name := by
  cases entry <;> rfl

@[simp] theorem Registered.hasFields_direct (added : Keyed FieldConfig) (entry : Registered) :
    (entry.direct added).hasFields = entry.hasFields := by
  cases entry <;> rfl

@[simp] theorem Registered.kind_direct (added : Keyed FieldConfig) (entry : Registered) :
    (entry.direct added).kind = entry.kind :=
  congrArg NamedKind.kind (namedKind_direct added entry)

namespace TypeRegistry

/-- The registry with all fields in the configurations, and no field added to them. -/
def direct (registry : TypeRegistry) : TypeRegistry where
  entries := registry.entries.mapValues fun name entry => entry.direct (registry.addedTo name)
  added := .empty

theorem get?_direct (registry : TypeRegistry) (name : String) :
    registry.direct.entries.get? name =
      (registry.entries.get? name).map (Registered.direct (registry.addedTo name)) :=
  Keyed.get?_mapValues _ _ name

@[simp] theorem addedTo_direct (registry : TypeRegistry) (name : String) :
    registry.direct.addedTo name = .empty := rfl

@[simp] theorem kindTable_direct (registry : TypeRegistry) :
    registry.direct.kindTable = registry.kindTable := by
  show KindTable.classify ((registry.entries.entries.map _).map _) = _
  rw [List.map_map]
  simp only [kindTable, Function.comp_def, Registered.namedKind_direct]

end TypeRegistry

/-! ## Publication -/

namespace Publication

variable (registry : TypeRegistry) (options : BuildOptions)

theorem buildObject_direct (name : String) (config : ObjectConfig) :
    buildObject ⟨registry.direct, options⟩ name (config.direct (registry.addedTo name)) =
      buildObject ⟨registry, options⟩ name config := by
  simp only [buildObject, kinds, TypeRegistry.kindTable_direct, TypeRegistry.addedTo_direct,
    ObjectConfig.define_direct]

theorem objects_direct : objects ⟨registry.direct, options⟩ = objects ⟨registry, options⟩ := by
  show List.filterMap _ (registry.entries.entries.map _) = _
  rw [List.filterMap_map]
  refine congrArg (List.filterMap · _) (funext fun named => ?_)
  obtain ⟨name, entry⟩ := named
  cases entry with
  | object config => exact congrArg Except.toOption (buildObject_direct registry options name config)
  | _ => rfl

theorem build_direct (name : String) (entry : Registered) :
    build ⟨registry.direct, options⟩ name (entry.direct (registry.addedTo name)) =
      build ⟨registry, options⟩ name entry := by
  cases entry with
  | scalar type => rfl
  | enum type => rfl
  | object config =>
    simp only [Registered.direct, build, buildObject_direct]
  | interface config =>
    simp only [Registered.direct, build, kinds, TypeRegistry.kindTable_direct, objects_direct,
      TypeRegistry.addedTo_direct, InterfaceConfig.define_direct]
  | union config =>
    simp only [Registered.direct, build, kinds, TypeRegistry.kindTable_direct, objects_direct]
  | inputObject config =>
    simp only [Registered.direct, build, kinds, TypeRegistry.kindTable_direct,
      InputObjectConfig.define_direct]

theorem types_direct : types ⟨registry.direct, options⟩ = types ⟨registry, options⟩ := by
  show Keyed.filterMap _ (registry.entries.mapValues _) = _
  rw [Keyed.filterMap_mapValues]
  simp only [build_direct]
  rfl

theorem errorsOfKind_direct :
    errorsOfKind ⟨registry.direct, options⟩ = errorsOfKind ⟨registry, options⟩ := by
  funext kind
  show List.filterMap _ (registry.entries.entries.map _) = _
  rw [List.filterMap_map]
  refine congrArg (List.filterMap · _) (funext fun named => ?_)
  simp only [Function.comp_apply, build_direct, Registered.kind_direct]

theorem errors_direct : errors ⟨registry.direct, options⟩ = errors ⟨registry, options⟩ := by
  rw [errors, definitionErrors, errorsOfKind_direct, types_direct]
  rfl

end Publication

/-- A registry publishes the same whenever its fields were given. -/
theorem publish_direct (registry : TypeRegistry) (options : BuildOptions) :
    publish registry.direct options = publish registry options := by
  dsimp only [publish]
  rw [Publication.errors_direct, Publication.types_direct]

end GraphSchema

/-
  GraphSchema.Proofs.Schema.Reordering — the order of registration does not matter.

  Types may refer to types that come later, so no phase may look at a type before it is
  built, or keep the first or the last of something. Of two registries with the same
  entries and added fields in different orders, every entry is built alike
  (`build_reordered`), up to the order in which interfaces list their implementations.
  Names are looked up alike in what was built, so the same promises are kept, and
  publication comes out alike: with the same types, or with the same errors in another
  order (`publish_reordered`).
-/

import Mathlib.Data.List.Perm.Basic
import GraphSchema.Proofs.Schema.Errors
import GraphSchema.Proofs.Schema.Published
import GraphSchema.Proofs.Types.Agreement

namespace GraphSchema

/-- The other registry holds the same entries under the same names and the same added
fields, and was filled in another order. Deferred values are the same if they come out the
same. -/
structure TypeRegistry.Reordered (registry other : TypeRegistry) : Prop where
  entries : registry.entries.entries.Perm other.entries.entries
  added : ∀ name, registry.addedTo name = other.addedTo name

/-- The same interface, up to the order of its implementations. -/
structure InterfaceType.SameUpToOrder (interface other : InterfaceType) : Prop where
  name : interface.name = other.name
  description : interface.description = other.description
  fields : interface.fields = other.fields
  resolveType : interface.resolveType = other.resolveType
  implementations : interface.implementations.Perm other.implementations

/-- The same definition, up to the order of an interface's implementations. -/
inductive TypeDefinition.SameUpToOrder : TypeDefinition → TypeDefinition → Prop
  | same (type : TypeDefinition) : SameUpToOrder type type
  | interface {interface other : InterfaceType} : interface.SameUpToOrder other →
      SameUpToOrder (.interface interface) (.interface other)

namespace TypeRegistry.Reordered

variable {registry other : TypeRegistry}

theorem get?_eq (h : registry.Reordered other) (name : String) :
    registry.entries.get? name = other.entries.get? name :=
  Keyed.get?_eq_of_perm h.entries name

theorem kindTable_agrees (h : registry.Reordered other) :
    registry.kindTable.Agrees other.kindTable := by
  intro name
  rw [named?_kindTable, named?_kindTable, h.get?_eq name]

end TypeRegistry.Reordered

/-! ## Building -/

namespace Publication

variable {registry other : TypeRegistry} {options : BuildOptions}

theorem buildObject_reordered (h : registry.Reordered other) (name : String)
    (config : ObjectConfig) :
    buildObject ⟨registry, options⟩ name config = buildObject ⟨other, options⟩ name config := by
  have hadded : registry.addedTo name = other.addedTo name := h.added name
  simp only [buildObject, hadded]
  exact ObjectConfig.define_agrees h.kindTable_agrees config _ options

theorem objects_perm (h : registry.Reordered other) :
    (objects ⟨registry, options⟩).Perm (objects ⟨other, options⟩) := by
  simp only [objects, buildObject_reordered h]
  exact h.entries.filterMap _

theorem find?_objects_reordered (hc : registry.Consistent) (h : registry.Reordered other)
    (name : String) :
    (objects ⟨registry, options⟩).find? (·.name == name) =
      (objects ⟨other, options⟩).find? (·.name == name) := by
  have hdistinct : ((objects ⟨registry, options⟩).map ObjectType.name).Nodup :=
    nodup_name_objects hc
  exact find?_key_perm hdistinct (objects_perm h) name

/-- Every entry is built alike, or fails with the same error. -/
theorem build_reordered (hc : registry.Consistent) (h : registry.Reordered other)
    (options : BuildOptions) (name : String) (entry : Registered) :
    Alike Eq TypeDefinition.SameUpToOrder (build ⟨registry, options⟩ name entry)
      (build ⟨other, options⟩ name entry) := by
  have hkinds := h.kindTable_agrees
  cases entry with
  | scalar type => exact .ok (.same _)
  | enum type => exact .ok (.same _)
  | object config =>
    refine Alike.of_eq .same ?_
    simp only [build, buildObject_reordered h]
  | union config =>
    refine Alike.of_eq .same ?_
    exact congrArg (Except.map _)
      (config.define_agrees hkinds (find?_objects_reordered hc h))
  | inputObject config =>
    refine Alike.of_eq .same ?_
    exact congrArg (Except.map _) (config.define_agrees hkinds)
  | interface config =>
    -- The fields are built alike; the implementations are a part of the objects.
    have hadded : registry.addedTo name = other.addedTo name := h.added name
    have hfields := defineFields_agrees hkinds config.name
      (config.fields.resolve.merge (other.addedTo name))
    simp only [build, InterfaceConfig.define, hadded, kinds, hfields]
    cases defineFields config.name other.kindTable
        (config.fields.resolve.merge (other.addedTo name)) with
    | error e => exact .error rfl
    | ok fields => exact .ok (.interface ⟨rfl, rfl, rfl, rfl, (objects_perm h).filter _⟩)

theorem get?_types_reordered (hc : registry.Consistent) (h : registry.Reordered other)
    (options : BuildOptions) (name : String) :
    Option.Rel TypeDefinition.SameUpToOrder ((types ⟨registry, options⟩).get? name)
      ((types ⟨other, options⟩).get? name) := by
  simp only [types, Keyed.get?_filterMap, h.get?_eq name]
  cases other.entries.get? name with
  | none => exact .none
  | some entry => exact (build_reordered hc h options name entry).toOption

end Publication

/-! ## Possible types -/

theorem InterfaceType.SameUpToOrder.isPossibleType_eq {interface other : InterfaceType}
    (h : interface.SameUpToOrder other) (object : String) :
    interface.isPossibleType object = other.isPossibleType object := by
  simp only [InterfaceType.isPossibleType, InterfaceType.possible_eq]
  exact (h.implementations.map ObjectType.name).contains_eq

theorem isPossibleIn_reordered {types others : Keyed TypeDefinition}
    (h : ∀ name, Option.Rel TypeDefinition.SameUpToOrder (types.get? name) (others.get? name))
    (object name : String) : isPossibleIn types object name = isPossibleIn others object name := by
  have hname := h name
  unfold isPossibleIn
  generalize types.get? name = found at hname
  generalize others.get? name = foundOther at hname
  cases hname with
  | none => rfl
  | some hsame =>
    cases hsame with
    | same type => rfl
    | interface hinterface => exact hinterface.isPossibleType_eq object

theorem isCovariant_reordered {types others : Keyed TypeDefinition}
    (h : ∀ name, Option.Rel TypeDefinition.SameUpToOrder (types.get? name) (others.get? name)) :
    isCovariant types = isCovariant others := by
  funext found expected
  rw [Bool.eq_iff_iff]
  have hpossible := isPossibleIn_reordered h
  constructor
  · exact isCovariant_mono fun object name hin => hpossible object name ▸ hin
  · exact isCovariant_mono fun object name hin => (hpossible object name).symm ▸ hin

/-! ## Errors -/

/-- The promises broken to a type, which make conformance errors if it is an interface. -/
def TypeDefinition.brokenPromises (types : Keyed TypeDefinition) : TypeDefinition → List TypeError
  | interface type => type.implementations.flatMap (checkImplementation types type)
  | _ => []

theorem conformanceErrors_eq (types : Keyed TypeDefinition) :
    conformanceErrors types = types.values.flatMap (TypeDefinition.brokenPromises types) := by
  refine congrArg (List.flatMap · types.values) (funext fun type => ?_)
  cases type <;> rfl

theorem brokenPromises_interface_perm {types others : Keyed TypeDefinition}
    (h : ∀ name, Option.Rel TypeDefinition.SameUpToOrder (types.get? name) (others.get? name))
    {interface other : InterfaceType} (hsame : interface.SameUpToOrder other) :
    (TypeDefinition.brokenPromises types (.interface interface)).Perm
      (TypeDefinition.brokenPromises others (.interface other)) := by
  have hcheck : checkImplementation types interface = checkImplementation others other := by
    funext object
    simp only [checkImplementation, checkField, isCovariant_reordered h, hsame.name, hsame.fields]
  simp only [TypeDefinition.brokenPromises, hcheck]
  exact hsame.implementations.flatMap_right _

theorem brokenPromises_perm {types others : Keyed TypeDefinition}
    (h : ∀ name, Option.Rel TypeDefinition.SameUpToOrder (types.get? name) (others.get? name))
    {type other : TypeDefinition} (hsame : type.SameUpToOrder other) :
    (type.brokenPromises types).Perm (other.brokenPromises others) := by
  cases hsame with
  | interface hinterface => exact brokenPromises_interface_perm h hinterface
  | same =>
    cases type with
    | interface interface => exact brokenPromises_interface_perm h ⟨rfl, rfl, rfl, rfl, .refl _⟩
    | _ => exact .refl _

namespace Publication

variable {registry other : TypeRegistry}

/-- The errors of conformance, entry by entry. -/
theorem conformanceErrors_types (publication : Publication) :
    conformanceErrors publication.types =
      publication.registry.entries.entries.flatMap fun named =>
        (publication.build named.1 named.2).toOption.toList.flatMap
          (TypeDefinition.brokenPromises publication.types) := by
  have hvalues : publication.types.values =
      publication.registry.entries.entries.flatMap fun named =>
        (publication.build named.1 named.2).toOption.toList := by
    rw [types, Keyed.values_filterMap, List.filterMap_eq_flatMap_toList]
  rw [conformanceErrors_eq, hvalues, List.flatMap_assoc]

theorem toList_brokenPromises_perm {types others : Keyed TypeDefinition}
    (h : ∀ name, Option.Rel TypeDefinition.SameUpToOrder (types.get? name) (others.get? name))
    {built builtOther : Option TypeDefinition}
    (hsame : Option.Rel TypeDefinition.SameUpToOrder built builtOther) :
    (built.toList.flatMap (TypeDefinition.brokenPromises types)).Perm
      (builtOther.toList.flatMap (TypeDefinition.brokenPromises others)) := by
  cases hsame with
  | none => exact .refl _
  | some hsame =>
    simp only [Option.toList_some, List.flatMap_cons, List.flatMap_nil, List.append_nil]
    exact brokenPromises_perm h hsame

theorem conformanceErrors_perm (hc : registry.Consistent) (h : registry.Reordered other)
    (options : BuildOptions) :
    (conformanceErrors (types ⟨registry, options⟩)).Perm
      (conformanceErrors (types ⟨other, options⟩)) := by
  have htypes := get?_types_reordered hc h options
  rw [conformanceErrors_types, conformanceErrors_types]
  refine h.entries.flatMap fun named _ => ?_
  exact toList_brokenPromises_perm htypes (build_reordered hc h options named.1 named.2).toOption

theorem errorsOfKind_perm (hc : registry.Consistent) (h : registry.Reordered other)
    (options : BuildOptions) (kind : TypeKind) :
    (errorsOfKind ⟨registry, options⟩ kind).Perm (errorsOfKind ⟨other, options⟩ kind) := by
  unfold errorsOfKind
  refine (h.entries.filterMap _).trans (List.Perm.of_eq ?_)
  refine congrArg (List.filterMap · _) (funext fun named => ?_)
  obtain ⟨name, entry⟩ := named
  have hbuild := build_reordered hc h options name entry
  dsimp only
  generalize build ⟨registry, options⟩ name entry = built at hbuild
  generalize build ⟨other, options⟩ name entry = builtOther at hbuild
  cases hbuild with
  | ok _ => rfl
  | error heq => subst heq; rfl

theorem errors_perm (hc : registry.Consistent) (h : registry.Reordered other)
    (options : BuildOptions) :
    (errors ⟨registry, options⟩).Perm (errors ⟨other, options⟩) := by
  refine .append ?_ ?_
  · exact .flatMap_left _ fun kind _ => errorsOfKind_perm hc h options kind
  · exact conformanceErrors_perm hc h options

end Publication

/-! ## Publication -/

/-- In whatever order a registry was filled, publication gives the same types, or fails
with the same errors in some order. -/
theorem publish_reordered {registry other : TypeRegistry} (hr : registry.Reachable)
    (h : registry.Reordered other) (options : BuildOptions) :
    Alike (fun failure others => failure.errors.Perm others.errors)
      (fun types others => ∀ name,
        Option.Rel TypeDefinition.SameUpToOrder (types.get? name) (others.get? name))
      (publish registry options) (publish other options) := by
  have hc := hr.consistent
  have hperm := Publication.errors_perm hc h options
  by_cases hnone : (Publication.mk registry options).errors = []
  · have hnoneOther : (Publication.mk other options).errors = [] := by
      rw [hnone] at hperm
      exact List.nil_perm.mp hperm
    simp only [publish, hnone, hnoneOther, List.isEmpty_nil, if_true]
    exact .ok (Publication.get?_types_reordered hc h options)
  · have hsomeOther : (Publication.mk other options).errors ≠ [] := by
      intro hnil
      rw [hnil] at hperm
      exact hnone (List.perm_nil.mp hperm)
    simp only [publish, List.isEmpty_iff, hnone, hsomeOther, if_false]
    exact .error hperm

/-- A query that answers with a union, its members, and an interface of both. -/
def pond : List Registration := [
  .object { name := "Query" },
  .union {
    name := "Swimmer"
    types := ["Frog", "Newt"]
    resolveType := some fun _ _ => some "Frog" },
  .interface {
    name := "Named"
    fields := .now (.ofList [("name", { type := .named "String" })])
    resolveType := some fun _ _ => none },
  .object {
    name := "Frog"
    fields := .now (.ofList [("name", { type := .named "String" })])
    interfaces := .now ["Named"] },
  .object {
    name := "Newt"
    fields := .now (.ofList [("name", { type := .nonNull (.named "String") })])
    interfaces := .now ["Named"] }]

/-- The registry of these calls and of a field added to the query. -/
def pondOf (calls : List Registration) : TypeRegistry :=
  TypeRegistry.standard.run (calls ++ [.addField "Query" "swims" { type := .named "Swimmer" }])

theorem pondOf_reordered : (pondOf pond).Reordered (pondOf pond.reverse) where
  entries := by
    have hforwards : (pondOf pond).entries.entries =
        TypeRegistry.standard.entries.entries ++
          (pondOf pond).entries.entries.drop BuiltinScalar.all.length := rfl
    have hbackwards : (pondOf pond.reverse).entries.entries =
        TypeRegistry.standard.entries.entries ++
          ((pondOf pond).entries.entries.drop BuiltinScalar.all.length).reverse := rfl
    rw [hbackwards]
    exact (List.Perm.of_eq hforwards).trans ((List.reverse_perm _).symm.append_left _)
  added := fun _ => rfl

/-- Forwards every reference is to a type that comes later, backwards to an earlier one. The
query is published with the field that was added to it, and the interface with both of its
implementations, in the order of their registration. -/
theorem pond_publish_reordered :
    (pondOf pond).Reachable ∧ (pondOf pond).Reordered (pondOf pond.reverse) ∧
      ∃ types others, publish (pondOf pond) {} = .ok types ∧
        publish (pondOf pond.reverse) {} = .ok others ∧
        (∀ name, Option.Rel TypeDefinition.SameUpToOrder (types.get? name) (others.get? name)) ∧
        (types.get? "Query").bind TypeDefinition.fieldTypes? =
          some [("swims", .named "Swimmer")] ∧
        (types.get? "Named").bind TypeDefinition.possibleNames? = some ["Frog", "Newt"] ∧
        (others.get? "Named").bind TypeDefinition.possibleNames? = some ["Newt", "Frog"] := by
  have hr : (pondOf pond).Reachable := TypeRegistry.Reachable.standard.run _
  have hsame := publish_reordered hr pondOf_reordered {}
  obtain ⟨types, htypes, hquery, hnamed⟩ : ∃ types, publish (pondOf pond) {} = .ok types ∧
      (types.get? "Query").bind TypeDefinition.fieldTypes? = some [("swims", .named "Swimmer")] ∧
      (types.get? "Named").bind TypeDefinition.possibleNames? = some ["Frog", "Newt"] :=
    exists_ok_of_check (by decide +kernel)
  obtain ⟨others, hothers, hturned⟩ : ∃ others, publish (pondOf pond.reverse) {} = .ok others ∧
      (others.get? "Named").bind TypeDefinition.possibleNames? = some ["Newt", "Frog"] :=
    exists_ok_of_check (by decide +kernel)
  rw [htypes, hothers] at hsame
  cases hsame with
  | ok hlookups =>
    exact ⟨hr, pondOf_reordered, types, others, htypes, hothers, hlookups, hquery, hnamed, hturned⟩

end GraphSchema

/-
  GraphSchema.Proofs.Schema.Mismatch — which field mismatches are reported.

  Promises are checked among the types that were built, even if others failed, so what an
  interface or union may turn out to be is only known in part. A mismatch is reported of a
  built object and a built interface that it lists exactly if the given type does not
  narrow the promised one, or if it does by the configurations and one of the two names it
  takes for that failed to be built (`mismatch_reported_iff`). In the second case the
  error of the failed type is repeated as a fault of a type that has none
  (`kennel_mismatch_unreal`); where nothing failed that the two types name, every mismatch
  is real.
-/

import GraphSchema.Proofs.Schema.Acceptance
import GraphSchema.Proofs.Schema.Errors

namespace GraphSchema

/-- An object lists an interface that is configured with a field of the expected type, and
is configured with that field itself, of the type found. -/
inductive TypeRegistry.Promises (registry : TypeRegistry) (interface object field : String)
    (expected found : TypeRef) : Prop
  | intro (interfaceConfig : InterfaceConfig) (objectConfig : ObjectConfig)
      (promised given : FieldConfig) :
      registry.entries.get? interface = some (.interface interfaceConfig) →
      registry.entries.get? object = some (.object objectConfig) →
      interface ∈ objectConfig.interfaces.resolve →
      (registry.merged interface interfaceConfig.fields).get? field = some promised →
      (registry.merged object objectConfig.fields).get? field = some given →
      promised.type = expected → given.type = found →
      Promises registry interface object field expected found

namespace Publication

variable {publication : Publication} {name : String}

/-- The entry of that name could not be built, and has an error of its own. -/
def Fails (publication : Publication) (name : String) : Prop :=
  ∃ entry error, publication.registry.entries.get? name = some entry ∧
    publication.build name entry = .error error

theorem fails_iff_not_built {entry : Registered}
    (hentry : publication.registry.entries.get? name = some entry) :
    publication.Fails name ↔ ¬ publication.Built name := by
  constructor
  · intro h hbuilt
    obtain ⟨failed, error, hfailed, herror⟩ := h
    obtain ⟨type, htype⟩ := hbuilt
    obtain ⟨other, hother, hbuilds⟩ := get?_types_eq_some_iff.mp htype
    cases Keyed.eq_of_get?_eq_get? hfailed hother
    rw [build_of_builds hbuilds] at herror
    cases herror
  · intro hnot
    cases hbuild : publication.build name entry with
    | error error => exact ⟨entry, error, hentry, hbuild⟩
    | ok type =>
      exact absurd ⟨type, get?_types_eq_some_iff.mpr ⟨entry, hentry, builds_of_build hbuild⟩⟩ hnot

/-! ## What was built -/

theorem get?_types_interface {config : InterfaceConfig}
    (hentry : publication.registry.entries.get? name = some (.interface config))
    (hbuilt : publication.Built name) :
    publication.types.get? name = some (.interface
      (config.published (publication.registry.addedTo name) publication.objects)) := by
  obtain ⟨type, htype⟩ := hbuilt
  obtain ⟨entry, hfound, hbuilds⟩ := get?_types_eq_some_iff.mp htype
  cases Keyed.eq_of_get?_eq_get? hentry hfound
  cases hbuilds with
  | interface _ _ => exact htype

/-- Types that end in different names need both to have been built. -/
theorem isCovariant_types_eq_true_iff (hc : publication.registry.Consistent)
    {found expected : TypeRef} :
    isCovariant publication.types found expected = true ↔
      found.Narrows publication.registry.Possible expected ∧
        (found.innermostName = expected.innermostName ∨
          publication.Built found.innermostName ∧ publication.Built expected.innermostName) := by
  have hunchained : ∀ object type, publication.registry.Possible object type →
      ∀ other, ¬ publication.registry.Possible other object :=
    fun _ _ hpossible _ => hpossible.unchained
  rw [isCovariant_eq_true_iff (unchained_types hc)]
  constructor
  · intro hnarrows
    refine ⟨hnarrows.mono fun _ _ => possible_of_isPossibleIn hc, ?_⟩
    have hunchainedTypes : ∀ object type, isPossibleIn publication.types object type = true →
        ∀ other, ¬ isPossibleIn publication.types other object = true := by
      intro object type hin other
      rw [unchained_types hc object type hin other]
      exact Bool.false_ne_true
    rcases hnarrows.innermostName_eq_or hunchainedTypes with hsame | hin
    · exact Or.inl hsame
    · exact Or.inr ((isPossibleIn_types_iff_built hc).mp hin).2
  · intro h
    obtain ⟨hnarrows, hnames⟩ := h
    refine hnarrows.of_innermostName hunchained ?_
    rcases hnames with hsame | hbuilt
    · exact Or.inl hsame
    · rcases hnarrows.innermostName_eq_or hunchained with hsame | hpossible
      · exact Or.inl hsame
      · exact Or.inr ((isPossibleIn_types_iff_built hc).mpr ⟨hpossible, hbuilt⟩)

/-- A type fails to narrow another among the types that were built if it does not by the
configurations, or if what it takes for that failed. -/
theorem isCovariant_types_eq_false_iff (hc : publication.registry.Consistent)
    {found expected : TypeRef} :
    isCovariant publication.types found expected = false ↔
      ¬ found.Narrows publication.registry.Possible expected ∨
        found.Narrows publication.registry.Possible expected ∧
          found.innermostName ≠ expected.innermostName ∧
          (publication.Fails found.innermostName ∨ publication.Fails expected.innermostName) := by
  rw [← Bool.not_eq_true, isCovariant_types_eq_true_iff hc]
  by_cases hnarrows : found.Narrows publication.registry.Possible expected
  · by_cases hsame : found.innermostName = expected.innermostName
    · simp [hnarrows, hsame]
    · have hpossible := (hnarrows.innermostName_eq_or fun _ _ hpossible _ =>
        hpossible.unchained).resolve_left hsame
      obtain ⟨config, hobject⟩ := hpossible.object
      obtain ⟨entry, hentry⟩ := hpossible.entry
      rw [fails_iff_not_built hobject, fails_iff_not_built hentry,
        ← Classical.not_and_iff_not_or_not]
      simp [hnarrows, hsame]
  · simp [hnarrows]

end Publication

/-! ## Reports -/

section

variable {types : Keyed TypeDefinition} {interface object field : String} {expected found : TypeRef}

theorem mismatch_not_mem_checkArgument {owner implementer name : String} {given : FieldDefinition}
    {argument : Argument} :
    .interfaceFieldMismatch interface object field expected found ∉
      checkArgument owner implementer name given argument := by
  unfold checkArgument
  split
  · simp
  · split <;> simp

theorem mismatch_mem_checkField_iff {owner name : String} {objectType : ObjectType}
    {promised : FieldDefinition} :
    .interfaceFieldMismatch interface object field expected found ∈
        checkField types owner objectType name promised ↔
      (owner = interface ∧ objectType.name = object ∧ name = field) ∧
        ∃ given, objectType.field? name = some given ∧
          (promised.type = expected ∧ given.type = found) ∧
          isCovariant types found expected = false := by
  unfold checkField
  cases objectType.field? name with
  | none => simp
  | some given =>
    have hargs : .interfaceFieldMismatch interface object field expected found ∉
        promised.args.flatMap (checkArgument owner objectType.name name given) := by
      intro h
      obtain ⟨argument, _, h⟩ := List.mem_flatMap.mp h
      exact mismatch_not_mem_checkArgument h
    simp only [List.mem_append, hargs, or_false, Option.some.injEq, exists_eq_left']
    cases hcovariant : isCovariant types given.type promised.type with
    | true =>
      simp only [if_true, List.not_mem_nil, false_iff]
      intro h
      obtain ⟨_, ⟨hexpected, hfound⟩, hnot⟩ := h
      rw [← hexpected, ← hfound, hcovariant] at hnot
      cases hnot
    | false =>
      simp only [Bool.false_eq_true, if_false, List.mem_singleton, TypeError.interfaceFieldMismatch.injEq]
      constructor
      · intro h
        obtain ⟨rfl, rfl, rfl, rfl, rfl⟩ := h
        exact ⟨⟨rfl, rfl, rfl⟩, ⟨rfl, rfl⟩, hcovariant⟩
      · intro h
        obtain ⟨⟨rfl, rfl, rfl⟩, ⟨rfl, rfl⟩, _⟩ := h
        exact ⟨rfl, rfl, rfl, rfl, rfl⟩

theorem mismatch_mem_checkImplementation_iff {interfaceType : InterfaceType}
    {objectType : ObjectType} :
    .interfaceFieldMismatch interface object field expected found ∈
        checkImplementation types interfaceType objectType ↔
      (interfaceType.name = interface ∧ objectType.name = object) ∧
        (∃ promised given, interfaceType.field? field = some promised ∧
          objectType.field? field = some given ∧ promised.type = expected ∧ given.type = found) ∧
        isCovariant types found expected = false := by
  simp only [checkImplementation, List.mem_flatMap, mismatch_mem_checkField_iff,
    InterfaceType.field?, Keyed.get?_eq_some_iff]
  constructor
  · intro h
    obtain ⟨⟨name, promised⟩, hpromised, ⟨hinterface, hobject, hname⟩, given, hgiven, ⟨he, hf⟩, hnot⟩ := h
    subst hname
    exact ⟨⟨hinterface, hobject⟩, ⟨promised, given, hpromised, hgiven, he, hf⟩, hnot⟩
  · intro h
    obtain ⟨⟨hinterface, hobject⟩, ⟨promised, given, hpromised, hgiven, he, hf⟩, hnot⟩ := h
    exact ⟨(field, promised), hpromised, ⟨hinterface, hobject, rfl⟩, given, hgiven, ⟨he, hf⟩, hnot⟩

end

namespace Publication

variable {publication : Publication} {interface object field : String} {expected found : TypeRef}

/-- The implementations of a built interface are the built objects that list it. -/
theorem mem_implementations_types_iff (hc : publication.registry.Consistent)
    {interfaceType : InterfaceType} {objectType : ObjectType} :
    publication.types.get? interface = some (.interface interfaceType) ∧
        objectType ∈ interfaceType.implementations ↔
      (publication.Built interface ∧ publication.Built objectType.name) ∧
        ∃ interfaceConfig objectConfig,
          publication.registry.entries.get? interface = some (.interface interfaceConfig) ∧
            publication.registry.entries.get? objectType.name = some (.object objectConfig) ∧
            interface ∈ objectConfig.interfaces.resolve ∧
            interfaceConfig.published (publication.registry.addedTo interface)
              publication.objects = interfaceType ∧
            objectConfig.published (publication.registry.addedTo objectType.name) = objectType := by
  constructor
  · intro h
    obtain ⟨htype, hmem⟩ := h
    obtain ⟨entry, hentry, hbuilds⟩ := get?_types_eq_some_iff.mp htype
    cases hbuilds with
    | interface interfaceConfig _ =>
      obtain ⟨hobjectMem, hpossible⟩ := (mem_implementations_iff hc hentry).mp hmem
      have hobjectType := (get?_types_eq_object_iff hc).mpr ⟨hobjectMem, rfl⟩
      refine ⟨⟨⟨_, htype⟩, ⟨_, hobjectType⟩⟩, ?_⟩
      obtain ⟨key, objectConfig, hobject, hbuild⟩ := mem_objects_iff.mp hobjectMem
      have hkey := buildObject_name hc hobject hbuild
      subst hkey
      cases hpossible with
      | implements config _ hconfig _ hlisted =>
        cases Keyed.eq_of_get?_eq_get? hobject hconfig
        exact ⟨interfaceConfig, objectConfig, hentry, hobject, hlisted, rfl,
          (buildObject_eq_ok_iff.mp hbuild).2⟩
      | member _ union _ hunion _ => cases Keyed.eq_of_get?_eq_get? hentry hunion
  · intro h
    obtain ⟨⟨hinterface, hobject⟩, interfaceConfig, objectConfig, hentry, hobjectEntry, hlisted,
      hinterfaceType, hobjectType⟩ := h
    subst hinterfaceType
    refine ⟨get?_types_interface hentry hinterface, (mem_implementations_iff hc hentry).mpr ⟨?_, ?_⟩⟩
    · rw [← hobjectType]
      exact (built_object_iff hc hobjectEntry).mp hobject
    · exact .implements objectConfig interfaceConfig hobjectEntry hentry hlisted

/-- A mismatch is reported between a built interface and a built object that lists it. -/
theorem mismatch_mem_errors_iff (hc : publication.registry.Consistent) :
    .interfaceFieldMismatch interface object field expected found ∈ publication.errors ↔
      publication.registry.Promises interface object field expected found ∧
        (publication.Built interface ∧ publication.Built object) ∧
        isCovariant publication.types found expected = false := by
  rw [mem_errors_iff]
  constructor
  · intro h
    rcases h with ⟨name, entry, _, herror⟩ | ⟨name, interfaceType, htype, objectType, hmem, h⟩
    · exact absurd (.field field expected found) (ownFault_of_build herror interface object)
    · obtain ⟨⟨hinterface, hobject⟩, ⟨promised, given, hpromised, hgiven, he, hf⟩, hnot⟩ :=
        mismatch_mem_checkImplementation_iff.mp h
      obtain ⟨hbuilt, interfaceConfig, objectConfig, hentry, hobjectEntry, hlisted, rfl, hpublished⟩ :=
        (mem_implementations_types_iff hc).mp ⟨htype, hmem⟩
      have hname : name = interface := (hc.named name _ hentry).1.symm.trans hinterface
      subst hname hobject
      rw [← hpublished] at hgiven
      obtain ⟨promisedConfig, hpromisedConfig, hpromised⟩ :=
        get?_publishedFields_eq_some_iff.mp hpromised
      obtain ⟨givenConfig, hgivenConfig, hgiven⟩ := get?_publishedFields_eq_some_iff.mp hgiven
      subst hpromised hgiven
      exact ⟨.intro interfaceConfig objectConfig promisedConfig givenConfig hentry hobjectEntry
        hlisted hpromisedConfig hgivenConfig he hf, hbuilt, hnot⟩
  · intro h
    obtain ⟨hpromises, hbuilt, hnot⟩ := h
    cases hpromises with
    | intro interfaceConfig objectConfig promised given hentry hobjectEntry hlisted hpromised
        hgiven he hf =>
      have hname : (objectConfig.published (publication.registry.addedTo object)).name = object :=
        (hc.named object _ hobjectEntry).1
      obtain ⟨htype, hmem⟩ := (mem_implementations_types_iff hc).mpr
        ⟨hname.symm ▸ hbuilt, interfaceConfig, objectConfig, hentry, hname.symm ▸ hobjectEntry,
          hlisted, rfl, by rw [hname]⟩
      refine Or.inr ⟨interface, _, htype, _, hmem, mismatch_mem_checkImplementation_iff.mpr
        ⟨⟨(hc.named interface _ hentry).1, hname⟩, ?_, hnot⟩⟩
      exact ⟨_, _, get?_publishedFields_eq_some_iff.mpr ⟨promised, hpromised, rfl⟩,
        get?_publishedFields_eq_some_iff.mpr ⟨given, hgiven, rfl⟩, he, hf⟩

end Publication

/-- A mismatch is reported exactly if the object was built, lists the interface, which was
built too, and gives the field another type than promised, one that
- does not narrow the promised type, by the configurations, or
- does, but not among the types that were built: the two end in different names, and what
  is registered under one of the names failed with an error of its own. -/
theorem mismatch_reported_iff {registry : TypeRegistry} (hr : registry.Reachable)
    {options : BuildOptions} {failure : SchemaError} (h : publish registry options = .error failure)
    {interface object field : String} {expected found : TypeRef} :
    .interfaceFieldMismatch interface object field expected found ∈ failure.errors ↔
      registry.Promises interface object field expected found ∧
        (Publication.Built ⟨registry, options⟩ interface ∧
          Publication.Built ⟨registry, options⟩ object) ∧
        (¬ found.Narrows registry.Possible expected ∨
          found.Narrows registry.Possible expected ∧
            found.innermostName ≠ expected.innermostName ∧
            (Publication.Fails ⟨registry, options⟩ found.innermostName ∨
              Publication.Fails ⟨registry, options⟩ expected.innermostName)) := by
  rw [← (publish_eq_error_iff.mp h).2, Publication.mismatch_mem_errors_iff hr.consistent,
    Publication.isCovariant_types_eq_false_iff hr.consistent]

/-- A cat's friend is a dog, which is the one pet there is; but dogs have no fields. -/
def kennel : TypeRegistry :=
  TypeRegistry.standard.run [
    .union { name := "Pet", types := ["Dog"], resolveType := some fun _ _ => none },
    .interface {
      name := "Animal"
      fields := .now (.ofList [("friend", { type := .named "Pet" })])
      resolveType := some fun _ _ => none },
    .object {
      name := "Cat"
      fields := .now (.ofList [("friend", { type := .named "Dog" })])
      interfaces := .now ["Animal"] },
    .object { name := "Dog" },
    .object { name := "Query", fields := .now (.ofList [("cat", { type := .named "Cat" })]) }]

theorem kennel_reachable : kennel.Reachable := TypeRegistry.Reachable.standard.run _

theorem dog_narrows_pet : (TypeRef.named "Dog").Narrows kennel.Possible (.named "Pet") :=
  .named (.member _ _ rfl rfl (.head _))

def kennelErrors : List TypeError := [
  .emptyFields "Dog",
  .interfaceFieldMismatch "Animal" "Cat" "friend" (.named "Pet") (.named "Dog")]

theorem publish_kennel : publish kennel {} = .error ⟨kennelErrors⟩ := by
  rw [publish_eq_error_iff]
  decide +kernel

theorem pet_built : Publication.Built ⟨kennel, {}⟩ "Pet" :=
  Option.isSome_iff_exists.mp (by decide +kernel)

/-- The mismatch is reported since dogs could not be built. -/
theorem kennel_mismatch_reported :
    publish kennel {} = .error ⟨kennelErrors⟩ ∧
      kennel.Promises "Animal" "Cat" "friend" (.named "Pet") (.named "Dog") ∧
      Publication.Fails ⟨kennel, {}⟩ "Dog" := by
  have h := publish_kennel
  have hmem : .interfaceFieldMismatch "Animal" "Cat" "friend" (.named "Pet") (.named "Dog") ∈
      SchemaError.errors ⟨kennelErrors⟩ := .tail _ (.head _)
  obtain ⟨hpromises, _, hwhy⟩ := (mismatch_reported_iff kennel_reachable h).mp hmem
  rcases hwhy with hnot | ⟨_, _, hdog | hpet⟩
  · exact absurd dog_narrows_pet hnot
  · exact ⟨h, hpromises, hdog⟩
  · exact absurd pet_built ((Publication.fails_iff_not_built rfl).mp hpet)

/-- Where a member of a union fails, its error is not repeated for the union; but an object
that promises the union and gives the member has a mismatch besides. -/
theorem kennel_mismatch_unreal :
    publish kennel {} = .error ⟨kennelErrors⟩ ∧
      .interfaceFieldMismatch "Animal" "Cat" "friend" (.named "Pet") (.named "Dog") ∈ kennelErrors ∧
      (TypeRef.named "Dog").Narrows kennel.Possible (.named "Pet") :=
  ⟨publish_kennel, .tail _ (.head _), dog_narrows_pet⟩

end GraphSchema

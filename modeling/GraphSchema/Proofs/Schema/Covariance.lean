/-
  GraphSchema.Proofs.Schema.Covariance — what the check of promises decides.

  Promises are checked against the types that could be built, also where others failed and
  nothing will be published. Among them an object is below the interfaces and unions it is
  a possible type of (`PossibleAmong`), and references are ordered by the least order that
  respects this, lets `T!` stand in for `T` and goes through lists and markers. The check
  takes the first rule that fits and goes back on none, and still decides this order
  (`covariance_decided`): a marker that only the found reference has may be taken off
  before or after those that both have, and what has possible types is never possible
  itself.
  - `isCovariant_antisymm`: references that may stand in for each other are the same.
-/

import GraphSchema.Proofs.Schema.Assembly
import GraphSchema.Proofs.Schema.Mismatch

namespace GraphSchema

/-- An object that an interface or union among the types may turn out to be. -/
inductive PossibleAmong (types : Keyed TypeDefinition) : String → String → Prop
  | implementation {name : String} {interface : InterfaceType} {object : ObjectType} :
      types.get? name = some (.interface interface) → object ∈ interface.implementations →
      PossibleAmong types object.name name
  | member {name : String} {union : UnionType} {object : ObjectType} :
      types.get? name = some (.union union) → object ∈ union.types →
      PossibleAmong types object.name name

variable {types : Keyed TypeDefinition} {found expected : TypeRef}

theorem possibleAmong_iff {object name : String} :
    PossibleAmong types object name ↔ isPossibleIn types object name = true := by
  rw [isPossibleIn_eq_true_iff]
  constructor
  · intro h
    cases h with
    | implementation hname hobject => exact ⟨_, by rw [hname]; rfl, _, hobject, rfl⟩
    | member hname hobject => exact ⟨_, by rw [hname]; rfl, _, hobject, rfl⟩
  · intro h
    obtain ⟨type, htype, possible, hpossible, hobject⟩ := h
    obtain ⟨definition, hname, habstract⟩ := Option.bind_eq_some_iff.mp htype
    subst hobject
    cases definition with
    | interface interface =>
      cases habstract
      exact .implementation hname hpossible
    | union union =>
      cases habstract
      exact .member hname hpossible
    | _ => cases habstract

theorem isCovariant_iff_narrows (hu : Unchained types) :
    isCovariant types found expected = true ↔ found.Narrows (PossibleAmong types) expected := by
  rw [isCovariant_eq_true_iff hu]
  constructor
  · exact TypeRef.Narrows.mono fun _ _ => possibleAmong_iff.mpr
  · exact TypeRef.Narrows.mono fun _ _ => possibleAmong_iff.mp

theorem isCovariant_named_antisymm (hu : Unchained types) {found expected : String}
    (h₁ : isCovariant types (.named found) (.named expected) = true)
    (h₂ : isCovariant types (.named expected) (.named found) = true) : found = expected := by
  rcases isCovariant_named.mp h₁ with heq | hfound
  · exact heq
  · rcases isCovariant_named.mp h₂ with heq | hexpected
    · exact heq.symm
    · rw [hu found expected hfound expected] at hexpected
      cases hexpected

/-- The two have their markers and lists in the same places, since a marker that only one
of them has cannot be promised by the other. -/
theorem isCovariant_antisymm (hu : Unchained types) (h₁ : isCovariant types found expected = true)
    (h₂ : isCovariant types expected found = true) : found = expected := by
  induction found generalizing expected with
  | named name =>
    cases expected with
    | named other => exact congrArg _ (isCovariant_named_antisymm hu h₁ h₂)
    | _ => cases h₁
  | list item ih =>
    cases expected with
    | list other => exact congrArg _ (ih h₁ h₂)
    | _ => cases h₁
  | nonNull item ih =>
    cases expected with
    | nonNull other => exact congrArg _ (ih h₁ h₂)
    | _ => cases h₂

/-- Names do not chain among the types that promises are checked against. -/
theorem unchained_ofRegistry {registry : TypeRegistry} (hc : registry.Consistent)
    (options : BuildOptions) : Unchained (Assembly.ofRegistry registry options).types := by
  have htypes := Publication.get?_types_ofRegistry ⟨registry, options⟩ hc
  have hsame : ∀ object name, isPossibleIn (Assembly.ofRegistry registry options).types object name =
      isPossibleIn (Publication.mk registry options).types object name :=
    fun object name => by rw [isPossibleIn, htypes name, isPossibleIn]
  intro object name hpossible other
  rw [hsame] at hpossible ⊢
  exact Publication.unchained_types hc object name hpossible other

/-- While any registry is published, the check decides the least order of references, which
is a partial order. -/
theorem covariance_decided {registry : TypeRegistry} (hr : registry.Reachable)
    (options : BuildOptions) {types : Keyed TypeDefinition}
    (htypes : (Assembly.ofRegistry registry options).types = types) :
    (∀ found expected, isCovariant types found expected = true ↔
        found.Narrows (PossibleAmong types) expected) ∧
      (∀ type, isCovariant types type type = true) ∧
      (∀ found middle expected, isCovariant types found middle = true →
        isCovariant types middle expected = true → isCovariant types found expected = true) ∧
      ∀ found expected, isCovariant types found expected = true →
        isCovariant types expected found = true → found = expected := by
  have hu : Unchained types := htypes ▸ unchained_ofRegistry hr.consistent options
  exact ⟨fun _ _ => isCovariant_iff_narrows hu, isCovariant_refl types,
    fun _ _ _ => isCovariant_trans hu, fun _ _ => isCovariant_antisymm hu⟩

/-- Nothing is published of the kennel, where dogs could not be built. During the check
cats are animals, under markers of any number, and dogs are no pets. -/
theorem kennel_covariance_decided :
    publish kennel {} = .error ⟨kennelErrors⟩ ∧
      ∃ types, (Assembly.ofRegistry kennel {}).types = types ∧
        (TypeRef.nonNull (.nonNull (.list (.nonNull (.named "Cat"))))).Narrows (PossibleAmong types)
          (.nonNull (.list (.named "Animal"))) ∧
        ¬ (TypeRef.named "Dog").Narrows (PossibleAmong types) (.named "Pet") := by
  obtain ⟨hdecides, _⟩ := covariance_decided kennel_reachable {} rfl
  refine ⟨publish_kennel, _, rfl, (hdecides _ _).mp (by decide +kernel), ?_⟩
  intro hnarrows
  have hfails : isCovariant (Assembly.ofRegistry kennel {}).types (.named "Dog") (.named "Pet") =
      false := by decide +kernel
  rw [(hdecides _ _).mpr hnarrows] at hfails
  cases hfails

end GraphSchema

/-
  GraphSchema.Proofs.Schema.Narrowing — which references may stand in for which.

  The check walks down both references at once and takes the first rule that fits. What
  it decides is the least reflexive and transitive relation in which an object is below
  the types it may be a value of, `T!` is below `T`, and markers keep the order
  (`isCovariant_eq_true_iff`): no such type is itself an object, so there are no chains of
  names to follow. A narrower reference has the same lists, at least the same non-null
  markers at each level (`Narrows.nonNullAt`), and ends in a name that is narrower
  (`Narrows.innermostName`).
-/

import Mathlib.Logic.Relation
import GraphSchema.Schema.Conformance

namespace GraphSchema

namespace TypeRef

inductive Narrows (possible : String → String → Prop) : TypeRef → TypeRef → Prop
  | refl (type : TypeRef) : Narrows possible type type
  | trans {found middle expected : TypeRef} :
      Narrows possible found middle → Narrows possible middle expected →
      Narrows possible found expected
  | named {object type : String} :
      possible object type → Narrows possible (.named object) (.named type)
  | unmark (type : TypeRef) : Narrows possible (.nonNull type) type
  | list {found expected : TypeRef} :
      Narrows possible found expected → Narrows possible (.list found) (.list expected)
  | nonNull {found expected : TypeRef} :
      Narrows possible found expected → Narrows possible (.nonNull found) (.nonNull expected)

/-- How many lists stand around the name. -/
def listDepth : TypeRef → Nat
  | named _ => 0
  | list item => item.listDepth + 1
  | nonNull item => item.listDepth

/-- Whether there is a non-null marker inside that many lists, counted from outside. -/
def nonNullAt : TypeRef → Nat → Bool
  | named _, _ => false
  | list _, 0 => false
  | list item, level + 1 => item.nonNullAt level
  | nonNull _, 0 => true
  | nonNull item, level + 1 => item.nonNullAt (level + 1)

/-! ## What a narrower reference keeps -/

namespace Narrows

variable {possible : String → String → Prop} {found expected : TypeRef}

theorem mono {other : String → String → Prop}
    (hsub : ∀ object type, possible object type → other object type)
    (h : Narrows possible found expected) : Narrows other found expected := by
  induction h with
  | refl type => exact .refl type
  | trans _ _ ih₁ ih₂ => exact .trans ih₁ ih₂
  | named hpossible => exact .named (hsub _ _ hpossible)
  | unmark type => exact .unmark type
  | list _ ih => exact .list ih
  | nonNull _ ih => exact .nonNull ih

theorem listDepth (h : Narrows possible found expected) :
    found.listDepth = expected.listDepth := by
  induction h with
  | refl type => rfl
  | trans _ _ ih₁ ih₂ => exact ih₁.trans ih₂
  | named _ => rfl
  | unmark type => rfl
  | list _ ih => exact congrArg (· + 1) ih
  | nonNull _ ih => exact ih

theorem nonNullAt (h : Narrows possible found expected) {level : Nat}
    (hlevel : expected.nonNullAt level = true) : found.nonNullAt level = true := by
  induction h generalizing level with
  | refl type => exact hlevel
  | trans _ _ ih₁ ih₂ => exact ih₁ (ih₂ hlevel)
  | named _ => cases hlevel
  | unmark type =>
    cases level with
    | zero => rfl
    | succ level => exact hlevel
  | list _ ih =>
    cases level with
    | zero => cases hlevel
    | succ level => exact ih hlevel
  | nonNull _ ih =>
    cases level with
    | zero => rfl
    | succ level => exact ih hlevel

theorem innermostName (h : Narrows possible found expected) :
    Relation.ReflTransGen possible found.innermostName expected.innermostName := by
  induction h with
  | refl type => exact .refl
  | trans _ _ ih₁ ih₂ => exact ih₁.trans ih₂
  | named hpossible => exact .single hpossible
  | unmark type => exact .refl
  | list _ ih => exact ih
  | nonNull _ ih => exact ih

/-- Where names do not chain, a narrower name is the same or possible in the other. -/
theorem innermostName_eq_or (hu : ∀ object type, possible object type →
      ∀ other, ¬ possible other object)
    (h : Narrows possible found expected) :
    found.innermostName = expected.innermostName ∨
      possible found.innermostName expected.innermostName := by
  induction h with
  | refl type => exact Or.inl rfl
  | trans _ _ ih₁ ih₂ =>
    rcases ih₁ with hsame | hfound
    · exact hsame ▸ ih₂
    · rcases ih₂ with hsame | hmiddle
      · exact Or.inr (hsame ▸ hfound)
      · exact absurd hfound (hu _ _ hmiddle _)
  | named hpossible => exact Or.inr hpossible
  | unmark type => exact Or.inl rfl
  | list _ ih => exact ih
  | nonNull _ ih => exact ih

/-- Of the possible types only those of the two names matter. -/
theorem of_innermostName {other : String → String → Prop}
    (hu : ∀ object type, possible object type → ∀ other, ¬ possible other object)
    (h : Narrows possible found expected)
    (hnames : found.innermostName = expected.innermostName ∨
      other found.innermostName expected.innermostName) :
    Narrows other found expected := by
  induction h with
  | refl type => exact .refl type
  | trans h₁ h₂ ih₁ ih₂ =>
    -- One of the two steps keeps the name, so the other step makes the whole change.
    rcases h₁.innermostName_eq_or hu with hsame | hfound
    · exact .trans (ih₁ (Or.inl hsame)) (ih₂ (hsame ▸ hnames))
    · rcases h₂.innermostName_eq_or hu with hsame | hmiddle
      · exact .trans (ih₁ (hsame ▸ hnames)) (ih₂ (Or.inl hsame))
      · exact absurd hfound (hu _ _ hmiddle _)
  | @named object type hpossible =>
    rcases hnames with hsame | hother
    · have hname : object = type := hsame
      exact hname ▸ .refl _
    · exact .named hother
  | unmark type => exact .unmark type
  | list _ ih => exact .list (ih hnames)
  | nonNull _ ih => exact .nonNull (ih hnames)

end Narrows

end TypeRef

/-! ## The check -/

variable {types : Keyed TypeDefinition} {found middle expected : TypeRef}

theorem isCovariant_named {found expected : String} :
    isCovariant types (.named found) (.named expected) = true ↔
      found = expected ∨ isPossibleIn types found expected = true := by
  simp [isCovariant]

theorem isCovariant_refl (types : Keyed TypeDefinition) (type : TypeRef) :
    isCovariant types type type = true := by
  induction type with
  | named name => exact isCovariant_named.mpr (Or.inl rfl)
  | list item ih => exact ih
  | nonNull item ih => exact ih

/-- More possible types let more references stand in. -/
theorem isCovariant_mono {others : Keyed TypeDefinition}
    (hsub : ∀ object type, isPossibleIn types object type = true →
      isPossibleIn others object type = true)
    (h : isCovariant types found expected = true) : isCovariant others found expected = true := by
  induction found generalizing expected with
  | named name =>
    cases expected with
    | named expected => exact isCovariant_named.mpr ((isCovariant_named.mp h).imp_right (hsub _ _))
    | _ => cases h
  | list item ih =>
    cases expected with
    | list expected =>
      have hitem : isCovariant others item expected = true := ih h
      exact hitem
    | _ => cases h
  | nonNull item ih =>
    cases expected with
    | named expected =>
      have hitem : isCovariant others item (.named expected) = true := ih h
      exact hitem
    | list expected =>
      have hitem : isCovariant others item (.list expected) = true := ih h
      exact hitem
    | nonNull expected =>
      have hitem : isCovariant others item expected = true := ih h
      exact hitem

theorem isCovariant_of_nonNull (h : isCovariant types found (.nonNull expected) = true) :
    isCovariant types found expected = true := by
  induction found generalizing expected with
  | named name => cases h
  | list item _ => cases h
  | nonNull item ih =>
    have hitem : isCovariant types item expected = true := h
    cases expected with
    | named name => exact hitem
    | list expected => exact hitem
    | nonNull expected => exact ih hitem

/-- The rule for a marker that only the found reference has, for every expected one. -/
theorem isCovariant_nonNull (h : isCovariant types found expected = true) :
    isCovariant types (.nonNull found) expected = true := by
  cases expected with
  | named name => exact h
  | list expected => exact h
  | nonNull expected => exact isCovariant_of_nonNull h

/-- Names never chain: what is possible in a type has no possible types itself. -/
def Unchained (types : Keyed TypeDefinition) : Prop :=
  ∀ object type, isPossibleIn types object type = true →
    ∀ other, isPossibleIn types other object = false

theorem isCovariant_named_trans (hu : Unchained types) {found middle expected : String}
    (h₁ : isCovariant types (.named found) (.named middle) = true)
    (h₂ : isCovariant types (.named middle) (.named expected) = true) :
    isCovariant types (.named found) (.named expected) = true := by
  rcases isCovariant_named.mp h₁ with heq | hfound
  · exact heq ▸ h₂
  · rcases isCovariant_named.mp h₂ with heq | hmiddle
    · exact heq ▸ h₁
    · rw [hu middle expected hmiddle found] at hfound
      cases hfound

theorem isCovariant_trans (hu : Unchained types) (h₁ : isCovariant types found middle = true)
    (h₂ : isCovariant types middle expected = true) :
    isCovariant types found expected = true := by
  induction found generalizing middle expected with
  | named name =>
    cases middle with
    | named middle =>
      cases expected with
      | named expected => exact isCovariant_named_trans hu h₁ h₂
      | _ => cases h₂
    | _ => cases h₁
  | list item ih =>
    cases middle with
    | list middle =>
      cases expected with
      | list expected =>
        have hitem : isCovariant types item expected = true := ih h₁ h₂
        exact hitem
      | _ => cases h₂
    | _ => cases h₁
  | nonNull item ih =>
    cases middle with
    | named middle => exact isCovariant_nonNull (ih h₁ h₂)
    | list middle => exact isCovariant_nonNull (ih h₁ h₂)
    | nonNull middle =>
      cases expected with
      | named expected => exact isCovariant_nonNull (ih h₁ h₂)
      | list expected => exact isCovariant_nonNull (ih h₁ h₂)
      | nonNull expected =>
        have hitem : isCovariant types item expected = true := ih h₁ h₂
        exact hitem

theorem narrows_of_isCovariant (h : isCovariant types found expected = true) :
    TypeRef.Narrows (fun object type => isPossibleIn types object type = true) found expected := by
  induction found generalizing expected with
  | named name =>
    cases expected with
    | named expected =>
      rcases isCovariant_named.mp h with heq | hpossible
      · exact heq ▸ .refl _
      · exact .named hpossible
    | _ => cases h
  | list item ih =>
    cases expected with
    | list expected => exact .list (ih h)
    | _ => cases h
  | nonNull item ih =>
    cases expected with
    | named expected => exact .trans (.unmark item) (ih h)
    | list expected => exact .trans (.unmark item) (ih h)
    | nonNull expected => exact .nonNull (ih h)

theorem isCovariant_of_narrows (hu : Unchained types)
    (h : TypeRef.Narrows (fun object type => isPossibleIn types object type = true)
      found expected) :
    isCovariant types found expected = true := by
  induction h with
  | refl type => exact isCovariant_refl types type
  | trans _ _ ih₁ ih₂ => exact isCovariant_trans hu ih₁ ih₂
  | named hpossible => exact isCovariant_named.mpr (Or.inr hpossible)
  | unmark type => exact isCovariant_nonNull (isCovariant_refl types type)
  | list _ ih => exact ih
  | nonNull _ ih => exact ih

theorem isCovariant_eq_true_iff (hu : Unchained types) :
    isCovariant types found expected = true ↔
      TypeRef.Narrows (fun object type => isPossibleIn types object type = true)
        found expected :=
  ⟨narrows_of_isCovariant, isCovariant_of_narrows hu⟩

end GraphSchema

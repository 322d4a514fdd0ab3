/-
  GraphSchema.Proofs.Json.Inside — a value and what stands inside it.

  Items and members are values again, so what is said of a value at every depth is said of
  each value that stands inside it (`Inside`, `Everywhere`): that it is no floating number, or
  no floating zero (`FloatFree`, `ZeroFree`), that as an object it has no two members of one
  name (`Distinct`) and that its names are valid (`Named`). A proof by induction on a value
  has two steps, from the items to the array and from the members to the object
  (`inductionOn`).
-/

import GraphSchema.Json.Basic
import GraphSchema.Proofs.Collection.Sorted

namespace GraphSchema

namespace Json

/-- The value has neither items nor members. -/
def isLeaf : Json → Bool
  | .array _ | .object _ => false
  | _ => true

theorem sizeOf_item_lt {item : Json} {items : List Json} (h : item ∈ items) :
    sizeOf item < sizeOf (array items) := by
  have := List.sizeOf_lt_of_mem h
  rw [array.sizeOf_spec]
  omega

theorem sizeOf_member_lt {name : String} {value : Json} {members : List (String × Json)}
    (h : (name, value) ∈ members) : sizeOf value < sizeOf (object members) := by
  have := List.sizeOf_lt_of_mem h
  rw [object.sizeOf_spec]
  rw [Prod.mk.sizeOf_spec] at this
  omega

/-- From the items to the array, from the members to the object. -/
@[elab_as_elim]
theorem inductionOn {motive : Json → Prop}
    (leaf : ∀ value, value.isLeaf = true → motive value)
    (array : ∀ items, (∀ item ∈ items, motive item) → motive (.array items))
    (object : ∀ members, (∀ name value, (name, value) ∈ members → motive value) →
      motive (.object members)) (value : Json) : motive value :=
  match value with
  | .array items => array items fun item _ => inductionOn leaf array object item
  | .object members => object members fun _ value _ => inductionOn leaf array object value
  | .null => leaf _ rfl
  | .bool _ => leaf _ rfl
  | .int _ => leaf _ rfl
  | .float _ => leaf _ rfl
  | .string _ => leaf _ rfl
termination_by sizeOf value
decreasing_by
  · exact sizeOf_item_lt ‹_›
  · exact sizeOf_member_lt ‹_›

/-! ## Inside -/

/-- The value itself, or something inside an item or a member of it. -/
inductive Inside (inner : Json) : Json → Prop
  | self : Inside inner inner
  | item {item : Json} {items : List Json} : item ∈ items → Inside inner item →
      Inside inner (.array items)
  | member {name : String} {value : Json} {members : List (String × Json)} :
      (name, value) ∈ members → Inside inner value → Inside inner (.object members)

def Everywhere (p : Json → Prop) (value : Json) : Prop :=
  ∀ inner : Json, inner.Inside value → p inner

section

variable {p : Json → Prop}

theorem everywhere_leaf_iff {value : Json} (h : value.isLeaf = true) :
    value.Everywhere p ↔ p value := by
  constructor
  · exact fun hall => hall value .self
  · intro hp inner hinner
    cases hinner with
    | self => exact hp
    | item _ _ => cases h
    | member _ _ => cases h

theorem everywhere_array_iff {items : List Json} :
    (array items).Everywhere p ↔ p (.array items) ∧ ∀ item ∈ items, item.Everywhere p := by
  constructor
  · exact fun hall => ⟨hall _ .self, fun item hitem inner hinner => hall inner (.item hitem hinner)⟩
  · intro h inner hinner
    cases hinner with
    | self => exact h.1
    | item hitem hinner => exact h.2 _ hitem inner hinner

theorem everywhere_object_iff {members : List (String × Json)} :
    (object members).Everywhere p ↔
      p (.object members) ∧ ∀ name value, (name, value) ∈ members → value.Everywhere p := by
  constructor
  · exact fun hall =>
      ⟨hall _ .self, fun _ _ hmember inner hinner => hall inner (.member hmember hinner)⟩
  · intro h inner hinner
    cases hinner with
    | self => exact h.1
    | member hmember hinner => exact h.2 _ _ hmember inner hinner

end

/-- No floating number stands inside. -/
def FloatFree : Json → Prop := Everywhere fun inner => ∀ x, inner ≠ .float x

/-- No floating zero stands inside, of either sign. -/
def ZeroFree : Json → Prop := Everywhere fun inner => ∀ x, inner = .float x → x.isZero = false

theorem FloatFree.zeroFree {value : Json} (h : value.FloatFree) : value.ZeroFree :=
  fun inner hinside x heq => absurd heq (h inner hinside x)

/-- No object inside has two members of one name. -/
def Distinct : Json → Prop :=
  Everywhere fun inner => ∀ members, inner = .object members → (members.map Prod.fst).Nodup

/-- All names inside are valid. -/
def Named (valid : String → Prop) : Json → Prop :=
  Everywhere fun inner => ∀ members, inner = .object members → ∀ m ∈ members, valid m.1

section

variable {valid : String → Prop}

theorem named_leaf {value : Json} (h : value.isLeaf = true) : value.Named valid := by
  refine (everywhere_leaf_iff h).mpr fun members heq => ?_
  rw [heq] at h
  cases h

theorem named_array_iff {items : List Json} :
    (array items).Named valid ↔ ∀ item ∈ items, item.Named valid := by
  rw [Named, everywhere_array_iff, and_iff_right fun _ heq => by cases heq]

theorem named_object_iff {members : List (String × Json)} :
    (object members).Named valid ↔ ∀ m ∈ members, valid m.1 ∧ m.2.Named valid := by
  rw [Named, everywhere_object_iff]
  constructor
  · exact fun h m hm => ⟨h.1 members rfl m hm, h.2 m.1 m.2 hm⟩
  · intro h
    refine ⟨fun others heq => ?_, fun name value hmember => (h _ hmember).2⟩
    cases heq
    exact fun m hm => (h m hm).1

end

/-! ## Canonical values -/

theorem canonical_array_iff {items : List Json} :
    (array items).Canonical ↔ ∀ item ∈ items, item.Canonical := by
  rw [Canonical]
  induction items with
  | nil => simp [CanonicalItems]
  | cons item rest ih => rw [CanonicalItems, ih, List.forall_mem_cons]

theorem canonicalMembers_iff {members : List (String × Json)} :
    CanonicalMembers members ↔ ∀ name value, (name, value) ∈ members → value.Canonical := by
  induction members with
  | nil => simp [CanonicalMembers]
  | cons m rest ih =>
    obtain ⟨name, value⟩ := m
    rw [CanonicalMembers, ih]
    constructor
    · intro h other inner hmem
      rcases List.mem_cons.mp hmem with heq | hrest
      · cases heq
        exact h.1
      · exact h.2 other inner hrest
    · exact fun h => ⟨h name value (List.mem_cons_self ..),
        fun other inner hrest => h other inner (List.mem_cons_of_mem _ hrest)⟩

theorem canonical_object_iff {members : List (String × Json)} :
    (object members).Canonical ↔ members.Pairwise (fun x y => x.1 < y.1) ∧
      ∀ name value, (name, value) ∈ members → value.Canonical := by
  rw [Canonical, canonicalMembers_iff]

theorem Canonical.distinct {value : Json} (h : value.Canonical) : value.Distinct := by
  induction value using inductionOn with
  | leaf value hleaf =>
    refine (everywhere_leaf_iff hleaf).mpr fun members heq => ?_
    rw [heq] at hleaf
    cases hleaf
  | array items ih =>
    refine everywhere_array_iff.mpr ⟨fun members heq => ?_, fun item hitem => ?_⟩
    · cases heq
    · exact ih item hitem (canonical_array_iff.mp h item hitem)
  | object members ih =>
    obtain ⟨hsorted, hvalues⟩ := canonical_object_iff.mp h
    refine everywhere_object_iff.mpr ⟨fun others heq => ?_, fun name value hmember => ?_⟩
    · cases heq
      exact nodup_of_increasing hsorted
    · exact ih name value hmember (hvalues name value hmember)

end Json

end GraphSchema

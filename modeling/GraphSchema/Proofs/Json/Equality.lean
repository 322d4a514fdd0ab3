/-
  GraphSchema.Proofs.Json.Equality — when two values are equal.

  Values are equal item by item and name by name, whatever order members are written in, and
  their numbers as numbers (`Equals`). A runtime value keeps its members sorted by name
  (`canonical_sortMembers`), so that programs compare two of them place by place (`same`). The
  two notions agree: a canonical value equals one as it is written exactly if it is the same
  as that one sorted (`equals_iff_same`). Without floating numbers it then is that one
  (`equals_iff_eq`); with them the two may differ in the signs of zeros, and in nothing else
  (`eq_of_same`).
-/

import GraphSchema.Proofs.Json.Inside

namespace GraphSchema

namespace Json

/-- Equal as values, with members in any order. -/
inductive Equals : Json → Json → Prop
  | null : Equals .null .null
  | bool (b : Bool) : Equals (.bool b) (.bool b)
  | int (n : Int) : Equals (.int n) (.int n)
  | float {x y : Double} : x.same y = true → Equals (.float x) (.float y)
  | string (s : String) : Equals (.string s) (.string s)
  | array {as bs : List Json} : as.length = bs.length → (∀ a b, (a, b) ∈ as.zip bs → Equals a b) →
      Equals (.array as) (.array bs)
  | object {as bs : List (String × Json)} :
      (∀ name, name ∈ as.map Prod.fst ↔ name ∈ bs.map Prod.fst) →
      (∀ name a b, (name, a) ∈ as → (name, b) ∈ bs → Equals a b) →
      Equals (.object as) (.object bs)

/-! ## Sorting -/

theorem sortItems_eq_map (items : List Json) :
    sortMembers.sortItems items = items.map sortMembers := by
  induction items with
  | nil => rfl
  | cons item rest ih => rw [sortMembers.sortItems, ih, List.map_cons]

/-- A member with its value sorted. -/
def sortValue (m : String × Json) : String × Json := (m.1, m.2.sortMembers)

theorem sortValues_eq_map (members : List (String × Json)) :
    sortMembers.sortValues members = members.map sortValue := by
  induction members with
  | nil => rfl
  | cons m rest ih => rw [sortMembers.sortValues, ih, List.map_cons]; rfl

theorem sortMembers_array (items : List Json) :
    (array items).sortMembers = .array (items.map sortMembers) := by
  rw [sortMembers, sortItems_eq_map]

theorem sortMembers_object (members : List (String × Json)) :
    (object members).sortMembers = .object (sortOn Prod.fst (members.map sortValue)) := by
  rw [sortMembers, sortValues_eq_map, ofMembers]

theorem sortMembers_leaf {value : Json} (h : value.isLeaf = true) : value.sortMembers = value := by
  cases value with
  | array _ => cases h
  | object _ => cases h
  | _ => rw [sortMembers] <;> intros <;> exact Json.noConfusion ‹_›

theorem map_fst_sortValue (members : List (String × Json)) :
    (members.map sortValue).map Prod.fst = members.map Prod.fst := by
  rw [List.map_map]
  rfl

theorem canonical_sortMembers (value : Json) : value.sortMembers.Canonical := by
  induction value using inductionOn with
  | leaf value hleaf =>
    rw [sortMembers_leaf hleaf]
    cases value with
    | array _ => cases hleaf
    | object _ => cases hleaf
    | _ => simp [Canonical]
  | array items ih =>
    rw [sortMembers_array, canonical_array_iff, List.forall_mem_map]
    exact ih
  | object members ih =>
    rw [sortMembers_object, canonical_object_iff]
    refine ⟨pairwise_sortOn _ _, fun name value hmember => ?_⟩
    obtain ⟨m, hm, hsorted⟩ := List.mem_map.mp (mem_of_mem_sortOn hmember)
    cases hsorted
    exact ih m.1 m.2 hm

theorem sortMembers_of_canonical {value : Json} (h : value.Canonical) :
    value.sortMembers = value := by
  induction value using inductionOn with
  | leaf value hleaf => exact sortMembers_leaf hleaf
  | array items ih =>
    rw [canonical_array_iff] at h
    rw [sortMembers_array, List.map_congr_left fun item hitem => ih item hitem (h item hitem),
      List.map_id']
  | object members ih =>
    obtain ⟨hsorted, hvalues⟩ := canonical_object_iff.mp h
    have hmap : members.map sortValue = members := by
      refine (List.map_congr_left fun m hm => ?_).trans (List.map_id members)
      exact Prod.ext rfl (ih m.1 m.2 hm (hvalues m.1 m.2 hm))
    rw [sortMembers_object, hmap, sortOn_of_increasing hsorted]

/-! ## Sameness -/

theorem sameItems_iff {as bs : List Json} :
    sameItems as bs = true ↔ as.length = bs.length ∧ ∀ a b, (a, b) ∈ as.zip bs → a.same b = true := by
  induction as generalizing bs with
  | nil => cases bs <;> simp [sameItems]
  | cons a as ih =>
    cases bs with
    | nil => simp [sameItems]
    | cons b bs =>
      rw [sameItems, Bool.and_eq_true, ih, List.zip_cons_cons, List.length_cons, List.length_cons,
        Nat.add_right_cancel_iff]
      constructor
      · intro h
        refine ⟨h.2.1, fun c d hmem => ?_⟩
        rcases List.mem_cons.mp hmem with heq | hmem
        · cases heq
          exact h.1
        · exact h.2.2 c d hmem
      · exact fun h => ⟨h.2 a b (List.mem_cons_self ..), h.1,
          fun c d hmem => h.2 c d (List.mem_cons_of_mem _ hmem)⟩

/-- Members of distinct names are the same if the names are and, under each, the values. -/
theorem sameMembers_iff {as bs : List (String × Json)} (hnd : (as.map Prod.fst).Nodup) :
    sameMembers as bs = true ↔ as.map Prod.fst = bs.map Prod.fst ∧
      ∀ name a b, (name, a) ∈ as → (name, b) ∈ bs → a.same b = true := by
  induction as generalizing bs with
  | nil => cases bs <;> simp [sameMembers]
  | cons m as ih =>
    obtain ⟨name, a⟩ := m
    obtain ⟨hfresh, hnd⟩ := List.nodup_cons.mp hnd
    cases bs with
    | nil => simp [sameMembers]
    | cons n bs =>
      obtain ⟨other, b⟩ := n
      rw [sameMembers, Bool.and_eq_true, Bool.and_eq_true, beq_iff_eq, ih hnd, List.map_cons,
        List.map_cons, List.cons.injEq]
      constructor
      · intro h
        obtain ⟨⟨rfl, hab⟩, hnames, hvalues⟩ := h
        refine ⟨⟨rfl, hnames⟩, fun key c d hc hd => ?_⟩
        -- The first name stands for the first values alone, on either side.
        rcases List.mem_cons.mp hc with hc | hc
        · cases hc
          rcases List.mem_cons.mp hd with hd | hd
          · cases hd
            exact hab
          · exact absurd (hnames ▸ List.mem_map.mpr ⟨_, hd, rfl⟩) hfresh
        · rcases List.mem_cons.mp hd with hd | hd
          · cases hd
            exact absurd (List.mem_map.mpr ⟨_, hc, rfl⟩) hfresh
          · exact hvalues key c d hc hd
      · intro h
        obtain ⟨⟨rfl, hnames⟩, hvalues⟩ := h
        exact ⟨⟨rfl, hvalues name a b (List.mem_cons_self ..) (List.mem_cons_self ..)⟩, hnames,
          fun key c d hc hd =>
            hvalues key c d (List.mem_cons_of_mem _ hc) (List.mem_cons_of_mem _ hd)⟩

theorem same_refl (value : Json) : value.same value = true := by
  induction value using inductionOn with
  | leaf value hleaf =>
    cases value with
    | array _ => cases hleaf
    | object _ => cases hleaf
    | _ => simp [same, Double.same_refl]
  | array items ih =>
    rw [same]
    induction items with
    | nil => rfl
    | cons item rest more =>
      obtain ⟨hitem, hrest⟩ := List.forall_mem_cons.mp ih
      rw [sameItems, hitem, more hrest]
      rfl
  | object members ih =>
    rw [same]
    induction members with
    | nil => rfl
    | cons m rest more =>
      obtain ⟨name, value⟩ := m
      rw [sameMembers, ih name value (List.mem_cons_self ..), beq_self_eq_true,
        more fun other inner hmem => ih other inner (List.mem_cons_of_mem _ hmem)]
      rfl

theorem eq_of_sameItems {as bs : List Json}
    (heach : ∀ a ∈ as, ∀ b, a.same b = true → a = b) (h : sameItems as bs = true) : as = bs := by
  induction as generalizing bs with
  | nil =>
    cases bs with
    | nil => rfl
    | cons b bs => simp [sameItems] at h
  | cons a as ih =>
    cases bs with
    | nil => simp [sameItems] at h
    | cons b bs =>
      rw [List.forall_mem_cons] at heach
      rw [sameItems, Bool.and_eq_true] at h
      rw [heach.1 b h.1, ih heach.2 h.2]

theorem eq_of_sameMembers {as bs : List (String × Json)}
    (heach : ∀ m ∈ as, ∀ b, m.2.same b = true → m.2 = b) (h : sameMembers as bs = true) :
    as = bs := by
  induction as generalizing bs with
  | nil =>
    cases bs with
    | nil => rfl
    | cons b bs => simp [sameMembers] at h
  | cons a as ih =>
    cases bs with
    | nil => simp [sameMembers] at h
    | cons b bs =>
      rw [List.forall_mem_cons] at heach
      rw [sameMembers, Bool.and_eq_true, Bool.and_eq_true, beq_iff_eq] at h
      rw [ih heach.2 h.2, Prod.ext h.1.1 (heach.1 b.2 h.1.2)]

/-- Nothing but the signs of zeros is lost in what is the same. -/
theorem eq_of_same {value other : Json} (hfree : value.ZeroFree) (h : value.same other = true) :
    value = other := by
  induction value using inductionOn generalizing other with
  | leaf value hleaf =>
    have hnonzero := (everywhere_leaf_iff hleaf).mp hfree
    cases value with
    | array _ => cases hleaf
    | object _ => cases hleaf
    | float x => cases other <;> simp_all [same, Double.same]
    | _ => cases other <;> simp_all [same]
  | array items ih =>
    obtain ⟨-, hitems⟩ := everywhere_array_iff.mp hfree
    cases other with
    | array others =>
      rw [same] at h
      exact congrArg array (eq_of_sameItems (fun a ha _ => ih a ha (hitems a ha)) h)
    | _ => simp [same] at h
  | object members ih =>
    obtain ⟨-, hvalues⟩ := everywhere_object_iff.mp hfree
    cases other with
    | object others =>
      rw [same] at h
      exact congrArg object
        (eq_of_sameMembers (fun m hm _ => ih m.1 m.2 hm (hvalues m.1 m.2 hm)) h)
    | _ => simp [same] at h

/-! ## The two notions agree -/

theorem equals_leaf_iff {value other : Json} (h : other.isLeaf = true) :
    value.Equals other ↔ value.same other = true := by
  constructor
  · intro heq
    cases heq with
    | array _ _ => cases h
    | object _ _ => cases h
    | _ => simp_all [same]
  · intro hsame
    cases value with
    | null => cases other <;> simp_all [same, Equals.null, isLeaf]
    | bool a => cases other <;> simp_all [same, Equals.bool, isLeaf]
    | int a => cases other <;> simp_all [same, Equals.int, isLeaf]
    | float a => cases other <;> simp_all [same, Equals.float, isLeaf]
    | string a => cases other <;> simp_all [same, Equals.string, isLeaf]
    | array a => cases other <;> simp_all [same, isLeaf]
    | object a => cases other <;> simp_all [same, isLeaf]

theorem mem_zip_map {as bs : List Json} {a c : Json} (h : (a, c) ∈ as.zip (bs.map sortMembers)) :
    ∃ b, (a, b) ∈ as.zip bs ∧ c = b.sortMembers := by
  rw [List.zip_map_right] at h
  obtain ⟨⟨a, b⟩, hmem, heq⟩ := List.mem_map.mp h
  cases heq
  exact ⟨b, hmem, rfl⟩

theorem array_equals_iff {as items : List Json}
    (hpair : ∀ a b, (a, b) ∈ as.zip items → (a.Equals b ↔ a.same b.sortMembers = true)) :
    (array as).Equals (.array items) ↔ (array as).same (array items).sortMembers = true := by
  rw [sortMembers_array, same, sameItems_iff, List.length_map]
  constructor
  · intro heq
    cases heq with
    | array hlength hitems =>
      refine ⟨hlength, fun a c hmem => ?_⟩
      obtain ⟨b, hb, rfl⟩ := mem_zip_map hmem
      exact (hpair a b hb).mp (hitems a b hb)
  · intro hsame
    refine .array hsame.1 fun a b hmem => (hpair a b hmem).mpr (hsame.2 a b.sortMembers ?_)
    rw [List.zip_map_right]
    exact List.mem_map.mpr ⟨(a, b), hmem, rfl⟩

/-- Names that increase are the sorted names if they are the same in any order. -/
theorem map_fst_eq_sorted_iff {α : Type} {as bs : List (String × α)}
    (has : as.Pairwise fun x y => x.1 < y.1) (hbs : (bs.map Prod.fst).Nodup) :
    as.map Prod.fst = (sortOn Prod.fst bs).map Prod.fst ↔
      ∀ name, name ∈ as.map Prod.fst ↔ name ∈ bs.map Prod.fst := by
  have hperm := (perm_sortOn hbs).map Prod.fst
  constructor
  · intro heq name
    rw [heq, hperm.mem_iff]
  · intro hnames
    have hlt : (as.map Prod.fst).Pairwise fun x y => id x < id y := List.pairwise_map.mpr has
    have hltSorted : ((sortOn Prod.fst bs).map Prod.fst).Pairwise fun x y => id x < id y :=
      List.pairwise_map.mpr (pairwise_sortOn Prod.fst bs)
    refine eq_of_increasing_of_perm hlt hltSorted (List.Perm.trans ?_ hperm.symm)
    exact (List.perm_ext_iff_of_nodup (nodup_of_increasing has) hbs).mpr hnames

theorem mem_sortOn_sortValue_iff {members : List (String × Json)}
    (hnodup : (members.map Prod.fst).Nodup) {name : String} {c : Json} :
    (name, c) ∈ sortOn Prod.fst (members.map sortValue) ↔
      ∃ b, (name, b) ∈ members ∧ c = b.sortMembers := by
  rw [mem_sortOn_iff (map_fst_sortValue members ▸ hnodup), List.mem_map]
  constructor
  · intro h
    obtain ⟨m, hm, heq⟩ := h
    cases heq
    exact ⟨m.2, hm, rfl⟩
  · intro h
    obtain ⟨b, hb, rfl⟩ := h
    exact ⟨(name, b), hb, rfl⟩

theorem object_equals_iff {as members : List (String × Json)}
    (hincreasing : as.Pairwise fun x y => x.1 < y.1) (hnodup : (members.map Prod.fst).Nodup)
    (hpair : ∀ name a b, (name, a) ∈ as → (name, b) ∈ members →
      (a.Equals b ↔ a.same b.sortMembers = true)) :
    (object as).Equals (.object members) ↔ (object as).same (object members).sortMembers = true := by
  rw [sortMembers_object, same, sameMembers_iff (nodup_of_increasing hincreasing),
    map_fst_eq_sorted_iff hincreasing (map_fst_sortValue members ▸ hnodup), map_fst_sortValue]
  constructor
  · intro heq
    cases heq with
    | object hnames hvalues =>
      refine ⟨hnames, fun name a c ha hc => ?_⟩
      obtain ⟨b, hb, rfl⟩ := (mem_sortOn_sortValue_iff hnodup).mp hc
      exact (hpair name a b ha hb).mp (hvalues name a b ha hb)
  · intro hsame
    refine .object hsame.1 fun name a b ha hb => (hpair name a b ha hb).mpr ?_
    exact hsame.2 name a b.sortMembers ha ((mem_sortOn_sortValue_iff hnodup).mpr ⟨b, hb, rfl⟩)

/-- A canonical value equals one as it is written exactly if it is the same as that one with
its members sorted. -/
theorem equals_iff_same {value written : Json} (hvalue : value.Canonical)
    (hwritten : written.Distinct) :
    value.Equals written ↔ value.same written.sortMembers = true := by
  induction written using inductionOn generalizing value with
  | leaf written hleaf => rw [sortMembers_leaf hleaf, equals_leaf_iff hleaf]
  | array items ih =>
    obtain ⟨-, hdistinct⟩ := everywhere_array_iff.mp hwritten
    cases value with
    | array as =>
      rw [canonical_array_iff] at hvalue
      refine array_equals_iff fun a b hmem => ?_
      obtain ⟨ha, hb⟩ := List.of_mem_zip hmem
      exact ih b hb (hvalue a ha) (hdistinct b hb)
    | _ => exact iff_of_false (fun heq => by cases heq) (by simp [sortMembers_array, same])
  | object members ih =>
    obtain ⟨hnodup, hdistinct⟩ := everywhere_object_iff.mp hwritten
    cases value with
    | object as =>
      obtain ⟨hincreasing, hcanonical⟩ := canonical_object_iff.mp hvalue
      exact object_equals_iff hincreasing (hnodup members rfl) fun name a b ha hb =>
        ih name b hb (hcanonical name a ha) (hdistinct name b hb)
    | _ => exact iff_of_false (fun heq => by cases heq) (by simp [sortMembers_object, same])

/-- A canonical value without floating numbers is the only one that equals what is written. -/
theorem equals_iff_eq {value written : Json} (hvalue : value.Canonical) (hfree : value.FloatFree)
    (hwritten : written.Distinct) : value.Equals written ↔ value = written.sortMembers := by
  rw [equals_iff_same hvalue hwritten]
  constructor
  · exact eq_of_same hfree.zeroFree
  · intro heq
    rw [← heq]
    exact same_refl value

end Json

end GraphSchema

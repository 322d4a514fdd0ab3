/-
  GraphSchema.Proofs.Types.Kinds — what the kind table knows, and accepts by it.

  The table is filled in one pass that keeps kinds and exceptions apart. Of entries under
  distinct names it then knows each (`named?_classify`): the kind from the one side, and
  that it is an exception from the other, since no second entry of a name can have noted
  it. What a reference may be used for is what is known of the name it ends in
  (`acceptsOutput_eq_ok_iff`, `acceptsInput_eq_ok_iff`), and read off the three tables it is
  that the name is there, and of a kind and no exception that rules the use out
  (`acceptsOutput_eq_true_iff`, `acceptsInput_eq_true_iff`).
-/

import GraphSchema.Types.KindTable
import GraphSchema.Proofs.Collection.Keyed

namespace GraphSchema.KindTable

/-! ## Filling the table -/

section

variable {entries : List (String × NamedKind)} {name : String}

theorem kinds_classify :
    (classify entries).kinds = .ofList (entries.map fun entry => (entry.1, entry.2.kind)) := by
  have pass : ∀ table : KindTable,
      (entries.foldl (fun table entry => table.note entry.1 entry.2) table).kinds =
        table.kinds.insertAll (entries.map fun entry => (entry.1, entry.2.kind)) := by
    induction entries with
    | nil => exact fun _ => rfl
    | cons entry rest ih => exact fun table => ih (table.note entry.1 entry.2)
  exact pass empty

/-- The names noted are those of the entries to be noted. -/
theorem mem_foldl_noted {special : NamedKind → Bool} {noted : List String} :
    name ∈ entries.foldl (fun noted entry =>
        if special entry.2 then entry.1 :: noted else noted) noted ↔
      (∃ kind, (name, kind) ∈ entries ∧ special kind = true) ∨ name ∈ noted := by
  induction entries generalizing noted with
  | nil => simp
  | cons entry rest ih =>
    obtain ⟨first, kind⟩ := entry
    have head : (∃ other, (name, other) ∈ (first, kind) :: rest ∧ special other = true) ↔
        (name = first ∧ special kind = true) ∨
          ∃ other, (name, other) ∈ rest ∧ special other = true := by
      simp [or_and_right, exists_or, and_assoc]
    rw [List.foldl_cons, ih, head]
    by_cases h : special kind = true
    · simp only [h, if_true, List.mem_cons, and_true, or_assoc, or_left_comm]
    · simp only [h, Bool.false_eq_true, if_false, and_false, false_or]

theorem mem_outputOnly_classify :
    name ∈ (classify entries).outputOnly ↔
      ∃ kind, (name, kind) ∈ entries ∧ kind.isOutputOnly = true := by
  have pass : ∀ table : KindTable,
      (entries.foldl (fun table entry => table.note entry.1 entry.2) table).outputOnly =
        entries.foldl (fun noted entry =>
          if entry.2.isOutputOnly then entry.1 :: noted else noted) table.outputOnly := by
    induction entries with
    | nil => exact fun _ => rfl
    | cons entry rest ih => exact fun table => ih (table.note entry.1 entry.2)
  rw [classify, pass, mem_foldl_noted]
  simp [empty]

theorem mem_resolvable_classify :
    name ∈ (classify entries).resolvable ↔
      ∃ kind, (name, kind) ∈ entries ∧ kind.resolvesTypes = true := by
  have pass : ∀ table : KindTable,
      (entries.foldl (fun table entry => table.note entry.1 entry.2) table).resolvable =
        entries.foldl (fun noted entry =>
          if entry.2.resolvesTypes then entry.1 :: noted else noted) table.resolvable := by
    induction entries with
    | nil => exact fun _ => rfl
    | cons entry rest ih => exact fun table => ih (table.note entry.1 entry.2)
  rw [classify, pass, mem_foldl_noted]
  simp [empty]

/-- Of entries under distinct names, the table knows each. -/
theorem named?_classify (distinct : (entries.map Prod.fst).Nodup) :
    (classify entries).named? name = entries.lookup name := by
  have kinds_get? : (classify entries).kinds.get? name =
      (entries.lookup name).map NamedKind.kind := by
    have kept : (classify entries).kinds.entries =
        entries.map fun entry => (entry.1, entry.2.kind) := by
      rw [kinds_classify, Keyed.entries_ofList]
      simpa [Function.comp_def] using distinct
    rw [Keyed.get?, kept]
    exact Keyed.lookup_map_value (fun _ => NamedKind.kind) name entries
  rw [named?, kinds_get?]
  cases found : entries.lookup name with
  | none => rfl
  | some kind =>
    have member := (Keyed.lookup_eq_some_iff_mem distinct).mp found
    -- A name has one entry, so it is noted exactly if that entry is an exception.
    have noted : ∀ (special : NamedKind → Bool),
        (∃ other, (name, other) ∈ entries ∧ special other = true) ↔ special kind = true := by
      intro special
      constructor
      · intro h
        obtain ⟨other, hother, hspecial⟩ := h
        rw [(Keyed.lookup_eq_some_iff_mem distinct).mpr hother] at found
        cases found
        exact hspecial
      · exact fun h => ⟨kind, member, h⟩
    have outputOnly : (classify entries).outputOnly.contains name = kind.isOutputOnly := by
      rw [Bool.eq_iff_iff, List.contains_iff_mem, mem_outputOnly_classify, noted]
    have resolvable : (classify entries).resolvable.contains name = kind.resolvesTypes := by
      rw [Bool.eq_iff_iff, List.contains_iff_mem, mem_resolvable_classify, noted]
    rw [outputOnly, resolvable]
    exact kind.of?_kind

end

/-! ## References -/

variable {kinds : KindTable} {type : TypeRef}

theorem known_eq_ok_iff {kind : NamedKind} :
    kinds.known type = .ok kind ↔ kinds.named? type.innermostName = some kind := by
  unfold known
  split
  · rename_i known hknown
    simp [hknown]
  · rename_i hnone
    simp [hnone]

theorem acceptsOutput_eq_ok_iff {b : Bool} :
    kinds.acceptsOutput type = .ok b ↔
      ∃ kind, kinds.named? type.innermostName = some kind ∧ kind.isOutput = b := by
  simp only [acceptsOutput_eq, map_eq_ok_iff, known_eq_ok_iff]

theorem acceptsInput_eq_ok_iff {b : Bool} :
    kinds.acceptsInput type = .ok b ↔
      ∃ kind, kinds.named? type.innermostName = some kind ∧ kind.isInput = b := by
  simp only [acceptsInput_eq, map_eq_ok_iff, known_eq_ok_iff]

/-! ## What a reference may be used for -/

/-- There is nothing under the name the reference ends in. -/
def Unknown (kinds : KindTable) (type : TypeRef) : Prop :=
  kinds.kinds.get? type.innermostName = none

/-- A known name, and not of an input object. -/
def KnownOutput (kinds : KindTable) (type : TypeRef) : Prop :=
  ∃ kind, kinds.kinds.get? type.innermostName = some kind ∧ kind ≠ .inputObject

/-- The name of an enum, of an input object, or of a scalar that has readers. -/
inductive KnownInput (kinds : KindTable) (type : TypeRef) : Prop
  | enum : kinds.kinds.get? type.innermostName = some .enum → KnownInput kinds type
  | inputObject : kinds.kinds.get? type.innermostName = some .inputObject → KnownInput kinds type
  | scalar : kinds.kinds.get? type.innermostName = some .scalar →
      type.innermostName ∉ kinds.outputOnly → KnownInput kinds type

theorem innermost_eq_ok_iff {kind : TypeKind} :
    kinds.innermost type = .ok kind ↔ kinds.kinds.get? type.innermostName = some kind := by
  unfold innermost
  cases kinds.kinds.get? type.innermostName <;> simp

theorem innermost_eq_error_iff {error : TypeError} :
    kinds.innermost type = .error error ↔
      kinds.Unknown type ∧ .unknownType type.innermostName = error := by
  unfold innermost Unknown
  cases kinds.kinds.get? type.innermostName <;> simp

theorem acceptsOutput_eq_error_iff {error : TypeError} :
    kinds.acceptsOutput type = .error error ↔
      kinds.Unknown type ∧ .unknownType type.innermostName = error := by
  rw [acceptsOutput, map_eq_error_iff, innermost_eq_error_iff]

theorem acceptsInput_eq_error_iff {error : TypeError} :
    kinds.acceptsInput type = .error error ↔
      kinds.Unknown type ∧ .unknownType type.innermostName = error := by
  rw [acceptsInput, map_eq_error_iff, innermost_eq_error_iff]

theorem acceptsOutput_eq_true_iff : kinds.acceptsOutput type = .ok true ↔ kinds.KnownOutput type := by
  simp only [acceptsOutput, map_eq_ok_iff, innermost_eq_ok_iff, KnownOutput, bne_iff_ne]

theorem acceptsOutput_eq_false_iff :
    kinds.acceptsOutput type = .ok false ↔
      kinds.kinds.get? type.innermostName = some .inputObject := by
  simp only [acceptsOutput, map_eq_ok_iff, innermost_eq_ok_iff, bne_eq_false_iff_eq,
    exists_eq_right]

theorem acceptsInput_eq_true_iff : kinds.acceptsInput type = .ok true ↔ kinds.KnownInput type := by
  simp only [acceptsInput, map_eq_ok_iff, innermost_eq_ok_iff]
  constructor
  · intro h
    obtain ⟨kind, hkind, hinput⟩ := h
    cases kind with
    | enum => exact .enum hkind
    | inputObject => exact .inputObject hkind
    | scalar => exact .scalar hkind (by simpa using hinput)
    | _ => cases hinput
  · intro h
    cases h with
    | enum hkind => exact ⟨_, hkind, rfl⟩
    | inputObject hkind => exact ⟨_, hkind, rfl⟩
    | scalar hkind hreads => exact ⟨_, hkind, by simpa using hreads⟩

/-- What is neither unknown nor read as input is refused as input. -/
theorem acceptsInput_eq_false_iff :
    kinds.acceptsInput type = .ok false ↔ ¬ kinds.Unknown type ∧ ¬ kinds.KnownInput type := by
  rw [← acceptsInput_eq_true_iff]
  cases h : kinds.acceptsInput type with
  | error error =>
    have hunknown := (acceptsInput_eq_error_iff.mp h).1
    simp [hunknown]
  | ok accepted =>
    have hknown : ¬ kinds.Unknown type := by
      intro hunknown
      rw [acceptsInput_eq_error_iff.mpr ⟨hunknown, rfl⟩] at h
      cases h
    cases accepted <;> simp [hknown]

end GraphSchema.KindTable

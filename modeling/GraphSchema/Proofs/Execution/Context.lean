/-
  GraphSchema.Proofs.Execution.Context — what calls on a context leave to be read.

  A call converts before it writes, so it does all or nothing: it is refused, and the context
  is as it was, exactly if a key somewhere in its value has no text (`Refuses`), and otherwise
  what is then read under its key mirrors its value and everything else is as it was
  (`Accepts`). After any calls a key holds what the last call for it that was not refused has
  set (`LastSet`), and a read of the type that was set there gives what was set, if the type
  reads back at all what it is handed over as (`ReadsBack`).

  A number that is not finite has no form as JSON either, but no call is refused for it: null
  is written over what there was, and a read of the number gives nothing.
  - `writes_exact`: all this after any calls on any context.
  - `grid_kept`: a refused call between two others.
  - `limit_overwritten`: a limit is lost to a number that is none.
-/

import GraphSchema.Proofs.Execution.HostValue

namespace GraphSchema.Context

variable {context : Context} {key : String} {value : HostValue} {json : Json}

/-! ## One call -/

/-- The steps of a call come to what `set` says, and a refused call leaves the context. -/
theorem run_write (context : Context) (key : String) (value : HostValue) :
    (write key value).run context =
      match context.set key value with
      | .ok after => .ok () after
      | .error e => .error e context := by
  rw [write, set]
  cases value.toJson <;> rfl

/-- The call is refused, and the context is as it was. -/
def Refuses (context : Context) (key : String) (value : HostValue) : Prop :=
  ∃ error, (write key value).run context = .error error context

/-- The call is accepted: its value is read under its key, and the rest is as it was. -/
def Accepts (context : Context) (key : String) (value : HostValue) : Prop :=
  ∃ json next, (write key value).run context = .ok () next ∧ value.Mirrors json ∧
    next.get? Json key = some json ∧
      ∀ other, other ≠ key → next.data.get? other = context.data.get? other

theorem get?_json (context : Context) (key : String) :
    context.get? Json key = context.data.get? key := by
  rw [get?]
  cases context.data.get? key <;> rfl

theorem run_write_of_keyWithoutText (h : value.KeyWithoutText) :
    (write key value).run context = .error .keyWithoutText context := by
  rw [run_write, set, HostValue.toJson_eq_error h]

theorem run_write_of_mirrors (h : ¬ value.KeyWithoutText) (hjson : value.Mirrors json) :
    (write key value).run context = .ok () ⟨context.data.insert key json⟩ := by
  rw [run_write, set, HostValue.toJson_eq_ok_iff.mpr ⟨h, hjson⟩]

theorem refuses_iff : context.Refuses key value ↔ value.KeyWithoutText := by
  rw [Refuses, run_write, set]
  cases hconverted : value.toJson with
  | error e => exact iff_of_true ⟨e, rfl⟩ (HostValue.toJson_eq_error_iff.mp hconverted)
  | ok json =>
    refine iff_of_false (fun h => ?_) (HostValue.toJson_eq_ok_iff.mp hconverted).1
    obtain ⟨error, herror⟩ := h
    cases herror

theorem accepts_iff : context.Accepts key value ↔ ¬ value.KeyWithoutText := by
  constructor
  · intro h hkey
    obtain ⟨json, next, hnext, _⟩ := h
    rw [run_write_of_keyWithoutText hkey] at hnext
    cases hnext
  · intro h
    obtain ⟨json, _, hjson⟩ := HostValue.exists_mirrors h
    refine ⟨json, _, run_write_of_mirrors h hjson, hjson, ?_, fun other hne => ?_⟩
    · rw [get?_json, SortedMap.get?_insert, if_pos rfl]
    · rw [SortedMap.get?_insert, if_neg hne]

/-! ## Calls in turn -/

theorem left_of_keyWithoutText (h : value.KeyWithoutText) : context.left (key, value) = context := by
  rw [left, run_write_of_keyWithoutText h]

theorem left_of_mirrors (h : ¬ value.KeyWithoutText) (hjson : value.Mirrors json) :
    context.left (key, value) = ⟨context.data.insert key json⟩ := by
  rw [left, run_write_of_mirrors h hjson]

theorem get?_left_of_ne {other : String} (hne : other ≠ key) :
    (context.left (key, value)).data.get? other = context.data.get? other := by
  by_cases hkey : value.KeyWithoutText
  · rw [left_of_keyWithoutText hkey]
  · obtain ⟨json, _, hjson⟩ := HostValue.exists_mirrors hkey
    rw [left_of_mirrors hkey hjson, SortedMap.get?_insert, if_neg hne]

/-- A key for which every call was refused holds what it held. -/
theorem get?_after_of_refused {calls : List (String × HostValue)}
    (h : ∀ value, (key, value) ∈ calls → value.KeyWithoutText) :
    (context.after calls).data.get? key = context.data.get? key := by
  induction calls generalizing context with
  | nil => rfl
  | cons call rest ih =>
    obtain ⟨other, value⟩ := call
    have hrest : ((context.left (other, value)).after rest).data.get? key =
        (context.left (other, value)).data.get? key :=
      ih fun value hmem => h value (List.mem_cons_of_mem _ hmem)
    refine hrest.trans ?_
    by_cases heq : key = other
    · subst heq
      rw [left_of_keyWithoutText (h value (List.mem_cons_self ..))]
    · exact get?_left_of_ne heq

/-- The last of the calls for the key that was not refused sets this value. -/
def LastSet (calls : List (String × HostValue)) (key : String) (value : HostValue) : Prop :=
  ∃ before later, calls = before ++ (key, value) :: later ∧ ¬ value.KeyWithoutText ∧
    ∀ other, (key, other) ∈ later → other.KeyWithoutText

theorem LastSet.exists_mirrors {calls : List (String × HostValue)} (h : LastSet calls key value) :
    ∃ json, value.toJson = .ok json ∧ value.Mirrors json := by
  obtain ⟨_, _, _, hkey, _⟩ := h
  exact HostValue.exists_mirrors hkey

theorem get?_after_of_lastSet {calls : List (String × HostValue)} (h : LastSet calls key value)
    (hjson : value.Mirrors json) : (context.after calls).data.get? key = some json := by
  obtain ⟨before, later, rfl, hkey, hlater⟩ := h
  have hsplit : context.after (before ++ (key, value) :: later) =
      ((context.after before).left (key, value)).after later := List.foldl_append ..
  rw [hsplit, get?_after_of_refused hlater, left_of_mirrors hkey hjson, SortedMap.get?_insert,
    if_pos rfl]

/-! ## Typed reads -/

/-- A type whose values read back from what they are handed over as. -/
def ReadsBack {α : Type} [Decode α] (host : α → HostValue) : Prop :=
  ∀ a json, (host a).toJson = .ok json → decode? json = some a

theorem readsBack_encode {α : Type} [Encode α] [Decode α] [LawfulCoding α] :
    ReadsBack fun a : α => .json (encode a) := by
  intro a json h
  cases h
  exact decode?_encode a

theorem readsBack_float : ReadsBack fun x : Double => .float (.finite x) := by
  intro x json h
  cases h
  rfl

theorem ReadsBack.list {α : Type} [Decode α] {host : α → HostValue} (h : ReadsBack host) :
    ReadsBack fun items : List α => .list (items.map host) := by
  intro items json hjson
  rw [HostValue.toJson] at hjson
  split at hjson
  · cases hjson
  · rename_i values hvalues
    cases hjson
    rw [HostValue.itemsToJson_eq_ok_iff, List.forall₂_map_left_iff] at hvalues
    show Decode.items? values = some items
    induction hvalues with
    | nil => rfl
    | cons hitem _ ih => rw [Decode.items?, h _ _ hitem, ih]

theorem get?_of_readsBack {α : Type} [Decode α] {host : α → HostValue} (h : ReadsBack host)
    {calls : List (String × HostValue)} {a : α} (hset : LastSet calls key (host a)) :
    (context.after calls).get? α key = some a := by
  obtain ⟨json, hconverted, hjson⟩ := hset.exists_mirrors
  rw [get?, get?_after_of_lastSet hset hjson, Option.bind_some, h a json hconverted]

theorem get?_double {calls : List (String × HostValue)} {x : Binary64}
    (hset : LastSet calls key (.float x)) : (context.after calls).get? Double key = x.finite? := by
  cases x with
  | finite x => exact get?_of_readsBack readsBack_float hset
  | infinite negative =>
    rw [get?, get?_after_of_lastSet hset (.notFinite rfl)]
    rfl
  | nan =>
    rw [get?, get?_after_of_lastSet hset (.notFinite rfl)]
    rfl

/-! ## After any calls -/

/-- After any calls on any context, a call is refused and changes nothing exactly if its value
has a key without a text, which is exactly when the value has no form as JSON, as long as it
holds no number that is not finite without such a key; every other call is accepted. What is
read is what was set last and not refused. -/
theorem writes_exact (context : Context) (calls : List (String × HostValue)) :
    (∀ key value, ((context.after calls).Refuses key value ↔ value.KeyWithoutText) ∧
      ((context.after calls).Accepts key value ↔ ¬ value.KeyWithoutText)) ∧
    (∀ key value,
      ((context.after calls).Refuses key value ↔ value.KeyWithoutText ∨ value.NotFinite) ↔
        (value.NotFinite → value.KeyWithoutText)) ∧
    (∀ key, (∀ value, (key, value) ∈ calls → value.KeyWithoutText) →
      (context.after calls).data.get? key = context.data.get? key) ∧
    (∀ key value, LastSet calls key value →
      ∃ json, value.Mirrors json ∧ (context.after calls).get? Json key = some json) ∧
    (∀ (α : Type) [Decode α] (host : α → HostValue), ReadsBack host → ∀ key a,
      LastSet calls key (host a) → (context.after calls).get? α key = some a) ∧
    ∀ key x, LastSet calls key (.float x) → (context.after calls).get? Double key = x.finite? := by
  refine ⟨fun key value => ⟨refuses_iff, accepts_iff⟩, fun key value => ?_,
    fun key => get?_after_of_refused, fun key value hset => ?_,
    fun α _ host h key a => get?_of_readsBack h, fun key x => get?_double⟩
  · rw [refuses_iff]
    constructor
    · exact fun h hnot => h.mpr (.inr hnot)
    · intro h
      exact ⟨.inl, fun hbad => hbad.elim id h⟩
  · obtain ⟨json, _, hjson⟩ := hset.exists_mirrors
    exact ⟨json, hjson, (get?_json _ key).trans (get?_after_of_lastSet hset hjson)⟩

/-- A list of numbers for the grid, a refused map in a list for it, a limit, and a map whose
keys are written as text. -/
def gridCalls : List (String × HostValue) := [
  ("grid", .list ([.one, .zero true].map fun x : Double => .float (.finite x))),
  ("grid", .list [.map [(.text "a", .json .null), (.tuple [0, 1], .json (.int 2))]]),
  ("limit", .json (encode (3 : UInt8))),
  ("taken", .map [(.char 'x', .json .null), (.int 7, .float .nan), (.text "7", .json (.bool true))])]

theorem lastSet_grid :
    LastSet gridCalls "grid" (.list ([.one, .zero true].map fun x : Double => .float (.finite x))) := by
  refine ⟨[], _, rfl, (HostValue.toJson_eq_ok_iff.mp rfl).1, fun other hmem => ?_⟩
  simp only [List.mem_cons, Prod.mk.injEq, List.not_mem_nil, or_false] at hmem
  obtain ⟨_, rfl⟩ | ⟨hname, _⟩ | ⟨hname, _⟩ := hmem
  · exact ⟨_, .tuple [0, 1], _, .item (List.mem_cons_self ..) .self,
      List.mem_cons_of_mem _ (List.mem_cons_self ..), rfl⟩
  · exact absurd hname (by decide)
  · exact absurd hname (by decide)

theorem lastSet_limit : LastSet gridCalls "limit" (.json (encode (3 : UInt8))) := by
  refine ⟨gridCalls.take 2, gridCalls.drop 3, rfl, (HostValue.toJson_eq_ok_iff.mp rfl).1,
    fun other hmem => ?_⟩
  have hname : "limit" = "taken" := (Prod.mk.inj (List.mem_singleton.mp hmem)).1
  exact absurd hname (by decide)

/-- The refused call in between is not seen, and of the entries under one text the last is. -/
theorem grid_kept :
    (ReadsBack fun items : List Double => .list (items.map fun x => .float (.finite x))) ∧
      LastSet gridCalls "grid" (.list ([.one, .zero true].map fun x : Double => .float (.finite x))) ∧
      (empty.after gridCalls).get? (List Double) "grid" = some [.one, .zero true] ∧
      (empty.after gridCalls).get? UInt8 "limit" = some 3 ∧
      (empty.after gridCalls).get? Json "taken" =
        some (.object [("7", .bool true), ("x", .null)]) := by
  have hread := (writes_exact empty gridCalls).2.2.2.2.1
  exact ⟨readsBack_float.list, lastSet_grid, hread _ _ readsBack_float.list _ _ lastSet_grid,
    hread _ _ readsBack_encode _ _ lastSet_limit, rfl⟩

def limited : Context := empty.after [("limit", .json (.int 3))]

/-- The call for a number that is none is not refused, and the limit is gone. -/
theorem limit_overwritten :
    (HostValue.float .nan).NotFinite ∧ limited.get? Json "limit" = some (.int 3) ∧
      ¬ limited.Refuses "limit" (.float .nan) ∧
      (limited.left ("limit", .float .nan)).get? Json "limit" = some .null := by
  refine ⟨⟨.nan, .self, rfl⟩, rfl, ?_, rfl⟩
  intro h
  obtain ⟨error, herror⟩ := h
  cases herror

end GraphSchema.Context

/-
  GraphSchema.Proofs.Outcome — when a chain of checks succeeds.

  A step after another succeeds if both do (`bind_eq_ok_iff`), a refusal under a condition
  is passed if the condition is (`unless_eq_ok_iff`), and a list of checks if each of them
  is passed (`forM_eq_ok_iff`); otherwise the first that is not passed gives the error
  (`forM_eq_error_iff`). What is true of the errors of every step is true of the
  error of the chain (`FailsWith`). Two runs come out alike (`Alike`) if both succeed or both
  fail, with related results or errors.
-/

namespace GraphSchema

variable {α β ε ε' : Type}

theorem bind_eq_ok_iff {x : Except ε α} {f : α → Except ε β} {b : β} :
    x >>= f = .ok b ↔ ∃ a, x = .ok a ∧ f a = .ok b := by
  cases x with
  | error e => simp [bind, Except.bind]
  | ok a => simp [bind, Except.bind]

theorem map_eq_ok_iff {x : Except ε α} {f : α → β} {b : β} :
    x.map f = .ok b ↔ ∃ a, x = .ok a ∧ f a = b := by
  cases x with
  | error e => simp [Except.map]
  | ok a => simp [Except.map]

theorem map_eq_error_iff {x : Except ε α} {f : α → β} {e : ε} :
    x.map f = .error e ↔ x = .error e := by
  cases x with
  | error found => simp [Except.map]
  | ok a => simp [Except.map]

theorem toOption_eq_some_iff {x : Except ε α} {a : α} : x.toOption = some a ↔ x = .ok a := by
  cases x with
  | error e => simp [Except.toOption]
  | ok b => simp [Except.toOption]

theorem exists_of_isOk {x : Except ε α} (h : x.isOk = true) : ∃ a, x = .ok a := by
  cases x with
  | error e => cases h
  | ok a => exact ⟨a, rfl⟩

/-- A result of which a property was evaluated. -/
theorem exists_ok_of_check {x : Except ε α} {property : α → Prop} [DecidablePred property]
    (h : (x.toOption.any fun a => decide (property a)) = true) : ∃ a, x = .ok a ∧ property a := by
  obtain ⟨a, ha, hproperty⟩ := (Option.any_eq_true _ _).mp h
  exact ⟨a, toOption_eq_some_iff.mp ha, of_decide_eq_true hproperty⟩

theorem unless_eq_ok_iff {b : Bool} {e : ε} {x : Except ε α} {a : α} :
    (if (!b) = true then Except.error e >>= fun _ : PUnit => x else x) = .ok a ↔
      b = true ∧ x = .ok a := by
  cases b with
  | false => simp [bind, Except.bind]
  | true => simp

/-- A check under a condition that may itself fail to be decided. -/
theorem guard_eq_error_iff {x : Except ε Bool} {fault e : ε} :
    (x >>= fun b => if (!b) = true then Except.error fault else pure PUnit.unit) = .error e ↔
      x = .error e ∨ x = .ok false ∧ fault = e := by
  cases x with
  | error found => simp [bind, Except.bind]
  | ok b => cases b <;> simp [bind, Except.bind, pure, Except.pure]

theorem forM_eq_ok_iff {f : α → Except ε Unit} {as : List α} :
    as.forM f = .ok () ↔ ∀ a ∈ as, f a = .ok () := by
  induction as with
  | nil => simp [pure, Except.pure]
  | cons a rest ih =>
    have hstep : (a :: rest).forM f = f a >>= fun _ => rest.forM f := rfl
    rw [hstep, bind_eq_ok_iff, List.forall_mem_cons, ← ih]
    constructor
    · intro h
      obtain ⟨_, hrest⟩ := h
      exact hrest
    · intro h
      exact ⟨(), h⟩

/-- A list of checks fails by the first of them that is not passed. -/
theorem forM_eq_error_iff {f : α → Except ε Unit} {as : List α} {e : ε} :
    as.forM f = .error e ↔
      ∃ passed a rest, as = passed ++ a :: rest ∧ (∀ b ∈ passed, f b = .ok ()) ∧
        f a = .error e := by
  induction as with
  | nil => simp [pure, Except.pure]
  | cons first others ih =>
    have hstep : (first :: others).forM f = f first >>= fun _ => others.forM f := rfl
    rw [hstep]
    cases hfirst : f first with
    | error found =>
      constructor
      · intro h
        cases h
        exact ⟨[], first, others, rfl, by simp, hfirst⟩
      · intro h
        obtain ⟨passed, a, rest, hsplit, hpassed, ha⟩ := h
        cases passed with
        | nil =>
          cases hsplit
          rw [hfirst] at ha
          cases ha
          rfl
        | cons before others =>
          cases hsplit
          have hok := hpassed first (List.mem_cons_self ..)
          rw [hfirst] at hok
          cases hok
    | ok done =>
      have hrest : (Except.ok done >>= fun _ => others.forM f) = others.forM f := rfl
      rw [hrest, ih]
      constructor
      · intro h
        obtain ⟨passed, a, rest, hsplit, hpassed, ha⟩ := h
        subst hsplit
        exact ⟨first :: passed, a, rest, rfl, List.forall_mem_cons.mpr ⟨hfirst, hpassed⟩, ha⟩
      · intro h
        obtain ⟨passed, a, rest, hsplit, hpassed, ha⟩ := h
        cases passed with
        | nil =>
          cases hsplit
          rw [hfirst] at ha
          cases ha
        | cons before others =>
          cases hsplit
          exact ⟨others, a, rest, rfl, (List.forall_mem_cons.mp hpassed).2, ha⟩

/-! ## Errors -/

/-- If the run fails, the error is of this kind. -/
def FailsWith (kind : ε → Prop) (x : Except ε α) : Prop := ∀ e, x = .error e → kind e

section

variable {kind : ε → Prop}

@[simp] theorem failsWith_ok (a : α) : FailsWith kind (.ok a : Except ε α) := by
  intro e h
  cases h

@[simp] theorem failsWith_error {e : ε} : FailsWith kind (.error e : Except ε α) ↔ kind e := by
  constructor
  · intro h
    exact h e rfl
  · intro h e' he
    cases he
    exact h

theorem FailsWith.bind {x : Except ε α} {f : α → Except ε β} (hx : FailsWith kind x)
    (hf : ∀ a, FailsWith kind (f a)) : FailsWith kind (x >>= f) := by
  cases x with
  | error e => exact failsWith_error.mpr (hx e rfl)
  | ok a => exact hf a

theorem FailsWith.map {x : Except ε α} (hx : FailsWith kind x) (f : α → β) :
    FailsWith kind (x.map f) := by
  cases x with
  | error e => exact failsWith_error.mpr (hx e rfl)
  | ok a => exact failsWith_ok (f a)

theorem FailsWith.unless {b : Bool} {e : ε} {x : Except ε α} (he : kind e)
    (hx : FailsWith kind x) :
    FailsWith kind (if (!b) = true then Except.error e >>= fun _ : PUnit => x else x) := by
  cases b with
  | false => exact failsWith_error.mpr he
  | true => exact hx

theorem FailsWith.forM {f : α → Except ε Unit} {as : List α}
    (hf : ∀ a, FailsWith kind (f a)) : FailsWith kind (as.forM f) := by
  induction as with
  | nil => exact failsWith_ok ()
  | cons a rest ih => exact (hf a).bind fun _ => ih

end

/-! ## Two runs -/

inductive Alike (errors : ε → ε' → Prop) (results : α → β → Prop) :
    Except ε α → Except ε' β → Prop
  | ok {a : α} {b : β} : results a b → Alike errors results (.ok a) (.ok b)
  | error {e : ε} {e' : ε'} : errors e e' → Alike errors results (.error e) (.error e')

theorem Alike.of_eq {results : α → α → Prop} (hrefl : ∀ a, results a a) {x y : Except ε α}
    (h : x = y) : Alike Eq results x y := by
  subst h
  cases x with
  | error e => exact .error rfl
  | ok a => exact .ok (hrefl a)

theorem Alike.toOption {errors : ε → ε' → Prop} {results : α → β → Prop} {x : Except ε α}
    {y : Except ε' β} (h : Alike errors results x y) :
    Option.Rel results x.toOption y.toOption := by
  cases h with
  | ok hresults => exact .some hresults
  | error _ => exact .none

end GraphSchema

/-
  GraphSchema.Proofs.Registry.Session — what calls leave of a registry.

  A call on a registry comes to what `Registration.apply` says of it: whatever refuses a
  call is found before anything is written, so nothing has to be undone (`run_perform`).
  Each call therefore has one of three outcomes (`outcome_perform`): it is refused for a
  reason and the registry is as before, one entry comes last and is referred to, or one
  field is put over those added to a type. After any run of calls, some of them refused,
  the registry is consistent and the next call has such an outcome (`session_consistent`).
-/

import GraphSchema.Registry.Session
import GraphSchema.Proofs.Registry.Reachable

namespace GraphSchema

/-! ## One registry and its versions -/

namespace Session

/-- What a run on a registry comes to, if it is told by a function to the next version. -/
def outcome {α : Type} (registry : TypeRegistry) :
    Except TypeError (TypeRegistry × α) → EStateM.Result TypeError TypeRegistry α
  | .ok (after, a) => .ok a after
  | .error error => .error error registry

variable {α : Type} {registry : TypeRegistry}

theorem run_check_bind (checked : Except TypeError α) {β : Type} (next : α → Session β) :
    (check checked >>= next).run registry =
      match checked with
      | .ok a => (next a).run registry
      | .error error => .error error registry := by
  cases checked with
  | ok a => rfl
  | error error => rfl

theorem run_insert (entry : Registered) :
    (insert entry).run registry = outcome registry (registry.register entry) := by
  unfold insert TypeRegistry.register
  by_cases h : registry.contains entry.name = true
  · simp [h, outcome]
  · simp only [EStateM.run_bind, EStateM.run_get, h, Bool.false_eq_true, if_false]
    rfl

/-- A check comes before the entry is put, and so before anything is written. -/
theorem run_check_insert (checked : Except TypeError α) (entry : α → Registered) :
    (check checked >>= fun a => insert (entry a)).run registry =
      outcome registry (checked >>= fun a => registry.register (entry a)) := by
  rw [run_check_bind]
  cases checked with
  | ok a => exact run_insert (entry a)
  | error error => rfl

theorem run_addField (typeName field : String) (config : FieldConfig) :
    (addField typeName field config).run registry =
      outcome registry ((registry.addField typeName field config).map fun after => (after, ())) := by
  unfold addField TypeRegistry.addField
  rw [EStateM.run_bind, EStateM.run_get]
  dsimp only
  cases registry.entries.get? typeName with
  | none => rfl
  | some entry =>
    cases hfields : entry.hasFields with
    | false => simp [hfields, outcome, Except.map]
    | true =>
      simp only [hfields, Bool.not_true, Bool.false_eq_true, if_false, if_true]
      rw [run_check_bind]
      cases checkName field with
      | ok done => rfl
      | error error => rfl

theorem run_some {x : Session TypeRef} {y : Except TypeError (TypeRegistry × TypeRef)}
    (h : x.run registry = outcome registry y) :
    (some <$> x).run registry = outcome registry (y.map fun done => (done.1, some done.2)) := by
  rw [map_eq_pure_bind, EStateM.run_bind, h]
  cases y with
  | ok done => rfl
  | error error => rfl

/-- A call on a registry leaves what it is said to make of it, or nothing. -/
theorem run_perform (call : Registration) :
    (perform call).run registry = outcome registry (call.apply registry) := by
  cases call with
  | scalar config => exact run_some (run_check_insert (ScalarType.ofConfig config) .scalar)
  | enum config => exact run_some (run_check_insert (EnumType.ofConfig config) .enum)
  | object config =>
    exact run_some (run_check_insert (checkTypeName config.name) fun _ => .object config)
  | interface config =>
    exact run_some (run_check_insert (checkTypeName config.name) fun _ => .interface config)
  | union config => exact run_some (run_check_insert config.check fun _ => .union config)
  | inputObject config =>
    exact run_some (run_check_insert (checkTypeName config.name) fun _ => .inputObject config)
  | addField typeName field config =>
    rw [perform, EStateM.run_bind, run_addField, Registration.apply]
    cases registry.addField typeName field config with
    | ok after => rfl
    | error error => rfl

theorem left_eq_after (registry : TypeRegistry) (call : Registration) :
    left registry call = call.after registry := by
  rw [left, run_perform, Registration.after]
  cases call.apply registry with
  | ok done => rfl
  | error error => rfl

end Session

/-! ## What can come of a call -/

namespace Registration

/-- The entry a call registers, or why it is none by itself; a call that adds a field
registers nothing. -/
def registers? : Registration → Option (Except TypeError Registered)
  | .scalar config => some ((ScalarType.ofConfig config).map .scalar)
  | .enum config => some ((EnumType.ofConfig config).map .enum)
  | .object config => some ((checkTypeName config.name).map fun _ => .object config)
  | .interface config => some ((checkTypeName config.name).map fun _ => .interface config)
  | .union config => some (config.check.map fun _ => .union config)
  | .inputObject config => some ((checkTypeName config.name).map fun _ => .inputObject config)
  | .addField _ _ _ => none

/-- The reasons for refusing a call. -/
inductive Refused (registry : TypeRegistry) : Registration → TypeError → Prop
  | fault {call : Registration} (error : TypeError) : call.registers? = some (.error error) →
      Refused registry call error
  | duplicate {call : Registration} (entry : Registered) : call.registers? = some (.ok entry) →
      registry.contains entry.name = true → Refused registry call (.duplicateType entry.name)
  | unknownType (typeName field : String) (config : FieldConfig) :
      registry.contains typeName = false →
      Refused registry (.addField typeName field config) (.unknownType typeName)
  | noFields (typeName field : String) (config : FieldConfig) (entry : Registered) :
      registry.entries.get? typeName = some entry → entry.hasFields = false →
      Refused registry (.addField typeName field config) (.cannotAddField typeName field)
  | invalidField (typeName field : String) (config : FieldConfig) (entry : Registered) :
      registry.entries.get? typeName = some entry → entry.hasFields = true →
      isValidName field = false →
      Refused registry (.addField typeName field config) (.invalidName field)

/-- The outcomes of a call on a registry, each with the registry that is left. -/
inductive Outcome (registry : TypeRegistry) :
    Registration → EStateM.Result TypeError TypeRegistry (Option TypeRef) → Prop
  /-- Everything is as before. -/
  | refused {call : Registration} (error : TypeError) : Refused registry call error →
      Outcome registry call (.error error registry)
  /-- One entry more, the last, under a name that was free. -/
  | registered {call : Registration} (entry : Registered) (after : TypeRegistry) :
      call.registers? = some (.ok entry) → registry.contains entry.name = false →
      after.entries.entries = registry.entries.entries ++ [(entry.name, entry)] →
      after.added = registry.added →
      Outcome registry call (.ok (some (.named entry.name)) after)
  /-- One field put over those added to an object or interface. -/
  | addedField (typeName field : String) (config : FieldConfig) (entry : Registered)
      (after : TypeRegistry) :
      registry.entries.get? typeName = some entry → entry.hasFields = true →
      isValidName field = true → after.entries = registry.entries →
      after.addedTo typeName = (registry.addedTo typeName).insert field config →
      (∀ other, other ≠ typeName → after.added.get? other = registry.added.get? other) →
      Outcome registry (.addField typeName field config) (.ok none after)

variable {registry : TypeRegistry}

/-- Calls that register differ in the entry alone. -/
theorem apply_of_registers? {call : Registration} {checked : Except TypeError Registered}
    (h : call.registers? = some checked) (registry : TypeRegistry) :
    call.apply registry =
      (checked >>= registry.register).map fun done => (done.1, some done.2) := by
  -- An entry that is made of what a check gives is registered after the check.
  have hmap : ∀ {α : Type} (x : Except TypeError α) (f : α → Registered),
      (x >>= fun a => registry.register (f a)) = x.map f >>= registry.register := by
    intro α x f
    cases x <;> rfl
  cases call with
  | addField typeName field config => cases h
  | _ =>
    cases h
    exact congrArg (Except.map _) (hmap _ _)

/-- A checked entry is registered if its name is free. -/
theorem apply_of_entry {call : Registration} {entry : Registered}
    (h : call.registers? = some (.ok entry)) (registry : TypeRegistry) :
    call.apply registry =
      if registry.contains entry.name = true then .error (.duplicateType entry.name)
      else .ok ({ registry with entries := registry.entries.insert entry.name entry },
        some (.named entry.name)) := by
  have hbind : (Except.ok entry >>= registry.register) = registry.register entry := rfl
  rw [apply_of_registers? h, hbind, TypeRegistry.register]
  split
  · rfl
  · rfl

theorem outcome_of_registers? {call : Registration} {checked : Except TypeError Registered}
    (h : call.registers? = some checked) :
    Outcome registry call (Session.outcome registry (call.apply registry)) := by
  cases checked with
  | error error =>
    rw [apply_of_registers? h]
    exact .refused error (.fault error h)
  | ok entry =>
    rw [apply_of_entry h]
    by_cases hfree : registry.contains entry.name = true
    · rw [if_pos hfree]
      exact .refused _ (.duplicate entry h hfree)
    · rw [if_neg hfree]
      have hnone : registry.entries.get? entry.name = none := by
        simpa [TypeRegistry.contains, Keyed.contains] using hfree
      exact .registered entry _ h (by simpa using hfree)
        (Keyed.entries_insert_of_get?_eq_none hnone entry) rfl

theorem outcome_of_addField (typeName field : String) (config : FieldConfig) :
    Outcome registry (.addField typeName field config)
      (Session.outcome registry ((addField typeName field config).apply registry)) := by
  simp only [apply, TypeRegistry.addField]
  cases hentry : registry.entries.get? typeName with
  | none =>
    refine .refused _ (.unknownType typeName field config ?_)
    simp [TypeRegistry.contains, Keyed.contains, hentry]
  | some entry =>
    cases hfields : entry.hasFields with
    | false =>
      simp only [hfields, Bool.false_eq_true, if_false]
      exact .refused _ (.noFields typeName field config entry hentry hfields)
    | true =>
      simp only [hfields, if_true]
      cases hname : isValidName field with
      | false =>
        have hcheck : checkName field = .error (.invalidName field) := by simp [checkName, hname]
        rw [hcheck]
        exact .refused _ (.invalidField typeName field config entry hentry hfields hname)
      | true =>
        have hcheck : checkName field = .ok () := checkName_eq_ok.mpr hname
        rw [hcheck]
        refine .addedField typeName field config entry _ hentry hfields hname rfl ?_ ?_
        · simp [TypeRegistry.addedTo, Keyed.get?_insert]
        · intro other hother
          exact (Keyed.get?_insert ..).trans (if_neg hother)

/-- A call is refused for a reason, or does just what it is for. -/
theorem outcome_perform (registry : TypeRegistry) (call : Registration) :
    Outcome registry call ((Session.perform call).run registry) := by
  rw [Session.run_perform]
  cases hentry : call.registers? with
  | some checked => exact outcome_of_registers? hentry
  | none =>
    cases call with
    | addField typeName field config => exact outcome_of_addField typeName field config
    | _ => cases hentry

end Registration

/-! ## Every run of calls -/

theorem Session.foldl_left_eq_run (registry : TypeRegistry) (calls : List Registration) :
    calls.foldl Session.left registry = registry.run calls := by
  have hleft : Session.left = fun registry call => call.after registry :=
    funext fun registry => funext (Session.left_eq_after registry)
  rw [hleft]
  rfl

theorem TypeRegistry.Reachable.foldl_left {registry : TypeRegistry} (h : registry.Reachable)
    (calls : List Registration) : (calls.foldl Session.left registry).Reachable := by
  rw [Session.foldl_left_eq_run]
  exact h.run calls

/-- Whatever calls were made on a new registry, its entries have distinct names and it is
consistent, and the next call is refused without a trace or does just what it is for. -/
theorem session_consistent {start : TypeRegistry} (hstart : start = .empty ∨ start = .standard)
    (calls : List Registration) :
    (calls.foldl Session.left start).names.Nodup ∧
      (calls.foldl Session.left start).Consistent ∧
      ∀ call, Registration.Outcome (calls.foldl Session.left start) call
        ((Session.perform call).run (calls.foldl Session.left start)) := by
  have hr : start.Reachable := by
    rcases hstart with rfl | rfl
    · exact .empty
    · exact .standard
  exact ⟨Keyed.keys_nodup _, (hr.foldl_left calls).consistent, fun call =>
    Registration.outcome_perform _ call⟩

/-- Calls that register types and add fields, and one that is refused for each reason. -/
def bookings : List Registration := [
  .union { name := "Stay", types := ["Room", "Tent"] },
  .union { name := "Trip" },
  .object { name := "Room" },
  .addField "Room" "beds" { type := .named "Int" },
  .object { name := "Stay" },
  .addField "Tent" "site" { type := .named "Int" },
  .addField "Stay" "nights" { type := .named "Int" },
  .addField "Room" "no. of beds" { type := .named "Int" },
  .addField "Room" "beds" { type := .nonNull (.named "Int") }]

theorem bookings_consistent :
    (bookings.foldl Session.left .standard).names =
        TypeRegistry.standard.names ++ ["Stay", "Room"] ∧
      ((bookings.foldl Session.left .standard).addedTo "Room").keys = ["beds"] ∧
      (bookings.foldl Session.left .standard).Consistent ∧
      ∀ call, Registration.Outcome (bookings.foldl Session.left .standard) call
        ((Session.perform call).run (bookings.foldl Session.left .standard)) := by
  obtain ⟨_, hconsistent, houtcome⟩ := session_consistent (Or.inr rfl) bookings
  exact ⟨by decide +kernel, by decide +kernel, hconsistent, houtcome⟩

end GraphSchema

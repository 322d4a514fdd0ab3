/-
  GraphSchema.Types.Deferred — configuration given now or made later.

  Types may be configured before the types they mention exist, so field maps and
  interface lists may be given as functions that are called at publication. Changing a
  deferred value changes what it resolves to and not when (`resolve_map`).
-/

namespace GraphSchema

inductive Deferred (α : Type) where
  | now (value : α)
  | later (make : Unit → α)

namespace Deferred

variable {α : Type}

def resolve : Deferred α → α
  | now value => value
  | later make => make ()

def map (f : α → α) : Deferred α → Deferred α
  | now value => now (f value)
  | later make => later fun _ => f (make ())

@[simp] theorem resolve_map (f : α → α) (deferred : Deferred α) :
    (deferred.map f).resolve = f deferred.resolve := by
  cases deferred <;> rfl

end Deferred

end GraphSchema

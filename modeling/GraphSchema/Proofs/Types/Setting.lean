/-
  GraphSchema.Proofs.Types.Setting — configurations set up call by call.

  The fields of a type and the interfaces of an object are set by a chain of calls, of which
  one kind gives the whole anew, now or as something to be made later, and the other puts a
  part into it. The rule for what a chain comes to does not say when anything is made:
  - what was given last counts, or what there was at first if nothing was given;
  - every later part is put into that, in the order of the calls (`Setting.Leaves`).
  Every chain follows the rule (`Setting.leaves_foldl_set`), so two chains that give the
  same in each call come to the same (`Setting.resolve_foldl_set`).
-/

import GraphSchema.Types.InputObject
import GraphSchema.Types.Interface
import Mathlib.Data.List.Forall2
import Mathlib.Data.List.Induction

namespace GraphSchema

/-- A call that sets something deferred: the whole anew, or a further part of it. -/
inductive Setting (α β : Type) where
  | whole (given : Deferred α)
  | part (extra : β)

namespace Setting

variable {α β : Type}

/-- Two calls that give the same, now or later. -/
inductive SameGiven : Setting α β → Setting α β → Prop
  | whole {given other : Deferred α} : given.resolve = other.resolve →
      SameGiven (.whole given) (.whole other)
  | part (extra : β) : SameGiven (.part extra) (.part extra)

/-- What a chain of calls leaves of what there was at first. -/
inductive Leaves (put : α → β → α) (initial : α) : List (Setting α β) → α → Prop
  /-- Nothing was given. -/
  | parts (extras : List β) : Leaves put initial (extras.map .part) (extras.foldl put initial)
  /-- Nothing was given after this. -/
  | whole (before : List (Setting α β)) (given : Deferred α) (extras : List β) :
      Leaves put initial (before ++ .whole given :: extras.map .part)
        (extras.foldl put given.resolve)

end Setting

/-- A value that is only given when it is asked for. -/
def Deferred.delayed {α : Type} (value : α) : Deferred α := .later fun _ => value

/-- The value after a call, made when the one before it is. -/
def Deferred.set {α β : Type} (put : α → β → α) (deferred : Deferred α) :
    Setting α β → Deferred α
  | .whole given => given
  | .part extra => deferred.map (put · extra)

namespace Setting

variable {α β : Type} {put : α → β → α}

theorem leaves_set {initial : α} {chain : List (Setting α β)} {deferred : Deferred α}
    (h : Leaves put initial chain deferred.resolve) (last : Setting α β) :
    Leaves put initial (chain ++ [last]) (deferred.set put last).resolve := by
  cases last with
  | whole given => exact .whole chain given []
  | part extra =>
    have hput : (deferred.set put (.part extra)).resolve = put deferred.resolve extra :=
      Deferred.resolve_map ..
    rw [hput]
    generalize deferred.resolve = value at h
    cases h with
    | parts extras =>
      have hparts : Leaves put initial _ _ := .parts (extras ++ [extra])
      rwa [List.map_append, List.foldl_append] at hparts
    | whole before given extras =>
      have hwhole : Leaves put initial _ _ := .whole before given (extras ++ [extra])
      rw [List.map_append, List.foldl_append] at hwhole
      rw [List.append_assoc]
      exact hwhole

/-- Every chain of calls follows the rule. -/
theorem leaves_foldl_set (start : Deferred α) (chain : List (Setting α β)) :
    Leaves put start.resolve chain (chain.foldl (Deferred.set put) start).resolve := by
  induction chain using List.reverseRecOn with
  | nil => exact .parts []
  | append_singleton chain last ih =>
    rw [List.foldl_append]
    exact leaves_set ih last

theorem resolve_set {call other : Setting α β} (h : SameGiven call other) {a b : Deferred α}
    (hab : a.resolve = b.resolve) : (a.set put call).resolve = (b.set put other).resolve := by
  cases h with
  | whole hgiven => exact hgiven
  | part extra => simp only [Deferred.set, Deferred.resolve_map, hab]

/-- Chains that give the same in each call come to the same. -/
theorem resolve_foldl_set {chain other : List (Setting α β)} (h : List.Forall₂ SameGiven chain other)
    {a b : Deferred α} (hab : a.resolve = b.resolve) :
    (chain.foldl (Deferred.set put) a).resolve = (other.foldl (Deferred.set put) b).resolve := by
  induction h generalizing a b with
  | nil => exact hab
  | cons hfirst _ ih => exact ih (resolve_set hfirst hab)

end Setting

/-! ## Chains of calls on configurations -/

/-- A call that sets a field map. -/
abbrev FieldSetting (α : Type) := Setting (Keyed α) (String × α)

namespace Keyed

variable {α : Type}

/-- Puts a value under its key, in the place of the one that is there or last. -/
def putEntry (m : Keyed α) (entry : String × α) : Keyed α := m.insert entry.1 entry.2

end Keyed

/-- A call that sets the fields or the interfaces of an object. -/
inductive ObjectSetting where
  | fields (setting : FieldSetting FieldConfig)
  | interfaces (setting : Setting (List String) String)

namespace ObjectSetting

inductive SameGiven : ObjectSetting → ObjectSetting → Prop
  | fields {setting other : FieldSetting FieldConfig} : setting.SameGiven other →
      SameGiven (.fields setting) (.fields other)
  | interfaces {setting other : Setting (List String) String} : setting.SameGiven other →
      SameGiven (.interfaces setting) (.interfaces other)

def fields? : ObjectSetting → Option (FieldSetting FieldConfig)
  | fields setting => some setting
  | interfaces _ => none

def interfaces? : ObjectSetting → Option (Setting (List String) String)
  | fields _ => none
  | interfaces setting => some setting

end ObjectSetting

namespace ObjectConfig

def set (config : ObjectConfig) : ObjectSetting → ObjectConfig
  | .fields (.whole given) => config.withFields given
  | .fields (.part extra) => config.withField extra.1 extra.2
  | .interfaces (.whole given) => config.withInterfaces given
  | .interfaces (.part extra) => config.withInterface extra

/-- The configuration after a chain of calls. -/
def setUp (config : ObjectConfig) (chain : List ObjectSetting) : ObjectConfig :=
  chain.foldl set config

theorem setUp_eq (config : ObjectConfig) (chain : List ObjectSetting) :
    config.setUp chain = { config with
      fields := (chain.filterMap ObjectSetting.fields?).foldl (Deferred.set Keyed.putEntry)
        config.fields
      interfaces := (chain.filterMap ObjectSetting.interfaces?).foldl
        (Deferred.set fun names name => names ++ [name]) config.interfaces } := by
  induction chain generalizing config with
  | nil => rfl
  | cons first rest ih =>
    refine (ih (config.set first)).trans ?_
    cases first with
    | fields setting => cases setting <;> rfl
    | interfaces setting => cases setting <;> rfl

end ObjectConfig

namespace InterfaceConfig

def set (config : InterfaceConfig) : FieldSetting FieldConfig → InterfaceConfig
  | .whole given => config.withFields given
  | .part extra => config.withField extra.1 extra.2

def setUp (config : InterfaceConfig) (chain : List (FieldSetting FieldConfig)) : InterfaceConfig :=
  chain.foldl set config

theorem setUp_eq (config : InterfaceConfig) (chain : List (FieldSetting FieldConfig)) :
    config.setUp chain =
      { config with fields := chain.foldl (Deferred.set Keyed.putEntry) config.fields } := by
  induction chain generalizing config with
  | nil => rfl
  | cons first rest ih =>
    refine (ih (config.set first)).trans ?_
    cases first <;> rfl

end InterfaceConfig

namespace InputObjectConfig

def set (config : InputObjectConfig) : FieldSetting InputFieldConfig → InputObjectConfig
  | .whole given => config.withFields given
  | .part extra => config.withField extra.1 extra.2

def setUp (config : InputObjectConfig) (chain : List (FieldSetting InputFieldConfig)) :
    InputObjectConfig :=
  chain.foldl set config

theorem setUp_eq (config : InputObjectConfig) (chain : List (FieldSetting InputFieldConfig)) :
    config.setUp chain =
      { config with fields := chain.foldl (Deferred.set Keyed.putEntry) config.fields } := by
  induction chain generalizing config with
  | nil => rfl
  | cons first rest ih =>
    refine (ih (config.set first)).trans ?_
    cases first <;> rfl

end InputObjectConfig

end GraphSchema

/-
  GraphSchema.Json.Decode — typed reads of runtime values.

  A read gives a value of the wanted type or nothing; nothing is converted on the way,
  with one exception: a double is read from an integer too, rounded. An integer type
  accepts the integers in its range and never a floating number, not even a whole one.
  - `LawfulCoding`: what is written reads back; it holds for every basic type here, and
    for lists of a type for which it holds.
-/

import GraphSchema.Json.Basic

namespace GraphSchema

class Decode (α : Type) where
  decode? : Json → Option α

export Decode (decode?)

namespace Decode

/-- An integer from `low` to `high`. -/
def int? (low high : Int) : Json → Option Int
  | .int value => if low ≤ value ∧ value ≤ high then some value else none
  | _ => none

instance : Decode UInt8 := ⟨fun value => (int? 0 (UInt8.size - 1) value).map fun n => UInt8.ofNat n.toNat⟩

instance : Decode UInt32 :=
  ⟨fun value => (int? 0 (UInt32.size - 1) value).map fun n => UInt32.ofNat n.toNat⟩

instance : Decode UInt64 :=
  ⟨fun value => (int? 0 (UInt64.size - 1) value).map fun n => UInt64.ofNat n.toNat⟩

instance : Decode Int64 := ⟨fun value => (int? Int64.minValue.toInt Int64.maxValue.toInt value).map Int64.ofInt⟩

instance : Decode Double where
  decode?
    | .float value => some value
    | .int value => Double.ofInt? value
    | _ => none

instance : Decode Bool where
  decode?
    | .bool value => some value
    | _ => none

instance : Decode String := ⟨Json.string?⟩

instance : Decode Json := ⟨some⟩

def items? {α : Type} [Decode α] : List Json → Option (List α)
  | [] => some []
  | item :: rest =>
    match decode? item, items? rest with
    | some value, some values => some (value :: values)
    | _, _ => none

instance {α : Type} [Decode α] : Decode (List α) where
  decode?
    | .array items => items? items
    | _ => none

/-- A null or a missing value is none; anything else must read. -/
def optional? {α : Type} [Decode α] : Option Json → Option (Option α)
  | none => some none
  | some .null => some none
  | some value => (decode? value).map some

end Decode

/-! ## Writing back -/

class Encode (α : Type) where
  encode : α → Json

export Encode (encode)

instance : Encode UInt8 := ⟨fun n => .int n.toNat⟩
instance : Encode UInt32 := ⟨fun n => .int n.toNat⟩
instance : Encode UInt64 := ⟨fun n => .int n.toNat⟩
instance : Encode Int64 := ⟨fun n => .int n.toInt⟩
instance : Encode Double := ⟨.float⟩
instance : Encode Bool := ⟨.bool⟩
instance : Encode String := ⟨.string⟩
instance : Encode Json := ⟨id⟩
instance {α : Type} [Encode α] : Encode (List α) := ⟨fun items => .array (items.map encode)⟩

/-! ## What is written reads back -/

class LawfulCoding (α : Type) [Encode α] [Decode α] : Prop where
  decode?_encode : ∀ value : α, decode? (encode value) = some value

export LawfulCoding (decode?_encode)

namespace Decode

theorem int?_int {low high n : Int} (hl : low ≤ n) (hh : n ≤ high) :
    int? low high (.int n) = some n := by
  simp [int?, hl, hh]

theorem items?_map_encode {α : Type} [Encode α] [Decode α] [LawfulCoding α] (items : List α) :
    items? (items.map encode) = some items := by
  induction items with
  | nil => rfl
  | cons item rest ih => simp [items?, decode?_encode, ih]

end Decode

instance : LawfulCoding UInt8 where
  decode?_encode n := by
    have h := n.toNat_lt
    have hsize : UInt8.size = 256 := rfl
    show (Decode.int? 0 (UInt8.size - 1) (.int n.toNat)).map (fun n => UInt8.ofNat n.toNat) = some n
    rw [Decode.int?_int (by omega) (by omega)]
    simp

instance : LawfulCoding UInt32 where
  decode?_encode n := by
    have h := n.toNat_lt
    have hsize : UInt32.size = 4294967296 := rfl
    show (Decode.int? 0 (UInt32.size - 1) (.int n.toNat)).map (fun n => UInt32.ofNat n.toNat) = some n
    rw [Decode.int?_int (by omega) (by omega)]
    simp

instance : LawfulCoding UInt64 where
  decode?_encode n := by
    have h := n.toNat_lt
    have hsize : UInt64.size = 18446744073709551616 := rfl
    show (Decode.int? 0 (UInt64.size - 1) (.int n.toNat)).map (fun n => UInt64.ofNat n.toNat) = some n
    rw [Decode.int?_int (by omega) (by omega)]
    simp

instance : LawfulCoding Int64 where
  decode?_encode n := by
    show (Decode.int? Int64.minValue.toInt Int64.maxValue.toInt (.int n.toInt)).map Int64.ofInt =
      some n
    rw [Decode.int?_int n.minValue_le_toInt n.toInt_le]
    simp

instance : LawfulCoding Double := ⟨fun _ => rfl⟩
instance : LawfulCoding Bool := ⟨fun _ => rfl⟩
instance : LawfulCoding String := ⟨fun _ => rfl⟩
instance : LawfulCoding Json := ⟨fun _ => rfl⟩

instance {α : Type} [Encode α] [Decode α] [LawfulCoding α] : LawfulCoding (List α) :=
  ⟨Decode.items?_map_encode⟩

end GraphSchema

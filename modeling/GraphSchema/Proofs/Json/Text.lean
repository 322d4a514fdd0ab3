/-
  GraphSchema.Proofs.Json.Text — the text of a value tells the value.

  The first character shows the form: a letter for null and the booleans, a digit or a
  minus for a number, a quote, a bracket or a brace. Within a form the value is told by
  what comes then, up to where its text ends. Leaves end by themselves or where no character
  of a number follows; items and members end at the closing bracket, which is the first
  character of no value and of no name.

  This holds of every printer that writes leaves, brackets and separators as the JSON text
  does, however it writes names and whether or not blanks stand after separators
  (`Spells.tells`). Of the compact text it follows that equal texts are texts of one value,
  members in one order, floating numbers to the sign of a zero (`text_inj`).
-/

import GraphSchema.Proofs.Json.Inside
import GraphSchema.Proofs.Json.Number
import GraphSchema.Proofs.Text.Quoted

namespace GraphSchema

namespace Json

/-! ## Forms -/

inductive Form where
  | null
  | bool
  | number
  | string
  | array
  | object
  deriving DecidableEq

def form : Json → Form
  | .null => .null
  | .bool _ => .bool
  | .int _ | .float _ => .number
  | .string _ => .string
  | .array _ => .array
  | .object _ => .object

/-- The form of the values whose text starts with the character. -/
def Form.ofLead? (c : Char) : Option Form :=
  if c = 'n' then some .null
  else if c = 't' ∨ c = 'f' then some .bool
  else if c.isDigit ∨ c = '-' then some .number
  else if c = '"' then some .string
  else if c = '[' then some .array
  else if c = '\x7b' then some .object
  else none

theorem Form.ofLead?_of_isDigit {c : Char} (h : c.isDigit = true) : ofLead? c = some .number := by
  have hne : ∀ d : Char, d.isDigit = false → c ≠ d := fun d hd heq => by simp [heq, hd] at h
  rw [ofLead?, if_neg (hne 'n' rfl), if_neg (not_or.mpr ⟨hne 't' rfl, hne 'f' rfl⟩),
    if_pos (Or.inl h)]

theorem exists_lead_of_isLeaf {value : Json} (h : value.isLeaf = true) :
    ∃ c rest, value.text.toList = c :: rest ∧ Form.ofLead? c = some value.form := by
  cases value with
  | null => exact ⟨_, _, rfl, rfl⟩
  | bool b =>
    cases b with
    | false => exact ⟨_, _, rfl, rfl⟩
    | true => exact ⟨_, _, rfl, rfl⟩
  | int n =>
    rw [text, toList_intText]
    split
    · exact ⟨_, _, rfl, rfl⟩
    · obtain ⟨c, rest, hcons⟩ := List.exists_cons_of_ne_nil (natDigits_ne_nil n.natAbs)
      exact ⟨c, rest, hcons,
        Form.ofLead?_of_isDigit (isDigit_of_mem_natDigits (hcons ▸ List.mem_cons_self ..))⟩
  | float x =>
    rw [text, FloatLayout.toList_text]
    split
    · exact ⟨_, _, rfl, rfl⟩
    · obtain ⟨c, rest, hcons, hdigit⟩ := floatLayout.exists_cons_unsigned x
      exact ⟨c, rest, hcons, Form.ofLead?_of_isDigit hdigit⟩
  | string s => exact ⟨_, _, toList_quoted s, rfl⟩
  | array _ => cases h
  | object _ => cases h

/-- Texts that start alike are of values of one form. -/
theorem form_eq_of_lead {a b : Json} {s t x y : List Char}
    (ha : ∃ c rest, s = c :: rest ∧ Form.ofLead? c = some a.form)
    (hb : ∃ c rest, t = c :: rest ∧ Form.ofLead? c = some b.form) (h : s ++ x = t ++ y) :
    a.form = b.form := by
  obtain ⟨c, rest, rfl, hc⟩ := ha
  obtain ⟨d, others, rfl, hd⟩ := hb
  rw [(List.cons.inj h).1, hd] at hc
  exact (Option.some.inj hc).symm

/-! ## Leaves -/

theorem isNumeric_of_mem_text {value : Json} (h : value.form = .number) :
    ∀ c ∈ value.text.toList, isNumeric c = true := by
  cases value with
  | int n => exact fun c => isNumeric_of_mem_intText
  | float x => exact fun c => FloatLayout.isNumeric_of_mem_text
  | _ => cases h

theorem number_injective {a b : Json} (ha : a.form = .number) (hb : b.form = .number)
    (h : a.text = b.text) : a = b := by
  cases a with
  | int m =>
    cases b with
    | int n => exact congrArg int (intText_injective h)
    | float y => exact absurd h FloatLayout.intText_ne_text
    | _ => cases hb
  | float x =>
    cases b with
    | int n => exact absurd h.symm FloatLayout.intText_ne_text
    | float y => exact congrArg float (FloatLayout.text_injective h)
    | _ => cases hb
  | _ => cases ha

theorem tells_leaf :
    Tells (fun value : Json => value.isLeaf = true) text id (StopsAt isNumeric) := by
  intro a b x y ha hb hx hy h
  have hform : a.form = b.form :=
    form_eq_of_lead (exists_lead_of_isLeaf ha) (exists_lead_of_isLeaf hb) h
  have hnumber : a.form = .number → a = b ∧ x = y := by
    intro hnum
    obtain ⟨htext, hxy⟩ := tells_run isNumeric (isNumeric_of_mem_text hnum)
      (isNumeric_of_mem_text (hform ▸ hnum)) hx hy h
    exact ⟨number_injective hnum (hform ▸ hnum) htext, hxy⟩
  cases a with
  | null =>
    cases b with
    | null => exact ⟨rfl, List.append_cancel_left h⟩
    | _ => cases hform
  | bool p =>
    cases b with
    | bool q =>
      cases p with
      | false =>
        cases q with
        | false => exact ⟨rfl, List.append_cancel_left h⟩
        | true => exact absurd (List.cons.inj h).1 (by decide)
      | true =>
        cases q with
        | false => exact absurd (List.cons.inj h).1 (by decide)
        | true => exact ⟨rfl, List.append_cancel_left h⟩
    | _ => cases hform
  | int n => exact hnumber rfl
  | float z => exact hnumber rfl
  | string s =>
    cases b with
    | string t =>
      obtain ⟨hst, hxy⟩ := tells_quoted trivial trivial trivial trivial h
      exact ⟨congrArg string hst, hxy⟩
    | _ => cases hform
  | array _ => cases ha
  | object _ => cases ha

/-! ## Items and members -/

theorem isLeaf_eq_of_form {a b : Json} (h : a.form = b.form) : a.isLeaf = b.isLeaf := by
  cases a <;> cases b <;> first | rfl | cases h

/-- Names of members are valid, and of items and members the values are as said. -/
def Parts (valid : String → Prop) (inner : Json → Prop) : Json → Prop
  | .array items => ∀ item ∈ items, inner item
  | .object members => ∀ m ∈ members, valid m.1 ∧ inner m.2
  | _ => True

theorem parts_of_named {value : Json} {valid : String → Prop} {bound : Nat}
    (hsize : sizeOf value < bound + 1) (h : value.Named valid) :
    value.Parts valid fun inner => sizeOf inner < bound ∧ inner.Named valid := by
  cases value with
  | array items =>
    intro item hitem
    have := sizeOf_item_lt hitem
    exact ⟨by omega, named_array_iff.mp h item hitem⟩
  | object members =>
    intro m hm
    have := sizeOf_member_lt hm
    obtain ⟨hname, hvalue⟩ := named_object_iff.mp h m hm
    exact ⟨hname, by omega, hvalue⟩
  | _ => exact trivial

/-- The printer writes leaves as the JSON text does, and items and members between brackets
with separators that a gap may follow. -/
structure Spells (print : Json → String) (gap : String) (name : String → String) : Prop where
  leaf : ∀ value, value.isLeaf = true → print value = value.text
  array : ∀ items, print (.array items) = "[" ++ joinWith ("," ++ gap) (items.map print) ++ "]"
  object : ∀ members, print (.object members) =
    "\x7b" ++ joinWith ("," ++ gap)
      (members.map fun m => name m.1 ++ (":" ++ gap ++ print m.2)) ++ "\x7d"

namespace Spells

variable {print : Json → String} {gap : String} {name : String → String}

theorem exists_lead (h : Spells print gap name) (value : Json) :
    ∃ c rest, (print value).toList = c :: rest ∧ Form.ofLead? c = some value.form := by
  cases value with
  | array items =>
    rw [h.array]
    simp only [String.toList_append]
    exact ⟨_, _, rfl, rfl⟩
  | object members =>
    rw [h.object]
    simp only [String.toList_append]
    exact ⟨_, _, rfl, rfl⟩
  | _ =>
    rw [h.leaf _ rfl]
    exact exists_lead_of_isLeaf rfl

theorem stopsAt_comma {x : List Char} (hx : ("," ++ gap).toList <+: x) : StopsAt isNumeric x := by
  rw [String.toList_append] at hx
  exact stopsAt_of_prefix hx (by decide)

/-- What starts with one character does not start with another. -/
theorem not_comma_of_prefix {c : Char} (hne : c ≠ ',') {x : List Char} (hx : [c] <+: x) :
    ¬ ("," ++ gap).toList <+: x := by
  obtain ⟨rest, rfl⟩ := hx
  rw [String.toList_append]
  exact fun hcomma => hne (List.cons_prefix_cons.mp hcomma).1.symm

variable {valid : String → Prop} {inner : Json → Prop}

/-- Items up to the closing bracket, which is the first character of none of them. -/
theorem tells_items (h : Spells print gap name) (hinner : Tells inner print id (StopsAt isNumeric)) :
    Tells (fun items : List Json => ∀ item ∈ items, inner item)
      (fun items => joinWith ("," ++ gap) (items.map print)) (List.map id) fun x => [']'] <+: x := by
  refine Tells.orNothing (Tells.joined (hinner.mono fun x hx => ?_) fun x hx => ?_) rfl ?_
  · exact hx.elim (fun hend => stopsAt_of_prefix hend (by decide)) stopsAt_comma
  · exact not_comma_of_prefix (by decide) hx
  · intro item rest x _ hend
    obtain ⟨c, more, hcons, hlead⟩ := h.exists_lead item
    rw [joinWith_map_cons, String.toList_append, hcons] at hend
    rw [← (List.cons_prefix_cons.mp hend).1] at hlead
    cases hlead

theorem tells_member (hname : Tells valid name id fun x => [':'] <+: x)
    (hinner : Tells inner print id (StopsAt isNumeric)) :
    Tells (fun m : String × Json => valid m.1 ∧ inner m.2)
      (fun m => name m.1 ++ (":" ++ gap ++ print m.2)) id (StopsAt isNumeric) := by
  intro a b x y ha hb hx hy htext
  have hcolon : ∀ value (x : List Char), [':'] <+: (":" ++ gap ++ print value).toList ++ x := by
    intro value x
    simp only [String.toList_append, List.append_assoc]
    exact List.prefix_append _ _
  simp only [String.toList_append (s := name _), List.append_assoc] at htext
  obtain ⟨hkey, htext⟩ := hname ha.1 hb.1 (hcolon a.2 x) (hcolon b.2 y) htext
  simp only [String.toList_append, List.append_assoc, List.append_cancel_left_eq] at htext
  obtain ⟨hvalue, hxy⟩ := hinner ha.2 hb.2 hx hy htext
  exact ⟨Prod.ext hkey hvalue, hxy⟩

/-- Members up to the closing brace, which is the first character of no name. -/
theorem tells_members (hname : Tells valid name id fun x => [':'] <+: x)
    (hstart : ∀ n, valid n → ∃ c rest, (name n).toList = c :: rest ∧ c ≠ '\x7d')
    (hinner : Tells inner print id (StopsAt isNumeric)) :
    Tells (fun members : List (String × Json) => ∀ m ∈ members, valid m.1 ∧ inner m.2)
      (fun members => joinWith ("," ++ gap) (members.map fun m => name m.1 ++ (":" ++ gap ++ print m.2)))
      (List.map id) fun x => ['\x7d'] <+: x := by
  refine Tells.orNothing
    (Tells.joined ((tells_member hname hinner).mono fun x hx => ?_) fun x hx => ?_) rfl ?_
  · exact hx.elim (fun hend => stopsAt_of_prefix hend (by decide)) stopsAt_comma
  · exact not_comma_of_prefix (by decide) hx
  · intro m rest x hm hend
    obtain ⟨c, more, hcons, hne⟩ := hstart m.1 hm.1
    rw [joinWith_map_cons, String.toList_append, String.toList_append, hcons] at hend
    exact hne (List.cons_prefix_cons.mp hend).1.symm

/-- Two arrays or two objects are told apart if their items and members are. -/
theorem tells_nested (h : Spells print gap name) (hname : Tells valid name id fun x => [':'] <+: x)
    (hstart : ∀ n, valid n → ∃ c rest, (name n).toList = c :: rest ∧ c ≠ '\x7d')
    (hinner : Tells inner print id (StopsAt isNumeric)) {a b : Json} {x y : List Char}
    (ha : a.Parts valid inner) (hb : b.Parts valid inner) (hx : StopsAt isNumeric x)
    (hy : StopsAt isNumeric y) (htext : (print a).toList ++ x = (print b).toList ++ y) :
    a = b ∧ x = y := by
  have hform : a.form = b.form := form_eq_of_lead (h.exists_lead a) (h.exists_lead b) htext
  cases a with
  | array items =>
    cases b with
    | array others =>
      simp only [h.array, String.toList_append, List.append_assoc, List.append_cancel_left_eq] at htext
      obtain ⟨hsame, hend⟩ := h.tells_items hinner ha hb (List.prefix_append _ x)
        (List.prefix_append _ y) htext
      rw [List.map_id, List.map_id] at hsame
      exact ⟨congrArg Json.array hsame, List.append_cancel_left hend⟩
    | _ => cases hform
  | object members =>
    cases b with
    | object others =>
      simp only [h.object, String.toList_append, List.append_assoc, List.append_cancel_left_eq] at htext
      obtain ⟨hsame, hend⟩ := tells_members hname hstart hinner ha hb (List.prefix_append _ x)
        (List.prefix_append _ y) htext
      rw [List.map_id, List.map_id] at hsame
      exact ⟨congrArg Json.object hsame, List.append_cancel_left hend⟩
    | _ => cases hform
  | _ =>
    have hleaf : b.isLeaf = true := (isLeaf_eq_of_form hform).symm
    rw [h.leaf _ rfl, h.leaf _ hleaf] at htext
    exact tells_leaf rfl hleaf hx hy htext

/-- A value is told before anything that does not go on like a number, if names are told
before the colon and none looks like the end of an object. -/
theorem tells (h : Spells print gap name) (hname : Tells valid name id fun x => [':'] <+: x)
    (hstart : ∀ n, valid n → ∃ c rest, (name n).toList = c :: rest ∧ c ≠ '\x7d') :
    Tells (Named valid) print id (StopsAt isNumeric) := by
  -- By induction on a bound of the size, which holds of both values.
  have hbelow : ∀ bound, Tells (fun value : Json => sizeOf value < bound ∧ value.Named valid)
      print id (StopsAt isNumeric) := by
    intro bound
    induction bound with
    | zero => exact fun a _ _ _ ha => absurd ha.1 (Nat.not_lt_zero _)
    | succ bound ih =>
      exact fun a b x y ha hb => h.tells_nested hname hstart ih (parts_of_named ha.1 ha.2)
        (parts_of_named hb.1 hb.2)
  intro a b x y ha hb hx hy htext
  exact hbelow (sizeOf a + sizeOf b + 1) ⟨by omega, ha⟩ ⟨by omega, hb⟩ hx hy htext

end Spells

/-! ## The compact text -/

theorem itemsText_eq (items : List Json) : itemsText items = joinWith "," (items.map text) :=
  eq_joinWith rfl (fun _ => rfl) (fun _ _ _ => rfl) items

theorem membersText_eq (members : List (String × Json)) :
    membersText members = joinWith "," (members.map fun m => quoted m.1 ++ (":" ++ m.2.text)) := by
  refine eq_joinWith rfl (fun m => String.append_assoc) (fun m next rest => ?_) members
  exact congrArg (fun member => member ++ "," ++ membersText (next :: rest)) String.append_assoc

theorem text_spells : Spells text "" quoted where
  leaf _ _ := rfl
  array items := by rw [text, itemsText_eq]; rfl
  object members := by rw [text, membersText_eq]; rfl

theorem tells_text : Tells (fun _ => True) text id (StopsAt isNumeric) := by
  have hnames : ∀ value : Json, value.Named fun _ => True := fun _ _ _ _ _ _ _ => trivial
  have htells : Tells (Named fun _ => True) text id (StopsAt isNumeric) :=
    text_spells.tells (fun _ _ _ _ ha hb _ _ => tells_quoted ha hb trivial trivial)
      fun n _ => ⟨_, _, toList_quoted n, by decide⟩
  exact fun a b x y _ _ => htells (hnames a) (hnames b)

/-- Equal texts are texts of one value. -/
theorem text_inj {a b : Json} : a.text = b.text ↔ a = b := by
  constructor
  · intro h
    exact (tells_text trivial trivial (stopsAt_nil _) (stopsAt_nil _)
      (congrArg (fun text => text.toList ++ []) h)).1
  · exact congrArg text

end Json

end GraphSchema

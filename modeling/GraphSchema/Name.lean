/-
  GraphSchema.Name — the names a schema may give to types, fields, arguments and
  enum values.

  A name is a letter or an underscore followed by letters, digits and underscores.
  Only ASCII counts: `é` and `٣` are neither letters nor digits here.
-/

namespace GraphSchema

def isNameStart (c : Char) : Bool := c.isAlpha || c == '_'

def isNameRest (c : Char) : Bool := c.isAlphanum || c == '_'

/-- A non-empty run of name characters that does not start with a digit. -/
def isNameText : List Char → Bool
  | [] => false
  | c :: rest => isNameStart c && rest.all isNameRest

def isValidName (name : String) : Bool := isNameText name.toList

@[simp] theorem isValidName_empty : isValidName "" = false := rfl

theorem isNameRest_of_isNameStart {c : Char} (h : isNameStart c = true) : isNameRest c = true := by
  unfold isNameStart at h
  unfold isNameRest Char.isAlphanum
  cases hc : c.isAlpha <;> simp_all

/-- Every character of a name may stand inside a name. -/
theorem isNameRest_of_isNameText {cs : List Char} (h : isNameText cs = true) :
    ∀ c ∈ cs, isNameRest c = true := by
  cases cs with
  | nil => simp
  | cons first rest =>
    simp only [isNameText, Bool.and_eq_true, List.all_eq_true] at h
    intro c hc
    rcases List.mem_cons.mp hc with rfl | hc
    · exact isNameRest_of_isNameStart h.1
    · exact h.2 c hc

end GraphSchema

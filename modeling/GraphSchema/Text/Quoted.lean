/-
  GraphSchema.Text.Quoted — text in quotes, as it stands in a JSON document.

  A quote and a backslash get a backslash in front; backspace, form feed, line feed,
  carriage return and tab have letters of their own; every other control below the space
  is written by its number in four hexadecimal digits. All else stands as it is, also
  the slash, the delete control and everything beyond ASCII.
-/

namespace GraphSchema

namespace Quoted

def hexDigit (n : Nat) : Char := Nat.digitChar n

def escape (c : Char) : List Char :=
  if c = '"' then ['\\', '"']
  else if c = '\\' then ['\\', '\\']
  else if c.toNat = 0x8 then ['\\', 'b']
  else if c.toNat = 0xc then ['\\', 'f']
  else if c = '\n' then ['\\', 'n']
  else if c = '\r' then ['\\', 'r']
  else if c = '\t' then ['\\', 't']
  else if c.toNat < 0x20 then
    ['\\', 'u', '0', '0', hexDigit (c.toNat / 16), hexDigit (c.toNat % 16)]
  else [c]

def encode (cs : List Char) : List Char := '"' :: cs.flatMap escape ++ ['"']

end Quoted

/-- The text with quotes around it. -/
def quoted (text : String) : String := String.ofList (Quoted.encode text.toList)

end GraphSchema

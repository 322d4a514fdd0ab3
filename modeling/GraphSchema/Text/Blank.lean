/-
  GraphSchema.Text.Blank — white space, and text without it at either end.

  White space is the set of characters with the Unicode property of that name: controls
  from tab to carriage return, the space, the next-line control, the no-break space and
  the wider spaces and separators. A zero-width space and a byte order mark are none.
-/

namespace GraphSchema

def isBlank (c : Char) : Bool :=
  let n := c.toNat
  (0x9 ≤ n && n ≤ 0xd) || n == 0x20 || n == 0x85 || n == 0xa0 || n == 0x1680 ||
    (0x2000 ≤ n && n ≤ 0x200a) || n == 0x2028 || n == 0x2029 || n == 0x202f || n == 0x205f ||
    n == 0x3000

/-- The text between the first and the last character that is not white space. -/
def trimBlanks (cs : List Char) : List Char :=
  ((cs.dropWhile isBlank).reverse.dropWhile isBlank).reverse

end GraphSchema

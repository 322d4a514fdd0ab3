/-
  GraphSchema.Request.Span — stretches of a request document, in bytes.

  A span runs from its first byte up to, and without, its last; offsets are 32-bit words.
-/

namespace GraphSchema

structure Span where
  start : UInt32
  stop : UInt32
  deriving DecidableEq, Repr

namespace Span

instance : Inhabited Span := ⟨⟨0, 0⟩⟩

def length (span : Span) : UInt32 := span.stop - span.start

def isEmpty (span : Span) : Bool := span.start == span.stop

/-- The least span that covers both. -/
def merge (a b : Span) : Span where
  start := if a.start ≤ b.start then a.start else b.start
  stop := if a.stop ≤ b.stop then b.stop else a.stop

end Span

end GraphSchema

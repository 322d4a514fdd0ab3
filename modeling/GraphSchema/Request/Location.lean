/-
  GraphSchema.Request.Location — line and column of a byte offset.

  Both count from 1; a column counts characters. A line ends at a line feed, at a
  carriage return, or at the two together, which count once. An offset past the end means
  the end. The bytes before the offset are read for line ends (`lineAt`); a carriage return
  takes its line feed with it, also one that stands at the offset, so that an offset
  between the two is the start of the next line. An offset inside a character of several
  bytes stands on no character: its column counts the bytes since the start of the line
  instead. Lines are counted in words, which wrap; a column that is no word is the greatest.
-/

import GraphSchema.Request.Span

namespace GraphSchema

structure SourceLocation where
  line : UInt32
  column : UInt32
  deriving DecidableEq, Repr

namespace SourceLocation

/-- The greatest word where a count does not fit. -/
def clamp (n : Nat) : UInt32 := UInt32.ofNat (min n (UInt32.size - 1))

/-- A line by its number and the byte it starts at. -/
structure Line where
  number : UInt32
  start : Nat
  deriving DecidableEq, Repr

def Line.next (line : Line) (start : Nat) : Line := ⟨line.number + 1, start⟩

def isTerminator (byte : UInt8) : Bool := byte == 0x0a || byte == 0x0d

/-- The line that is reached where no line end starts before the offset any more. The bytes
given are those from `place` on. -/
def lineAt (offset : Nat) (line : Line) (place : Nat) : List UInt8 → Line
  | [] => line
  | 0x0d :: 0x0a :: rest =>
    if place < offset then lineAt offset (line.next (place + 2)) (place + 2) rest else line
  | byte :: rest =>
    if place < offset then
      lineAt offset (if isTerminator byte then line.next (place + 1) else line) (place + 1) rest
    else line

/-- How many characters stand between two bytes, if these are in order and neither is inside
a character. -/
def charsBetween? (source : String) (start stop : Nat) : Option Nat :=
  let first : String.Pos.Raw := ⟨start⟩
  let last : String.Pos.Raw := ⟨stop⟩
  if start ≤ stop ∧ first.isValid source ∧ last.isValid source then
    some (first.extract source last).length
  else none

/-- How far an offset is from the start of its line, from zero: in characters, or in bytes
where it is inside a character. -/
def Line.column (line : Line) (source : String) (offset : Nat) : Nat :=
  (charsBetween? source line.start offset).getD (offset - line.start)

def ofOffset (source : String) (offset : UInt32) : SourceLocation :=
  let offset := min offset.toNat source.utf8ByteSize
  let line := lineAt offset ⟨1, 0⟩ 0 source.toUTF8.data.toList
  ⟨line.number, clamp (line.column source offset + 1)⟩

end SourceLocation

/-- Where a span starts in the document it belongs to. -/
def Span.location (span : Span) (source : String) : SourceLocation :=
  SourceLocation.ofOffset source span.start

end GraphSchema

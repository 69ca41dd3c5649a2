/-!
Places in a text. Offsets and columns count UTF-8 bytes, lines and columns start
at zero.
-/

namespace PklAnalysis

/-- A half-open run of bytes. It never ends before it starts. -/
structure Range where
  start : Nat
  stop : Nat
  start_le_stop : start ≤ stop
deriving DecidableEq, Repr

namespace Range

def between? (start stop : Nat) : Option Range :=
  if h : start ≤ stop then some ⟨start, stop, h⟩ else none

def ofSize (start size : Nat) : Range :=
  ⟨start, start + size, Nat.le_add_right start size⟩

/-- Whether an offset lies in the range or at one of its ends. -/
def touches (range : Range) (offset : Nat) : Bool :=
  range.start ≤ offset && offset ≤ range.stop

def covers (range other : Range) : Bool :=
  range.start ≤ other.start && other.stop ≤ range.stop

def text (range : Range) : String :=
  s!"{range.start}..{range.stop}"

end Range

structure Position where
  line : Nat
  column : Nat
deriving DecidableEq, Repr

def Position.atMost (left right : Position) : Bool :=
  left.line < right.line ||
    (left.line = right.line && left.column ≤ right.column)

structure Span where
  start : Position
  stop : Position
deriving DecidableEq, Repr

def Span.contains (span : Span) (position : Position) : Bool :=
  span.start.atMost position && position.atMost span.stop

end PklAnalysis

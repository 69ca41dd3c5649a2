import PklAnalysis.Text.Range

/-!
Lines of a text: from offsets to positions and back.
-/

namespace PklAnalysis

structure Lines where
  /-- The offset after each line break, in order. -/
  breaks : List Nat
  size : Nat
deriving DecidableEq, Repr

namespace Lines

def breaksFrom (offset : Nat) : List Char → List Nat
  | [] => []
  | c :: rest =>
      let next := offset + c.utf8Size
      if c = '\n' then next :: breaksFrom next rest else breaksFrom next rest

def ofText (text : String) : Lines :=
  { breaks := breaksFrom 0 text.toList, size := text.utf8ByteSize }

/-- The number of lines. The text after the last line break is a line, even if
it is empty. -/
def count (lines : Lines) : Nat :=
  lines.breaks.length + 1

/-- The position of an offset. Offsets beyond the text count as its end. -/
def position (lines : Lines) (offset : Nat) : Position :=
  let offset := min offset lines.size
  let before := lines.breaks.takeWhile (· ≤ offset)
  { line := before.length, column := offset - before.getLastD 0 }

def maxOffset : Nat := 0xFFFFFFFF

/-- A column led beyond `maxOffset`. -/
structure Overflow where
  offset : Nat
deriving DecidableEq, Repr

/-- The offset of a position, if the text has that line. A column beyond the
line counts as the start of the next line, or as the end of the text. -/
def offset? (lines : Lines) (position : Position) :
    Except Overflow (Option Nat) :=
  let starts := 0 :: lines.breaks
  match starts[position.line]? with
  | none => .ok none
  | some start =>
      let offset := start + position.column
      if maxOffset < offset then
        .error ⟨offset⟩
      else
        .ok (some (min offset (starts[position.line + 1]?.getD lines.size)))

def span (lines : Lines) (range : Range) : Span :=
  { start := lines.position range.start, stop := lines.position range.stop }

end Lines

end PklAnalysis

/-!
Blank characters, and texts cut at blanks and line breaks.
-/

namespace PklAnalysis.Text

/-- Characters with the Unicode property `White_Space`. -/
def isBlank (c : Char) : Bool :=
  let code := c.toNat
  (9 ≤ code && code ≤ 13) || code = 0x20 || code = 0x85 || code = 0xA0 ||
    code = 0x1680 ||
    (0x2000 ≤ code && code ≤ 0x200A) || code = 0x2028 || code = 0x2029 ||
      code = 0x202F ||
    code = 0x205F || code = 0x3000

/-- Without the characters at the end that satisfy `drops`. -/
def dropEndWhile (drops : Char → Bool) (chars : List Char) : List Char :=
  (chars.reverse.dropWhile drops).reverse

def trim (chars : List Char) : List Char :=
  dropEndWhile isBlank (chars.dropWhile isBlank)

/-- The pieces between the characters that satisfy `cuts`; there is always at
least one. -/
def splitAt (cuts : Char → Bool) : List Char → List (List Char)
  | [] => [[]]
  | c :: rest =>
      match splitAt cuts rest with
      | [] => [[c]]
      | piece :: pieces =>
          if cuts c then [] :: piece :: pieces else (c :: piece) :: pieces

/-- The lines of a text without their line breaks `\n` or `\r\n`. A line break
at the very end starts no further line. -/
def lines (chars : List Char) : List (List Char) :=
  let pieces := splitAt (· = '\n') chars
  let ended := pieces.dropLast.map fun line =>
    if line.getLast? = some '\r' then line.dropLast else line
  match pieces.getLast? with
  | none | some [] => ended
  | some last => ended ++ [last]

def after? (start : List Char) (chars : List Char) : Option (List Char) :=
  if start.isPrefixOf chars then some (chars.drop start.length) else none

def before? (finish : List Char) (chars : List Char) : Option (List Char) :=
  if finish.isSuffixOf chars then
    some (chars.take (chars.length - finish.length)) else none

def byteSize (chars : List Char) : Nat :=
  chars.foldl (fun size c => size + c.utf8Size) 0

end PklAnalysis.Text

import PklAnalysis.Text.Blank
import PklAnalysis.Text.Identifier
import PklAnalysis.Text.Range

/-!
The word at an offset of a text, as an editor sees it.
-/

namespace PklAnalysis.Word

/-- Code points that later versions of Unicode, up to 18, add to the property
`XID_Continue`, as inclusive ranges in order. -/
def laterRanges : List (Nat × Nat) :=
  [(0x558, 0x558), (0x58B, 0x58C), (0x5C8, 0x5C9), (0x88F, 0x88F),
   (0xB53, 0xB54), (0xC5C, 0xC5C), (0xCDC, 0xCDC), (0x1ACF, 0x1AF0),
   (0x208F, 0x208F), (0x209D, 0x209F), (0xA7CE, 0xA7CF), (0xA7D2, 0xA7D2),
   (0xA7D4, 0xA7D4), (0xA7DD, 0xA7DD), (0xA7E2, 0xA7E2), (0xA7F1, 0xA7F1),
   (0xAB6C, 0xAB6D), (0x107BB, 0x107BF), (0x10940, 0x10959), (0x10EC5, 0x10EC7),
   (0x10ECB, 0x10ECF), (0x10ED9, 0x10EEE), (0x10EF0, 0x10EFB),
   (0x11B0A, 0x11B0A), (0x11B60, 0x11B67), (0x11DB0, 0x11DDB),
   (0x11DE0, 0x11DE9), (0x11DF0, 0x11DF1), (0x1246F, 0x1246F),
   (0x12475, 0x1247F), (0x12550, 0x12686), (0x16EA0, 0x16EB8),
   (0x16EBB, 0x16ED3), (0x16FF2, 0x16FF6), (0x187F8, 0x187FF),
   (0x18CD6, 0x18CDA), (0x18D09, 0x18D20), (0x18D80, 0x18DF2),
   (0x18E00, 0x19191), (0x191A0, 0x191D2), (0x1B123, 0x1B128),
   (0x1B168, 0x1B168), (0x1D127, 0x1D128), (0x1D250, 0x1D252),
   (0x1D25B, 0x1D25C), (0x1D25F, 0x1D25F), (0x1D280, 0x1D281),
   (0x1D6A6, 0x1D6A6), (0x1DF1F, 0x1DF24), (0x1DF2B, 0x1DF81),
   (0x1DF90, 0x1DF96), (0x1DFCD, 0x1DFFF), (0x1E6C0, 0x1E6DE),
   (0x1E6E0, 0x1E6F5), (0x1E6FE, 0x1E6FF), (0x2B73A, 0x2B73F),
   (0x2B81E, 0x2B81E), (0x2CEA2, 0x2CEAD), (0x323B0, 0x33479),
   (0x3D000, 0x3FC3F)]

/-- Characters of words: those that continue identifiers, also the ones that
only later versions of Unicode have, and the dollar sign. -/
def isWordChar (c : Char) : Bool :=
  Text.isIdentifierContinue c || Text.inRanges laterRanges c.toNat || c = '$'

/-- The characters before an offset, nearest first, and those after it. There
are none for an offset inside a character or beyond the text. -/
def cut? : List Char → List Char → Nat → Option (List Char × List Char)
  | before, after, 0 => some (before, after)
  | _, [], _ + 1 => none
  | before, c :: after, offset + 1 =>
      if c.utf8Size ≤ offset + 1 then
        cut? (c :: before) after (offset + 1 - c.utf8Size) else none

/-- The number of bytes of the word that these characters start with. -/
def lead (chars : List Char) : Nat :=
  Text.byteSize (chars.takeWhile isWordChar)

/-- Where the word that ends at an offset starts: at the offset itself if there
is no word. Offsets beyond the text count as its end; an offset inside a
character has no answer. -/
def start? (text : String) (offset : Nat) : Option Nat :=
  let offset := min offset text.utf8ByteSize
  (cut? [] text.toList offset).map fun (before, _) => offset - lead before

/-- The range of the word on either side of an offset, if there is one. -/
def rangeAt? (text : String) (offset : Nat) : Option Range := do
  let (before, after) ← cut? [] text.toList offset
  let size := lead before + lead after
  if size = 0 then none else some (.ofSize (offset - lead before) size)

/-- The offset of the dot before the word that is being typed at an offset. A
dot after a dot starts no member. -/
def memberDot? (text : String) (offset : Nat) : Option Nat := do
  let (before, _) ← cut? [] text.toList offset
  match before.dropWhile isWordChar with
  | '.' :: '.' :: _ => none
  | '.' :: _ => some (offset - lead before - 1)
  | _ => none

end PklAnalysis.Word

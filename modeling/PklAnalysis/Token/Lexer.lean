import PklAnalysis.Text.Blank
import PklAnalysis.Token.Basic
import PklAnalysis.Token.Literal
import PklAnalysis.Token.Pattern

/-!
The tokens of a text. The tokens of a string literal are its delimiters, the
runs of characters of its body, and the tokens of its interpolated code.
-/

namespace PklAnalysis.Token

/-- The token kind of a piece of a literal; interpolated code is no token. -/
def Literal.Role.kind? : Literal.Role → Option Kind
  | .chars => some .stringChars
  | .opener => some .interpolationStart
  | .code => none
  | .closer => some .rightParen
  | .delimiter => some .stringEnd

def ofChars (kind : Kind) (offset : Nat) (chars : List Char) : Token :=
  { kind, text := String.ofList chars, offset }

/-- The tokens of the pieces of a literal, where `lexCode` gives those of
interpolated code. -/
def ofPieces
    (lexCode : Nat → List Char → Except Literal.Unreadable (List Token))
    (offset : Nat) :
    List Literal.Piece → Except Literal.Unreadable (List Token)
  | [] => .ok []
  | piece :: rest => do
      let here ←
        match piece.role.kind? with
        | some kind => .ok [ofChars kind offset piece.chars]
        | none => lexCode offset piece.chars
      let further ← ofPieces lexCode (offset + Text.byteSize piece.chars) rest
      return here ++ further

/-- The tokens of a text of at most `fuel` characters that starts at
`offset`. -/
def lexFrom : Nat → Nat → List Char → Except Literal.Unreadable (List Token)
  | 0, _, _ => .ok []
  | _ + 1, _, [] => .ok []
  | fuel + 1, offset, c :: rest =>
      let chars := c :: rest
      match Literal.opening? chars with
      | some multiline => do
          let quotes := Literal.delimiter multiline
          let scan ← Literal.scan multiline (chars.drop quotes.length)
          let bodyOffset := offset + quotes.length
          let body ← ofPieces (lexFrom fuel) bodyOffset
            (← Literal.split multiline scan.taken)
          let stop := bodyOffset + Text.byteSize scan.taken
          let further ← lexFrom fuel stop scan.rest
          return ofChars .stringStart offset quotes :: body ++ further
      | none => do
          let (kind, count) := first chars
          let text := chars.take count
          let further ← lexFrom fuel (offset + Text.byteSize text)
            (chars.drop count)
          return ofChars kind offset text :: further

/-- The tokens of a text, unless it has a string literal that cannot be read. -/
def tokenize (text : String) : Except Literal.Unreadable (List Token) :=
  let chars := text.toList
  lexFrom chars.length 0 chars

end PklAnalysis.Token

import PklAnalysis.Node.Basic
import PklAnalysis.Text.Number

/-!
Values of literals.
-/

namespace PklAnalysis

/-! The characters that a string literal stands for. -/

namespace Text

/-- The character that the digits of `\u{…}` stand for. -/
def scalar? (digits : List Char) : Option Char := do
  let code ← unsigned? 16 0xFFFFFFFF digits
  if code.isValidChar then some (Char.ofNat code) else none

/-- The character of `\u` with what follows up to a closing brace; without
braces or a valid number there is none. -/
def unicodeEscape? : List Char → Option Char
  | '\x7b' :: digits => scalar? digits
  | _ => none

/-- The text with its escapes resolved. An unknown escape stands for the
character after the backslash; `\u` takes everything up to the next closing
brace. While `escape` is given, it collects the characters of such an escape,
latest first. -/
def unescapeFrom : Option (List Char) → List Char → List Char
  | none, [] => []
  | some collected, [] => (unicodeEscape? collected.reverse).toList
  | some collected, c :: rest =>
      if c = '\x7d' then (unicodeEscape? collected.reverse).toList ++
        unescapeFrom none rest
      else unescapeFrom (some (c :: collected)) rest
  | none, '\\' :: c :: rest =>
      if c = 'u' then unescapeFrom (some []) rest
      else (if c = 'n' then '\n' else if c = 't' then '\t' else if c = 'r' then
        '\r' else c) ::
        unescapeFrom none rest
  | none, c :: rest => c :: unescapeFrom none rest

def unescape (chars : List Char) : List Char :=
  unescapeFrom none chars

/-- Without the line break after the opening delimiter, and without the last
line if it is blank. -/
def trimMultiline (chars : List Char) : List Char :=
  let body := (after? ['\n'] chars).getD chars
  let lastLine := (body.reverse.takeWhile (· != '\n')).reverse
  if body.contains '\n' && lastLine.all isBlank then
    body.take (body.length - lastLine.length - 1)
  else
    body

end Text

namespace Node.Kind

def isStringLiteral : Kind → Bool
  | .stringLiteral | .mlStringLiteral => true
  | _ => false

end Node.Kind

namespace Node

def parts (node : Node) : List Node :=
  node.childrenOf .stringPart

/-- The value of a string literal, unless it interpolates. -/
def stringValue? (node : Node) : Option String :=
  if node.parts.isEmpty then
    let raw := node.terminals.flatMap fun terminal =>
      if terminal.kind = .stringChars then terminal.text.toList else []
    let body := if node.kind = .mlStringLiteral then Text.trimMultiline raw
      else raw
    some (String.ofList (Text.unescape body))
  else
    none

/-- The value of a whole number, unless it is too large. -/
def intValue? (node : Node) : Option Nat :=
  node.terminals.head?.bind fun terminal => Text.intValue? terminal.text

/-- The value of a number with a fraction or a power of ten, as the bits of the
nearest floating-point number. -/
def floatBits? (node : Node) : Option Nat :=
  node.terminals.head?.bind fun terminal =>
    (Text.Decimal.ofText? terminal.text).map Text.Decimal.toBits

end Node

end PklAnalysis

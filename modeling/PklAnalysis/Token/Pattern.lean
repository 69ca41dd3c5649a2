import PklAnalysis.Text.Identifier
import PklAnalysis.Token.Kind

/-!
The patterns of all tokens but string literals. A text starts with the token
whose pattern takes the most characters; of several, the first in the list wins,
so that keywords win over identifiers.
-/

namespace PklAnalysis.Token

/-- How many characters a pattern takes at the start of a text, if it matches
there. -/
abbrev Match := List Char → Option Nat

namespace Match

def exactly (text : String) : Match := fun chars =>
  if text.toList.isPrefixOf chars then some text.length else none

/-- Takes all characters in front that satisfy `allowed`, if there is one. -/
def many (allowed : Char → Bool) : Match := fun chars =>
  match (chars.takeWhile allowed).length with
  | 0 => none
  | count => some count

def thenTake (first second : Match) : Match := fun chars => do
  let count ← first chars
  let further ← second (chars.drop count)
  return count + further

def optional (inner : Match) : Match := fun chars =>
  some ((inner chars).getD 0)

def one (allowed : Char → Bool) : Match := fun chars =>
  if chars.head?.any allowed then some 1 else none

def longest (alternatives : List Match) : Match := fun chars =>
  alternatives.foldl
    (fun best alternative =>
      match best, alternative chars with
      | some count, some other => some (max count other)
      | none, found => found
      | found, none => found)
    none

def restOfLine : Match := optional (many (· != '\n'))

end Match

open Match

def isHexDigit (c : Char) : Bool :=
  c.isDigit || ('a' ≤ c && c ≤ 'f') || ('A' ≤ c && c ≤ 'F')

def letter (lower : Char) :
    Char → Bool := fun c => c = lower || c = lower.toUpper

def digits : Match :=
  thenTake (one Char.isDigit) (optional (many fun c => c.isDigit || c = '_'))

/-- A power of ten: `e`, a sign or none, and digits. -/
def exponent : Match :=
  thenTake (one (letter 'e'))
    (thenTake (optional (one fun c => c = '+' || c = '-')) (many Char.isDigit))

/-- A zero, a letter for the base, and digits of that base or underscores. -/
def based (base : Char) (isDigit : Char → Bool) : Match :=
  thenTake (one (· = '0'))
    (thenTake (one (letter base)) (many fun c => isDigit c || c = '_'))

def intNumber : Match :=
  longest
    [based 'x' isHexDigit, based 'b' fun c => c = '0' || c = '1',
     based 'o' fun c => '0' ≤ c && c ≤ '7', digits]

def floatNumber : Match :=
  let fraction := thenTake (one (· = '.')) (thenTake digits (optional exponent))
  longest [thenTake digits fraction, thenTake digits exponent, fraction]

def plainIdentifier : Match :=
  thenTake (one fun c => Text.isIdentifierStart c || c = '_' || c = '$')
    (optional (many fun c => Text.isIdentifierContinue c || c = '$'))

def quotedIdentifier : Match :=
  thenTake (one (· = '\x60'))
    (thenTake (many fun c => c != '\x60' && c != '\n') (one (· = '\x60')))

/-- The spelling of a keyword or mark. Identifiers grow byte by byte: a keyword
does not count before a character whose first byte continues identifiers. A mark
of one character counts anywhere. -/
def spelled (text : String) : Match := fun chars => do
  let count ← exactly text chars
  let grows := 1 < count && text.toList.getLast?.any Text.isIdentifierContinue
  if grows && ((chars.drop count).head?).any Text.hasIdentifierLead then none
    else return count

/-- Everything up to and including the star before the first `/` that follows a
star. -/
def upToClosingStar : List Char → Nat
  | [] => 0
  | '*' :: '/' :: _ => 1
  | _ :: rest => upToClosingStar rest + 1

/-- A comment between `/*` and `*/` is not supported: it is an error up to its
last star, and the slash that should close it is a token of its own. -/
def blockComment : Match :=
  thenTake (exactly "/*") fun chars => some (upToClosingStar chars)

/-- All patterns but those of string literals, in the order in which ties are
decided. -/
def patterns : List (Kind × Match) :=
  (Kind.all.filterMap fun kind => kind.spelling?.map fun text =>
    (kind, spelled text)) ++
  [(.whitespace, many fun c => c = ' ' || c = '\t' || c = '\r' || c = '\n' ||
    c = '\x0c'),
   (.lineComment, thenTake (exactly "//") restOfLine),
   (.shebang, thenTake (exactly "#!") restOfLine),
   (.identifier, plainIdentifier),
   (.identifier, quotedIdentifier),
   (.intNumber, intNumber),
   (.floatNumber, floatNumber),
   (.error, blockComment)]

/-- The kind and length of the token that a text starts with, when a pattern
matches. -/
def longestMatch (chars : List Char) : Option (Kind × Nat) :=
  patterns.foldl
    (fun best (kind, pattern) =>
      match best, pattern chars with
      | some (_, count), some other =>
          if count < other then some (kind, other) else best
      | none, some count => some (kind, count)
      | _, none => best)
    none

/-- The length of the error at a place where no pattern matches: an open
backtick takes the rest of its line or what stands before the next backtick, any
other character stands alone. -/
def errorLength : List Char → Nat
  | '\x60' :: rest =>
      (rest.takeWhile fun c => c != '\x60' && c != '\n').length + 1
  | _ => 1

def isDocComment (chars : List Char) : Bool :=
  "///".toList.isPrefixOf chars && !"////".toList.isPrefixOf chars

/-- The kind and length of the token that a text starts with, unless it is a
string literal. -/
def first (chars : List Char) : Kind × Nat :=
  match longestMatch chars with
  | none => (.error, errorLength chars)
  | some (.lineComment, count) =>
      (if isDocComment chars then .docComment else .lineComment, count)
  | some found => found

end PklAnalysis.Token

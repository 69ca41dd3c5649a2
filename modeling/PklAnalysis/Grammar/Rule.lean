import PklAnalysis.Grammar.Parser

/-!
The rules of the grammar that refer to each other. A rule is written with a
`call` parameter for the rules it refers to; tying the knot bounds how deep
calls nest.
-/

namespace PklAnalysis.Grammar

inductive Rule
  | type
  /-- An expression whose operators bind at least as tightly as `power`. -/
  | expression (power : Nat)
  | stringLiteral
  | objectBody
  | member
deriving DecidableEq, Repr

/-- Parses by a rule and gives the kind of the outermost expression built, if
there is one. -/
abbrev Call := Rule → Parser (Option Node.Kind)

variable (call : Call)

def type : Parser Unit :=
  discard (call .type)

def expression : Parser Unit :=
  discard (call (.expression 0))

def stringLiteral : Parser Unit :=
  discard (call .stringLiteral)

def objectBody : Parser Unit :=
  discard (call .objectBody)

def member : Parser Unit :=
  discard (call .member)

end PklAnalysis.Grammar

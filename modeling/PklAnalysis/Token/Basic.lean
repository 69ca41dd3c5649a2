import PklAnalysis.Text.Range
import PklAnalysis.Token.Kind

/-!
Tokens: a kind, the text as written, and where the text starts.
-/

namespace PklAnalysis

structure Token where
  kind : Token.Kind
  text : String
  offset : Nat
deriving DecidableEq, Repr

namespace Token

def range (token : Token) : Range :=
  .ofSize token.offset token.text.utf8ByteSize

def isTrivia (token : Token) : Bool :=
  token.kind.isTrivia

def breaksLine (token : Token) : Bool :=
  token.text.toList.contains '\n'

end Token

end PklAnalysis

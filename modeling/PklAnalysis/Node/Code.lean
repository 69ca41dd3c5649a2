import PklAnalysis.Node.Kind
import PklAnalysis.Token.Kind

/-!
Codes of kinds: token kinds come first, node kinds after them, and errors last.
-/

namespace PklAnalysis

/-- A kind of token or node. Tokens and nodes share one kind for errors. -/
inductive AnyKind
  | token (kind : Token.Kind)
  | node (kind : Node.Kind)
deriving DecidableEq, Repr

namespace AnyKind

/-- Every kind; the place of a kind is its code. -/
def all : List AnyKind :=
  Token.Kind.all.map .token ++ Node.Kind.all.map .node ++ [.node .error]

def ofCode? (code : Nat) : Option AnyKind :=
  all[code]?

def name : AnyKind → String
  | .token kind => kind.name
  | .node kind => kind.listingName

def construct? : AnyKind → Option Node.Kind
  | .token _ | .node .error => none
  | .node kind => some kind

def groups : AnyKind → List String
  | .token kind =>
      [("trivia", kind.isTrivia), ("keyword", kind.isKeyword),
        ("punct", kind.isPunctuation),
       ("modifier", kind.isModifier)].filterMap fun (name, holds) =>
         if holds then some name else none
  | .node kind =>
      [("node", true), ("expr", kind.isExpr), ("type", kind.isType),
        ("binary", kind.isBinary),
       ("class_member", kind.isClassMember),
         ("object_member", kind.isObjectMember),
       ("roundtrip", kind != .error)].filterMap fun (name, holds) =>
        if holds then some name else none

end AnyKind

end PklAnalysis

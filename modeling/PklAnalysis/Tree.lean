import PklAnalysis.Node.Kind
import PklAnalysis.Token.Basic

/-!
Concrete trees: every token of a text, blanks and comments included, under nodes
for the constructs of the language.
-/

namespace PklAnalysis

inductive Tree
  | token (kind : Token.Kind) (text : String)
  | node (kind : Node.Kind) (children : List Tree)
deriving Repr, Inhabited

namespace Tree

mutual
def size : Tree → Nat
  | .token _ text => text.utf8ByteSize
  | .node _ children => sizeAll children

def sizeAll : List Tree → Nat
  | [] => 0
  | tree :: rest => tree.size + sizeAll rest
end

mutual
def leaves : Tree → List (Token.Kind × String)
  | .token kind text => [(kind, text)]
  | .node _ children => leavesAll children

def leavesAll : List Tree → List (Token.Kind × String)
  | [] => []
  | tree :: rest => tree.leaves ++ leavesAll rest
end

def text (tree : Tree) : String :=
  String.join (tree.leaves.map Prod.snd)

def children : Tree → List Tree
  | .token _ _ => []
  | .node _ children => children

def isError : Tree → Bool
  | .node .error _ => true
  | _ => false

/-- Whether recovery left a node directly under this one. -/
def hasError (tree : Tree) : Bool :=
  tree.children.any isError

/-- Trees that stand side by side with the offset at which each starts. -/
def place (offset : Nat) : List Tree → List (Nat × Tree)
  | [] => []
  | tree :: rest => (offset, tree) :: place (offset + tree.size) rest

/-- One line of a listing: how deep the tree stands, where it starts, and the
tree. -/
structure Row where
  depth : Nat
  offset : Nat
  tree : Tree

mutual
/-- All trees in a tree, each before those under it. -/
def rows (depth offset : Nat) : Tree → List Row
  | .token kind text => [⟨depth, offset, .token kind text⟩]
  | .node kind children =>
      ⟨depth, offset, .node kind children⟩ ::
        rowsAll (depth + 1) offset children

def rowsAll (depth offset : Nat) : List Tree → List Row
  | [] => []
  | tree :: rest =>
      tree.rows depth offset ++ rowsAll depth (offset + tree.size) rest
end

def kindName : Tree → String
  | .token kind _ => kind.name
  | .node kind _ => kind.listingName

def rangeAt (tree : Tree) (offset : Nat) : Range :=
  .ofSize offset tree.size

def labelAt (tree : Tree) (offset : Nat) : String :=
  s!"{tree.kindName}@{(tree.rangeAt offset).text}"

def firstIdentifier? (tree : Tree) : Option String :=
  tree.children.findSome? fun
    | .token .identifier text => some text
    | _ => none

end Tree

end PklAnalysis

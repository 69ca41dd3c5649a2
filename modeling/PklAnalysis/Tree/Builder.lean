import PklAnalysis.Tree

/-!
Trees under construction. Nodes are started and finished, and what is built in
between belongs to them. A mark remembers a place, so that a node can be started
there afterwards, around what has been built since.
-/

namespace PklAnalysis

structure Builder where
  /-- The trees that no finished node holds, in order. -/
  trees : Array Tree
  /-- The nodes that are started and not finished, innermost first, each with
  the number of trees before its first one. -/
  openNodes : List (Node.Kind × Nat)
  /-- Whether every call so far was in order: no node finished that was not
  started, and none started at a mark that is no longer valid. -/
  inOrder : Bool

namespace Builder

def empty : Builder :=
  { trees := #[], openNodes := [], inOrder := true }

def token (kind : Token.Kind) (text : String) (builder : Builder) : Builder :=
  { builder with trees := builder.trees.push (.token kind text) }

/-- The place after all that has been built. -/
def mark (builder : Builder) : Nat :=
  builder.trees.size

/-- The place where the open node starts. -/
def floor (builder : Builder) : Nat :=
  match builder.openNodes with
  | [] => 0
  | (_, first) :: _ => first

/-- Whether a mark is valid: it lies in the open node, and what stood before it
still does. -/
def accepts (builder : Builder) (mark : Nat) : Bool :=
  builder.floor ≤ mark && mark ≤ builder.trees.size

def startAt (mark : Nat) (kind : Node.Kind) (builder : Builder) : Builder :=
  { builder with
    openNodes := (kind, mark) :: builder.openNodes
    inOrder := builder.inOrder && builder.accepts mark }

def start (kind : Node.Kind) (builder : Builder) : Builder :=
  { builder with openNodes := (kind, builder.mark) :: builder.openNodes }

def finish (builder : Builder) : Builder :=
  match builder.openNodes with
  | [] => { builder with inOrder := false }
  | (kind, first) :: outer =>
      let children := builder.trees.extract first builder.trees.size
      { builder with
        trees := (builder.trees.shrink first).push (.node kind children.toList)
        openNodes := outer }

/-- The tree that has been built, if it is one node and every call was in
order. -/
def result? (builder : Builder) : Option Tree :=
  match builder.inOrder, builder.openNodes, builder.trees.toList with
  | true, [], [.node kind children] => some (.node kind children)
  | _, _, _ => none

end Builder

end PklAnalysis

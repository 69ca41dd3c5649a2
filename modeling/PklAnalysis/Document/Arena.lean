import PklAnalysis.Tree

/-!
An arena numbers the nodes of a tree. It starts with the root; a node's children
get consecutive numbers when the node is first expanded. Nodes that recovery
made get no number.
-/

namespace PklAnalysis

/-- A token directly under a node that is no trivia. -/
structure Terminal where
  kind : Token.Kind
  text : String
  range : Range
deriving DecidableEq, Repr

def Terminal.bareName (chars : List Char) : List Char :=
  match chars with
  | '\x60' :: c :: rest =>
      if (c :: rest).getLast? = some '\x60' then (c :: rest).dropLast else chars
  | _ => chars

/-- The name that an identifier stands for: its text without backticks around
it. -/
def Terminal.name (terminal : Terminal) : String :=
  String.ofList (bareName terminal.text.toList)

structure Slot where
  kind : Node.Kind
  tree : Tree
  range : Range
  parent? : Option Nat
  terminals : List Terminal
  /-- The numbers of the children, once the node is expanded. -/
  children? : Option (List Nat)

namespace Slot

def terminalsOf (offset : Nat) (trees : List Tree) : List Terminal :=
  (Tree.place offset trees).filterMap fun (start, tree) =>
    match tree with
    | .token kind text =>
        if kind.isTrivia then none
        else some { kind, text, range := .ofSize start text.utf8ByteSize }
    | .node _ _ => none

def ofNode (parent? : Option Nat) (offset : Nat) (kind : Node.Kind)
    (children : List Tree) : Slot :=
  { kind
    tree := .node kind children
    range := .ofSize offset (Tree.sizeAll children)
    parent?
    terminals := terminalsOf offset children
    children? := none }

def under (id : Nat) (slot : Slot) : List Slot :=
  (Tree.place slot.range.start slot.tree.children).filterMap fun (offset,
      tree) =>
    match tree with
    | .token _ _ | .node .error _ => none
    | .node kind children => some (ofNode (some id) offset kind children)

def absent : Slot :=
  ofNode none 0 .error []

end Slot

/-- Numbered nodes; a node's number is its place. -/
structure Arena where
  slots : Array Slot

namespace Arena

def ofRoot (children : List Tree) : Arena :=
  { slots := #[.ofNode none 0 .root children] }

def size (arena : Arena) : Nat :=
  arena.slots.size

def slot (arena : Arena) (id : Nat) : Slot :=
  arena.slots.getD id .absent

/-- Gives the children of a node numbers, unless they have some. -/
def expand (arena : Arena) (id : Nat) : Arena :=
  match arena.slots[id]? with
  | none => arena
  | some slot =>
      match slot.children? with
      | some _ => arena
      | none =>
          let fresh := slot.under id
          let ids := List.range' arena.size fresh.length
          { slots := arena.slots.setIfInBounds id { slot with
            children? := some ids } ++ fresh.toArray }

def childIds (arena : Arena) (id : Nat) : List Nat :=
  (arena.slot id).children?.getD []

mutual
/-- Expands a node and everything under it, each node before those under it. -/
def expandAll (arena : Arena) (id : Nat) : Tree → Arena
  | .token _ _ => arena
  | .node _ children =>
      let arena := arena.expand id
      expandEach arena (arena.childIds id) children

def expandEach (arena : Arena) : List Nat → List Tree → Arena
  | _, [] => arena
  | ids, .token _ _ :: rest => expandEach arena ids rest
  | ids, .node kind children :: rest =>
      if kind = .error then expandEach arena ids rest
      else
        match ids with
        | [] => arena
        | id :: ids =>
            expandEach (expandAll arena id (.node kind children)) ids rest
end

def ofTree (tree : Tree) : Arena :=
  (ofRoot tree.children).expandAll 0 tree

end Arena

end PklAnalysis

import PklAnalysis.Document.Basic
import PklAnalysis.Text.Blank

/-!
Nodes of a document: their places, their relatives, and the tokens directly
under them.
-/

namespace PklAnalysis

/-- A node of a document, by its number. -/
structure Node where
  document : Document
  index : Nat
deriving DecidableEq

def Document.root (document : Document) : Node :=
  { document, index := 0 }

namespace Node

def slot (node : Node) : Slot :=
  node.document.arena.slot node.index

def kind (node : Node) : Kind := node.slot.kind

def range (node : Node) : Range := node.slot.range

def file (node : Node) : FileId := node.document.file

def span (node : Node) : Span := node.document.lines.span node.range

/-- A node as reports name it: kind and range. -/
def label (node : Node) : String :=
  s!"{node.kind.name}@{node.range.text}"

def parent? (node : Node) : Option Node :=
  node.slot.parent?.map fun index => { node with index }

/-- The nodes above, nearest first, at most `limit`. -/
def ancestorsUpTo : Nat → Node → List Node
  | 0, _ => []
  | limit + 1, node =>
      match node.parent? with
      | none => []
      | some parent => parent :: ancestorsUpTo limit parent

/-- The nodes above, nearest first. A node has a larger number than the node
above it, so there are at most as many as its number says. -/
def ancestors (node : Node) : List Node :=
  ancestorsUpTo node.index node

def children (node : Node) : List Node :=
  (node.document.arena.childIds node.index).map fun index => { node with index }

/-- The first `limit` of some nodes and the nodes below them, each before those
below it. -/
def preorder : Nat → List Node → List Node
  | 0, _ => []
  | _ + 1, [] => []
  | limit + 1, node :: rest => node :: preorder limit (node.children ++ rest)

def descendants (node : Node) : List Node :=
  preorder node.document.arena.size [node]

/-- From a node downwards, at most `limit` steps, always to the first child that
touches the offset. -/
def descend (offset : Nat) : Nat → Node → Node
  | 0, node => node
  | limit + 1, node =>
      match node.children.find? fun child => child.range.touches offset with
      | none => node
      | some child => descend offset limit child

def at? (node : Node) (offset : Nat) : Option Node :=
  if node.range.touches offset then
    some (descend offset node.document.arena.size node) else none

def child? (node : Node) (isKind : Kind → Bool) : Option Node :=
  node.children.find? fun child => isKind child.kind

def childrenWhere (node : Node) (isKind : Kind → Bool) : List Node :=
  node.children.filter fun child => isKind child.kind

def childrenOf (node : Node) (kind : Kind) : List Node :=
  node.childrenWhere (· = kind)

def childOf? (node : Node) (kind : Kind) : Option Node :=
  node.child? (· = kind)

def terminals (node : Node) : List Terminal := node.slot.terminals

def terminal? (node : Node) (kind : Token.Kind) : Option Terminal :=
  node.terminals.find? fun terminal => terminal.kind = kind

def hasTerminal (node : Node) (kind : Token.Kind) : Bool :=
  (node.terminal? kind).isSome

def hasError (node : Node) : Bool := node.slot.tree.hasError

/-- The text of a documentation comment without its slashes and the blanks
around it. -/
def docText (comment : String) : String :=
  String.ofList (Text.trim (dropSlashes comment.toList))
where
  dropSlashes : List Char → List Char
    | '/' :: '/' :: '/' :: rest => dropSlashes rest
    | chars => chars

/-- The documentation comments at the front of some trees, up to the first that
is no trivia. -/
def docLines : List Tree → List String
  | .token kind text :: rest =>
      if kind = .docComment then docText text :: docLines rest
      else if kind.isTrivia then docLines rest
      else []
  | _ => []

/-- The documentation comments directly before a node, one a line. -/
def docComment? (node : Node) : Option String := do
  let parent ← node.parent?
  let siblings := Tree.place parent.range.start parent.slot.tree.children
  let before := siblings.takeWhile fun (offset, _) => offset < node.range.start
  match docLines (before.reverse.map Prod.snd) with
  | [] => none
  | lines => some (String.intercalate "\n" lines.reverse)

/-- A part that a construct must have and does not. -/
inductive Missing
  | child (kind : Kind) (slot : String) (range : Range)
  | terminal (kind : Kind) (terminal : String) (range : Range)
deriving DecidableEq, Repr

namespace Missing

def range : Missing → Range
  | .child _ _ range | .terminal _ _ range => range

def message : Missing → String
  | .child kind slot range =>
      s!"{kind.name} at {range.text} is missing required child `{slot}`"
  | .terminal kind name range =>
      s!"{kind.name} at {range.text} is missing required terminal `{name}`"

end Missing

/-- A part that must be there. -/
abbrev Required := Except Missing

/-- The child found, or the complaint that a slot is empty. -/
def require (node : Node) (slot : String) : Option Node → Required Node
  | some child => .ok child
  | none => .error (.child node.kind slot node.range)

/-- The first child whose kind satisfies `isKind`, for a slot that must be
filled. -/
def required (node : Node) (isKind : Kind → Bool) (slot : String) :
    Required Node :=
  node.require slot (node.child? isKind)

def identifier (node : Node) : Required Terminal :=
  match node.terminal? .identifier with
  | some terminal => .ok terminal
  | none => .error (.terminal node.kind "identifier" node.range)

def name (node : Node) : Required String :=
  node.identifier.map Terminal.name

end Node

end PklAnalysis

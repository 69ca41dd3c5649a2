import PklAnalysis.Inference.Engine

/-!
What the cursor points at, and what that stands for.
-/

namespace PklAnalysis

/-- A named thing under the cursor. -/
inductive Reference
  | access (node : Node)
  | typeName (name : Node)
  | moduleUri (node : Node) (uri : String)
  | declaration (node : Node)

namespace Node

/-- The range of the identifier that names a node, or of the whole node if it
has none. -/
def nameRange (node : Node) : Range :=
  match node.identifier with
  | .ok terminal => terminal.range
  | .error _ => node.range

def nameTouches (node : Node) (offset : Nat) : Bool :=
  match node.identifier with
  | .ok terminal => terminal.range.touches offset
  | .error _ => false

end Node

namespace Reference

def range : Reference → Range
  | .access node | .declaration node => node.nameRange
  | .typeName name => name.range
  | .moduleUri node _ => node.range

/-- What a node says about an offset: nothing, or a reference, or that there is
none here. -/
def ofNode? (offset : Nat) (node : Node) : Option (Option Reference) :=
  if (Lookup.accessName? node).isSome then
    if node.nameTouches offset then some (some (.access node)) else none
  else
    match node.kind with
    | .moduleUri | .importExpr => some (node.uriText?.map (.moduleUri node))
    | .qualifiedIdent =>
        if node.parent?.any fun parent => parent.kind = .declaredType then
          some (some (.typeName node))
        else
          none
    | _ =>
        if node.declarationName?.isSome && node.nameTouches offset then
          some (some (.declaration node))
        else
          none

def at? (document : Document) (offset : Nat) : Option Reference := do
  let deepest ← document.root.at? offset
  ((deepest :: deepest.ancestors).findSome? (ofNode? offset)).join

/-- The declaration that a reference in a document stands for, with what the
type parameters of its owner stand for. -/
def target? (context : Context) (document : Document) :
    Reference → Option (Node × Ty.Bindings)
  | .access node =>
      (context.resolve? node).map fun found => (found.node, found.bindings)
  | .typeName name => (Lookup.typeName? context name).map (·, [])
  | .moduleUri _ uri => (context.import? document uri).map (·, [])
  | .declaration node => some (node, [])

end Reference

end PklAnalysis

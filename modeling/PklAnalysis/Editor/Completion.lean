import PklAnalysis.Inference.Engine
import PklAnalysis.Text.Word
import PklAnalysis.Ty.Text

/-!
What can be typed at the cursor: after a dot the members of the receiver, and
elsewhere every name in scope.
-/

namespace PklAnalysis

namespace Completion

inductive Kind
  | property | method | classDecl | typeAlias | variable | root | typeParameter
deriving DecidableEq, Repr

namespace Kind

def name : Kind → String
  | .property => "Property"
  | .method => "Method"
  | .classDecl => "Class"
  | .typeAlias => "TypeAlias"
  | .variable => "Variable"
  | .root => "Module"
  | .typeParameter => "TypeParameter"

/-- The number of a kind of suggestion in the editor protocol. -/
def code : Kind → Nat
  | .method => 2
  | .variable => 6
  | .classDecl => 7
  | .typeAlias => 8
  | .root => 9
  | .property => 10
  | .typeParameter => 25

def ofNode (node : Node) : Kind :=
  match node.kind with
  | .classMethod | .objectMethod => .method
  | .classDecl => .classDecl
  | .typeAlias => .typeAlias
  | .parameter | .typedIdentifier => .variable
  | .importClause | .root => .root
  | .typeParameter => .typeParameter
  | _ => .property

end Kind

end Completion

structure Completion where
  label : String
  kind : Completion.Kind
  detail? : Option String
  documentation? : Option String
  /-- What to insert if not the label. -/
  insertText? : Option String
  /-- Smaller numbers come first. -/
  priority : Nat
deriving DecidableEq, Repr

namespace Completion

open Lookup

variable (context : Context)

def ofCandidate (candidate : Candidate) (priority : Nat) : Completion :=
  let kind := Kind.ofNode candidate.node
  let type := context.declType candidate.bindings candidate.node
  { label := candidate.name
    kind
    detail? := if type.isUnknown then none else some type.text
    documentation? := candidate.node.docComment?
    insertText? := if kind = .method then some (candidate.name ++ "()")
      else none
    priority }

/-- Candidates from both name spaces: properties, then methods whose names no
property has. -/
def both (candidates : Space → Candidates) : List Candidate :=
  let properties := (candidates .property).collect
  let methods := (candidates .method).collect
  properties ++ methods.filter fun method =>
    properties.all fun property => property.name ≠ method.name

def hasDotAt (offset : Nat) (access : Node) : Bool :=
  access.terminals.any fun terminal =>
    (terminal.kind = .dot || terminal.kind = .questionDot) &&
      terminal.range.start ≤ offset && offset < terminal.range.stop

def receiverAt? (document : Document) (dot : Nat) : Option Node := do
  let deepest ← document.root.at? dot
  let access ← (deepest :: deepest.ancestors).find? fun node =>
    node.kind = .qualifiedAccessExpr && hasDotAt dot node
  access.receiver.toOption

def members (document : Document) (dot : Nat) : List Candidate :=
  match receiverAt? document dot with
  | none => []
  | some receiver =>
      let type := (context.exprType [] receiver).nonNull context.base
      if type.isUnknown then []
      else both fun space => typeMembers context (context.budget - 1) space type

/-- How names in scope are looked up: one level deeper than a question of its
own. -/
def receivers : Receivers :=
  { thisType := fun bindings node =>
      (Inference.answers context (context.budget - 1)).thisType bindings node
    budget := context.budget - 2 }

def visible (document : Document) (offset : Nat) : List Candidate :=
  match document.root.at? offset with
  | none => []
  | some node =>
      both fun space => unqualified context (receivers context) space [] node

def isWord (name : String) : Bool :=
  name.toList.head?.any Word.isWordChar

def listAt (document : Document) (offset : Nat) : List Completion :=
  let found :=
    match Word.memberDot? document.text offset with
    | some dot => members context document dot
    | none => visible context document offset
  (found.filter fun candidate => isWord candidate.name).zipIdx.map
      fun (candidate, index) =>
    ofCandidate context candidate index

end Completion

end PklAnalysis

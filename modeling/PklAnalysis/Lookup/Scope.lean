import PklAnalysis.Lookup.Member

/-!
Scopes: what a name without a receiver, or after `super`, may stand for. Scopes
are looked at from the inside out:

1. bindings of `let`, parameters of functions and methods, variables of `for`;
2. members of object bodies, and of the type of the innermost object; 3. members
of classes and their superclasses; 4. members of the module and of those it
amends or extends; 5. imports; 6. the base module.
-/

namespace PklAnalysis.Lookup

open Inference

variable (context : Context)

/-- What is needed to look up names: the type of `this` at a node, and the depth
left for the types that classes extend. -/
structure Receivers where
  thisType : Ty.Bindings → Node → Ty
  budget : Nat

variable (receivers : Receivers)

/-- A node with everything around it; each comes with the node one step further
in. The innermost node comes with itself. -/
def scopesAround (node : Node) : List (Node × Node) :=
  let scopes := node :: node.ancestors
  scopes.zip (node :: scopes)

/-- The names that a scope binds for what is inside `inner`. -/
def boundNames (scope inner : Node) : List Node :=
  match scope.kind with
  | .letExpr =>
      if scope.letBodyCovers inner then
        scope.letParameter.toOption.toList else []
  | .functionLiteral | .classMethod | .objectMethod => scope.parameters
  | .forGenerator =>
      if inner.kind = .objectBody then scope.directParameters else []
  | _ => []

/-- The parameters and members that an object body declares. -/
def bodyDeclarations (space : Space) (body : Node) : List Node :=
  match space with
  | .property => body.directParameters ++ body.properties
  | .method => body.methods

def thisMembers (space : Space) (bindings : Ty.Bindings) (node : Node) :
    Candidates :=
  typeMembers context receivers.budget space (receivers.thisType bindings node)

/-- The members of a module, its imports, and the declarations of the base
module. -/
def rootScope (space : Space) (root : Node) : Candidates :=
  moduleMembers context receivers.budget space true root ++
    [fun _ => if space = .property then Candidates.ofNodes [] root.imports
      else [],
     fun _ =>
       Candidates.ofNodes [] (moduleDeclarations space true context.base.root)]

/-- What a scope offers to a node inside `inner`. Only the innermost object
body, which is `body?`, offers the members of its type. -/
def scopeMembers (space : Space) (bindings : Ty.Bindings) (body? : Option Node)
    (scope inner : Node) : Candidates :=
  match scope.kind with
  | .objectBody =>
      let receiver : Candidates :=
        if body? = some scope then
          [fun _ => (thisMembers context receivers space bindings scope).toList]
        else []
      (fun _ => Candidates.ofNodes bindings (bodyDeclarations space scope)) ::
        receiver
  | .classDecl =>
      classMembers context receivers.budget space
        ((Ty.ofClass scope).substitute bindings)
  | .root => rootScope context receivers space scope
  | _ =>
      if space = .property then
        [fun _ => Candidates.ofNodes bindings (boundNames scope inner)] else []

def isObjectBody (node : Node) : Bool :=
  node.kind = .objectBody

/-- What a name at a node may stand for. The node itself counts as a scope. -/
def unqualified (space : Space) (bindings : Ty.Bindings) (node : Node) :
    Candidates :=
  if context.cancelled then []
  else
    let body? := (node :: node.ancestors).find? isObjectBody
    (scopesAround node).flatMap fun (scope, inner) =>
      scopeMembers context receivers space bindings body? scope inner

def isSuperScope (node : Node) : Bool :=
  match node.kind with
  | .objectBody | .classDecl | .root => true
  | _ => false

/-- What a name after `super` may stand for: a member of the object that a body
amends, of the superclass, or of the module that is amended or extended. -/
def superMembers (space : Space) (bindings : Ty.Bindings) (node : Node) :
    Candidates :=
  match (node :: node.ancestors).find? isSuperScope with
  | none => []
  | some scope =>
      match scope.kind with
      | .objectBody => thisMembers context receivers space bindings scope
      | .classDecl =>
          match superclass? context (resolveType context receivers.budget)
            bindings scope with
          | some parent => typeMembers context receivers.budget space parent
          | none => []
      | _ =>
          match (moduleChain context scope)[1]? with
          | some parent =>
              moduleMembers context receivers.budget space false parent
          | none => []

def accessName? (node : Node) : Option (String × Space) :=
  if node.kind.isAccess then
    node.name.toOption.map fun name =>
      (name, if node.isPropertyAccess then .property else .method)
  else
    none

end PklAnalysis.Lookup

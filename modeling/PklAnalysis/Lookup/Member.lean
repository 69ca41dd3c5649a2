import PklAnalysis.Inference.Declared
import PklAnalysis.Lookup.Candidate

/-!
Members of types, classes and modules. A budget limits the depth at which the
types that classes extend are resolved.
-/

namespace PklAnalysis.Lookup

open Inference

variable (context : Context)

def Space.classMembers (space : Space) (decl : Node) : List Node :=
  match space with
  | .property => decl.classProperties
  | .method => decl.classMethods

/-- The members of a class type and of its superclasses, most derived first. -/
def classMembers (budget : Nat) (space : Space) (ty : Ty) : Candidates :=
  (classChain context budget ty).map fun (decl, args) _ =>
    Candidates.ofNodes (.ofArgs decl.typeParameters args)
      (space.classMembers decl)

def Space.admits : Space → Node.Kind → Bool
  | .property, .classProperty | .property, .classDecl | .property, .typeAlias =>
      true
  | .method, .classMethod => true
  | _, _ => false

/-- Whether a property or method can be seen only in its own module. -/
def isLocal (node : Node) : Bool :=
  (node.kind.isProperty || node.kind.isMethod) && node.hasModifier .localKw

/-- The declarations of a module, with or without the local ones. -/
def moduleDeclarations (space : Space) (withLocal : Bool) (root : Node) :
    List Node :=
  root.moduleMembers.filter fun node => space.admits node.kind &&
    (withLocal || !isLocal node)

/-- The declarations of the modules in a chain. Local ones count only in the
first, if at all. -/
def chainDeclarations (space : Space) (withLocal : Bool) :
    List Node → Candidates
  | [] => []
  | root :: parents =>
      (fun _ =>
        Candidates.ofNodes [] (moduleDeclarations space withLocal root)) ::
        chainDeclarations space false parents

/-- The members of a module, of those it amends or extends, and of the class
`Module`. -/
def moduleMembers (budget : Nat) (space : Space) (withLocal : Bool)
    (root : Node) : Candidates :=
  chainDeclarations space withLocal (moduleChain context root) ++
    classMembers context budget space (context.base.type "Module")

mutual
/-- The members of a type, most specific first. The null in a union has none. -/
def typeMembers (budget : Nat) (space : Space) : Ty → Candidates
  | .classType decl args =>
      classMembers context budget space (.classType decl args)
  | .moduleType root => moduleMembers context budget space false root
  | .union members => unionMembers budget space members
  | .literal _ => classMembers context budget space (context.base.type "String")
  | .function params result =>
      classMembers context budget space
        (.functionClass context.base params result)
  | .unknown | .nothing | .variable _ => []
termination_by structural ty => ty

def unionMembers (budget : Nat) (space : Space) : List Ty → Candidates
  | [] => []
  | ty :: rest =>
      (if ty.isNull context.base then [] else typeMembers budget space ty) ++
        unionMembers budget space rest
termination_by structural types => types
end

end PklAnalysis.Lookup

import PklAnalysis.Node.Expression

/-!
Types: what is known about the value of an expression or declaration.
-/

namespace PklAnalysis

/-- A type. Builtin types are classes of the base module, and a nullable type is
a union with the class `Null`. -/
inductive Ty
  /-- Nothing is known. -/
  | unknown
  /-- The type without values. -/
  | nothing
  | classType (decl : Node) (args : List Ty)
  | moduleType (root : Node)
  | union (members : List Ty)
  | literal (text : String)
  | function (params : List Ty) (result : Ty)
  /-- A type parameter that stands for itself. -/
  | variable (param : Node)

namespace Ty

mutual
def same : Ty → Ty → Bool
  | .unknown, .unknown => true
  | .nothing, .nothing => true
  | .classType decl args, .classType decl' args' =>
      decl = decl' && sameAll args args'
  | .moduleType root, .moduleType root' => root = root'
  | .union members, .union members' => sameAll members members'
  | .literal text, .literal text' => text = text'
  | .function params result, .function params' result' =>
      sameAll params params' && result.same result'
  | .variable param, .variable param' => param = param'
  | _, _ => false
termination_by structural ty => ty

def sameAll : List Ty → List Ty → Bool
  | [], [] => true
  | ty :: rest, ty' :: rest' => ty.same ty' && sameAll rest rest'
  | _, _ => false
termination_by structural types => types
end

mutual
theorem same_iff : ∀ (left right : Ty), left.same right = true ↔ left = right
  | .unknown, right => by cases right <;> simp [same]
  | .nothing, right => by cases right <;> simp [same]
  | .classType decl args, right => by
      cases right <;> simp [same, sameAll_iff args]
  | .moduleType root, right => by cases right <;> simp [same]
  | .union members, right => by cases right <;> simp [same, sameAll_iff members]
  | .literal text, right => by cases right <;> simp [same]
  | .function params result, right => by
      cases right <;> simp [same, sameAll_iff params, same_iff result]
  | .variable param, right => by cases right <;> simp [same]

theorem sameAll_iff :
    ∀ (left right : List Ty), sameAll left right = true ↔ left = right
  | [], right => by cases right <;> simp [sameAll]
  | ty :: rest, right => by
      cases right <;> simp [sameAll, same_iff ty, sameAll_iff rest]
end

instance : DecidableEq Ty := fun left right =>
  decidable_of_iff (left.same right = true) (same_iff left right)

def isUnknown : Ty → Bool
  | .unknown => true
  | _ => false

def decl? : Ty → Option Node
  | .classType decl _ => some decl
  | _ => none

def args : Ty → List Ty
  | .classType _ args => args
  | _ => []

mutual
def decls : Ty → List Node
  | .classType decl args => decl :: declsOf args
  | .union members => declsOf members
  | .function params result => declsOf params ++ result.decls
  | .unknown | .nothing | .moduleType _ | .literal _ | .variable _ => []
termination_by structural ty => ty

def declsOf : List Ty → List Node
  | [] => []
  | ty :: rest => ty.decls ++ declsOf rest
termination_by structural types => types
end

def distinct : List Ty → List Ty
  | [] => []
  | ty :: rest => ty :: (distinct rest).filter (· ≠ ty)

def alternatives : Ty → List Ty
  | .nothing => []
  | .union members => members
  | ty => [ty]

/-- The type of a value that has one of the given types, which are no unions and
differ. -/
def ofAlternatives : List Ty → Ty
  | [] => .nothing
  | [ty] => ty
  | types => .union types

/-- The type of a value that has one of the given types. If one of them is
unknown, so is their union; unions among them are opened, and no type is listed
twice. -/
def unionOf (types : List Ty) : Ty :=
  if types.any isUnknown then .unknown
  else ofAlternatives (distinct (types.flatMap alternatives))

def join (left right : Ty) : Ty :=
  unionOf [left, right]

/-- What type parameters stand for. -/
abbrev Bindings := List (Node × Ty)

def Bindings.get? (bindings : Bindings) (param : Node) : Option Ty :=
  (bindings.find? fun binding => binding.1 = param).map Prod.snd

/-- Type parameters bound to arguments in order. Parameters without an argument
stay unbound. -/
def Bindings.ofArgs (params : List Node) (args : List Ty) : Bindings :=
  params.zip args

mutual
/-- The type with its variables replaced by what they stand for. -/
def replace (bindings : Bindings) : Ty → Ty
  | .variable param => (bindings.get? param).getD (.variable param)
  | .classType decl args => .classType decl (replaceAll bindings args)
  | .union members => unionOf (replaceAll bindings members)
  | .function params result =>
      .function (replaceAll bindings params) (result.replace bindings)
  | ty => ty
termination_by structural ty => ty

def replaceAll (bindings : Bindings) : List Ty → List Ty
  | [] => []
  | ty :: rest => ty.replace bindings :: replaceAll bindings rest
termination_by structural types => types
end

/-- The type with its variables replaced by what they stand for; it stays as it
is if nothing is bound. -/
def substitute (bindings : Bindings) (ty : Ty) : Ty :=
  if bindings.isEmpty then ty else ty.replace bindings

def bindings : Ty → Bindings
  | .classType decl args => .ofArgs decl.typeParameters args
  | _ => []

def ofClass (decl : Node) : Ty :=
  .classType decl (decl.typeParameters.map .variable)

end Ty

end PklAnalysis

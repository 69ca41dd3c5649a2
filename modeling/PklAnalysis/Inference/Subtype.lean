import PklAnalysis.Inference.Declared

/-!
Subtypes. Classes are compared by name along their superclasses, with arguments
by declared variance; all other types are compared by structure. The unknown
type and type variables conform to everything, and so does whatever lies deeper
than the depth allows.
-/

namespace PklAnalysis.Inference

open Lookup

variable (context : Context)

/- How the types under two types are compared, and the depth that is left
there. -/
variable (conforms : Ty → Ty → Bool) (budget : Nat)

def argConforms (variance : Node.Variance) (actual expected : Ty) : Bool :=
  match variance with
  | .covariant => conforms actual expected
  | .contravariant => conforms expected actual
  | .invariant => conforms actual expected && conforms expected actual

/-- Whether arguments conform to others, in order. Where a class declares no
parameter, arguments are invariant. -/
def argsConform : List Node.Variance → List Ty → List Ty → Bool
  | variances, actual :: actuals, expected :: expecteds =>
      argConforms conforms (variances.head?.getD .invariant) actual expected &&
        argsConform variances.tail actuals expecteds
  | _, _, _ => true

def conformsToClass (target : Node) (expected : List Ty) : Ty → Bool
  | .literal _ =>
      conforms (context.base.type "String") (.classType target expected)
  | .moduleType _ =>
      conforms (context.base.type "Module") (.classType target expected)
  | .function params result =>
      conforms (.functionClass context.base params result)
        (.classType target expected)
  | .classType decl args =>
      match argsFor? context (budget - 1) (.classType decl args) target with
      | some actual =>
          argsConform conforms (target.typeParameters.map Node.variance) actual
            expected
      | none => false
  | _ => false

/-- One level of comparing different types. -/
def subtypeStep (sub sup : Ty) : Bool :=
  match sub, sup with
  | .unknown, _ | _, .unknown => true
  | .nothing, _ => true
  | _, .nothing => false
  | .union members, _ => members.all (conforms · sup)
  | _, .union members => members.any (conforms sub ·)
  | .variable _, _ | _, .variable _ => true
  | _, .classType target expected =>
      context.base.isClass target "Any" ||
        conformsToClass context conforms budget target expected sub
  | .moduleType root, .moduleType target =>
      (moduleChain context root).contains target
  | .function params result, .function params' result' =>
      params.length = params'.length &&
        (params'.zip params).all (fun (p, q) => conforms p q) &&
        conforms result result'
  | _, _ => false

/-- Whether a type is a subtype of another, with a limited depth. -/
def subtype : Nat → Ty → Ty → Bool
  | 0 => fun _ _ => true
  | budget + 1 =>
      fun sub sup => sub = sup ||
        subtypeStep context (subtype budget) budget sub sup

end PklAnalysis.Inference

namespace PklAnalysis.Context

def isSubtype (context : Context) (sub sup : Ty) : Bool :=
  Inference.subtype context context.budget sub sup

end PklAnalysis.Context

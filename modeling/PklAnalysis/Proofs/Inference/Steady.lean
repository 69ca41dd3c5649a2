import PklAnalysis.Proofs.Inference.Container
import PklAnalysis.Proofs.Lookup.Layer

/-!
Steady questions. When depth runs out, a type is unknown; but on the way to an
answer there are detours around unknown types:

* a property whose declared type is unknown has the type of its value;
* some operators give a truth value, and the keys of a container are numbers;
* what a place asks for and what a container holds are dynamic objects;
* a name that is not found in a class is looked for further out.

A question is steady if no detour on the way to its answer can be taken for want
of depth, so that the answer would be another one. Whether it is can be told
from the answers with all depth.
-/

namespace PklAnalysis.Inference

open Lookup Ty

structure Steady where
  exprType : Ty.Bindings → Node → Bool
  declType : Ty.Bindings → Node → Bool
  propertyType : Ty.Bindings → Node → Bool
  thisType : Ty.Bindings → Node → Bool
  expectedType : Ty.Bindings → Node → Bool
  candidates : Option Ty → Ty.Bindings → Node → Bool

namespace Steady

def always : Steady where
  exprType _ _ := true
  declType _ _ := true
  propertyType _ _ := true
  thisType _ _ := true
  expectedType _ _ := true
  candidates _ _ _ := true

variable (context : Context)

/- The answers one level deeper, which of the questions there are steady, and
the depth that is left there. -/
variable (deeper : Answers) (steady : Steady) (budget : Nat)

/-- A default for an unknown type does no harm if the type is unknown anyway, or
the default is the type. -/
def allows (fallback ty : Ty) : Bool :=
  ty.isUnknown || ty = fallback

def exprOf (bindings : Ty.Bindings) : Option Node → Bool
  | some node => steady.exprType bindings node
  | none => true

def found : Option Candidate → Bool
  | some found => steady.declType found.bindings found.node
  | none => true

def named (name : String) : Sought := fun other _ => other = name

def body (bindings : Ty.Bindings) (body : Node) : Bool :=
  match body.parent? with
  | none => true
  | some owner =>
      match owner.kind with
      | .newExpr =>
          (owner.child? Node.Kind.isType).isSome ||
            steady.expectedType bindings owner
      | .amendExpr => steady.exprOf bindings owner.amendedExpr.toOption
      | .classProperty | .objectProperty => steady.propertyType bindings owner
      | .objectEntry =>
          steady.thisType bindings owner &&
            sureEntry context (deeper.thisType bindings owner)
      | _ => true

def scope (bindings : Ty.Bindings) (scope : Node) : Bool :=
  match scope.kind with
  | .objectBody => steady.body context deeper bindings scope
  | _ => true

def bindsThis (scope : Node) : Bool :=
  match scope.kind with
  | .classDecl | .root => true
  | .objectBody =>
      match scope.parent? with
      | none => false
      | some owner =>
          match owner.kind with
          | .forGenerator | .whenGenerator => false
          | _ => true
  | _ => false

def ofThis (bindings : Ty.Bindings) (node : Node) : Bool :=
  ((node :: node.ancestors).find? bindsThis).all
    (steady.scope context deeper bindings)

/-- The type that a place asks for is steady, and the default for it does no
harm. -/
def ofExpected (bindings : Ty.Bindings) (node : Node) : Bool :=
  match node.parent? with
  | none => true
  | some place =>
      match place.kind with
      | .classProperty | .objectProperty =>
          steady.propertyType bindings place &&
            allows (context.base.type "Dynamic")
              (deeper.propertyType bindings place)
      | .objectEntry =>
          steady.thisType bindings place &&
            sureEntry context (deeper.thisType bindings place)
      | .objectElement =>
          steady.thisType bindings place &&
            readsOnce context (deeper.thisType bindings place) &&
            allows (context.base.type "Dynamic")
              (elementType context (deeper.thisType bindings place))
      | _ => true

def declares (property node : Node) : Bool :=
  node ≠ property && node.kind.isProperty && node.declaredType?.isSome

def typed (property : Node) (name : String) : Sought := fun other node =>
  other = name && declares property node

def ofProperty (bindings : Ty.Bindings) (property : Node) : Bool :=
  property.declaredType?.isSome ||
    match property.name.toOption, property.parent? with
    | some name, some scope =>
        steady.thisType bindings scope &&
          sureMembers context (budget - 1) .property (typed property name)
            (deeper.thisType bindings scope)
    | _, _ => true

def parameter (bindings : Ty.Bindings) (parameter : Node) : Bool :=
  parameter.parameterType?.isSome ||
    match parameter.parent? with
    | none => true
    | some site =>
        match site.kind with
        | .letExpr => steady.exprOf bindings site.letValue.toOption
        | .forGenerator =>
            steady.exprOf bindings site.iterable.toOption &&
              sureIteration context
                (exprTypeOf deeper bindings site.iterable.toOption)
                (site.keyParameter? = some parameter)
        | _ => true

/-- The type of a property is steady, and so is that of its value, which does no
harm as a default. -/
def value (bindings : Ty.Bindings) (property : Node) : Bool :=
  steady.propertyType bindings property &&
    match property.expr? with
    | some value =>
        steady.exprType bindings value &&
          allows (deeper.exprType bindings value)
            (deeper.propertyType bindings property)
    | none =>
        !property.isAmendment ||
          allows (context.base.type "Dynamic")
            (deeper.propertyType bindings property)

def ofDecl (bindings : Ty.Bindings) (node : Node) : Bool :=
  match node.kind with
  | .classProperty
  | .objectProperty => steady.value context deeper bindings node
  | .classMethod | .objectMethod =>
      node.declaredType?.isSome || steady.exprOf bindings node.expr?
  | .parameter => steady.parameter context deeper bindings node
  | .typedIdentifier =>
      node.declaredType?.isSome ||
        match node.parent? with
        | some parent =>
            parent.kind ≠ .parameter ||
              steady.parameter context deeper bindings parent
        | none => true
  | _ => true

def ofCandidates (receiver? : Option Ty) (bindings : Ty.Bindings)
    (node : Node) : Bool :=
  match accessName? node with
  | none => true
  | some (name, space) =>
      let receivers : Receivers :=
        { thisType := deeper.thisType, budget := budget - 1 }
      match node.kind with
      | .qualifiedAccessExpr =>
          (receiver?.isSome || steady.exprOf bindings node.receiver.toOption) &&
            (receiver?.or
              (node.receiver.toOption.map (deeper.exprType bindings))).all
                fun receiver =>
              sureMembers context (budget - 1) space (named name)
                (receiver.nonNull context.base)
      | .superAccessExpr =>
          ((node :: node.ancestors).find? isSuperScope).all (fun scope =>
            scope.kind ≠ .objectBody || steady.thisType bindings scope) &&
            sureSuper context receivers space (named name) bindings node
      | _ =>
          ((node :: node.ancestors).find? isObjectBody).all (steady.thisType
            bindings) &&
            sureName context receivers space (named name) bindings node

def member (name : String) (receiver? : Option Ty) (bindings : Ty.Bindings)
    (node : Node) : Bool :=
  steady.candidates receiver? bindings node &&
    steady.found ((deeper.candidates receiver? bindings node).first? name)

/-- A null-safe access to a member of null is null, and it does no harm to look
for the member. -/
def access (bindings : Ty.Bindings) (node : Node) : Bool :=
  match accessName? node with
  | none => true
  | some (name, _) =>
      if node.kind = .qualifiedAccessExpr then
        match node.receiver with
        | .error _ => true
        | .ok receiver =>
            let receiverType := deeper.exprType bindings receiver
            let nonNull := receiverType.nonNull context.base
            steady.exprType bindings receiver &&
              if node.isNullSafe then
                steady.member deeper name nonNull bindings node &&
                  if receiverType.isNull context.base then
                    (memberType deeper name nonNull bindings node).isUnknown
                  else
                    !(receiverType.subjects context.base).isEmpty
              else
                steady.member deeper name receiverType bindings node
      else
        steady.member deeper name none bindings node

def operator (receiver : Ty) (operator : String) : Bool :=
  sureMembers context (budget - 1) .method (named operator) receiver &&
    steady.found ((membersOf context budget .method receiver).first? operator)

def binary (bindings : Ty.Bindings) (node : Node) : Bool :=
  match node.leftOperand, node.operator with
  | .ok left, .ok operator =>
      let receiver := deeper.exprType bindings left
      steady.exprType bindings left &&
        steady.operator context budget receiver operator.text &&
        (!givesBoolean node.kind ||
          allows (context.base.type "Boolean")
            (operatorType context deeper budget receiver operator.text))
  | _, _ => true

def outer (bindings : Ty.Bindings) (node : Node) : Bool :=
  (((node.ancestors.find? isObjectBody).bind Node.parent?).bind
    Node.parent?).all
    (steady.thisType bindings)

def ofExpr (bindings : Ty.Bindings) (node : Node) : Bool :=
  match node.kind with
  | .thisExpr => steady.thisType bindings node
  | .outerExpr => steady.outer bindings node
  | .traceExpr | .parenthesizedExpr | .unaryMinusExpr | .amendExpr
  | .nonNullExpr
  | .functionLiteral => steady.exprOf bindings node.expr?
  | .unqualifiedAccessExpr | .qualifiedAccessExpr | .superAccessExpr =>
      steady.access context deeper bindings node
  | .subscriptExpr =>
      match node.receiver with
      | .ok receiver =>
          steady.exprType bindings receiver &&
            steady.operator context budget
              (deeper.exprType bindings receiver) "[]"
      | .error _ => true
  | .superSubscriptExpr =>
      steady.thisType bindings node &&
        steady.operator context budget (deeper.thisType bindings node) "[]"
  | .logicalNotExpr =>
      match node.expr? with
      | some operand =>
          let receiver := deeper.exprType bindings operand
          steady.exprType bindings operand &&
            steady.operator context budget receiver "!" &&
            allows (context.base.type "Boolean")
              (operatorType context deeper budget receiver "!")
      | none => true
  | .additiveExpr | .multiplicativeExpr | .exponentiationExpr | .comparisonExpr
  | .equalityExpr | .logicalAndExpr
  | .logicalOrExpr => steady.binary context deeper budget bindings node
  | .nullCoalesceExpr =>
      steady.exprOf bindings node.expr? && steady.exprOf bindings node.exprs[1]?
  | .pipeExpr =>
      steady.exprOf bindings node.exprs[1]? &&
        readsPlainly context (exprTypeOf deeper bindings node.exprs[1]?)
  | .ifExpr =>
      steady.exprOf bindings node.thenExpr.toOption &&
        steady.exprOf bindings node.elseExpr.toOption
  | .letExpr => steady.exprOf bindings node.letBody.toOption
  | .newExpr =>
      (node.child? Node.Kind.isType).isSome || steady.expectedType bindings node
  | _ => true

end Steady

def Steady.over (context : Context) (deeper : Unit → Answers)
    (steady : Unit → Steady) (budget : Nat) : Steady where
  exprType bindings node :=
    (steady ()).ofExpr context (deeper ()) budget bindings node
  declType bindings node := (steady ()).ofDecl context (deeper ()) bindings node
  propertyType bindings node :=
    (steady ()).ofProperty context (deeper ()) budget bindings node
  thisType bindings node := (steady ()).ofThis context (deeper ()) bindings node
  expectedType bindings node :=
    (steady ()).ofExpected context (deeper ()) bindings node
  candidates receiver? bindings node :=
    (steady ()).ofCandidates context (deeper ()) budget receiver? bindings node

/-- Which questions are steady where so much depth is left. -/
def steady (context : Context) : Nat → Steady
  | 0 => Steady.always
  | budget + 1 =>
      Steady.over context (fun _ => answers context budget)
        (fun _ => steady context budget) budget

end PklAnalysis.Inference

namespace PklAnalysis.Context

open Inference

/-- There is no detour on the way to the type of an expression. -/
def isSteady (context : Context) (bindings : Ty.Bindings) (node : Node) :
    Bool :=
  (Inference.steady context context.budget).exprType bindings node

end PklAnalysis.Context

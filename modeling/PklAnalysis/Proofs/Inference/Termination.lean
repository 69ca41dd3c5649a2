import PklAnalysis.Inference.Engine
import PklAnalysis.Inference.Subtype
import PklAnalysis.Proofs.Document.Arena
import PklAnalysis.Proofs.Inference.Superclass

/-!
All questions about types and names have an answer, whatever circles the sources
go in.
-/

namespace PklAnalysis.Inference

open Lookup

variable (context : Context)

/-! The recursions that pass their depth on. -/

def answersStep : (Nat → Answers) → Nat → Answers :=
  depthStep context.maxDepth (Answers.none context) fun budget deeper =>
    Answers.over context (fun _ => deeper) budget

def typesStep :
    (Nat → Ty.Bindings → Node → Ty) → Nat → Ty.Bindings → Node → Ty :=
  depthStep context.maxDepth (fun _ _ => .unknown) fun _ => typeStep context

def conformsStep : (Nat → Ty → Ty → Bool) → Nat → Ty → Ty → Bool :=
  depthStep context.maxDepth (fun _ _ => true) fun budget conforms sub sup =>
    sub = sup || subtypeStep context conforms budget sub sup

theorem endsWithin_answers (depth : Nat) :
    EndsWithin (answersStep context) (nesting context.maxDepth depth) depth
      (answers context (context.budget - depth)) :=
  endsWithin_depthStep (answers context) rfl (fun _ => rfl)
    context.maxDepth depth

theorem endsWithin_resolveType (depth : Nat) :
    EndsWithin (typesStep context) (nesting context.maxDepth depth) depth
      (resolveType context (context.budget - depth)) :=
  endsWithin_depthStep (resolveType context) rfl (fun _ => rfl)
    context.maxDepth depth

theorem endsWithin_subtype (depth : Nat) :
    EndsWithin (conformsStep context) (nesting context.maxDepth depth) depth
      (subtype context (context.budget - depth)) :=
  endsWithin_depthStep (subtype context) rfl (fun _ => rfl)
    context.maxDepth depth

def argsAlong? (target : Node) (walk : List (Node × List Ty)) :
    Option (List Ty) :=
  (walk.find? fun entry => entry.1 = target).map Prod.snd

/-- A question for the arguments of a builtin class starts resolving types
again, two levels below the top. It is one walk along superclasses over resolved
types, and asks nothing else. -/
theorem builtinArgs?_eq_unroll (decl : Node) (args : List Ty) (name : String)
    (more : Nat)
    (stuckWalk : List Node × Node × List Ty → List (Node × List Ty))
    (stuckType : Nat → Ty.Bindings → Node → Ty) :
    let resolve :=
      unroll (typesStep context) stuckType (nesting context.maxDepth 2 + more) 2
    let limit := classLimit context (.classType decl args) + more
    builtinArgs? context (.classType decl args) name =
      (context.base.class? name).bind fun target =>
        argsAlong? target
          (unroll (Node.walkStep Prod.fst (parentClass? context resolve))
            stuckWalk limit
            ([], decl, args)) := by
  intro resolve limit
  have hresolve : resolve = resolveType context (context.budget - 2) :=
    endsWithin_resolveType context 2 _ (Nat.le_add_right _ _) stuckType
  have hwalk :=
    endsWithin_classChain context (context.budget - 2) decl args limit
    (Nat.le_add_right _ _) stuckWalk
  rw [hresolve, hwalk]
  rfl

end PklAnalysis.Inference

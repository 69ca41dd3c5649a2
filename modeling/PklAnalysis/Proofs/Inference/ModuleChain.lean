import PklAnalysis.Proofs.Inference.Subtype

/-!
The order of modules. A module stands below those that its clause leads to,
directly or by way of others, also where the clauses go in a circle. Depth plays
no part: the chain of a module is followed to its end.
-/

namespace PklAnalysis

namespace Lookup

variable {context : Context} {root target : Node}

def Amends (context : Context) (root parent : Node) : Prop :=
  parentModule? context root = some parent

theorem trail_moduleChain (hcancelled : context.cancelled = false)
    (root : Node) :
    Node.IsTrail id (parentModule? context) root
      (moduleChain context root) := by
  rw [moduleChain_of_not_cancelled hcancelled]
  exact (confined_parentModule? context root).isTrail_walk List.mem_cons_self
    (length_reachedModules context root)

/-- The chain of a module has all modules that the clauses lead to, and no
others. -/
theorem mem_moduleChain_iff (hcancelled : context.cancelled = false) :
    target ∈ moduleChain context root ↔
      Relation.ReflTransGen (Amends context) root target := by
  refine ⟨fun hmem => ?_, fun hpath => ?_⟩
  · rw [moduleChain_of_not_cancelled hcancelled] at hmem
    exact Node.forall_mem_walk (fun _ _ hpath hparent => hpath.tail hparent)
      .refl target hmem
  · induction hpath with
    | refl =>
        exact List.mem_of_mem_head? (trail_moduleChain hcancelled root).head
    | tail _ hparent ih => exact closed_moduleChain ih hparent

end Lookup

open Lookup

theorem Context.isSubtype_modules_iff {context : Context}
    (hcancelled : context.cancelled = false) {root target : Node} :
    context.isSubtype (.moduleType root) (.moduleType target) = true ↔
      Relation.ReflTransGen (Amends context) root target := by
  rw [isSubtype, Context.budget, Inference.subtype, Bool.or_eq_true,
    decide_eq_true_iff, Ty.moduleType.injEq, Inference.subtypeStep_modules,
    mem_moduleChain_iff hcancelled]
  refine or_iff_right_of_imp fun hsame => ?_
  rw [hsame]

/-- The chain of a module starts with it, leads on along the clauses, has no
module twice and ends only where a clause is missing, leads nowhere or leads
back into the chain. Between modules being a subtype is the same as being
reached along clauses, and so it is transitive. -/
theorem Context.isTrail_moduleChain (context : Context)
    (hcancelled : context.cancelled = false) :
    (∀ root,
      Node.IsTrail id (parentModule? context) root (moduleChain context root)) ∧
    (∀ root target,
      context.isSubtype (.moduleType root) (.moduleType target) = true ↔
      Relation.ReflTransGen (Amends context) root target) ∧
    ∀ inner middle outer,
      context.isSubtype (.moduleType inner) (.moduleType middle) = true →
      context.isSubtype (.moduleType middle) (.moduleType outer) = true →
        context.isSubtype (.moduleType inner) (.moduleType outer) = true := by
  refine ⟨trail_moduleChain hcancelled,
    fun root target => isSubtype_modules_iff hcancelled,
    fun inner middle outer hinner houter => ?_⟩
  rw [isSubtype_modules_iff hcancelled] at hinner houter ⊢
  exact hinner.trans houter

def amendingC (uri : String) : Document :=
  .ofTokens uri "amends \"c\""
    [⟨.amendsKw, "amends", 0⟩, ⟨.whitespace, " ", 6⟩, ⟨.stringStart, "\"", 7⟩,
     ⟨.stringChars, "c", 8⟩, ⟨.stringEnd, "\"", 9⟩]
    (Token.ok_of_toOption (by decide +kernel))

def amendingB (uri : String) : Document :=
  .ofTokens uri "amends \"b\""
    [⟨.amendsKw, "amends", 0⟩, ⟨.whitespace, " ", 6⟩, ⟨.stringStart, "\"", 7⟩,
     ⟨.stringChars, "b", 8⟩, ⟨.stringEnd, "\"", 9⟩]
    (Token.ok_of_toOption (by decide +kernel))

def contextOfCircle : Context :=
  (((Context.ofBase .plain).withDocument
    (amendingC "file:///a")).withDocument (amendingC "file:///b")).withDocument
      (amendingB "file:///c")

/-- The chain of `a` goes through the circle once, and `a` is a subtype of `b`
by way of `c`. -/
theorem Context.isTrail_moduleChain_circle :
    let a := (amendingC "file:///a").root
    let b := (amendingC "file:///b").root
    let c := (amendingB "file:///c").root
    moduleChain contextOfCircle a = [a, c, b] ∧
      Node.IsTrail id (parentModule? contextOfCircle) a [a, c, b] ∧
      contextOfCircle.isSubtype (.moduleType a) (.moduleType b) = true := by
  intro a b c
  have hcancelled : contextOfCircle.cancelled = false := rfl
  have hchain : moduleChain contextOfCircle a = [a, c, b] := by decide +kernel
  have hinner : contextOfCircle.isSubtype (.moduleType a) (.moduleType c) =
      true := by decide +kernel
  have houter : contextOfCircle.isSubtype (.moduleType c) (.moduleType b) =
      true := by decide +kernel
  obtain ⟨htrail, -, htrans⟩ := contextOfCircle.isTrail_moduleChain hcancelled
  exact ⟨hchain, hchain ▸ htrail a, htrans a c b hinner houter⟩

end PklAnalysis

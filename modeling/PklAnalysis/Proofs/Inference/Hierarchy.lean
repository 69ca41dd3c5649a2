import Mathlib.Data.List.TakeWhile
import Mathlib.Logic.Relation
import PklAnalysis.Proofs.Inference.Superclass

/-!
The hierarchy of classes. What a class extends is written in the sources, and
some depth is needed to read it; a walk along superclasses that has that depth
comes to all superclasses of its class. It looks at each class only once, with
the arguments that come first, so this is so where the class that a class
extends does not depend on its arguments.
-/

namespace PklAnalysis.Inference

open Lookup Ty

variable {context : Context} {budget : Nat} {decl parent target : Node}
  {args : List Ty}

def classesOf (context : Context) : List Node :=
  (numberedNodes context.documents).filter fun node => node.kind = .classDecl

theorem mem_classesOf : decl ∈ classesOf context ↔
    decl.document ∈ context.documents ∧ decl.kind = .classDecl := by
  rw [classesOf, List.mem_filter, decide_eq_true_iff]
  refine and_congr_left fun hkind => ⟨fun hnumbered => ?_, fun hdocument => ?_⟩
  · obtain ⟨document, hdocument, hnode⟩ := List.mem_flatMap.mp hnumbered
    obtain ⟨index, -, rfl⟩ := List.mem_map.mp hnode
    exact hdocument
  · exact List.mem_flatMap.mpr ⟨decl.document, hdocument,
      List.mem_map.mpr ⟨decl.index, List.mem_range.mpr (index_lt_of_kind hkind),
        rfl⟩⟩

theorem reach_classesOf (context : Context) :
    Reach context context.documents (classesOf context) where
  context_subset := List.Subset.refl _
  document_mem := fun _ hnode => (mem_classesOf.mp hnode).1
  mem_of_class := fun _ hdocument hkind => mem_classesOf.mpr ⟨hdocument, hkind⟩

theorem mem_classesOf_class? {name : String}
    (hdecl : context.base.class? name = some decl) :
    decl ∈ classesOf context := by
  have hmember := Base.mem_of_class? hdecl
  refine mem_classesOf.mpr ⟨?_, Node.kind_of_mem_childrenOf hmember⟩
  rw [Node.document_of_mem_childrenOf hmember]
  exact List.mem_cons_self

/-- More depth finds the same superclass, with the same arguments. -/
def Settled (context : Context) (budget : Nat) (place : Node × List Ty) :
    Prop :=
  ∀ more, parentClass? context (resolveType context (budget + more)) place =
    parentClass? context (resolveType context budget) place

/-- The class that a class extends does not depend on the arguments of the
class. -/
def Uniform (context : Context) : Prop :=
  ∀ decl ∈ classesOf context, ∀ budget args args',
    (parentClass? context (resolveType context budget) (decl,
      args)).map Prod.fst =
      (parentClass? context (resolveType context budget) (decl, args')).map
        Prod.fst

def Extends (context : Context) (decl parent : Node) : Prop :=
  ∃ budget args args', Settled context budget (decl, args) ∧
    parentClass? context (resolveType context budget) (decl, args) =
      some (parent, args')

theorem parentClass?_of_no_params (hparams : decl.typeParameters = [])
    (args args' : List Ty) :
    parentClass? context (resolveType context budget) (decl, args) =
      parentClass? context (resolveType context budget) (decl, args') := by
  simp only [parentClass?, hparams, Bindings.ofArgs, List.zip_nil_left]

/-- It is enough that classes without parameters are uniform, as they all
are. -/
theorem uniform_of_no_params
    (hparams : ∀ decl ∈ classesOf context, decl.typeParameters = []) :
    Uniform context :=
  fun decl hdecl _ args args' => by rw [parentClass?_of_no_params
    (hparams decl hdecl) args args']

def Resolved (context : Context) (budget : Nat) (bindings : Bindings)
    (node : Node) : Prop :=
  ∀ more, resolveType context (budget + more) bindings node =
    resolveType context budget bindings node

theorem resolved_of_class {bindings : Bindings} {node : Node} (target : Node)
    (hkind : node.kind = .declaredType)
    (hname : node.typeName.toOption.bind (typeName? context) = some target)
    (htarget : target.kind = .classDecl)
    (hargs : ∀ arg ∈ node.typeArguments, Resolved context budget bindings arg) :
    Resolved context (budget + 1) bindings node := by
  intro more
  have hmap :
      node.typeArguments.map (resolveType context (budget + more) bindings) =
      node.typeArguments.map (resolveType context budget bindings) :=
    List.map_congr_left fun arg harg => hargs arg harg more
  rw [Nat.add_right_comm]
  simp only [resolveType, typeStep, hkind, typeStep.declared, hname, htarget,
    hmap]

theorem resolved_of_variable {bindings : Bindings} {node : Node} (param : Node)
    (hkind : node.kind = .declaredType)
    (hname : node.typeName.toOption.bind (typeName? context) = some param)
    (hparam : param.kind = .typeParameter) :
    Resolved context (budget + 1) bindings node := by
  intro more
  rw [Nat.add_right_comm]
  simp only [resolveType, typeStep, hkind, typeStep.declared, hname, hparam]

theorem settled_of_resolved (supertype : Node)
    (hsupertype : decl.supertype? = some supertype)
    (hresolved : Resolved context budget (.ofArgs decl.typeParameters args)
      supertype) :
    Settled context budget (decl, args) := by
  intro more
  simp only [parentClass?, superclass?, hsupertype, hresolved more]

theorem settled_of_name (supertype parent : Node)
    (hsupertype : decl.supertype? = some supertype)
    (hkind : supertype.kind = .declaredType)
    (hname : supertype.typeName.toOption.bind (typeName? context) = some parent)
    (hparent : parent.kind = .classDecl)
    (hargs : supertype.typeArguments = []) :
    Settled context (budget + 1) (decl, args) :=
  settled_of_resolved supertype hsupertype
    (resolved_of_class parent hkind hname hparent (hargs ▸ nofun))

section

variable (huniform : Uniform context) (hdecl : decl ∈ classesOf context)
include huniform hdecl

theorem Uniform.mem_classesOf {next : Node × List Ty}
    (hnext : parentClass? context (resolveType context budget) (decl, args) =
      some next) :
    next.1 ∈ classesOf context := by
  have hsame := huniform decl hdecl budget [] args
  rw [hnext] at hsame
  obtain ⟨next', hnext', hfirst⟩ := Option.map_eq_some_iff.mp hsame
  have hstart : Within (classesOf context) (.classType decl []) :=
    within_classType.mpr ⟨hdecl, nofun⟩
  rw [← hfirst]
  exact (within_classType.mp
    ((reach_classesOf context).within_parentClass? hstart hnext')).1

theorem Uniform.parentClass?_of_extends
    (hsettled : Settled context budget (decl, args))
    (hextends : Extends context decl parent) : ∃ args',
    parentClass? context (resolveType context budget) (decl, args) =
      some (parent, args') := by
  obtain ⟨other, otherArgs, parentArgs, hother, hparent⟩ := hextends
  have hsame := huniform decl hdecl (budget + other) args otherArgs
  rw [hsettled other, Nat.add_comm, hother budget, hparent] at hsame
  obtain ⟨⟨found, args'⟩, hfound, rfl⟩ := Option.map_eq_some_iff.mp hsame
  exact ⟨args', hfound⟩

end

def chainBefore (context : Context) (budget : Nat) (ty : Ty) (target : Node) :
    List (Node × List Ty) :=
  (classChain context budget ty).takeWhile fun place => place.1 ≠ target

theorem reflTransGen_of_mem_classChain
    (hsettled :
    ∀ place ∈ chainBefore context budget (.classType decl args) target,
      Settled context budget place)
    (hmem : target ∈
      (classChain context budget (.classType decl args)).map Prod.fst) :
    Relation.ReflTransGen (Extends context) decl target := by
  rw [chainBefore, classChain] at hsettled
  rw [classChain] at hmem
  generalize classLimit context (.classType decl args) = limit,
    ([] : List Node) = seen
    at hsettled hmem
  induction limit generalizing seen decl args with
  | zero => cases hmem
  | succ limit ih =>
      rw [Node.walk] at hsettled hmem
      split at hmem
      case isTrue => cases hmem
      case isFalse hfresh =>
          rw [if_neg hfresh] at hsettled
          by_cases hfound : decl = target
          case pos =>
              subst hfound
              exact .refl
          case neg =>
              rw [List.takeWhile_cons_of_pos (by simpa using hfound)]
                at hsettled
              obtain ⟨hfirst, hrest⟩ := List.forall_mem_cons.mp hsettled
              have hlater :=
                (List.mem_cons.mp hmem).resolve_left (Ne.symm hfound)
              cases hnext : parentClass? context (resolveType context budget)
                (decl, args) with
              | none =>
                  rw [hnext] at hlater
                  cases hlater
              | some next =>
                  rw [hnext] at hlater hrest
                  exact .head ⟨budget, args, next.2, hfirst, hnext⟩
                    (ih _ hrest hlater)

theorem mem_classChain_self :
    (decl, args) ∈ classChain context budget (.classType decl args) :=
  Node.mem_walk_self (Nat.lt_of_le_of_lt (Nat.zero_le _)
    (length_reachedNodes context (.classType decl args))) List.not_mem_nil

theorem closed_classChain {place next : Node × List Ty}
    (hplace : place ∈ classChain context budget (.classType decl args))
    (hnext : parentClass? context (resolveType context budget) place =
      some next) :
    next.1 ∈ (classChain context budget (.classType decl args)).map Prod.fst :=
  (confined_parentClass? context budget _).closed_walk
    (within_reachedNodes context _)
    (length_reachedNodes context _) hplace hnext

/-- A walk that is nowhere cut short finds every superclass. -/
theorem mem_classChain_of_reflTransGen (huniform : Uniform context)
    (hdecl : decl ∈ classesOf context)
    (hsettled :
    ∀ place ∈ chainBefore context budget (.classType decl args) target,
      Settled context budget place)
    (hpath : Relation.ReflTransGen (Extends context) decl target) :
    target ∈
      (classChain context budget (.classType decl args)).map Prod.fst := by
  by_contra hnone
  have hall : ∀ place ∈ classChain context budget (.classType decl args),
      Settled context budget place := by
    rw [chainBefore, List.takeWhile_eq_self_iff.mpr] at hsettled
    · exact hsettled
    · intro place hplace
      exact decide_eq_true fun hsame =>
        hnone (hsame ▸ List.mem_map_of_mem hplace)
  have hclasses : ∀ place ∈ classChain context budget (.classType decl args),
      place.1 ∈ classesOf context := by
    refine Node.forall_mem_walk ?_ hdecl
    exact fun place next hplace hnext => huniform.mem_classesOf hplace hnext
  refine hnone ?_
  clear hnone hsettled
  induction hpath with
  | refl => exact List.mem_map_of_mem (f := Prod.fst) mem_classChain_self
  | tail hpath hstep ih =>
      obtain ⟨⟨decl, args⟩, hplace, rfl⟩ := List.mem_map.mp ih
      obtain ⟨args', hnext⟩ :=
        huniform.parentClass?_of_extends (hclasses _ hplace)
          (hall _ hplace) hstep
      exact closed_classChain hplace hnext

end PklAnalysis.Inference

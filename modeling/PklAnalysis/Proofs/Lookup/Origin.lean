import PklAnalysis.Inference.Engine
import PklAnalysis.Proofs.Lookup.Candidate

/-!
Where candidates come from. Members are declared in the bodies of classes and at
the top of modules; what holds of those holds of the members of all types, and
of what `super` gives access to. With what scopes declare themselves these are
all the declarations that an access may stand for.
-/

namespace PklAnalysis

namespace Candidates

variable {front back : Candidates} {candidate : Candidate}
  {holds : Candidate → Prop}

theorem mem_toList {candidates : Candidates} :
    candidate ∈ candidates.toList ↔ ∃ group ∈ candidates,
      candidate ∈ group () :=
  List.mem_flatMap

theorem mem_toList_append :
    candidate ∈ toList (front ++ back) ↔
      candidate ∈ front.toList ∨ candidate ∈ back.toList := by
  rw [toList_append, List.mem_append]

theorem mem_toList_cons {group : Unit → List Candidate} :
    candidate ∈ toList (group :: back) ↔
      candidate ∈ group () ∨ candidate ∈ back.toList := by
  rw [toList, List.flatMap_cons, List.mem_append]
  rfl

theorem mem_ofNodes {bindings : Ty.Bindings} {nodes : List Node} :
    candidate ∈ ofNodes bindings nodes ↔ candidate.node ∈ nodes ∧
      candidate.node.declarationName? = some candidate.name ∧
        candidate.bindings = bindings := by
  refine List.mem_filterMap.trans ⟨?_, ?_⟩
  · rintro ⟨node, hnode, hcandidate⟩
    obtain ⟨name, hname, rfl⟩ := Option.map_eq_some_iff.mp hcandidate
    exact ⟨hnode, hname, rfl⟩
  · rintro ⟨hnode, hname, rfl⟩
    exact ⟨candidate.node, hnode,
      Option.map_eq_some_iff.mpr ⟨candidate.name, hname, rfl⟩⟩

theorem node_mem_of_mem_ofNodes {bindings : Ty.Bindings} {nodes : List Node}
    (hcandidate : candidate ∈ ofNodes bindings nodes) :
    candidate.node ∈ nodes :=
  (mem_ofNodes.mp hcandidate).1

def All (holds : Candidate → Prop) (candidates : Candidates) : Prop :=
  ∀ candidate ∈ candidates.toList, holds candidate

theorem all_nil : All holds [] :=
  nofun

theorem All.imp {weaker : Candidate → Prop} {candidates : Candidates}
    (hall : All holds candidates)
    (himp : ∀ candidate, holds candidate → weaker candidate) :
    All weaker candidates :=
  fun candidate hcandidate => himp candidate (hall candidate hcandidate)

theorem All.append (hfront : All holds front) (hback : All holds back) :
    All holds (front ++ back) :=
  fun candidate hcandidate =>
    (mem_toList_append.mp hcandidate).elim (hfront candidate) (hback candidate)

theorem All.cons {group : Unit → List Candidate}
    (hgroup : ∀ candidate ∈ group (), holds candidate)
    (hback : All holds back) : All holds (group :: back) :=
  fun candidate hcandidate =>
    (mem_toList_cons.mp hcandidate).elim (hgroup candidate) (hback candidate)

theorem All.of_first? {candidates : Candidates} (hall : All holds candidates)
    {name : String} {found : Candidate}
    (hfound : candidates.first? name = some found) : holds found := by
  rw [first?_eq_find?] at hfound
  exact hall found (List.mem_of_find?_eq_some hfound)

end Candidates

namespace Lookup

open Inference

variable {context : Context} {budget : Nat} {space : Space} {node : Node}
  {candidate : Candidate} {holds : Candidate → Prop}

theorem exists_of_mem_getD {owner? : Option Node} {members : Node → List Node}
    (hnode : node ∈ (owner?.map members).getD []) :
    ∃ owner, owner? = some owner ∧ node ∈ members owner := by
  cases owner? with
  | none => cases hnode
  | some owner => exact ⟨owner, rfl, hnode⟩

theorem mem_children_of_mem_classMembers {decl : Node}
    (hnode : node ∈ space.classMembers decl) :
    ∃ body : Node, decl.classBody? = some body ∧ node ∈ body.children := by
  cases space with
  | property | method =>
      obtain ⟨body, hbody, hmember⟩ := exists_of_mem_getD hnode
      exact ⟨body, hbody, (List.mem_filter.mp hmember).1⟩

theorem mem_toList_classMembers {ty : Ty} :
    candidate ∈ (classMembers context budget space ty).toList ↔
      ∃ place ∈ classChain context budget ty, candidate ∈
        Candidates.ofNodes (.ofArgs place.1.typeParameters place.2)
          (space.classMembers place.1) := by
  rw [classMembers, Candidates.toList, List.flatMap_map]
  exact List.mem_flatMap

theorem eq_of_head?_moduleChain {root first : Node}
    (hfirst : (moduleChain context root).head? = some first) :
    first = root := by
  rw [moduleChain] at hfirst
  split at hfirst
  case isTrue => cases hfirst
  case isFalse => exact (Option.some.inj hfirst).symm

theorem all_chainDeclarations {withLocal : Bool} {chain : List Node}
    (hfirst : ∀ root,
      chain.head? = some root →
        ∀ candidate ∈
          Candidates.ofNodes [] (moduleDeclarations space withLocal root),
            holds candidate)
    (hrest : ∀ root,
      ∀ candidate ∈ Candidates.ofNodes [] (moduleDeclarations space false root),
        holds candidate) :
    (chainDeclarations space withLocal chain).All holds := by
  induction chain generalizing withLocal with
  | nil => exact Candidates.all_nil
  | cons root parents ih =>
      exact .cons (hfirst root rfl) (ih fun root _ => hrest root)

/-- A condition on types that passes on to the types whose members count as
members. -/
structure Passes (base : Base) (admits : Ty → Prop) : Prop where
  member : ∀ {members ty}, admits (.union members) → ty ∈ members → admits ty
  literal : ∀ {text}, admits (.literal text) → admits (base.type "String")
  function : ∀ {params result}, admits (.function params result) →
    admits (.functionClass base params result)

theorem passes_true (base : Base) : Passes base fun _ => True where
  member _ _ := trivial
  literal _ := trivial
  function _ := trivial

/-- What holds of the members of classes, under a condition on the class type,
and of modules. -/
structure OfMembers (context : Context) (budget : Nat) (space : Space)
    (admits : Ty → Prop) (holds : Candidate → Prop) : Prop where
  passes : Passes context.base admits
  ofClass : ∀ {ty}, admits ty → (classMembers context budget space ty).All holds
  ofModule : ∀ root, (moduleMembers context budget space false root).All holds

namespace OfMembers

variable {admits : Ty → Prop}

theorem imp {weaker : Candidate → Prop}
    (hmembers : OfMembers context budget space admits holds)
    (himp : ∀ candidate, holds candidate → weaker candidate) :
    OfMembers context budget space admits weaker where
  passes := hmembers.passes
  ofClass hty := (hmembers.ofClass hty).imp himp
  ofModule root := (hmembers.ofModule root).imp himp

mutual

theorem typeMembers (hmembers : OfMembers context budget space admits holds) :
    ∀ {ty}, admits ty → (typeMembers context budget space ty).All holds
  | .classType _ _, hty => hmembers.ofClass hty
  | .literal _, hty => hmembers.ofClass (hmembers.passes.literal hty)
  | .function _ _, hty => hmembers.ofClass (hmembers.passes.function hty)
  | .moduleType root, _ => hmembers.ofModule root
  | .union _, hty =>
      unionMembers hmembers fun _ hmember => hmembers.passes.member hty hmember
  | .unknown, _ | .nothing, _ | .variable _, _ => Candidates.all_nil

theorem unionMembers (hmembers : OfMembers context budget space admits holds) :
    ∀ {types}, (∀ ty ∈ types, admits ty) →
    (unionMembers context budget space types).All holds
  | [], _ => Candidates.all_nil
  | ty :: rest, htypes => by
      obtain ⟨hty, hrest⟩ := List.forall_mem_cons.mp htypes
      rw [Lookup.unionMembers]
      refine .append ?_ (unionMembers hmembers hrest)
      split
      case isTrue => exact Candidates.all_nil
      case isFalse => exact typeMembers hmembers hty

end

theorem superMembers (hmembers : OfMembers context budget space admits holds)
    {thisType : Ty.Bindings → Node → Ty} {bindings : Ty.Bindings}
    (hthis : ∀ scope, admits (thisType bindings scope))
    (hsuper : ∀ decl parent,
      superclass? context (resolveType context budget) bindings decl =
        some parent → admits parent)
    (access : Node) :
    (superMembers context { thisType, budget } space bindings access).All
      holds := by
  rw [Lookup.superMembers]
  split
  case h_1 => exact Candidates.all_nil
  case h_2 =>
      split
      case h_1 => exact hmembers.typeMembers (hthis _)
      case h_2 =>
          split
          case h_1 parent hparent =>
              exact hmembers.typeMembers (hsuper _ parent hparent)
          case h_2 => exact Candidates.all_nil
      case h_3 =>
          split
          case h_1 => exact hmembers.ofModule _
          case h_2 => exact Candidates.all_nil

end OfMembers

variable {receivers : Receivers} {bindings : Ty.Bindings} {admits : Ty → Prop}

theorem all_rootScope {root : Node}
    (hmodule : (moduleMembers context receivers.budget space true root).All
      holds)
    (himports : space = .property →
      ∀ candidate ∈ Candidates.ofNodes [] root.imports, holds candidate)
    (hbase :
    ∀ candidate ∈
      Candidates.ofNodes [] (moduleDeclarations space true context.base.root),
        holds candidate) :
    (rootScope context receivers space root).All holds := by
  refine hmodule.append
    (.cons (fun candidate himport => ?_) (.cons hbase Candidates.all_nil))
  split at himport
  case isTrue hproperty => exact himports hproperty candidate himport
  case isFalse => cases himport

theorem OfMembers.scopeMembers
    (hmembers : OfMembers context receivers.budget space admits holds)
    (hthis : ∀ scope, admits (receivers.thisType bindings scope))
    {scope inner : Node}
    (hbody : scope.kind = .objectBody →
      ∀ candidate ∈ Candidates.ofNodes bindings (bodyDeclarations space scope),
        holds candidate)
    (hclass : admits ((Ty.ofClass scope).substitute bindings))
    (hroot : (rootScope context receivers space scope).All holds)
    (hbound : space = .property →
      ∀ candidate ∈ Candidates.ofNodes bindings (boundNames scope inner),
        holds candidate)
    (body? : Option Node) :
    (scopeMembers context receivers space bindings body? scope inner).All
      holds := by
  rw [Lookup.scopeMembers]
  split
  case h_1 hkind =>
      refine .cons (hbody hkind) ?_
      split
      case isTrue =>
          exact .cons (hmembers.typeMembers (hthis scope)) Candidates.all_nil
      case isFalse => exact Candidates.all_nil
  case h_2 => exact hmembers.ofClass hclass
  case h_3 => exact hroot
  case h_4 =>
      split
      case isTrue hproperty => exact .cons (hbound hproperty) Candidates.all_nil
      case isFalse => exact Candidates.all_nil

theorem exists_scope_of_mem_unqualified {access : Node}
    (hcandidate : candidate ∈
      (unqualified context receivers space bindings access).toList) :
    ∃ scope inner, (scope, inner) ∈ scopesAround access ∧ ∃ body?,
      candidate ∈
        (scopeMembers context receivers space bindings body? scope
          inner).toList := by
  rw [unqualified] at hcandidate
  split at hcandidate
  case isTrue => cases hcandidate
  case isFalse =>
      obtain ⟨group, hgroup, hcandidate⟩ := Candidates.mem_toList.mp hcandidate
      obtain ⟨⟨scope, inner⟩, hscope, hgroup⟩ := List.mem_flatMap.mp hgroup
      exact ⟨scope, inner, hscope, _,
        Candidates.mem_toList.mpr ⟨group, hgroup, hcandidate⟩⟩

/-- An access may stand for members of the type of its receiver, for what
`super` gives access to, and for what the scopes around it offer. -/
theorem all_candidates {deeper : Answers} {receiver? : Option Ty}
    {access : Node}
    (hmembers : ∀ name space, accessName? access = some (name, space) →
      ∀ budget, OfMembers context budget space admits holds)
    (hreceiver : ∀ ty,
      receiver?.or (access.receiver.toOption.map (deeper.exprType bindings)) =
        some ty → admits (ty.nonNull context.base))
    (hthis : ∀ scope, admits (deeper.thisType bindings scope))
    (hsuper : ∀ budget decl parent,
      superclass? context (resolveType context budget) bindings decl =
        some parent → admits parent)
    (hscopes : ∀ name space, accessName? access = some (name, space) → ∀ budget,
      (unqualified context { thisType := deeper.thisType, budget } space
        bindings access).All holds) :
    (candidates context deeper budget receiver? bindings access).All holds := by
  rw [candidates]
  split
  case h_1 name space _ hname =>
      split
      case h_1 =>
          split
          case h_1 receiver hty =>
              exact (hmembers name space hname _).typeMembers (hreceiver _ hty)
          case h_2 => exact Candidates.all_nil
      case h_2 =>
          exact (hmembers name space hname _).superMembers hthis
            (hsuper _) access
      case h_3 => exact hscopes name space hname _
  case h_2 => exact Candidates.all_nil

end Lookup

end PklAnalysis

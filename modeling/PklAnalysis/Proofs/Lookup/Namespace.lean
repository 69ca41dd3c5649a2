import PklAnalysis.Proofs.Lookup.Locality

/-!
Properties and methods are looked up apart. Whatever is declared for one is not
offered for the other, on any way from an access to a declaration. Parameters
are offered with properties.
-/

namespace PklAnalysis

namespace Lookup

def Space.declares : Space → Node.Kind → Bool
  | .property, kind =>
      kind.isProperty || kind = .classDecl || kind = .typeAlias ||
        kind = .importClause
  | .method, kind => kind.isMethod

def Space.offers (space : Space) (kind : Node.Kind) : Bool :=
  space.declares kind || (space = .property && kind = .parameter)

variable {context : Context} {budget : Nat} {space : Space}
  {receivers : Receivers} {bindings : Ty.Bindings} {node : Node}

theorem declares_of_admits {kind : Node.Kind}
    (hadmits : space.admits kind = true) :
    space.declares kind = true := by
  rw [Space.admits.eq_def] at hadmits
  split at hadmits
  case h_1 | h_2 | h_3 | h_4 => rfl
  case h_5 => cases hadmits

theorem not_declares_parameter (space : Space) :
    space.declares .parameter = false := by
  cases space <;> rfl

theorem offers_of_declares {kind : Node.Kind}
    (hdeclares : space.declares kind = true) :
    space.offers kind = true := by
  rw [Space.offers, hdeclares, Bool.true_or]

theorem isMethod_of_offers {kind : Node.Kind}
    (hoffers : space.offers kind = true) :
    kind.isMethod = decide (space = .method) := by
  cases space with
  | property =>
      cases kind with
      | classMethod | objectMethod => cases hoffers
      | _ => rfl
  | method =>
      rw [Space.offers, Space.declares] at hoffers
      simpa using hoffers

abbrev AllDeclared (space : Space) : Candidates → Prop :=
  Candidates.All fun candidate => space.declares candidate.node.kind = true

theorem kind_of_mem_childrenWhere {isKind : Node.Kind → Bool} {owner : Node}
    (hnode : node ∈ owner.childrenWhere isKind) : isKind node.kind = true :=
  (List.mem_filter.mp hnode).2

theorem declares_of_mem_classMembers {decl : Node}
    (hnode : node ∈ space.classMembers decl) :
    space.declares node.kind = true := by
  cases space with
  | property =>
      obtain ⟨body, -, hmember⟩ := exists_of_mem_getD hnode
      simp [Space.declares, kind_of_mem_childrenWhere hmember]
  | method =>
      obtain ⟨body, -, hmember⟩ := exists_of_mem_getD hnode
      exact kind_of_mem_childrenWhere hmember

theorem allDeclared_classMembers (ty : Ty) :
    AllDeclared space (classMembers context budget space ty) := by
  intro candidate hcandidate
  obtain ⟨place, -, hcandidate⟩ := mem_toList_classMembers.mp hcandidate
  exact declares_of_mem_classMembers
    (Candidates.node_mem_of_mem_ofNodes hcandidate)

theorem declares_of_mem_moduleDeclarations {withLocal : Bool} {root : Node}
    {candidate : Candidate}
    (hcandidate : candidate ∈
      Candidates.ofNodes [] (moduleDeclarations space withLocal root)) :
    space.declares candidate.node.kind = true := by
  have hadmits :=
    (List.mem_filter.mp (Candidates.node_mem_of_mem_ofNodes hcandidate)).2
  exact declares_of_admits (Bool.and_eq_true_iff.mp hadmits).1

theorem allDeclared_moduleMembers (withLocal : Bool) (root : Node) :
    AllDeclared space (moduleMembers context budget space withLocal root) :=
  (all_chainDeclarations (fun _ _ _ => declares_of_mem_moduleDeclarations)
      fun _ _ =>
    declares_of_mem_moduleDeclarations).append (allDeclared_classMembers _)

theorem declared_ofMembers :
    OfMembers context budget space (fun _ => True) fun candidate =>
      space.declares candidate.node.kind = true where
  passes := passes_true context.base
  ofClass {ty} _ := allDeclared_classMembers ty
  ofModule := allDeclared_moduleMembers false

theorem allDeclared_rootScope (root : Node) :
    AllDeclared space (rootScope context receivers space root) := by
  refine all_rootScope (allDeclared_moduleMembers true root)
    (fun hproperty candidate himport => ?_)
    fun _ => declares_of_mem_moduleDeclarations
  rw [hproperty,
    Node.kind_of_mem_childrenOf (Candidates.node_mem_of_mem_ofNodes himport)]
  rfl

abbrev AllOffered (space : Space) : Candidates → Prop :=
  Candidates.All fun candidate => space.offers candidate.node.kind = true

theorem offered_ofMembers :
    OfMembers context budget space (fun _ => True) fun candidate =>
      space.offers candidate.node.kind = true :=
  declared_ofMembers.imp fun _ => offers_of_declares

theorem offers_of_mem_bodyDeclarations {body : Node}
    (hnode : node ∈ bodyDeclarations space body) :
    space.offers node.kind = true := by
  cases space with
  | property =>
      rcases List.mem_append.mp hnode with hparameter | hproperty
      · rw [Node.kind_of_mem_childrenOf hparameter]
        rfl
      · simp [Space.offers, Space.declares, kind_of_mem_childrenWhere hproperty]
  | method =>
      have hmethod : Space.method.declares node.kind = true :=
        kind_of_mem_childrenWhere hnode
      exact offers_of_declares hmethod

theorem allOffered_scopeMembers (body? : Option Node) (scope inner : Node) :
    AllOffered space
      (scopeMembers context receivers space bindings body? scope inner) := by
  refine offered_ofMembers.scopeMembers (fun _ => trivial)
    (fun _ candidate hbody => ?_) trivial
    ((allDeclared_rootScope scope).imp fun _ => offers_of_declares)
    (fun hproperty candidate hbound => ?_) body?
  · exact offers_of_mem_bodyDeclarations
      (Candidates.node_mem_of_mem_ofNodes hbody)
  · rw [hproperty,
      kind_of_mem_boundNames (Candidates.node_mem_of_mem_ofNodes hbound)]
    rfl

theorem allOffered_unqualified (access : Node) :
    AllOffered space (unqualified context receivers space bindings access) := by
  intro candidate hcandidate
  obtain ⟨scope, inner, -, body?, hcandidate⟩ :=
    exists_scope_of_mem_unqualified hcandidate
  exact allOffered_scopeMembers body? scope inner candidate hcandidate

theorem space_of_accessName? {access : Node} {name : String}
    (hname : accessName? access = some (name, space)) :
    space = if access.argumentList?.isNone then .property else .method := by
  rw [accessName?] at hname
  split at hname
  case isTrue =>
      obtain ⟨_, -, hpair⟩ := Option.map_eq_some_iff.mp hname
      exact (Prod.mk.inj hpair).2.symm
  case isFalse => cases hname

/-- Whatever the type of a receiver is taken to be, an access is offered
declarations of its own namespace only. -/
theorem isMethod_of_mem_candidates (deeper : Inference.Answers)
    (receiver? : Option Ty) (access : Node) :
    (Inference.candidates context deeper budget receiver? bindings access).All
      fun candidate =>
      candidate.node.kind.isMethod = access.argumentList?.isSome := by
  have hoffers : ∀ name space, accessName? access = some (name, space) →
      ∀ candidate : Candidate, space.offers candidate.node.kind = true →
        candidate.node.kind.isMethod = access.argumentList?.isSome := by
    intro name space hname candidate hoffered
    rw [isMethod_of_offers hoffered, space_of_accessName? hname]
    cases access.argumentList? <;> rfl
  refine all_candidates (fun name space hname _ => ?_) (fun _ _ => trivial)
    (fun _ => trivial)
    (fun _ _ _ _ => trivial) fun name space hname _ => ?_
  · exact offered_ofMembers.imp (hoffers name space hname)
  · exact (allOffered_unqualified access).imp (hoffers name space hname)

end Lookup

/-- What is offered for an access with arguments is a method, and what is
offered for one without is none, whichever receiver type is given and whatever
type parameters stand for. -/
theorem Context.isMethod_candidates (context : Context) (receiver? : Option Ty)
    (bindings : Ty.Bindings) (access : Node) :
    ∀ candidate ∈ (context.candidates receiver? bindings access).toList,
      candidate.node.kind.isMethod = access.argumentList?.isSome := by
  rw [context.candidates_eq]
  exact Lookup.isMethod_of_mem_candidates _ receiver? access

def propertyAndMethod : Document :=
  .ofTokens "file:///names.pkl" "x=1\nfunction x()=2\ny=x\nz=x()"
    [⟨.identifier, "x", 0⟩, ⟨.equal, "=", 1⟩, ⟨.intNumber, "1", 2⟩,
     ⟨.whitespace, "\n", 3⟩, ⟨.functionKw, "function", 4⟩,
     ⟨.whitespace, " ", 12⟩, ⟨.identifier, "x", 13⟩, ⟨.leftParen, "(", 14⟩,
     ⟨.rightParen, ")", 15⟩, ⟨.equal, "=", 16⟩, ⟨.intNumber, "2", 17⟩,
     ⟨.whitespace, "\n", 18⟩, ⟨.identifier, "y", 19⟩, ⟨.equal, "=", 20⟩,
     ⟨.identifier, "x", 21⟩, ⟨.whitespace, "\n", 22⟩, ⟨.identifier, "z", 23⟩,
     ⟨.equal, "=", 24⟩, ⟨.identifier, "x", 25⟩, ⟨.leftParen, "(", 26⟩,
     ⟨.rightParen, ")", 27⟩]
    (Token.ok_of_toOption (by decide +kernel))

/-- The access without arguments is offered the properties and the classes, the
one with arguments the method. -/
theorem Context.isMethod_candidates_both :
    let context := (Context.ofBase .plain).withDocument propertyAndMethod
    let node (index : Nat) : Node := ⟨propertyAndMethod, index⟩
    let offered (access : Node) := (context.candidates none [] access).toList
    ((offered (node 8)).map Candidate.node =
        [node 1, node 3, node 4] ++ context.base.root.childrenOf .classDecl ∧
      ∀ candidate ∈ offered (node 8), candidate.node.kind.isMethod = false) ∧
    ((offered (node 9)).map Candidate.node = [node 2] ∧
      ∀ candidate ∈ offered (node 9), candidate.node.kind.isMethod = true) := by
  intro context node offered
  have hproperty : (node 8).argumentList?.isSome = false := by decide +kernel
  have hmethod : (node 9).argumentList?.isSome = true := by decide +kernel
  exact
    ⟨⟨by decide +kernel,
      hproperty ▸ context.isMethod_candidates none [] (node 8)⟩,
    by decide +kernel, hmethod ▸ context.isMethod_candidates none [] (node 9)⟩

end PklAnalysis

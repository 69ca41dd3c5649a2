import PklAnalysis.Proofs.Document.Parents
import PklAnalysis.Proofs.Lookup.Origin
import PklAnalysis.Proofs.Lookup.TypeName

/-!
Local properties and methods of a module are found only from its own document.
Whatever is looked at on the way to a name is inside a class, or not local, or
declared around the access itself, or part of the base module.
-/

namespace PklAnalysis

theorem Node.isKind_of_child? {node child : Node} {isKind : Kind → Bool}
    (hchild : node.child? isKind = some child) : isKind child.kind = true :=
  List.find?_some (p := fun child : Node => isKind child.kind) hchild

theorem Node.kind_of_childOf? {node child : Node} {kind : Kind}
    (hchild : node.childOf? kind = some child) : child.kind = kind :=
  of_decide_eq_true (isKind_of_child? hchild)

namespace Lookup

def IsTopLevel (node : Node) : Prop :=
  node ∈ node.document.root.moduleMembers

theorem IsTopLevel.parent?_eq {node : Node} (htop : IsTopLevel node) :
    node.parent? = some node.document.root :=
  Node.parent?_of_mem_children (List.mem_filter.mp htop).1

/-- What is found from a document: nothing that is hidden from there, that is,
no local property or method at the top of another document but the base
module. -/
def Visible (context : Context) (document : Document) (node : Node) : Prop :=
  IsTopLevel node → isLocal node = true →
    node.document = document ∨ context.base.contains node = true

variable {context : Context} {document : Document} {node : Node} {budget : Nat}
  {space : Space}

theorem visible_of_document (hdocument : node.document = document) :
    Visible context document node :=
  fun _ _ => .inl hdocument

theorem visible_of_not_local (hlocal : isLocal node = false) :
    Visible context document node :=
  fun _ hlocal' => absurd hlocal' (by rw [hlocal]; exact Bool.false_ne_true)

theorem visible_of_kind
    (hkind : (node.kind.isProperty || node.kind.isMethod) = false) :
    Visible context document node :=
  visible_of_not_local (by rw [isLocal, hkind, Bool.false_and])

theorem visible_of_mem_classBody {body : Node} (hkind : body.kind = .classBody)
    (hnode : node ∈ body.children) : Visible context document node := by
  intro htop
  have hroot : body = node.document.root :=
    Option.some.inj
      ((Node.parent?_of_mem_children hnode).symm.trans htop.parent?_eq)
  rw [hroot, Node.kind_root] at hkind
  cases hkind

abbrev AllVisible (context : Context) (document : Document) :
    Candidates → Prop :=
  Candidates.All fun candidate => Visible context document candidate.node

theorem allVisible_classMembers (ty : Ty) :
    AllVisible context document (classMembers context budget space ty) := by
  intro candidate hcandidate
  obtain ⟨place, -, hcandidate⟩ := mem_toList_classMembers.mp hcandidate
  obtain ⟨body, hbody, hnode⟩ :=
    mem_children_of_mem_classMembers
      (Candidates.node_mem_of_mem_ofNodes hcandidate)
  exact visible_of_mem_classBody (Node.kind_of_childOf? hbody) hnode

theorem visible_of_mem_moduleDeclarations {root : Node}
    (hnode : node ∈ moduleDeclarations space false root) :
    Visible context document node := by
  have hadmits := (List.mem_filter.mp hnode).2
  rw [Bool.and_eq_true, Bool.false_or, Bool.not_eq_true'] at hadmits
  exact visible_of_not_local hadmits.2

theorem document_of_mem_moduleDeclarations {withLocal : Bool} {root : Node}
    (hnode : node ∈ moduleDeclarations space withLocal root) :
    node.document = root.document :=
  Node.document_of_mem_childrenWhere (List.mem_filter.mp hnode).1

theorem visible_of_mem_ofNodes {root : Node} :
    ∀ candidate ∈ Candidates.ofNodes [] (moduleDeclarations space false root),
      Visible context document candidate.node :=
  fun _ hcandidate => visible_of_mem_moduleDeclarations
    (Candidates.node_mem_of_mem_ofNodes hcandidate)

theorem allVisible_moduleMembers (root : Node) :
    AllVisible context document
      (moduleMembers context budget space false root) :=
  (all_chainDeclarations (fun _ _ => visible_of_mem_ofNodes) fun _ =>
    visible_of_mem_ofNodes).append
    (allVisible_classMembers _)

theorem allVisible_moduleMembers_own (root : Node) :
    AllVisible context root.document
      (moduleMembers context budget space true root) := by
  refine .append
      (all_chainDeclarations (fun first hfirst candidate hcandidate => ?_)
        fun _ =>
    visible_of_mem_ofNodes) (allVisible_classMembers _)
  obtain rfl := eq_of_head?_moduleChain hfirst
  exact visible_of_document
    (document_of_mem_moduleDeclarations
      (Candidates.node_mem_of_mem_ofNodes hcandidate))

theorem visible_ofMembers :
    OfMembers context budget space (fun _ => True) fun candidate =>
      Visible context document candidate.node where
  passes := passes_true context.base
  ofClass {ty} _ := allVisible_classMembers ty
  ofModule := allVisible_moduleMembers

variable {receivers : Receivers} {bindings : Ty.Bindings}

theorem allVisible_rootScope (root : Node) :
    AllVisible context root.document
      (rootScope context receivers space root) := by
  refine all_rootScope (allVisible_moduleMembers_own root)
    (fun _ candidate himport => ?_)
    fun candidate hbase => ?_
  · have hkind :=
      Node.kind_of_mem_childrenOf (Candidates.node_mem_of_mem_ofNodes himport)
    exact visible_of_kind (by rw [hkind]; rfl)
  · have hdocument :=
      document_of_mem_moduleDeclarations
        (Candidates.node_mem_of_mem_ofNodes hbase)
    exact fun _ _ => .inr (decide_eq_true hdocument)

theorem kind_of_mem_parameters {scope : Node}
    (hnode : node ∈ scope.parameters) :
    node.kind = .parameter := by
  obtain ⟨list, -, hmember⟩ := exists_of_mem_getD hnode
  exact Node.kind_of_mem_childrenOf hmember

theorem kind_of_mem_boundNames {scope inner : Node}
    (hnode : node ∈ boundNames scope inner) :
    node.kind = .parameter := by
  rw [boundNames] at hnode
  split at hnode
  case h_1 =>
      split at hnode
      case isTrue =>
          have hletParameter := toOption_eq_some.mp (Option.mem_toList.mp hnode)
          exact of_decide_eq_true
            (Node.isKind_of_child? (Node.eq_some_of_require hletParameter))
      case isFalse => cases hnode
  case h_2 | h_3 | h_4 => exact kind_of_mem_parameters hnode
  case h_5 =>
      split at hnode
      case isTrue => exact Node.kind_of_mem_childrenOf hnode
      case isFalse => cases hnode
  case h_6 => cases hnode

theorem document_of_mem_bodyDeclarations {body : Node}
    (hnode : node ∈ bodyDeclarations space body) :
    node.document = body.document := by
  cases space with
  | property =>
      rcases List.mem_append.mp hnode with hparameter | hproperty
      · exact Node.document_of_mem_childrenOf hparameter
      · exact Node.document_of_mem_childrenWhere hproperty
  | method => exact Node.document_of_mem_childrenWhere hnode

theorem allVisible_scopeMembers (body? : Option Node) (scope inner : Node) :
    AllVisible context
      scope.document
        (scopeMembers context receivers space bindings body? scope inner) := by
  refine visible_ofMembers.scopeMembers (fun _ => trivial)
    (fun _ candidate hbody => ?_) trivial
    (allVisible_rootScope scope) (fun _ candidate hbound => ?_) body?
  · exact visible_of_document
      (document_of_mem_bodyDeclarations
        (Candidates.node_mem_of_mem_ofNodes hbody))
  · have hkind :=
      kind_of_mem_boundNames (Candidates.node_mem_of_mem_ofNodes hbound)
    exact visible_of_kind (by rw [hkind]; rfl)

theorem document_of_mem_scopesAround {access scope inner : Node}
    (hscope : (scope, inner) ∈ scopesAround access) :
    scope.document = access.document := by
  rcases List.mem_cons.mp (List.of_mem_zip hscope).1 with rfl | habove
  · rfl
  · exact Node.document_of_mem_ancestors habove

theorem allVisible_unqualified (access : Node) :
    AllVisible context access.document
      (unqualified context receivers space bindings access) := by
  intro candidate hcandidate
  obtain ⟨scope, inner, hscope, body?, hcandidate⟩ :=
    exists_scope_of_mem_unqualified hcandidate
  rw [← document_of_mem_scopesAround hscope]
  exact allVisible_scopeMembers body? scope inner candidate hcandidate

/-- Whatever the type of a receiver is taken to be, an access sees nothing that
is hidden from its document. -/
theorem allVisible_candidates (deeper : Inference.Answers)
    (receiver? : Option Ty) (access : Node) :
    AllVisible context access.document
      (Inference.candidates context deeper budget receiver? bindings access) :=
  all_candidates (fun _ _ _ _ => visible_ofMembers) (fun _ _ => trivial)
    (fun _ => trivial)
    (fun _ _ _ _ => trivial) fun _ _ _ _ => allVisible_unqualified access

end Lookup

open Lookup

/-- A local property or method that an access refers to is declared in the
document of the access or in the base module, unless it is not at the top of its
document. -/
theorem Context.document_of_resolve?_local (context : Context) (access : Node)
    (found : Candidate) (hfound : context.resolve? access = some found)
    (htop : IsTopLevel found.node)
    (hmember : found.node.kind.isProperty ∨ found.node.kind.isMethod)
    (hlocal : found.node.hasModifier .localKw) :
    found.node.document = access.document ∨
      found.node.document = context.base.document := by
  obtain ⟨⟨name, space⟩, -, hfirst⟩ := Option.bind_eq_some_iff.mp hfound
  dsimp only at hfirst
  have hvisible := (allVisible_candidates _ none access).of_first? hfirst
  have hhidden : isLocal found.node = true := by
    rw [isLocal, hlocal, Bool.and_true, Bool.or_eq_true]
    exact hmember
  exact (hvisible htop hhidden).imp_right of_decide_eq_true

def hidingModule : Document :=
  .ofTokens "file:///m" "local x=1\nlocal class C"
    [⟨.localKw, "local", 0⟩, ⟨.whitespace, " ", 5⟩, ⟨.identifier, "x", 6⟩,
     ⟨.equal, "=", 7⟩, ⟨.intNumber, "1", 8⟩, ⟨.whitespace, "\n", 9⟩,
     ⟨.localKw, "local", 10⟩, ⟨.whitespace, " ", 15⟩, ⟨.classKw, "class", 16⟩,
     ⟨.whitespace, " ", 21⟩, ⟨.identifier, "C", 22⟩]
    (Token.ok_of_toOption (by decide +kernel))

def amendingModule : Document :=
  .ofTokens "file:///n" "amends \"m\"\nlocal x=2\ny=x\nz=C"
    [⟨.amendsKw, "amends", 0⟩, ⟨.whitespace, " ", 6⟩, ⟨.stringStart, "\"", 7⟩,
     ⟨.stringChars, "m", 8⟩, ⟨.stringEnd, "\"", 9⟩, ⟨.whitespace, "\n", 10⟩,
     ⟨.localKw, "local", 11⟩, ⟨.whitespace, " ", 16⟩, ⟨.identifier, "x", 17⟩,
     ⟨.equal, "=", 18⟩, ⟨.intNumber, "2", 19⟩, ⟨.whitespace, "\n", 20⟩,
     ⟨.identifier, "y", 21⟩, ⟨.equal, "=", 22⟩, ⟨.identifier, "x", 23⟩,
     ⟨.whitespace, "\n", 24⟩, ⟨.identifier, "z", 25⟩, ⟨.equal, "=", 26⟩,
     ⟨.identifier, "C", 27⟩]
    (Token.ok_of_toOption (by decide +kernel))

def contextOfModules : Context :=
  ((Context.ofBase .plain).withDocument hidingModule).withDocument
    amendingModule

/-- The name of both local properties refers to the one in the document of the
access. -/
theorem Context.document_of_resolve?_local_amending :
    ∃ (access : Node) (found : Candidate),
      contextOfModules.resolve? access = some found ∧
      IsTopLevel found.node ∧ found.node.hasModifier .localKw ∧
        found.node.document = access.document := by
  let access : Node := ⟨amendingModule, 10⟩
  let found : Candidate :=
    { name := "x", node := ⟨amendingModule, 2⟩, bindings := [] }
  have hresolve : contextOfModules.resolve? access = some found := by
    have hparts : (contextOfModules.resolve? access).map
        (fun found => (found.name, found.node, found.bindings)) =
          some ("x", ⟨amendingModule, 2⟩, []) := by decide +kernel
    obtain ⟨⟨name, node, bindings⟩, hfound, hsame⟩ :=
      Option.map_eq_some_iff.mp hparts
    cases hsame
    exact hfound
  have htop : IsTopLevel found.node := by
    have hmember : found.node ∈ amendingModule.root.moduleMembers := by
      decide +kernel
    exact hmember
  have hproperty : found.node.kind.isProperty := by decide +kernel
  have hlocal : found.node.hasModifier .localKw := by decide +kernel
  have hother : ¬ found.node.document = contextOfModules.base.document := by
    decide +kernel
  exact ⟨access, found, hresolve, htop, hlocal,
    (contextOfModules.document_of_resolve?_local access found hresolve htop
      (.inl hproperty)
      hlocal).resolve_right hother⟩

/-- A local class is not hidden: here it is found from the other document. -/
example : (contextOfModules.resolve? ⟨amendingModule, 11⟩).map Candidate.node =
    some ⟨hidingModule, 2⟩ := by
  decide +kernel

end PklAnalysis

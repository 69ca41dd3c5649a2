import PklAnalysis.Proofs.Lookup.Namespace
import PklAnalysis.Proofs.Node.Range

/-!
What `let` binds. The parameter of `let` is seen from the body and from nowhere
else: neither from the value that it is bound to nor from the parameter itself,
also when the parenthesis between value and body is missing. In the body it is
what its name refers to, unless a scope further in has the name.
-/

namespace PklAnalysis

namespace Node

variable {node above part scope : Node}

/-! The way up from a node. -/

/-- The nodes above a node, each with the node one step further in. -/
def stepsAbove (node : Node) : List (Node × Node) :=
  node.ancestors.zip (node :: node.ancestors)

theorem stepsAbove_of_parent? {parent : Node}
    (hparent : node.parent? = some parent) :
    node.stepsAbove = (parent, node) :: parent.stepsAbove := by
  rw [stepsAbove, ancestors_of_parent? hparent]
  rfl

theorem mem_ancestors_of_mem_stepsAbove {step : Node × Node}
    (hstep : step ∈ node.stepsAbove) :
    step.1 ∈ node.ancestors :=
  (List.of_mem_zip hstep).1

theorem exists_stepsAbove (hpart : part ∈ node :: node.ancestors)
    (hscope : part.parent? = some scope) :
    scope ∈ node.ancestors ∧ ∃ front,
      (∀ step ∈ front, scope ∈ step.1.ancestors) ∧
      node.stepsAbove = front ++ (scope, part) :: scope.stepsAbove := by
  induction node using inductionAbove with
  | top node hnone =>
      rw [ancestors_of_parent?_none hnone, List.mem_singleton] at hpart
      rw [hpart, hnone] at hscope
      cases hscope
  | below node parent hparent ih =>
      rw [ancestors_of_parent? hparent] at hpart ⊢
      rw [stepsAbove_of_parent? hparent]
      rcases List.mem_cons.mp hpart with rfl | habove
      · obtain rfl : parent = scope :=
          Option.some.inj (hparent.symm.trans hscope)
        exact ⟨List.mem_cons_self, [], nofun, rfl⟩
      · obtain ⟨hmem, front, hfront, hsteps⟩ := ih habove
        exact ⟨List.mem_cons_of_mem _ hmem, (parent, node) :: front,
          List.forall_mem_cons.mpr ⟨hmem, hfront⟩, by rw [hsteps,
            List.cons_append]⟩

theorem eq_of_mem_stepsAbove {inner : Node}
    (hpart : part ∈ node :: node.ancestors) (hscope : part.parent? = some scope)
    (hstep : (scope, inner) ∈ node.stepsAbove) : inner = part := by
  have hself : scope ∉ scope.ancestors :=
    fun hmem => Nat.lt_irrefl _ (index_lt_of_mem_ancestors hmem)
  obtain ⟨-, front, hfront, hsteps⟩ := exists_stepsAbove hpart hscope
  rw [hsteps, List.mem_append, List.mem_cons] at hstep
  rcases hstep with hinner | hhere | houter
  · exact absurd (hfront _ hinner) hself
  · exact (Prod.mk.inj hhere).2
  · exact absurd (mem_ancestors_of_mem_stepsAbove houter) hself

variable {letExpr parameter body value inner : Node}

theorem mem_exprs_of_letBody (hbody : letExpr.letBody = .ok body) :
    body ∈ letExpr.exprs := by
  have hfound := eq_some_of_require hbody
  split at hfound
  case h_1 => exact List.mem_of_find?_eq_some hfound
  case h_2 => exact List.mem_of_getElem? hfound

theorem mem_exprs_of_letValue (hvalue : letExpr.letValue = .ok value) :
    value ∈ letExpr.exprs := by
  have hfound := eq_some_of_require hvalue
  split at hfound
  case h_1 => exact List.mem_of_find?_eq_some hfound
  case h_2 => exact List.mem_of_head? hfound

theorem mem_children_of_letParameter
    (hparameter : letExpr.letParameter = .ok parameter) :
    parameter ∈ letExpr.children :=
  List.mem_of_find?_eq_some (eq_some_of_require hparameter)

theorem kind_letParameter (hparameter : letExpr.letParameter = .ok parameter) :
    parameter.kind = .parameter :=
  of_decide_eq_true (isKind_of_child? (eq_some_of_require hparameter))

theorem letBodyCovers_self (hbody : letExpr.letBody = .ok body) :
    letExpr.letBodyCovers body = true := by
  rw [letBodyCovers, hbody]
  simp [Range.covers]

theorem letBody_eq_of_covers (hinner : inner ∈ letExpr.children)
    (htext : inner.range.start < inner.range.stop)
    (hcovers : letExpr.letBodyCovers inner = true) :
    letExpr.letBody = .ok inner := by
  cases hbody : letExpr.letBody with
  | error missing =>
      rw [letBodyCovers, hbody] at hcovers
      cases hcovers
  | ok body =>
      rw [letBodyCovers, hbody] at hcovers
      dsimp only at hcovers
      rw [Range.covers, Bool.and_eq_true, decide_eq_true_iff,
        decide_eq_true_iff] at hcovers
      have hchild : body ∈ letExpr.children :=
        (List.mem_filter.mp (mem_exprs_of_letBody hbody)).1
      by_contra hne
      have hapart :=
        apart_of_mem_children hchild hinner fun hsame => hne (hsame ▸ rfl)
      omega

theorem letValue_ne_letBody (hvalue : letExpr.letValue = .ok value)
    (htext : value.range.start < value.range.stop) :
    letExpr.letBody ≠ .ok value := by
  intro hbody
  have hfirst := eq_some_of_require hvalue
  have hlast := eq_some_of_require hbody
  cases hclose : letExpr.letClose? with
  | some close =>
      rw [hclose] at hfirst hlast
      have hstop : value.range.stop ≤ close := by
        simpa using List.find?_some hfirst
      have hstart : close ≤ value.range.start := by
        simpa using List.find?_some hlast
      omega
  | none =>
      rw [hclose] at hfirst hlast
      have hexprs : letExpr.exprs.Pairwise fun left right => left.range.stop ≤
          right.range.start :=
        letExpr.pairwise_children.sublist List.filter_sublist
      dsimp only at hfirst hlast
      cases hsplit : letExpr.exprs with
      | nil =>
          rw [hsplit] at hfirst
          cases hfirst
      | cons first rest =>
          rw [hsplit] at hfirst hlast hexprs
          obtain rfl : first = value := Option.some.inj hfirst
          have hagain : first ∈ rest := List.mem_of_getElem? hlast
          have hbounds := (List.pairwise_cons.mp hexprs).1 first hagain
          omega

theorem letParameter_ne_letBody
    (hparameter : letExpr.letParameter = .ok parameter) :
    letExpr.letBody ≠ .ok parameter := by
  intro hbody
  have hexpr := (List.mem_filter.mp (mem_exprs_of_letBody hbody)).2
  rw [kind_letParameter hparameter] at hexpr
  cases hexpr

end Node

namespace Lookup

open Inference

variable {context : Context} {budget : Nat} {space : Space}
  {receivers : Receivers}
  {bindings : Ty.Bindings} {node access letExpr parameter : Node}

theorem isAccess_of_accessName? {name : String}
    (hname : accessName? access = some (name, space)) :
    access.kind.isAccess = true := by
  rw [accessName?] at hname
  split at hname
  case isTrue haccess => exact haccess
  case isFalse => cases hname

theorem start_lt_stop_of_accessName? {name : String}
    (hname : accessName? access = some (name, space))
    (hwithin : node ∈ access :: access.ancestors) :
    node.range.start < node.range.stop := by
  have htext : access.range.start < access.range.stop := by
    rw [accessName?, if_pos (isAccess_of_accessName? hname), Node.name,
      Node.identifier] at hname
    cases hidentifier : access.terminal? .identifier with
    | none =>
        rw [hidentifier] at hname
        cases hname
    | some terminal =>
        exact Node.start_lt_stop_of_terminal
          (List.mem_of_find?_eq_some hidentifier)
  rcases List.mem_cons.mp hwithin with rfl | habove
  · exact htext
  · have hcovers := Node.covers_of_mem_ancestors habove
    omega

/-! The parameter of `let` among the candidates. -/

theorem eq_of_mem_children_letParameter
    (hparameter : letExpr.letParameter = .ok parameter) {owner : Node}
    (hchild : parameter ∈ owner.children) : owner = letExpr :=
  Option.some.inj ((Node.parent?_of_mem_children hchild).symm.trans
    (Node.parent?_of_mem_children
      (Node.mem_children_of_letParameter hparameter)))

theorem ne_of_declares (hparameter : letExpr.letParameter = .ok parameter)
    (hdeclares : space.declares node.kind = true) : node ≠ parameter := by
  rintro rfl
  rw [Node.kind_letParameter hparameter, not_declares_parameter] at hdeclares
  cases hdeclares

section

variable (hkind : letExpr.kind = .letExpr)
  (hparameter : letExpr.letParameter = .ok parameter)
include hkind hparameter

theorem notMem_directParameters {owner : Node}
    (howner : owner.kind ≠ .letExpr) :
    parameter ∉ owner.directParameters := by
  intro hmem
  have hsame :=
    eq_of_mem_children_letParameter hparameter (List.mem_filter.mp hmem).1
  exact howner (hsame ▸ hkind)

theorem notMem_parameters (scope : Node) : parameter ∉ scope.parameters := by
  intro hmem
  obtain ⟨list, hlist, hmember⟩ := exists_of_mem_getD hmem
  have hfound := Node.eq_some_of_require (toOption_eq_some.mp hlist)
  have hlistKind : list.kind = .parameterList :=
    of_decide_eq_true (Node.isKind_of_child? hfound)
  exact notMem_directParameters hkind hparameter
    (by rw [hlistKind]; decide) hmember

theorem eq_of_mem_boundNames {scope inner : Node}
    (hmem : parameter ∈ boundNames scope inner) :
    scope = letExpr ∧ letExpr.letBodyCovers inner = true := by
  rw [boundNames] at hmem
  split at hmem
  case h_1 =>
      split at hmem
      case isTrue hcovers =>
          have hown := toOption_eq_some.mp (Option.mem_toList.mp hmem)
          obtain rfl := eq_of_mem_children_letParameter hparameter
            (Node.mem_children_of_letParameter hown)
          exact ⟨rfl, hcovers⟩
      case isFalse => cases hmem
  case h_2 | h_3 | h_4 =>
      exact absurd hmem (notMem_parameters hkind hparameter _)
  case h_5 hscope =>
      split at hmem
      case isTrue =>
          exact absurd hmem
            (notMem_directParameters hkind hparameter (by rw [hscope]; decide))
      case isFalse => cases hmem
  case h_6 => cases hmem

theorem notMem_bodyDeclarations {body : Node}
    (hbody : body.kind = .objectBody) :
    parameter ∉ bodyDeclarations space body := by
  intro hmem
  cases space with
  | property =>
      rcases List.mem_append.mp hmem with hdirect | hproperty
      · exact notMem_directParameters hkind hparameter
          (by rw [hbody]; decide) hdirect
      · have hisKind := kind_of_mem_childrenWhere hproperty
        rw [Node.kind_letParameter hparameter] at hisKind
        cases hisKind
  | method =>
      have hisKind := kind_of_mem_childrenWhere hmem
      rw [Node.kind_letParameter hparameter] at hisKind
      cases hisKind

/-- The only scope that offers the parameter is the `let`, to what is in its
body. -/
theorem eq_of_mem_scopeMembers (body? : Option Node) (scope inner : Node) :
    (scopeMembers context receivers space bindings body? scope inner).All
      fun candidate =>
      candidate.node = parameter →
      scope = letExpr ∧ letExpr.letBodyCovers inner = true := by
  have hno : ∀ candidate : Candidate,
      space.declares candidate.node.kind = true →
      candidate.node = parameter →
      scope = letExpr ∧ letExpr.letBodyCovers inner = true :=
    fun _ hdeclares hnode => absurd hnode (ne_of_declares hparameter hdeclares)
  refine (declared_ofMembers.imp hno).scopeMembers (fun _ => trivial)
    (fun hscope candidate hbody hnode => ?_) trivial
      ((allDeclared_rootScope scope).imp hno)
    (fun _ candidate hbound hnode => ?_) body?
  · exact absurd (hnode ▸ Candidates.node_mem_of_mem_ofNodes hbody)
      (notMem_bodyDeclarations hkind hparameter hscope)
  · exact eq_of_mem_boundNames hkind hparameter
      (hnode ▸ Candidates.node_mem_of_mem_ofNodes hbound)

/-- The parameter is no candidate outside the body, whatever the type of a
receiver is taken to be. -/
theorem notMem_candidates (deeper : Answers) (receiver? : Option Ty)
    {part : Node} (hpart : letExpr.letValue = .ok part ∨ part = parameter)
    (hwithin : part ∈ access :: access.ancestors) :
    (candidates context deeper budget receiver? bindings access).All
      fun candidate =>
      candidate.node ≠ parameter := by
  refine all_candidates
    (fun _ _ _ _ => declared_ofMembers.imp fun _ => ne_of_declares hparameter)
    (fun _ _ => trivial) (fun _ => trivial) (fun _ _ _ _ => trivial) ?_
  intro name space hname _ candidate hcandidate hnode
  obtain ⟨scope, inner, hscope, body?, hmember⟩ :=
    exists_scope_of_mem_unqualified hcandidate
  obtain ⟨rfl, hcovers⟩ :=
    eq_of_mem_scopeMembers hkind hparameter body? scope inner candidate
      hmember hnode
  have hchild : part ∈ scope.children := by
    rcases hpart with hvalue | rfl
    · exact (List.mem_filter.mp (Node.mem_exprs_of_letValue hvalue)).1
    · exact Node.mem_children_of_letParameter hparameter
  -- the part that the access is in is the one by which its scopes come to the
  -- `let`
  obtain rfl : inner = part := by
    rcases List.mem_cons.mp hscope with hself | hstep
    · obtain ⟨rfl, -⟩ := Prod.mk.inj hself
      exact absurd (isAccess_of_accessName? hname) (by rw [hkind]; decide)
    · exact Node.eq_of_mem_stepsAbove hwithin
        (Node.parent?_of_mem_children hchild) hstep
  have htext : inner.range.start < inner.range.stop :=
    start_lt_stop_of_accessName? hname hwithin
  have hbody := Node.letBody_eq_of_covers hchild htext hcovers
  rcases hpart with hvalue | rfl
  · exact Node.letValue_ne_letBody hvalue htext hbody
  · exact Node.letParameter_ne_letBody hparameter hbody

end

end Lookup

open Lookup

def Context.offered (context : Context) (space : Space) (access : Node)
    (place : Node × Node) :
    Candidates :=
  let receivers : Receivers :=
    { thisType := (Inference.answers context context.maxDepth).thisType
      budget := context.maxDepth - 1 }
  scopeMembers context receivers space []
    ((access :: access.ancestors).find? isObjectBody) place.1
    place.2

theorem Context.candidates_unqualified {context : Context} {space : Space}
    {access : Node} {name : String} (hcancelled : context.cancelled = false)
    (hkind : access.kind = .unqualifiedAccessExpr)
    (hname : accessName? access = some (name, space)) :
    context.candidates none [] access =
      (scopesAround access).flatMap (context.offered space access) := by
  rw [context.candidates_eq, Inference.candidates, hname, hcancelled]
  simp only [hkind, unqualified, hcancelled, Bool.false_eq_true, if_false]
  rfl

/-- An access refers to the first of its name that a scope around it offers,
unless a scope further in offers something of that name. -/
theorem Context.resolve?_of_offered {context : Context} {space : Space}
    {access : Node} {name : String} {inner outer : List (Node × Node)}
    {place : Node × Node} {found : Candidate}
    (hcancelled : context.cancelled = false)
    (hkind : access.kind = .unqualifiedAccessExpr)
    (hname : accessName? access = some (name, space))
    (hscopes : scopesAround access = inner ++ place :: outer)
    (hinner : ∀ place ∈ inner,
      ∀ candidate ∈ (context.offered space access place).toList,
        candidate.name ≠ name)
    (hfound : (context.offered space access place).first? name = some found) :
    context.resolve? access = some found := by
  have hothers :
      (inner.flatMap fun place =>
        (context.offered space access place).toList).find?
      (fun candidate => candidate.name = name) = none := by
    refine List.find?_eq_none.mpr fun candidate hcandidate => ?_
    obtain ⟨place, hplace, hcandidate⟩ := List.mem_flatMap.mp hcandidate
    simpa using hinner place hplace candidate hcandidate
  rw [Candidates.first?_eq_find?] at hfound
  rw [resolve?, hname]
  dsimp only [Option.bind_eq_bind, Option.bind_some]
  rw [Candidates.first?_eq_find?, candidates_unqualified hcancelled hkind hname,
    hscopes, Candidates.toList, List.flatMap_assoc, List.flatMap_append,
    List.find?_append, List.flatMap_cons, List.find?_append]
  change (List.find? _
    (inner.flatMap fun place => (context.offered space access place).toList)).or
    (((context.offered space access place).toList.find? _).or _) = _
  rw [hothers, hfound, Option.none_or, Option.some_or]

theorem Context.offered_letExpr {context : Context}
    {access letExpr parameter body : Node} {name : String}
    (hkind : letExpr.kind = .letExpr)
    (hparameter : letExpr.letParameter = .ok parameter)
    (hbody : letExpr.letBody = .ok body)
    (hbinds : parameter.declarationName? = some name) :
    (context.offered .property access (letExpr, body)).toList =
      [{ name, node := parameter, bindings := [] }] := by
  simp only [offered, scopeMembers, hkind, if_true, boundNames,
    Node.letBodyCovers_self hbody, hparameter]
  simp [Candidates.toList, Candidates.ofNodes, Except.toOption, hbinds]

/-- In the body of `let` its name refers to its parameter, unless a scope
further in offers something of that name. No access in the value that `let`
binds, or in the parameter, sees the parameter. -/
theorem Context.let_scoping (context : Context) {letExpr parameter : Node}
    (hkind : letExpr.kind = .letExpr)
    (hparameter : letExpr.letParameter = .ok parameter) :
    (context.cancelled = false → ∀ access body name,
      access.kind = .unqualifiedAccessExpr →
      accessName? access = some (name, .property) →
      letExpr.letBody = .ok body → body ∈ access :: access.ancestors →
      parameter.declarationName? = some name →
      (∀ place ∈ scopesAround access, letExpr ∈ place.1.ancestors →
        ∀ candidate ∈ (context.offered .property access place).toList,
          candidate.name ≠ name) →
      context.resolve? access = some
        { name, node := parameter, bindings := [] }) ∧
    ∀ access part, letExpr.letValue = .ok part ∨ part = parameter →
      part ∈ access :: access.ancestors → ∀ receiver? bindings,
        ∀ candidate ∈ (context.candidates receiver? bindings access).toList,
          candidate.node ≠ parameter := by
  refine
    ⟨fun hcancelled access body name haccess hname hbody hwithin hbinds
      hothers => ?_,
    fun access part hpart hwithin receiver? bindings =>
      notMem_candidates hkind hparameter _ receiver? hpart hwithin⟩
  have hchild : body ∈ letExpr.children :=
    (List.mem_filter.mp (Node.mem_exprs_of_letBody hbody)).1
  obtain ⟨hmem, front, hfront, hsteps⟩ :=
    Node.exists_stepsAbove hwithin (Node.parent?_of_mem_children hchild)
  have hscopes : scopesAround access =
      (access, access) :: front ++ (letExpr, body) :: letExpr.stepsAbove := by
    rw [List.cons_append, ← hsteps]
    rfl
  -- what the scopes further in offer has other names, so the parameter is the
  -- first of its name
  have hinner : ∀ place ∈ (access, access) :: front,
      ∀ candidate ∈ (context.offered .property access place).toList,
      candidate.name ≠ name := by
    intro place hplace
    refine hothers place ?_ ?_
    · rw [hscopes]
      exact List.mem_append_left _ hplace
    · rcases List.mem_cons.mp hplace with rfl | hplace
      · exact hmem
      · exact hfront place hplace
  refine resolve?_of_offered hcancelled haccess hname hscopes hinner ?_
  rw [Candidates.first?_eq_find?, offered_letExpr hkind hparameter hbody hbinds]
  exact List.find?_cons_of_pos (decide_eq_true rfl)

def unclosedLet : Document :=
  .ofTokens "file:///let.pkl" "y=let(x=x\nlet(z=1)x"
    [⟨.identifier, "y", 0⟩, ⟨.equal, "=", 1⟩, ⟨.letKw, "let", 2⟩,
     ⟨.leftParen, "(", 5⟩, ⟨.identifier, "x", 6⟩, ⟨.equal, "=", 7⟩,
     ⟨.identifier, "x", 8⟩, ⟨.whitespace, "\n", 9⟩, ⟨.letKw, "let", 10⟩,
     ⟨.leftParen, "(", 13⟩, ⟨.identifier, "z", 14⟩, ⟨.equal, "=", 15⟩,
     ⟨.intNumber, "1", 16⟩, ⟨.rightParen, ")", 17⟩, ⟨.identifier, "x", 18⟩]
    (Token.ok_of_toOption (by decide +kernel))

/-- The last `x` refers to the parameter of the outer `let`; the `x` in its
value does not see it. -/
theorem Context.let_scoping_unclosed :
    let context := (Context.ofBase .plain).withDocument unclosedLet
    context.resolve? ⟨unclosedLet, 9⟩ =
        some { name := "x", node := ⟨unclosedLet, 3⟩, bindings := [] } ∧
      ∀ candidate ∈ (context.candidates none [] ⟨unclosedLet, 4⟩).toList,
        candidate.node ≠ ⟨unclosedLet, 3⟩ := by
  intro context
  let node (index : Nat) : Node := ⟨unclosedLet, index⟩
  obtain ⟨hkind, hparameter, hbody, hvalue, haccess, hname, hbinds, hinBody,
      hinValue⟩ :
      (node 2).kind = .letExpr ∧
      (node 2).letParameter.toOption = some (node 3) ∧
      (node 2).letBody.toOption = some (node 5) ∧
      (node 2).letValue.toOption = some (node 4) ∧
      (node 9).kind = .unqualifiedAccessExpr ∧ accessName? (node 9) = some ("x",
        .property) ∧
      (node 3).declarationName? = some "x" ∧
        node 5 ∈ node 9 :: (node 9).ancestors ∧
      node 4 ∈ node 4 :: (node 4).ancestors := by decide +kernel
  have hothers : ∀ place ∈ scopesAround (node 9), node 2 ∈ place.1.ancestors →
      ∀ candidate ∈ (context.offered .property (node 9) place).toList,
      candidate.name ≠ "x" := by
    decide +kernel
  rw [toOption_eq_some] at hparameter hbody hvalue
  obtain ⟨hinner, houter⟩ := context.let_scoping hkind hparameter
  exact ⟨hinner rfl (node 9) (node 5) "x" haccess hname hbody hinBody hbinds
    hothers, houter (node 4) (node 4) (.inl hvalue) hinValue none []⟩

end PklAnalysis

import PklAnalysis.Lookup.Scope
import PklAnalysis.Proofs.Inference.Exhaustion

/-!
What a name may stand for when there is less depth. The scopes around a node
fall into layers. In some layers there is the same at any depth; from others
something may be missing, and a name that is no longer found there is found
further out, where it stands for something else. This cannot be if the name is
found first in a layer of the former kind, or in one layer only.
-/

namespace PklAnalysis.Lookup

open Inference Ty

structure Layer where
  fixed : Bool
  candidates : List Candidate

variable (context : Context) (receivers : Receivers)

def scopeLayers (space : Space) (bindings : Ty.Bindings) (body? : Option Node)
    (scope inner : Node) : List Layer :=
  match scope.kind with
  | .objectBody =>
      { fixed := true,
        candidates :=
          Candidates.ofNodes bindings (bodyDeclarations space scope) } ::
        if body? = some scope then
          [{ fixed := false
             candidates :=
               (thisMembers context receivers space bindings scope).toList }]
        else []
  | .classDecl =>
      let members :=
        classMembers context receivers.budget space
          ((Ty.ofClass scope).substitute bindings)
      [{ fixed := true, candidates := Candidates.toList (members.take 1) },
       { fixed := false, candidates := Candidates.toList (members.drop 1) }]
  | .root =>
      [{ fixed := true
         candidates :=
           (chainDeclarations space true (moduleChain context scope)).toList },
       { fixed := false
         candidates := (classMembers context receivers.budget space
           (context.base.type "Module")).toList },
       { fixed := true
         candidates :=
           if space = .property then Candidates.ofNodes [] scope.imports
             else [] },
       { fixed := true
         candidates :=
           Candidates.ofNodes []
             (moduleDeclarations space true context.base.root) }]
  | _ =>
      [{ fixed := true
         candidates :=
           if space = .property then
             Candidates.ofNodes bindings (boundNames scope inner) else [] }]

def layers (space : Space) (bindings : Ty.Bindings) (node : Node) :
    List Layer :=
  let body? := (node :: node.ancestors).find? isObjectBody
  (scopesAround node).flatMap fun (scope, inner) =>
    scopeLayers context receivers space bindings body? scope inner

variable {context receivers} {space : Space} {bindings : Ty.Bindings}
  {node : Node}

theorem toList_scopeMembers (body? : Option Node) (scope inner : Node) :
    (scopeMembers context receivers space bindings body? scope inner).toList =
      (scopeLayers context receivers space bindings body? scope inner).flatMap
        Layer.candidates := by
  rw [scopeMembers.eq_def]
  split
  case h_1 hkind =>
      rw [scopeLayers.eq_def]
      simp only [hkind]
      split
      case isTrue => rfl
      case isFalse => rfl
  case h_2 hkind =>
      rw [scopeLayers.eq_def]
      simp only [hkind]
      rw [List.flatMap_cons, List.flatMap_singleton, ← Candidates.toList_append,
        List.take_append_drop]
  case h_3 hkind =>
      rw [scopeLayers.eq_def]
      simp only [hkind, rootScope, moduleMembers, Candidates.toList_append,
        List.append_assoc]
      rfl
  case h_4 =>
      rw [scopeLayers.eq_def]
      simp only
      split
      case isTrue => rfl
      case isFalse => rfl

theorem toList_unqualified (hcancelled : context.cancelled = false) :
    (unqualified context receivers space bindings node).toList =
      (layers context receivers space bindings node).flatMap
        Layer.candidates := by
  rw [unqualified, hcancelled, if_neg Bool.false_ne_true, layers,
    Candidates.toList, List.flatMap_assoc, List.flatMap_assoc]
  exact List.flatMap_congr fun place _ => toList_scopeMembers _ place.1 place.2

theorem scopeMembers_atDepth (depth : Nat) (body? : Option Node)
    (scope inner : Node) :
    scopeMembers (context.atDepth depth) receivers space bindings body?
      scope inner =
      scopeMembers context receivers space bindings body? scope inner := by
  simp only [scopeMembers, thisMembers, rootScope, typeMembers_atDepth,
    classMembers_atDepth, moduleMembers_atDepth]
  rfl

theorem unqualified_atDepth (depth : Nat) :
    unqualified (context.atDepth depth) receivers space bindings node =
      unqualified context receivers space bindings node := by
  simp only [unqualified, scopeMembers_atDepth]
  rfl

theorem superMembers_atDepth (depth : Nat) :
    superMembers (context.atDepth depth) receivers space bindings node =
      superMembers context receivers space bindings node := by
  simp only [superMembers, thisMembers, typeMembers_atDepth,
    moduleMembers_atDepth, resolveType_atDepth]
  rfl

/-- What is looked for is found first in a fixed layer, or in one layer only. -/
def settled (sought : Sought) : List Layer → Bool
  | [] => true
  | layer :: rest =>
      if layer.candidates.any sought.hits then
        layer.fixed || !(rest.flatMap Layer.candidates).any sought.hits
      else
        settled sought rest

structure LayerBlurs (sought : Sought) (left right : Layer) : Prop where
  covers : Covers left.candidates right.candidates
  settles : Settles sought left.candidates right.candidates
  same : right.fixed = true →
    List.Forall₂ CandidateBlurs left.candidates right.candidates

variable {sought : Sought}

theorem layerBlurs_of_forall₂ {left right : Layer}
    (hsame : List.Forall₂ CandidateBlurs left.candidates right.candidates) :
    LayerBlurs sought left right where
  covers := covers_of_front (front_of_forall₂ hsame)
  settles := settles_of_front (front_of_forall₂ hsame) sought
  same := fun _ => hsame

theorem layerBlurs_of_front {left right : List Candidate}
    (hfront : Front CandidateBlurs left right) :
    LayerBlurs sought { fixed := false, candidates := left }
    { fixed := false, candidates := right } where
  covers := covers_of_front hfront
  settles := settles_of_front hfront sought
  same := fun hfixed => absurd hfixed Bool.false_ne_true

theorem covers_layers {left right : List Layer}
    (hlayers : List.Forall₂ (LayerBlurs sought) left right) :
    Covers (left.flatMap Layer.candidates)
      (right.flatMap Layer.candidates) := by
  induction hlayers with
  | nil => exact covers_nil _
  | cons hfirst _ ih => exact hfirst.covers.append ih

theorem any_hits_of_forall₂ {left right : List Candidate}
    (hsame : List.Forall₂ CandidateBlurs left right) :
    left.any sought.hits = right.any sought.hits := by
  induction hsame with
  | nil => rfl
  | cons hfirst _ ih => rw [List.any_cons, List.any_cons, hfirst.hits_eq, ih]

theorem settles_layers {left right : List Layer}
    (hlayers : List.Forall₂ (LayerBlurs sought) left right)
    (hsettled : settled sought right = true) :
    Settles sought (left.flatMap Layer.candidates)
      (right.flatMap Layer.candidates) := by
  induction hlayers with
  | nil => exact settles_nil _ _
  | @cons first second left right hfirst hrest ih =>
      intro candidate hfound
      rw [List.flatMap_cons, List.find?_append] at hfound
      rw [List.flatMap_cons, List.find?_append]
      cases hhere : first.candidates.find? sought.hits with
      | some here =>
          rw [hhere, Option.some_or] at hfound
          cases hfound
          obtain ⟨candidate', hfound', hblurs⟩ := hfirst.settles candidate hhere
          exact ⟨candidate', by rw [hfound', Option.some_or], hblurs⟩
      | none =>
          rw [hhere, Option.none_or] at hfound
          have hmiss : first.candidates.any sought.hits = false := by
            rw [List.any_eq_false]
            exact List.find?_eq_none.mp hhere
          rw [settled] at hsettled
          split at hsettled
          case isTrue hhits =>
              rw [Bool.or_eq_true, Bool.not_eq_true'] at hsettled
              -- the layer would be missed: it is fixed, or nothing further out
              -- could be found instead
              rcases hsettled with hfixed | hnone
              · rw [← any_hits_of_forall₂ (hfirst.same hfixed), hmiss] at hhits
                cases hhits
              · obtain ⟨candidate', hmem, hblurs⟩ :=
                  covers_layers hrest candidate
                    (List.mem_of_find?_eq_some hfound)
                refine absurd (hblurs.hits_eq sought ▸ List.find?_some hfound)
                  ?_
                exact List.any_eq_false.mp hnone candidate' hmem
          case isFalse hmiss' =>
              have hnone : second.candidates.find? sought.hits = none :=
                List.find?_eq_none.mpr
                  (List.any_eq_false.mp (Bool.eq_false_iff.mpr hmiss'))
              rw [hnone, Option.none_or]
              exact ih hsettled candidate hfound

/-- Less depth leads a search among what a scope offers no further astray than
by what is missing. -/
def sureScope (context : Context) (receivers : Receivers) (space : Space)
    (sought : Sought) (bindings : Ty.Bindings) (body? : Option Node)
    (scope : Node) : Bool :=
  match scope.kind with
  | .objectBody =>
      body? ≠ some scope ||
        sureMembers context receivers.budget space sought
          (receivers.thisType bindings scope)
  | .classDecl =>
      plainChain context receivers.budget
        ((Ty.ofClass scope).substitute bindings)
  | .root => plainChain context receivers.budget (context.base.type "Module")
  | _ => true

def sureName (context : Context) (receivers : Receivers) (space : Space)
    (sought : Sought) (bindings : Ty.Bindings) (node : Node) : Bool :=
  let body? := (node :: node.ancestors).find? isObjectBody
  (node :: node.ancestors).all (sureScope context receivers space sought
    bindings body?) &&
    settled sought (layers context receivers space bindings node)

def sureSuper (context : Context) (receivers : Receivers) (space : Space)
    (sought : Sought) (bindings : Ty.Bindings) (node : Node) : Bool :=
  match (node :: node.ancestors).find? isSuperScope with
  | none => true
  | some scope =>
      match scope.kind with
      | .objectBody =>
          sureMembers context receivers.budget space sought
            (receivers.thisType bindings scope)
      | .classDecl =>
          (superclass? context (resolveType context receivers.budget) bindings
            scope).all
            (sureMembers context receivers.budget space sought)
      | _ => plainChain context receivers.budget (context.base.type "Module")

theorem exists_substitute_ofClass (bindings : Ty.Bindings) (decl : Node) :
    ∃ args, (Ty.ofClass decl).substitute bindings = .classType decl args := by
  rw [substitute, Ty.ofClass]
  split
  case isTrue => exact ⟨_, rfl⟩
  case isFalse => exact ⟨_, replace_classType _ _ _⟩

theorem classChain_ne_nil (budget : Nat) (decl : Node) (args : List Ty) :
    classChain context budget (.classType decl args) ≠ [] := by
  rw [classChain, classLimit, Node.walk, if_neg (by simp)]
  exact List.cons_ne_nil _ _

section

variable {less more : Receivers} (hbudget : less.budget ≤ more.budget)
  {left right : Ty.Bindings} (hblur : left.Blur right)
include hbudget hblur

theorem blurs_classLayers (space : Space) (scope : Node)
    (hplain :
    plainChain context more.budget ((Ty.ofClass scope).substitute right) =
      true) :
    let members :=
      classMembers context less.budget space
        ((Ty.ofClass scope).substitute left)
    let members' :=
      classMembers context more.budget space
        ((Ty.ofClass scope).substitute right)
    List.Forall₂ CandidateBlurs (Candidates.toList (members.take 1))
        (Candidates.toList (members'.take 1)) ∧
      Front CandidateBlurs (Candidates.toList (members.drop 1))
        (Candidates.toList (members'.drop 1)) := by
  have hblurs := hblur.ofClass scope
  obtain ⟨args, hleft⟩ := exists_substitute_ofClass left scope
  obtain ⟨args', hright⟩ := exists_substitute_ofClass right scope
  rw [hleft, hright] at hblurs
  rw [hright] at hplain
  have hfront := front_classChain hbudget hblurs rfl hplain
  rw [hleft, hright, classMembers, classMembers]
  generalize hchain : classChain context less.budget (.classType scope args) =
    places at hfront
  generalize classChain context more.budget (.classType scope args') =
    places' at hfront
  cases hfront with
  | nil => exact absurd hchain (classChain_ne_nil _ _ _)
  | cons hfirst hrest =>
      exact ⟨blurs_placeMembers space hfirst, front_placeMembers space hrest⟩

theorem blurs_scopeLayers {body? : Option Node} {scope : Node} (inner : Node)
    (hthis : body? = some scope →
      Blurs (less.thisType left scope) (more.thisType right scope))
    (hsure : sureScope context more space sought right body? scope = true) :
    List.Forall₂ (LayerBlurs sought)
      (scopeLayers context less space left body? scope inner)
      (scopeLayers context more space right body? scope inner) := by
  rw [sureScope.eq_def] at hsure
  rw [scopeLayers.eq_def, scopeLayers.eq_def]
  split at hsure
  case h_1 hkind =>
      refine .cons (layerBlurs_of_forall₂ (blurs_ofNodes hblur _)) ?_
      split
      case isTrue hbody =>
          have hmembers :
              sureMembers context more.budget space sought (more.thisType right
                scope) =
              true := by simpa [hbody] using hsure
          refine .cons ⟨covers_typeMembers hbudget (hthis hbody) hmembers,
            settles_typeMembers hbudget (hthis hbody) hmembers,
              fun hfixed => ?_⟩ .nil
          exact absurd hfixed Bool.false_ne_true
      case isFalse => exact .nil
  case h_2 hkind =>
      obtain ⟨hown, hinherited⟩ :=
        blurs_classLayers hbudget hblur space scope hsure
      exact .cons (layerBlurs_of_forall₂ hown)
        (.cons (layerBlurs_of_front hinherited) .nil)
  case h_3 hkind =>
      have hmodule :=
        front_classMembers hbudget space (blurs_type context.base "Module")
        (isUnion_generic _ _ _) hsure
      refine .cons (layerBlurs_of_forall₂ (blurs_chainDeclarations _ _ _)) ?_
      refine .cons (layerBlurs_of_front hmodule)
        (.cons (layerBlurs_of_forall₂ ?_) ?_)
      · split
        case isTrue => exact blurs_ofNodes .nil _
        case isFalse => exact .nil
      · exact .cons (layerBlurs_of_forall₂ (blurs_ofNodes .nil _)) .nil
  case h_4 =>
      refine .cons (layerBlurs_of_forall₂ ?_) .nil
      split
      case isTrue => exact blurs_ofNodes hblur _
      case isFalse => exact .nil

theorem settles_unqualified {node : Node}
    (hthis : ∀ body, (node :: node.ancestors).find? isObjectBody = some body →
      Blurs (less.thisType left body) (more.thisType right body))
    (hsure : sureName context more space sought right node = true) :
    Settles sought (unqualified context less space left node).toList
      (unqualified context more space right node).toList := by
  cases hcancelled : context.cancelled with
  | true =>
      rw [unqualified, if_pos hcancelled]
      exact settles_nil _ _
  | false =>
      rw [toList_unqualified hcancelled, toList_unqualified hcancelled]
      rw [sureName, Bool.and_eq_true] at hsure
      refine settles_layers ?_ hsure.2
      have hsame :
          List.Forall₂
            (fun place place' => place = place' ∧
              place.1 ∈ node :: node.ancestors)
          (scopesAround node) (scopesAround node) :=
        List.forall₂_same.mpr fun place hplace =>
          ⟨rfl, (List.of_mem_zip hplace).1⟩
      refine List.rel_flatMap hsame ?_
      rintro ⟨scope, inner⟩ _ ⟨rfl, hscope⟩
      exact blurs_scopeLayers hbudget hblur inner (hthis scope)
        (List.all_eq_true.mp hsure.1 scope hscope)

theorem settles_superMembers {node : Node}
    (hthis : ∀ scope, (node :: node.ancestors).find? isSuperScope = some scope →
      scope.kind = .objectBody →
        Blurs (less.thisType left scope) (more.thisType right scope))
    (hsure : sureSuper context more space sought right node = true) :
    Settles sought (superMembers context less space left node).toList
      (superMembers context more space right node).toList := by
  rw [sureSuper.eq_def] at hsure
  cases hfound : (node :: node.ancestors).find? isSuperScope with
  | none =>
      rw [superMembers, hfound]
      exact settles_nil _ _
  | some scope =>
      rw [hfound] at hsure
      dsimp only at hsure
      split at hsure
      case h_1 hkind =>
          simp only [superMembers, hfound, hkind]
          exact settles_typeMembers hbudget (hthis scope hfound hkind) hsure
      case h_2 hkind =>
          simp only [superMembers, hfound, hkind]
          have hrel := blurs_superclass? context hbudget hblur scope
          generalize superclass? context (resolveType context
            less.budget) left scope = parent at hrel
          generalize superclass? context (resolveType context
            more.budget) right scope = parent'
            at hrel hsure
          cases hrel with
          | none => exact settles_nil _ _
          | some hblurs => exact settles_typeMembers hbudget hblurs hsure
      case h_3 =>
          simp only [superMembers, hfound]
          split
          case h_1 =>
              exact settles_of_front (front_moduleMembers hbudget space hsure)
                sought
          case h_2 => exact settles_nil _ _

end

end PklAnalysis.Lookup

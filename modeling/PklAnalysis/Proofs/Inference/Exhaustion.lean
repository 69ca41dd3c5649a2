import PklAnalysis.Inference.Engine
import PklAnalysis.Proofs.Inference.Superclass
import PklAnalysis.Proofs.Lookup.Candidate
import PklAnalysis.Proofs.Ty.Blur

/-!
What less depth does to written types, to superclasses and to members. A written
type becomes unknown in parts. The walk along superclasses ends earlier, and so
there are fewer members; those that are left come in the same order.
-/

namespace PklAnalysis

open Ty

def Context.atDepth (context : Context) (depth : Nat) : Context :=
  { context with maxDepth := depth }

namespace Inference

open Lookup

variable (context : Context)

/-! Depth is all that tells the contexts apart. -/

theorem typeStep_atDepth (depth : Nat) :
    typeStep (context.atDepth depth) = typeStep context := rfl

theorem resolveType_atDepth (depth budget : Nat) :
    resolveType (context.atDepth depth) budget =
      resolveType context budget := by
  induction budget with
  | zero => rfl
  | succ budget ih => rw [resolveType, resolveType, ih, typeStep_atDepth]

theorem classChain_atDepth (depth budget : Nat) (ty : Ty) :
    classChain (context.atDepth depth) budget ty =
      classChain context budget ty := by
  rw [classChain.eq_def, classChain.eq_def, resolveType_atDepth]
  rfl

theorem classMembers_atDepth (depth budget : Nat) (space : Space) (ty : Ty) :
    classMembers (context.atDepth depth) budget space ty =
      classMembers context budget space ty := by
  rw [classMembers, classMembers, classChain_atDepth]

theorem moduleMembers_atDepth (depth budget : Nat) (space : Space)
    (withLocal : Bool) (root : Node) :
    moduleMembers (context.atDepth depth) budget space withLocal root =
      moduleMembers context budget space withLocal root := by
  rw [moduleMembers, moduleMembers, classMembers_atDepth]
  rfl

mutual

theorem typeMembers_atDepth (depth budget : Nat) (space : Space) : (ty : Ty) →
    typeMembers (context.atDepth depth) budget space ty =
      typeMembers context budget space ty
  | .classType _ _ | .literal _ | .function _ _ =>
      classMembers_atDepth context depth budget space _
  | .moduleType root =>
      moduleMembers_atDepth context depth budget space false root
  | .union members => unionMembers_atDepth depth budget space members
  | .unknown | .nothing | .variable _ => rfl

theorem unionMembers_atDepth (depth budget : Nat) (space : Space) :
    (types : List Ty) →
    unionMembers (context.atDepth depth) budget space types =
      unionMembers context budget space types
  | [] => rfl
  | ty :: rest => by
      rw [unionMembers, unionMembers, typeMembers_atDepth depth budget space ty,
        unionMembers_atDepth depth budget space rest]
      rfl

end

variable {context}

section

variable {R : Ty → Ty → Prop} (hcongruent : Congruent R)
include hcongruent

section

variable {resolve resolve' : Ty.Bindings → Node → Ty}
  (hresolve : ∀ {left right : Ty.Bindings},
  left.Rel R right → ∀ node, R (resolve left node) (resolve' right node))
  {left right : Ty.Bindings} (hbindings : left.Rel R right)
include hresolve hbindings

omit hcongruent in
theorem forall₂_map_resolve (nodes : List Node) :
    List.Forall₂ R (nodes.map (resolve left)) (nodes.map (resolve' right)) :=
  forall₂_map fun node _ => hresolve hbindings node

theorem rel_declared (node : Node) :
    R (typeStep.declared context resolve left node)
      (typeStep.declared context resolve' right node) := by
  have hargs := forall₂_map_resolve hresolve hbindings node.typeArguments
  rw [typeStep.declared, typeStep.declared]
  cases node.typeName.toOption.bind (typeName? context) with
  | none => exact hcongruent.unknown
  | some target =>
      dsimp only
      split
      case h_1 => exact hcongruent.classType target hargs
      case h_2 =>
          split
          case h_1 => exact hresolve (.ofArgs _ hargs) _
          case h_2 => exact hcongruent.unknown
      case h_3 => exact hcongruent.getD hbindings target
      case h_4 => exact hcongruent.moduleType target
      case h_5 => exact hcongruent.unknown

/-- One level keeps every relation that goes through all ways of forming
types. -/
theorem rel_typeStep (node : Node) :
    R (typeStep context resolve left node)
      (typeStep context resolve' right node) := by
  rw [typeStep, typeStep]
  split
  case h_1 => exact hcongruent.nothing
  case h_2 =>
      split
      case h_1 root _ => exact hcongruent.moduleType root
      case h_2 => exact hcongruent.unknown
  case h_3 =>
      split
      case h_1 text _ => exact hcongruent.literal text
      case h_2 => exact hcongruent.type _ _
  case h_4 =>
      split
      case h_1 inner _ => exact hcongruent.nullable (hresolve hbindings inner) _
      case h_2 => exact hcongruent.unknown
  case h_5 =>
      split
      case h_1 inner _ => exact hresolve hbindings inner
      case h_2 => exact hcongruent.unknown
  case h_6 =>
      exact hcongruent.unionOf
        (forall₂_map_resolve hresolve hbindings node.alternatives)
  case h_7 =>
      refine hcongruent.function
        (forall₂_map_resolve hresolve hbindings node.parameterTypes) ?_
      split
      case h_1 result _ => exact hresolve hbindings result
      case h_2 => exact hcongruent.unknown
  case h_8 => exact rel_declared hcongruent hresolve hbindings node
  case h_9 => exact hcongruent.unknown

end

theorem rel_resolveType {less more : Nat} (hle : less ≤ more)
    {left right : Ty.Bindings} (hbindings : left.Rel R right) (node : Node) :
    R (resolveType context less left node)
      (resolveType context more right node) := by
  induction less generalizing more left right node with
  | zero => exact hcongruent.unknown
  | succ less ih =>
      cases more with
      | zero => exact absurd hle (Nat.not_succ_le_zero less)
      | succ more =>
          exact rel_typeStep hcongruent
            (fun hbindings node => ih (Nat.le_of_succ_le_succ hle) hbindings
              node) hbindings node

end

/-- With less depth a written type is unknown in parts, and otherwise the
same. -/
theorem blurs_resolveType {less more : Nat} (hle : less ≤ more)
    {left right : Ty.Bindings} (hblur : left.Blur right) (node : Node) :
    Blurs (resolveType context less left node)
      (resolveType context more right node) :=
  rel_resolveType congruent_blurs hle hblur node

theorem formed_resolveType (context : Context) (budget : Nat)
    {bindings : Ty.Bindings} (hbindings : bindings.Formed) (node : Node) :
    (resolveType context budget bindings node).Formed :=
  (blurs_resolveType (Nat.le_refl budget) hbindings node).formed

/-- The elements of a list are related, in order, to the first ones of
another. -/
inductive Front {α β : Type} (R : α → β → Prop) : List α → List β → Prop
  | nil {right : List β} : Front R [] right
  | cons {first : α} {second : β} {left : List α} {right : List β}
      (hfirst : R first second)
      (hrest : Front R left right) : Front R (first :: left) (second :: right)

section

variable {α β : Type} {R : α → β → Prop}

theorem Front.append {first left : List α} {second right : List β}
    (hfirst : List.Forall₂ R first second) (hrest : Front R left right) :
    Front R (first ++ left) (second ++ right) := by
  induction hfirst with
  | nil => exact hrest
  | cons hhead _ ih => exact .cons hhead ih

theorem front_of_forall₂ {left : List α} {right : List β}
    (hall : List.Forall₂ R left right) :
    Front R left right := by
  induction hall with
  | nil => exact .nil
  | cons hfirst _ ih => exact .cons hfirst ih

end

def PlaceBlurs (left right : Node × List Ty) : Prop :=
  left.1 = right.1 ∧ List.Forall₂ Blurs left.2 right.2

/-- A class does not extend a union. A union may blur to a class, and the walk
would go on. -/
def extendsPlainly (context : Context) (budget : Nat) (place : Node × List Ty) :
    Bool :=
  (superclass? context (resolveType context budget)
    (.ofArgs place.1.typeParameters place.2)
    place.1).all (!·.isUnion)

def plainChain (context : Context) (budget : Nat) (ty : Ty) : Bool :=
  (classChain context budget ty).all (extendsPlainly context budget)

section

variable {less more : Nat} (hle : less ≤ more)
include hle

variable (context) in
theorem blurs_superclass? {left right : Ty.Bindings} (hblur : left.Blur right)
    (decl : Node) :
    Option.Rel Blurs (superclass? context (resolveType context less) left decl)
      (superclass? context (resolveType context more) right decl) := by
  rw [superclass?, superclass?]
  cases decl.supertype? with
  | some supertype => exact .some (blurs_resolveType hle hblur supertype)
  | none =>
      dsimp only
      split
      case isTrue => exact .none
      case isFalse => exact .some (blurs_type _ _)

theorem exists_parentClass? {place place' next : Node × List Ty}
    (hplace : PlaceBlurs place place')
    (hplain : extendsPlainly context more place' = true)
    (hnext : parentClass? context (resolveType context less) place =
      some next) :
    ∃ next',
      parentClass? context (resolveType context more) place' = some next' ∧
      PlaceBlurs next next' := by
  obtain ⟨decl, args⟩ := place
  obtain ⟨decl', args'⟩ := place'
  obtain ⟨rfl, hargs⟩ := hplace
  have hrel :=
    blurs_superclass? context hle (.ofArgs decl.typeParameters hargs) decl
  rw [extendsPlainly] at hplain
  rw [parentClass?] at hnext ⊢
  dsimp only at hrel hplain hnext ⊢
  generalize superclass? context (resolveType context less) _ decl =
    left at hrel hnext
  generalize superclass? context (resolveType context more) _ decl =
    right at hrel hplain
  cases hrel with
  | none => cases hnext
  | @some ty ty' hblurs =>
      cases ty with
      | classType parent parentArgs =>
          cases hnext
          have halike := hblurs.alike (by simpa using hplain) rfl
          cases halike with
          | classType _ pairs hpairs => exact ⟨_, rfl, rfl, forall₂_map hpairs⟩
      | _ => cases hnext

theorem front_unroll
    {stuck : List Node × Node × List Ty → List (Node × List Ty)}
    (hstuck : ∀ call, stuck call = []) (fuel : Nat)
    {place place' : Node × List Ty} (hplace : PlaceBlurs place place')
    (seen : List Node)
    (hplain :
    (unroll
      (Node.walkStep Prod.fst (parentClass? context (resolveType context more)))
        stuck fuel (seen, place')).all (extendsPlainly context more) = true) :
    Front PlaceBlurs
      (unroll
        (Node.walkStep Prod.fst
          (parentClass? context (resolveType context less))) stuck fuel
        (seen, place))
      (unroll
        (Node.walkStep Prod.fst
          (parentClass? context (resolveType context more))) stuck fuel
        (seen, place')) := by
  -- both walks have seen the same nodes, so they stop at a node that comes
  -- again together
  induction fuel generalizing place place' seen with
  | zero =>
      rw [unroll, unroll, hstuck]
      exact .nil
  | succ fuel ih =>
      rw [unroll, Node.walkStep] at hplain ⊢
      rw [unroll, Node.walkStep, hplace.1]
      split at hplain
      case isTrue hseen =>
          rw [if_pos hseen]
          exact .nil
      case isFalse hfresh =>
          rw [if_neg hfresh, if_neg hfresh]
          rw [List.all_cons, Bool.and_eq_true] at hplain
          refine .cons hplace ?_
          cases hnext : parentClass? context (resolveType context less)
            place with
          | none => exact .nil
          | some next =>
              obtain ⟨next', hnext', hafter⟩ :=
                exists_parentClass? hle hplace hplain.1 hnext
              rw [hnext'] at hplain
              rw [hnext']
              exact ih hafter _ hplain.2

/-- With less depth the walk along superclasses ends earlier, and otherwise goes
the same way. -/
theorem front_classChain {left right : Ty} (hblurs : Blurs left right)
    (hunion : right.isUnion = false)
    (hplain : plainChain context more right = true) :
    Front PlaceBlurs (classChain context less left)
      (classChain context more right) := by
  cases left with
  | classType decl args =>
      cases hblurs.alike hunion rfl with
      | classType _ pairs hpairs =>
          have hplace : PlaceBlurs (decl, pairs.map Prod.fst) (decl,
              pairs.map Prod.snd) :=
            ⟨rfl, forall₂_map hpairs⟩
          -- the limits differ, since they depend on the arguments; both walks
          -- end before either
          obtain ⟨fuel, hfuel, hfuel'⟩ : ∃ fuel,
              classLimit context (.classType decl (pairs.map Prod.fst)) ≤ fuel ∧
                classLimit context (.classType decl (pairs.map Prod.snd)) ≤
                  fuel :=
            ⟨_, Nat.le_max_left _ _, Nat.le_max_right _ _⟩
          have hless :=
            endsWithin_classChain context less decl _ fuel hfuel fun _ => []
          have hmore :=
            endsWithin_classChain context more decl _ fuel hfuel' fun _ => []
          rw [plainChain, ← hmore] at hplain
          rw [← hless, ← hmore]
          exact front_unroll hle (fun _ => rfl) _ hplace [] hplain
  | _ => exact .nil

end

/-- The same declaration, where what type parameters stand for blurs. -/
structure CandidateBlurs (left right : Candidate) : Prop where
  name_eq : left.name = right.name
  node_eq : left.node = right.node
  bindings : left.bindings.Blur right.bindings

theorem blurs_ofNodes {left right : Ty.Bindings} (hblur : left.Blur right)
    (nodes : List Node) :
    List.Forall₂ CandidateBlurs (Candidates.ofNodes left nodes)
      (Candidates.ofNodes right nodes) := by
  induction nodes with
  | nil => exact .nil
  | cons node rest ih =>
      rw [Candidates.ofNodes, Candidates.ofNodes, List.filterMap_cons,
        List.filterMap_cons]
      cases node.declarationName? with
      | none => exact ih
      | some name => exact .cons ⟨rfl, rfl, hblur⟩ ih

def placeMembers (space : Space) (places : List (Node × List Ty)) :
    Candidates :=
  places.map fun (decl, args) _ =>
    Candidates.ofNodes (.ofArgs decl.typeParameters args)
      (space.classMembers decl)

theorem blurs_placeMembers (space : Space) {left right : Node × List Ty}
    (hplace : PlaceBlurs left right) :
    List.Forall₂ CandidateBlurs (placeMembers space [left]).toList
      (placeMembers space [right]).toList := by
  obtain ⟨decl, args⟩ := left
  obtain ⟨decl', args'⟩ := right
  obtain ⟨rfl, hargs⟩ := hplace
  exact List.rel_append (blurs_ofNodes (.ofArgs _ hargs) _) .nil

theorem front_placeMembers (space : Space) {left right : List (Node × List Ty)}
    (hplaces : Front PlaceBlurs left right) :
    Front CandidateBlurs (placeMembers space left).toList
      (placeMembers space right).toList := by
  induction hplaces with
  | nil => exact .nil
  | @cons first second left right hfirst _ ih =>
      have hall := Front.append (blurs_placeMembers space hfirst) ih
      rwa [← Candidates.toList_append, ← Candidates.toList_append] at hall

theorem blurs_chainDeclarations (space : Space) (withLocal : Bool)
    (roots : List Node) :
    List.Forall₂ CandidateBlurs (chainDeclarations space withLocal roots).toList
      (chainDeclarations space withLocal roots).toList := by
  induction roots generalizing withLocal with
  | nil => exact .nil
  | cons root parents ih =>
      exact List.rel_append (blurs_ofNodes .nil _) (ih false)

abbrev Sought := String → Node → Bool

def Sought.hits (sought : Sought) (candidate : Candidate) : Bool :=
  sought candidate.name candidate.node

theorem CandidateBlurs.hits_eq {left right : Candidate}
    (hblurs : CandidateBlurs left right) (sought : Sought) :
    sought.hits left = sought.hits right := by
  rw [Sought.hits, Sought.hits, hblurs.name_eq, hblurs.node_eq]

def Covers (left right : List Candidate) : Prop :=
  ∀ candidate ∈ left, ∃ candidate' ∈ right, CandidateBlurs candidate candidate'

/-- A search that finds something finds the same in other candidates. -/
def Settles (sought : Sought) (left right : List Candidate) : Prop :=
  ∀ candidate, left.find? sought.hits = some candidate →
    ∃ candidate', right.find? sought.hits = some candidate' ∧
      CandidateBlurs candidate candidate'

theorem covers_nil (right : List Candidate) : Covers [] right :=
  fun _ hcandidate => absurd hcandidate List.not_mem_nil

theorem settles_nil (sought : Sought) (right : List Candidate) :
    Settles sought [] right :=
  fun _ hfound => nomatch hfound

theorem Covers.append {left left' right right' : List Candidate}
    (hfirst : Covers left right) (hsecond : Covers left' right') :
    Covers (left ++ left') (right ++ right') := by
  intro candidate hcandidate
  rcases List.mem_append.mp hcandidate with hleft | hleft
  · obtain ⟨candidate', hright, hblurs⟩ := hfirst candidate hleft
    exact ⟨candidate', List.mem_append_left _ hright, hblurs⟩
  · obtain ⟨candidate', hright, hblurs⟩ := hsecond candidate hleft
    exact ⟨candidate', List.mem_append_right _ hright, hblurs⟩

theorem covers_of_front {left right : List Candidate}
    (hfront : Front CandidateBlurs left right) :
    Covers left right := by
  induction hfront with
  | nil => exact covers_nil _
  | @cons first second left right hfirst _ ih =>
      refine List.forall_mem_cons.mpr ⟨⟨second, List.mem_cons_self, hfirst⟩,
        fun candidate hmem => ?_⟩
      obtain ⟨candidate', hmem', hblurs⟩ := ih candidate hmem
      exact ⟨candidate', List.mem_cons_of_mem _ hmem', hblurs⟩

theorem settles_of_front {left right : List Candidate}
    (hfront : Front CandidateBlurs left right) (sought : Sought) :
    Settles sought left right := by
  induction hfront with
  | nil => exact settles_nil _ _
  | @cons first second left right hfirst _ ih =>
      intro candidate hfound
      rw [List.find?_cons, hfirst.hits_eq] at hfound
      rw [List.find?_cons]
      split at hfound
      case h_1 =>
          cases hfound
          exact ⟨second, rfl, hfirst⟩
      case h_2 => exact ih candidate hfound

theorem settles_of_covers {left right : List Candidate} {sought : Sought}
    (hcovers : Covers left right)
    (hlone : (right.filter sought.hits).length ≤ 1) :
    Settles sought left right := by
  intro candidate hfound
  obtain ⟨candidate', hmem, hblurs⟩ :=
    hcovers candidate (List.mem_of_find?_eq_some hfound)
  have hhits : sought.hits candidate' = true := by
    rw [← hblurs.hits_eq]
    exact List.find?_some hfound
  have hkept := List.mem_filter.mpr ⟨hmem, hhits⟩
  refine ⟨candidate', ?_, hblurs⟩
  rw [← List.head?_filter]
  match hfilter : right.filter sought.hits, hkept, hlone with
  | [only], hkept, _ => rw [List.mem_singleton.mp hkept, List.head?_cons]
  | _ :: _ :: _, _, hlone => simp at hlone

theorem settles_flatMap {α : Type} {sought : Sought} {parts : List α}
    {f : α → List Candidate} {right : List Candidate}
    (hparts : ∀ part ∈ parts, Settles sought (f part) right) :
    Settles sought (parts.flatMap f) right := by
  intro candidate hfound
  obtain ⟨part, hpart, hfound⟩ :=
    List.exists_of_findSome?_eq_some (List.find?_flatMap ▸ hfound)
  exact hparts part hpart candidate hfound

/-- No class whose members a type has extends a union; the type is no union
itself. -/
def plainSubject (context : Context) (budget : Nat) : Ty → Bool
  | .moduleType _ => plainChain context budget (context.base.type "Module")
  | .literal _ => plainChain context budget (context.base.type "String")
  | .function params result =>
      plainChain context budget (.functionClass context.base params result)
  | ty => plainChain context budget ty

/-- Less depth does not lead a search in the members of a type astray: it goes
into one type only, or there is nothing else to be found. -/
def sureMembers (context : Context) (budget : Nat) (space : Space)
    (sought : Sought) (ty : Ty) : Bool :=
  let subjects := ty.subjects context.base
  !subjects.isEmpty && subjects.all (plainSubject context budget) &&
    (subjects.length = 1 ||
      ((typeMembers context budget space ty).toList.filter sought.hits).length ≤
        1)

theorem isUnion_generic (base : Base) (name : String) (args : List Ty) :
    (base.generic name args).isUnion = false := by
  rw [Base.generic]
  split <;> rfl

theorem isUnion_functionClass (base : Base) (params : List Ty) (result : Ty) :
    (Ty.functionClass base params result).isUnion = false := by
  rw [Ty.functionClass.eq_def]
  split <;> exact isUnion_generic _ _ _

theorem blurs_functionClass (base : Base) {left right : List Ty}
    {result result' : Ty} (hparams : List.Forall₂ Blurs left right)
    (hresult : Blurs result result') :
    Blurs (Ty.functionClass base left result)
      (Ty.functionClass base right result') := by
  match left, right, hparams with
  | [], [], .nil => exact blurs_generic _ _ (.cons hresult .nil)
  | [_], [_], .cons hfirst .nil =>
      exact blurs_generic _ _ (.cons hfirst (.cons hresult .nil))
  | [_, _], [_, _], .cons hfirst (.cons hsecond .nil) =>
      exact blurs_generic _ _
        (.cons hfirst (.cons hsecond (.cons hresult .nil)))
  | _ :: _ :: _ :: _, _ :: _ :: _ :: _, .cons _ (.cons _ (.cons _ _)) =>
      exact blurs_generic _ _ (.cons hresult .nil)

theorem toList_unionMembers (budget : Nat) (space : Space) (types : List Ty) :
    (unionMembers context budget space types).toList =
      (types.filter (!isNull context.base ·)).flatMap fun ty =>
        (typeMembers context budget space ty).toList := by
  induction types with
  | nil => rfl
  | cons ty rest ih =>
      rw [unionMembers, Candidates.toList_append, ih]
      cases hnull : ty.isNull context.base with
      | true =>
          rw [List.filter_cons_of_neg (by simp [hnull])]
          rfl
      | false =>
          rw [List.filter_cons_of_pos (by simp [hnull]), List.flatMap_cons]
          rfl

theorem toList_typeMembers (budget : Nat) (space : Space) (ty : Ty) :
    (typeMembers context budget space ty).toList =
      (ty.subjects context.base).flatMap fun subject =>
        (typeMembers context budget space subject).toList := by
  cases ty with
  | union members => exact toList_unionMembers budget space members
  | _ => exact (List.flatMap_singleton _ _).symm

section

variable {less more : Nat} (hle : less ≤ more) (space : Space)
include hle

theorem front_classMembers {left right : Ty} (hblurs : Blurs left right)
    (hunion : right.isUnion = false)
    (hplain : plainChain context more right = true) :
    Front CandidateBlurs (classMembers context less space left).toList
      (classMembers context more space right).toList :=
  front_placeMembers space (front_classChain hle hblurs hunion hplain)

theorem front_moduleMembers {withLocal : Bool} {root : Node}
    (hplain : plainChain context more (context.base.type "Module") = true) :
    Front CandidateBlurs
      (moduleMembers context less space withLocal root).toList
      (moduleMembers context more space withLocal root).toList := by
  rw [moduleMembers, moduleMembers, Candidates.toList_append,
    Candidates.toList_append]
  exact .append (blurs_chainDeclarations space withLocal _)
    (front_classMembers hle space (blurs_type _ _)
      (isUnion_generic _ _ _) hplain)

theorem front_typeMembers {left right : Ty} (halike : Alike left right)
    (hplain : plainSubject context more right = true) :
    Front CandidateBlurs (typeMembers context less space left).toList
      (typeMembers context more space right).toList := by
  match left, right, halike with
  | _, _, .classType decl pairs hargs =>
      exact front_classMembers hle space
        (Alike.classType decl pairs hargs).blurs rfl hplain
  | _, _, .function pairs hparams hresult =>
      exact front_classMembers hle space
        (blurs_functionClass _ (forall₂_map hparams) hresult)
        (isUnion_functionClass _ _ _) hplain
  | _, _, .moduleType root => exact front_moduleMembers hle space hplain
  | _, _, .literal text =>
      exact front_classMembers hle space (blurs_type _ _)
        (isUnion_generic _ _ _) hplain
  | _, _, .variable param => exact .nil

theorem exists_subject_front {left right subject : Ty}
    (hblurs : Blurs left right) (hsome : right.subjects context.base ≠ [])
    (hplain : ∀ subject ∈ right.subjects context.base,
      plainSubject context more subject = true)
    (hsubject : subject ∈ left.subjects context.base) :
    ∃ subject' ∈ right.subjects context.base,
      Front CandidateBlurs (typeMembers context less space subject).toList
        (typeMembers context more space subject').toList := by
  rcases hblurs.exists_subject hsome hsubject with
    rfl | rfl | ⟨subject', hsubject', halike⟩
  · obtain ⟨subject', hsubject'⟩ := List.exists_mem_of_ne_nil _ hsome
    exact ⟨subject', hsubject', .nil⟩
  · obtain ⟨subject', hsubject'⟩ := List.exists_mem_of_ne_nil _ hsome
    exact ⟨subject', hsubject', .nil⟩
  · exact ⟨subject', hsubject',
      front_typeMembers hle space halike (hplain subject' hsubject')⟩

variable {space} {sought : Sought} {left right : Ty} (hblurs : Blurs left right)
  (hsure : sureMembers context more space sought right = true)
include hblurs hsure

theorem covers_typeMembers : Covers (typeMembers context less space left).toList
    (typeMembers context more space right).toList := by
  simp only [sureMembers, Bool.and_eq_true, Bool.not_eq_true',
    List.isEmpty_eq_false_iff, List.all_eq_true] at hsure
  rw [toList_typeMembers, toList_typeMembers]
  intro candidate hcandidate
  obtain ⟨subject, hsubject, hcandidate⟩ := List.mem_flatMap.mp hcandidate
  obtain ⟨subject', hsubject', hfront⟩ :=
    exists_subject_front hle space hblurs hsure.1.1 hsure.1.2 hsubject
  obtain ⟨candidate', hcandidate', hsame⟩ :=
    covers_of_front hfront candidate hcandidate
  exact ⟨candidate', List.mem_flatMap.mpr ⟨subject', hsubject', hcandidate'⟩,
    hsame⟩

theorem settles_typeMembers :
    Settles sought (typeMembers context less space left).toList
      (typeMembers context more space right).toList := by
  have hcovers := covers_typeMembers hle hblurs hsure
  simp only [sureMembers, Bool.and_eq_true, Bool.not_eq_true',
    List.isEmpty_eq_false_iff, List.all_eq_true, Bool.or_eq_true,
    decide_eq_true_eq] at hsure
  rcases hsure.2 with hone | hlone
  · obtain ⟨only, honly⟩ := List.length_eq_one_iff.mp hone
    rw [toList_typeMembers, toList_typeMembers _ _ right, honly,
      List.flatMap_singleton]
    refine settles_flatMap fun subject hsubject => ?_
    obtain ⟨subject', hsubject', hfront⟩ :=
      exists_subject_front hle space hblurs hsure.1.1 hsure.1.2 hsubject
    rw [honly, List.mem_singleton] at hsubject'
    exact settles_of_front (hsubject' ▸ hfront) sought
  · exact settles_of_covers hcovers hlone

end

end Inference

end PklAnalysis

import PklAnalysis.Proofs.Inference.Hierarchy
import PklAnalysis.Proofs.Lookup.Locality

/-!
Two walks along superclasses. One looks for a class and for the arguments that
it has there, the other offers the members of each class that it comes to. They
watch for circles in different ways and resolve what a class extends with
different depth; with enough depth they follow one trail.
-/

namespace PklAnalysis

namespace Inference

open Lookup

section

variable (context : Context) (budget : Nat)

/-- Looks for a class along superclasses. A class is compared before it counts
as seen. -/
def seekArgs (target : Node) :
    Nat → List Node → Node × List Ty → Option (List Ty)
  | 0, _, _ => none
  | limit + 1, seen, place =>
      if place.1 = target then some place.2
      else if seen.contains place.1 then none
      else
        match parentClass? context (resolveType context budget) place with
        | some next => seekArgs target limit (place.1 :: seen) next
        | none => none

def offered (space : Space) (place : Node × List Ty) : List Candidate :=
  Candidates.ofNodes (.ofArgs place.1.typeParameters place.2)
    (space.classMembers place.1)

def offerMembers {Found : Type} (visitor : Visitor Found) (space : Space) :
    Nat → List Node → Found → Node × List Ty → Found × Bool
  | 0, _, found, _ => (found, true)
  | limit + 1, seen, found, place =>
      if seen.contains place.1 then (found, true)
      else
        match visitor.offerAll found (offered space place) with
        | (found, false) => (found, false)
        | (found, true) =>
            match parentClass? context (resolveType context budget) place with
            | some next =>
                offerMembers visitor space limit (place.1 :: seen) found next
            | none => (found, true)

variable {context budget}

theorem seekArgs_eq {target : Node} {limit : Nat} {seen : List Node}
    {place : Node × List Ty} (hunseen : target ∉ seen) :
    seekArgs context budget target limit seen place =
      ((Node.walk Prod.fst (parentClass? context (resolveType context budget))
        limit seen place).find?
        fun entry => entry.1 = target).map Prod.snd := by
  induction limit generalizing seen place with
  | zero => rfl
  | succ limit ih =>
      rw [seekArgs, Node.walk]
      by_cases hfound : place.1 = target
      case pos =>
          rw [if_pos hfound, if_neg (by simpa [hfound] using hunseen),
            List.find?_cons_of_pos (by simpa using hfound)]
          rfl
      case neg =>
          rw [if_neg hfound]
          split
          case isTrue => rfl
          case isFalse =>
              rw [List.find?_cons_of_neg (by simpa using hfound)]
              cases parentClass? context (resolveType context budget) place with
              | none => rfl
              | some next =>
                  have hunseen' : target ∉ place.1 :: seen :=
                    List.not_mem_cons_of_ne_of_not_mem (Ne.symm hfound) hunseen
                  exact ih hunseen'

theorem offerMembers_eq {Found : Type} (visitor : Visitor Found) (space : Space)
    (limit : Nat) (seen : List Node) (found : Found) (place : Node × List Ty) :
    offerMembers context budget visitor space limit seen found place =
      Candidates.walk visitor found
        ((Node.walk Prod.fst (parentClass? context (resolveType context budget))
          limit seen place).map
          fun place _ => offered space place) := by
  induction limit generalizing seen found place with
  | zero => rfl
  | succ limit ih =>
      rw [offerMembers, Node.walk]
      split
      case isTrue => rfl
      case isFalse =>
          rw [List.map_cons, Candidates.walk]
          rcases visitor.offerAll found (offered space place) with
            ⟨further, _ | _⟩
          · rfl
          · cases parentClass? context (resolveType context budget) place with
            | none => rfl
            | some next => exact ih (place.1 :: seen) further next

end

variable {context : Context} {budget : Nat} {decl target : Node}
  {args found : List Ty} {space : Space}

theorem argsFor?_eq_seekArgs :
    argsFor? context budget (.classType decl args) target =
      seekArgs context budget target (classLimit context (.classType decl args))
        [] (decl, args) :=
  (seekArgs_eq List.not_mem_nil).symm

theorem walk_classMembers {Found : Type} (visitor : Visitor Found)
    (start : Found) :
    Candidates.walk visitor start
      (classMembers context budget space (.classType decl args)) =
      offerMembers context budget visitor space
        (classLimit context (.classType decl args)) [] start
        (decl, args) :=
  (offerMembers_eq visitor space _ [] start (decl, args)).symm

theorem isTrail_classChain :
    Node.IsTrail Prod.fst (parentClass? context (resolveType context budget))
      (decl, args)
      (classChain context budget (.classType decl args)) :=
  (confined_parentClass? context budget _).isTrail_walk
    (within_reachedNodes context _)
    (length_reachedNodes context _)

/-- More depth than is needed to resolve what the classes on a walk extend does
not change the walk. -/
theorem classChain_of_settled {more : Nat} (hle : budget ≤ more)
    (hsettled : ∀ place ∈ classChain context budget (.classType decl args),
      Settled context budget place) :
    classChain context more (.classType decl args) =
      classChain context budget (.classType decl args) := by
  obtain ⟨extra, rfl⟩ := Nat.exists_eq_add_of_le hle
  exact Node.walk_congr fun place hplace => hsettled place hplace extra

theorem argsFor?_eq_some_iff :
    argsFor? context budget (.classType decl args) target = some found ↔
      (target, found) ∈ classChain context budget (.classType decl args) := by
  rw [argsFor?, Option.map_eq_some_iff]
  constructor
  · rintro ⟨⟨owner, args⟩, hfind, rfl⟩
    obtain rfl : owner = target := by simpa using List.find?_some hfind
    exact List.mem_of_find?_eq_some hfind
  · intro hmem
    cases hfind : (classChain context budget (.classType decl args)).find?
        fun entry => entry.1 = target with
    | none =>
        exact absurd (decide_eq_true rfl) (List.find?_eq_none.mp hfind _ hmem)
    | some entry =>
        have howner : entry.1 = target := by simpa using List.find?_some hfind
        have hsame : entry = (target, found) :=
          List.inj_on_of_nodup_map isTrail_classChain.nodup
          (List.mem_of_find?_eq_some hfind) hmem howner
        exact ⟨entry, rfl, by rw [hsame]⟩

theorem eq_of_mem_classMembers {member other : Node} {space' : Space}
    (hmember : member ∈ space.classMembers decl)
    (hother : member ∈ space'.classMembers other) :
    decl = other := by
  obtain ⟨body, hbody, hchild⟩ := mem_children_of_mem_classMembers hmember
  obtain ⟨body', hbody', hchild'⟩ := mem_children_of_mem_classMembers hother
  obtain rfl : body = body' := Option.some.inj
    ((Node.parent?_of_mem_children hchild).symm.trans
      (Node.parent?_of_mem_children hchild'))
  exact Option.some.inj
    ((Node.parent?_of_mem_children (List.mem_of_find?_eq_some hbody)).symm.trans
    (Node.parent?_of_mem_children (List.mem_of_find?_eq_some hbody')))

theorem mem_classMembers_iff {candidate : Candidate}
    (hmember : candidate.node ∈ space.classMembers target)
    (hname : candidate.node.declarationName? = some candidate.name) :
    candidate ∈ (classMembers context budget space
      (.classType decl args)).toList ↔
      ∃ found,
        argsFor? context budget (.classType decl args) target = some found ∧
        candidate.bindings = .ofArgs target.typeParameters found := by
  rw [mem_toList_classMembers]
  constructor
  · rintro ⟨⟨owner, found⟩, hplace, hcandidate⟩
    obtain ⟨hnode, -, hbindings⟩ := Candidates.mem_ofNodes.mp hcandidate
    obtain rfl : owner = target := eq_of_mem_classMembers hnode hmember
    exact ⟨found, argsFor?_eq_some_iff.mpr hplace, hbindings⟩
  · rintro ⟨found, hfound, hbindings⟩
    have hplace := argsFor?_eq_some_iff.mp hfound
    exact ⟨_, hplace, Candidates.mem_ofNodes.mpr ⟨hmember, hname, hbindings⟩⟩

end Inference

open Inference Lookup

/-- Where some depth is enough to resolve what the classes extend, looking for a
class and offering members follow one trail, whatever depth each of them has
beyond that: the type itself, then what each class extends with the arguments
put in, no class twice, up to a class that extends no class or one that has come
before. So a class is found exactly if its members are offered, and they are
offered with the arguments that are found. -/
theorem Context.superclass_walks_agree {context : Context} {needed : Nat}
    {decl : Node} {args : List Ty}
    (hsettled : ∀ place ∈ classChain context needed (.classType decl args),
      Settled context needed place)
    {seeking offering : Nat} (hseeking : needed ≤ seeking)
    (hoffering : needed ≤ offering) :
    let ty := Ty.classType decl args
    ∃ places : List (Node × List Ty),
      (∀ more, needed ≤ more → Node.IsTrail Prod.fst
        (parentClass? context (Inference.resolveType context more)) (decl,
          args) places) ∧
      (∀ target found, argsFor? context seeking ty target = some found ↔
        (target, found) ∈ places) ∧
      (∀ target, argsFor? context seeking ty target =
        seekArgs context seeking target (classLimit context ty) [] (decl,
          args)) ∧
      ∀ space : Space,
        (classMembers context offering space ty).map (fun group => group ()) =
          places.map (offered space) ∧
        (∀ (Found : Type) (visitor : Visitor Found) (start : Found),
          Candidates.walk visitor start (classMembers context offering
            space ty) =
            offerMembers context offering visitor space (classLimit context ty)
              [] start
              (decl, args)) ∧
        ∀ target, ∀ candidate : Candidate,
          candidate.node ∈ space.classMembers target →
          candidate.node.declarationName? = some candidate.name →
            (candidate ∈ (classMembers context offering space ty).toList ↔
              ∃ found, argsFor? context seeking ty target = some found ∧
                candidate.bindings = .ofArgs target.typeParameters found) := by
  intro ty
  have hchain : ∀ more,
      needed ≤ more →
      classChain context more ty = classChain context needed ty :=
    fun more hle => classChain_of_settled hle hsettled
  have hargs : ∀ target,
      argsFor? context seeking ty target =
        argsFor? context offering ty target := by
    intro target
    rw [argsFor?, argsFor?, hchain seeking hseeking, hchain offering hoffering]
  refine ⟨classChain context needed ty, fun more hle => ?_,
    fun target found => ?_,
    fun target => argsFor?_eq_seekArgs,
    fun space => ⟨?_, fun Found visitor start =>
      walk_classMembers visitor start,
        fun target candidate hmember hname => ?_⟩⟩
  · rw [← hchain more hle]
    exact isTrail_classChain
  · rw [argsFor?_eq_some_iff, hchain seeking hseeking]
  · rw [classMembers, hchain offering hoffering, List.map_map]
    rfl
  · rw [mem_classMembers_iff hmember hname]
    simp only [hargs]
    rfl

def circleOfClasses : Document :=
  .ofTokens "file:///circle.pkl"
    "class A<T> extends B<T>\nclass B<T> extends A<B<T>>\x7bp:T\x7d"
    [⟨.classKw, "class", 0⟩, ⟨.whitespace, " ", 5⟩, ⟨.identifier, "A", 6⟩,
     ⟨.less, "<", 7⟩, ⟨.identifier, "T", 8⟩, ⟨.greater, ">", 9⟩,
     ⟨.whitespace, " ", 10⟩, ⟨.extendsKw, "extends", 11⟩,
     ⟨.whitespace, " ", 18⟩, ⟨.identifier, "B", 19⟩, ⟨.less, "<", 20⟩,
     ⟨.identifier, "T", 21⟩, ⟨.greater, ">", 22⟩, ⟨.whitespace, "\n", 23⟩,
     ⟨.classKw, "class", 24⟩, ⟨.whitespace, " ", 29⟩, ⟨.identifier, "B", 30⟩,
     ⟨.less, "<", 31⟩, ⟨.identifier, "T", 32⟩, ⟨.greater, ">", 33⟩,
     ⟨.whitespace, " ", 34⟩, ⟨.extendsKw, "extends", 35⟩,
     ⟨.whitespace, " ", 42⟩, ⟨.identifier, "A", 43⟩, ⟨.less, "<", 44⟩,
     ⟨.identifier, "B", 45⟩, ⟨.less, "<", 46⟩, ⟨.identifier, "T", 47⟩,
     ⟨.greater, ">", 48⟩, ⟨.greater, ">", 49⟩, ⟨.leftBrace, "\x7b", 50⟩,
     ⟨.identifier, "p", 51⟩, ⟨.colon, ":", 52⟩, ⟨.identifier, "T", 53⟩,
     ⟨.rightBrace, "\x7d", 54⟩]
    (Token.ok_of_toOption (by decide +kernel))

/-- The walk from `A<"s">` comes to `B<"s">` and ends there, since `B` extends
`A` again; so the property of `B` has the type parameter of `B` bound to
`"s"`. -/
theorem Context.superclass_walks_agree_circle :
    let context := (Context.ofBase .plain).withDocument circleOfClasses
    let ty := Ty.classType ⟨circleOfClasses, 1⟩ [.literal "s"]
    argsFor? context 30 ty ⟨circleOfClasses, 2⟩ = some [.literal "s"] ∧
      ⟨"p", ⟨circleOfClasses, 23⟩, [(⟨circleOfClasses, 14⟩, .literal "s")]⟩ ∈
        (classMembers context 32 .property ty).toList := by
  intro context ty
  let node (index : Nat) : Node := ⟨circleOfClasses, index⟩
  obtain ⟨hclass, hparam, htype, hlower, hupper, hlowerArgs, hupperArgs,
      hinnerArgs, hparams⟩ :
      (∀ index ∈ [1, 2], (node index).kind = .classDecl) ∧
      (∀ index ∈ [5, 14], (node index).kind = .typeParameter) ∧
      (∀ index ∈ [6, 9, 15, 18, 21], (node index).kind = .declaredType) ∧
      (node 1).supertype? = some (node 6) ∧
      (node 2).supertype? = some (node 15) ∧
      (node 6).typeArguments = [node 9] ∧ (node 15).typeArguments = [node 18] ∧
      (node 18).typeArguments = [node 21] ∧
        (node 2).typeParameters = [node 14] := by decide +kernel
  have hname : ∀ named ∈ [(6, 2), (9, 5), (15, 1), (18, 2), (21, 14)],
      (node named.1).typeName.toOption.bind (typeName? context) =
        some (node named.2) := by
    decide +kernel
  have hsettledLower : Settled context 3 (node 1, [.literal "s"]) := by
    refine settled_of_resolved (node 6) hlower
      (resolved_of_class (node 2) (htype 6 (by simp)) (hname (6, 2) (by simp))
        (hclass 2 (by simp)) ?_)
    rw [hlowerArgs, List.forall_mem_singleton]
    exact resolved_of_variable (node 5) (htype 9 (by simp))
      (hname (9, 5) (by simp))
      (hparam 5 (by simp))
  have hsettledUpper : Settled context 3 (node 2, [.literal "s"]) := by
    refine settled_of_resolved (node 15) hupper
      (resolved_of_class (node 1) (htype 15 (by simp)) (hname (15, 1) (by simp))
        (hclass 1 (by simp)) ?_)
    rw [hupperArgs, List.forall_mem_singleton]
    refine resolved_of_class (node 2) (htype 18 (by simp))
      (hname (18, 2) (by simp))
      (hclass 2 (by simp)) ?_
    rw [hinnerArgs, List.forall_mem_singleton]
    exact resolved_of_variable (node 14) (htype 21 (by simp))
      (hname (21, 14) (by simp))
      (hparam 14 (by simp))
  obtain ⟨hchain, hfound⟩ :
      classChain context 3 ty = [(node 1, [.literal "s"]),
        (node 2, [.literal "s"])] ∧
        argsFor? context 30 ty (node 2) = some [.literal "s"] := by
        decide +kernel
  have hsettled : ∀ place ∈ classChain context 3 ty,
      Settled context 3 place := by
    rw [hchain, List.forall_mem_cons, List.forall_mem_singleton]
    exact ⟨hsettledLower, hsettledUpper⟩
  obtain ⟨hmember, hdeclared⟩ : node 23 ∈ (node 2).classProperties ∧
      (node 23).declarationName? = some "p" := by decide +kernel
  obtain ⟨places, -, -, -, hmembers⟩ := Context.superclass_walks_agree hsettled
    (Nat.le_of_ble_eq_true rfl : 3 ≤ 30) (Nat.le_of_ble_eq_true rfl : 3 ≤ 32)
  have hproperty := (hmembers .property).2.2 (node 2)
    ⟨"p", node 23, .ofArgs (node 2).typeParameters [.literal "s"]⟩ hmember
      hdeclared
  rw [hparams] at hproperty
  exact ⟨hfound, hproperty.mpr ⟨_, hfound, rfl⟩⟩

end PklAnalysis

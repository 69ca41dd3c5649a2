import PklAnalysis.Proofs.Inference.Exhaustion

/-!
What less depth does to types that are read off a container or a function. A
container is read as the first of several classes of the base module that it
extends. Less depth may miss that class, and then what is read is unknown or a
default; it must not be that the container is read as another.
-/

namespace PklAnalysis.Inference

open Ty

def containerNames : List String :=
  ["Mapping", "Map", "Listing", "Collection"]

/-- With less depth a type is not read as a class that it is not read as with
all depth. -/
def readsPlainly (context : Context) (ty : Ty) : Bool :=
  !ty.isUnion && plainChain context (context.budget - 2) ty

def readsOnce (context : Context) (container : Ty) : Bool :=
  readsPlainly context container &&
    decide (∀ name ∈ containerNames, ∀ other ∈ containerNames,
      (builtinArgs? context container name).isSome = true →
        (builtinArgs? context container other).isSome = true → name = other)

/-- Less depth does not lead to another type of the entries of a container. -/
def sureEntry (context : Context) (container : Ty) : Bool :=
  readsOnce context container &&
    entryType context container = context.base.type "Dynamic"

def sureIteration (context : Context) (container : Ty) (isKey : Bool) : Bool :=
  readsOnce context container &&
    (!isKey || iterationType context container isKey = context.base.type "Int")

theorem blurs_getD {left right : List Ty}
    (hargs : List.Forall₂ Blurs left right) (index : Nat) :
    Blurs (left[index]?.getD .unknown) (right[index]?.getD .unknown) := by
  induction hargs generalizing index with
  | nil => exact .unknown
  | cons hfirst _ ih =>
      cases index with
      | zero => exact hfirst
      | succ index => exact ih index

theorem exists_args_of_front {left right : List (Node × List Ty)}
    (hfront : Front PlaceBlurs left right) {target : Node} {args : List Ty}
    (hargs : (left.find? fun place => place.1 = target).map Prod.snd =
      some args) :
    ∃ args',
      (right.find? fun place => place.1 = target).map Prod.snd = some args' ∧
      List.Forall₂ Blurs args args' := by
  induction hfront with
  | nil => cases hargs
  | @cons first second left right hfirst _ ih =>
      rw [List.find?_cons, hfirst.1] at hargs
      rw [List.find?_cons]
      split at hargs
      case h_1 =>
          cases hargs
          exact ⟨second.2, rfl, hfirst.2⟩
      case h_2 => exact ih hargs

section

variable {context : Context} {depth : Nat} (hdepth : depth ≤ context.maxDepth)
  {left right : Ty} (hblurs : Blurs left right)
include hdepth hblurs

theorem exists_builtinArgs? (hplain : readsPlainly context right = true)
    {name : String} {args : List Ty}
    (hargs : builtinArgs? (context.atDepth depth) left name = some args) :
    ∃ args', builtinArgs? context right name = some args' ∧
      List.Forall₂ Blurs args args' := by
  obtain ⟨decl, hdecl, hargs⟩ := Option.bind_eq_some_iff.mp hargs
  rw [readsPlainly, Bool.and_eq_true, Bool.not_eq_true'] at hplain
  rw [argsFor?, classChain_atDepth] at hargs
  have hle : (context.atDepth depth).budget - 2 ≤ context.budget - 2 :=
    Nat.sub_le_sub_right (Nat.succ_le_succ hdepth) 2
  obtain ⟨args', hargs', hsame⟩ :=
    exists_args_of_front (front_classChain hle hblurs hplain.1 hplain.2) hargs
  exact ⟨args', Option.bind_eq_some_iff.mpr ⟨decl, hdecl, hargs'⟩, hsame⟩

theorem blurs_functionResult (hplain : readsPlainly context right = true) :
    Blurs (functionResult (context.atDepth depth) left)
      (functionResult context right) := by
  rw [functionResult.eq_def]
  split
  case h_1 =>
      have hright : right.isUnion = false := by
        rw [readsPlainly, Bool.and_eq_true, Bool.not_eq_true'] at hplain
        exact hplain.1
      cases hblurs.alike hright rfl with
      | function _ _ hsame => exact hsame
  case h_2 =>
      cases hargs : builtinArgs? (context.atDepth depth) left "Function" with
      | none => exact .unknown
      | some args =>
          obtain ⟨args', hargs', hsame⟩ :=
            exists_builtinArgs? hdepth hblurs hplain hargs
          have hfunction : functionResult context right =
              (args'[0]?).getD .unknown := by
            rw [functionResult.eq_def, ← List.head?_eq_getElem?]
            split
            case h_1 =>
                obtain ⟨_, -, hnone⟩ := Option.bind_eq_some_iff.mp hargs'
                cases hnone
            case h_2 => rw [hargs', Option.bind_some]
          rw [hfunction, Option.bind_some, List.head?_eq_getElem?]
          exact blurs_getD hsame 0

section

variable (hreads : readsOnce context right = true)
include hreads

theorem exists_findSome? {names : List String} (hnames : names ⊆ containerNames)
    {args : List Ty}
    (hargs : names.findSome? (builtinArgs? (context.atDepth depth) left) =
      some args) :
    ∃ args', names.findSome? (builtinArgs? context right) = some args' ∧
      List.Forall₂ Blurs args args' := by
  rw [readsOnce, Bool.and_eq_true, decide_eq_true_eq] at hreads
  obtain ⟨name, hname, hargs⟩ := List.exists_of_findSome?_eq_some hargs
  obtain ⟨args', hargs', hsame⟩ :=
    exists_builtinArgs? hdepth hblurs hreads.1 hargs
  -- with all depth something is found too, and it is under the only name there
  -- is
  have hsome : (names.findSome? (builtinArgs? context right)).isSome = true :=
    List.findSome?_isSome_iff.mpr ⟨name, hname, by rw [hargs']; rfl⟩
  obtain ⟨found, hfound⟩ := Option.isSome_iff_exists.mp hsome
  obtain ⟨other, hother, hread⟩ := List.exists_of_findSome?_eq_some hfound
  obtain rfl : name = other :=
    hreads.2 name (hnames hname) other (hnames hother)
    (by rw [hargs']; rfl) (by rw [hread]; rfl)
  cases hread.symm.trans hargs'
  exact ⟨args', hfound, hsame⟩

theorem blurs_elementType :
    Blurs (elementType (context.atDepth depth) left)
      (elementType context right) := by
  rw [elementType]
  split
  case h_1 args hargs =>
      obtain ⟨args', hargs', hsame⟩ := exists_findSome? hdepth hblurs hreads
        (List.sublist_append_right ["Mapping", "Map"] _).subset hargs
      rw [elementType, hargs']
      dsimp only
      rw [List.head?_eq_getElem?, List.head?_eq_getElem?]
      exact blurs_getD hsame 0
  case h_2 => exact .unknown

theorem elementType_of_mapping {args : List Ty}
    (hargs : mappingArgs? context right = some args) :
    elementType (context.atDepth depth) left = .unknown := by
  rw [elementType]
  split
  case h_1 elements helements =>
      rw [readsOnce, Bool.and_eq_true, decide_eq_true_eq] at hreads
      obtain ⟨name, hname, hread⟩ := List.exists_of_findSome?_eq_some helements
      obtain ⟨args', hargs', -⟩ :=
        exists_builtinArgs? hdepth hblurs hreads.1 hread
      obtain ⟨other, hother, hread'⟩ := List.exists_of_findSome?_eq_some hargs
      have hsame : name = other := hreads.2 name
        ((List.sublist_append_right ["Mapping", "Map"] _).subset hname) other
        ((List.sublist_append_left _ ["Listing", "Collection"]).subset hother)
        (by rw [hargs']; rfl) (by rw [hread']; rfl)
      subst hsame
      have hapart : ∀ name ∈ ["Listing", "Collection"],
          name ∉ ["Mapping", "Map"] := by decide
      exact absurd hother (hapart name hname)
  case h_2 => rfl

theorem blurs_mappingArgs? {args : List Ty}
    (hargs : mappingArgs? (context.atDepth depth) left = some args) :
    ∃ args', mappingArgs? context right = some args' ∧
      List.Forall₂ Blurs args args' :=
  exists_findSome? hdepth hblurs hreads
    (List.sublist_append_left _ ["Listing", "Collection"]).subset hargs

end

theorem blurs_entryType (hsure : sureEntry context right = true) :
    Blurs (entryType (context.atDepth depth) left)
      (entryType context right) := by
  rw [sureEntry, Bool.and_eq_true, decide_eq_true_eq] at hsure
  obtain ⟨hreads, hdynamic⟩ := hsure
  rw [entryType]
  split
  case h_1 args hargs =>
      obtain ⟨args', hargs', hsame⟩ :=
        blurs_mappingArgs? hdepth hblurs hreads hargs
      rw [entryType, hargs']
      exact blurs_getD hsame 1
  case h_2 =>
      have helement := blurs_elementType hdepth hblurs hreads
      dsimp only
      split
      case isTrue =>
          rw [hdynamic]
          exact blurs_type _ _
      case isFalse hknown =>
          cases hargs : mappingArgs? context right with
          | some args =>
              rw [elementType_of_mapping hdepth hblurs hreads hargs] at hknown
              exact absurd rfl hknown
          | none =>
              obtain ⟨-, -, hright, -⟩ :=
                helement.exists_known (Bool.eq_false_iff.mpr hknown)
              rw [entryType, hargs]
              dsimp only
              rwa [if_neg (Bool.eq_false_iff.mp hright)]

theorem blurs_iterationType {isKey : Bool}
    (hsure : sureIteration context right isKey = true) :
    Blurs (iterationType (context.atDepth depth) left isKey)
      (iterationType context right isKey) := by
  rw [sureIteration, Bool.and_eq_true, Bool.or_eq_true, decide_eq_true_eq,
    Bool.not_eq_true'] at hsure
  obtain ⟨hreads, hint⟩ := hsure
  rw [iterationType]
  split
  case h_1 args hargs =>
      obtain ⟨args', hargs', hsame⟩ :=
        blurs_mappingArgs? hdepth hblurs hreads hargs
      rw [iterationType, hargs']
      exact blurs_getD hsame _
  case h_2 =>
      cases isKey with
      | true =>
          rw [hint.resolve_left Bool.noConfusion]
          exact blurs_type _ _
      | false =>
          cases hargs : mappingArgs? context right with
          | some args =>
              rw [if_neg Bool.false_ne_true,
                elementType_of_mapping hdepth hblurs hreads hargs]
              exact .unknown
          | none =>
              rw [iterationType, hargs]
              exact blurs_elementType hdepth hblurs hreads

end

end PklAnalysis.Inference

import PklAnalysis.Proofs.Node.Contents
import PklAnalysis.Proofs.Ty.Blur

/-!
Substituting one after the other. What the first bindings put into a type may
have variables that the second ones bind, so the two together map a parameter to
what the first map it to with the second substituted in it. In unions this
changes members that come to be the same, or to be unions themselves, and the
union is joined anew each time.
-/

namespace PklAnalysis.Ty

variable {bindings first second both : Bindings} {ty : Ty} {types : List Ty}

mutual
def params : Ty → List Node
  | .variable param => [param]
  | .classType _ args => paramsOf args
  | .union members => paramsOf members
  | .function params result => paramsOf params ++ result.params
  | .unknown | .nothing | .moduleType _ | .literal _ => []
termination_by structural ty => ty

def paramsOf : List Ty → List Node
  | [] => []
  | ty :: rest => ty.params ++ paramsOf rest
termination_by structural types => types
end

theorem paramsOf_eq_flatMap (types : List Ty) :
    paramsOf types = types.flatMap params := by
  induction types with
  | nil => rfl
  | cons ty rest ih => rw [paramsOf, ih, List.flatMap_cons]

theorem map_replace_of_unbound
    (htypes : ∀ ty ∈ types, (∀ param ∈ ty.params, bindings.get? param = none) →
      ty.replace bindings = ty)
    (hunbound : ∀ param ∈ paramsOf types, bindings.get? param = none) :
    types.map (replace bindings) = types := by
  rw [paramsOf_eq_flatMap] at hunbound
  refine (List.map_congr_left fun ty hty => ?_).trans (List.map_id types)
  exact htypes ty hty fun param hparam =>
    hunbound param (List.mem_flatMap.mpr ⟨ty, hty, hparam⟩)

/-- A union in normal form is joined anew as it was, if none of its variables is
bound. -/
theorem Formed.replace_of_unbound (hformed : ty.Formed)
    (hunbound : ∀ param ∈ ty.params, bindings.get? param = none) :
    ty.replace bindings = ty := by
  induction hformed with
  | unknown | nothing | moduleType | literal => rfl
  | classType _ ih => rw [replace_classType, map_replace_of_unbound ih hunbound]
  | union hnormal _ ih =>
      rw [replace_union, map_replace_of_unbound ih hunbound,
        hnormal.unionOf_members]
  | function _ _ ih ihResult =>
      rw [replace_function,
        map_replace_of_unbound ih fun param hparam =>
          hunbound param (List.mem_append_left _ hparam),
        ihResult fun param hparam =>
          hunbound param (List.mem_append_right _ hparam)]
  | @typeVariable param =>
      rw [replace_variable, hunbound param (List.mem_singleton_self param)]
      rfl

/-- Empty bindings leave a type alone without looking into it. For a type in
normal form looking into it makes no difference. -/
theorem Formed.substitute_eq_replace (hformed : ty.Formed)
    (bindings : Bindings) :
    ty.substitute bindings = ty.replace bindings := by
  rw [Ty.substitute]
  split
  case isTrue hempty =>
      cases List.isEmpty_iff.mp hempty
      exact (hformed.replace_of_unbound fun _ _ => rfl).symm
  case isFalse => rfl

/-- Bindings that do at once what two do one after the other. -/
def Bindings.IsComposition (first second both : Bindings) : Prop :=
  ∀ param, both.get? param =
    ((first.get? param).map (Ty.substitute second)).or (second.get? param)

/-- The first bindings with the second substituted in them, and then the
second. -/
def Bindings.andThen (first second : Bindings) : Bindings :=
  first.map (fun binding => (binding.1, binding.2.substitute second)) ++ second

theorem Bindings.isComposition_andThen (first second : Bindings) :
    first.IsComposition second (first.andThen second) := by
  intro param
  rw [Bindings.get?, Bindings.get?, Bindings.get?, Bindings.andThen,
    List.find?_append, List.find?_map, Option.map_or, Option.map_map,
    Option.map_map]
  rfl

theorem Bindings.Formed.of_get? (hbindings : bindings.Formed) {param : Node}
    (hty : bindings.get? param = some ty) : ty.Formed := by
  obtain ⟨binding, hbinding, rfl⟩ := Option.map_eq_some_iff.mp hty
  exact Bindings.formed_iff.mp hbindings binding
    (List.mem_of_find?_eq_some hbinding)

theorem Bindings.Formed.normal (hbindings : bindings.Formed) :
    bindings.Normal :=
  fun binding hbinding =>
    (Bindings.formed_iff.mp hbindings binding hbinding).normal

theorem map_replace_replace
    (htypes : ∀ ty ∈ types,
      (ty.replace first).replace second = ty.replace both) :
    (types.map (replace first)).map (replace second) =
      types.map (replace both) := by
  rw [List.map_map]
  exact List.map_congr_left htypes

theorem Formed.replace_replace (hfirst : first.Formed) (hsecond : second.Formed)
    (hboth : first.IsComposition second both) (hformed : ty.Formed) :
    (ty.replace first).replace second = ty.replace both := by
  induction hformed with
  | unknown | nothing | moduleType | literal => rfl
  | classType _ ih =>
      rw [replace_classType, replace_classType, replace_classType,
        map_replace_replace ih]
  | @union members _ hmembers ih =>
      have hnormal : ∀ member ∈ members.map (Ty.replace first), member.Normal :=
        List.forall_mem_map.mpr fun member hmember =>
          ((hmembers member hmember).replace hfirst).normal
      rw [replace_union, replace_unionOf hsecond.normal hnormal,
        map_replace_replace ih, replace_union]
  | function _ _ ih ihResult =>
      rw [replace_function, replace_function, replace_function,
        map_replace_replace ih, ihResult]
  | @typeVariable param =>
      rw [replace_variable, replace_variable, hboth]
      cases hvalue : first.get? param with
      | none => rfl
      | some ty =>
          exact ((hfirst.of_get? hvalue).substitute_eq_replace second).symm

/-- Substituting one after the other is substituting at once what the second
bindings make of the first, and substituting for variables that a type does not
have leaves it as it is. -/
theorem Formed.substitution_laws (hformed : ty.Formed) :
    (∀ first second both : Bindings, (∀ binding ∈ first, binding.2.Formed) →
      (∀ binding ∈ second, binding.2.Formed) → first.IsComposition second both →
      (ty.substitute first).substitute second = ty.substitute both) ∧
    ∀ bindings : Bindings, (∀ param ∈ ty.params, bindings.get? param = none) →
      ty.substitute bindings = ty := by
  refine ⟨fun first second both hfirst hsecond hboth => ?_,
    fun bindings hunbound => ?_⟩
  · rw [← Bindings.formed_iff] at hfirst hsecond
    rw [(hformed.substitute hfirst).substitute_eq_replace,
      hformed.substitute_eq_replace, hformed.substitute_eq_replace]
    exact hformed.replace_replace hfirst hsecond hboth
  · rw [hformed.substitute_eq_replace]
    exact hformed.replace_of_unbound hunbound

def pairClass : Document :=
  .ofTokens "file:///pair.pkl" "class P<X,Y>"
    [⟨.classKw, "class", 0⟩, ⟨.whitespace, " ", 5⟩, ⟨.identifier, "P", 6⟩,
     ⟨.less, "<", 7⟩, ⟨.identifier, "X", 8⟩, ⟨.comma, ",", 9⟩,
     ⟨.identifier, "Y", 10⟩, ⟨.greater, ">", 11⟩]
    (Token.ok_of_toOption (by decide +kernel))

/-- A union whose members come to be the same only after both substitutions. -/
theorem Formed.substitution_laws_union :
    ∃ (ty : Ty) (first second : Bindings),
      (ty.substitute first).substitute second =
        ty.substitute (first.andThen second) ∧
        ty.substitute second = ty ∧
          ty.substitute (first.andThen second) = .literal "text" := by
  let x : Node := ⟨pairClass, 3⟩
  let y : Node := ⟨pairClass, 4⟩
  let ty : Ty := .union [.variable x, .literal "text"]
  have hformed : ty.Formed := by
    refine .union ⟨by decide, by decide +kernel, by decide⟩ ?_
    exact List.forall_mem_cons.mpr ⟨.typeVariable,
      List.forall_mem_singleton.mpr .literal⟩
  have hlaws := Formed.substitution_laws hformed
  refine ⟨ty, [(x, .variable y)], [(y, .literal "text")], ?_,
    hlaws.2 _ (by decide +kernel), ?_⟩
  · exact hlaws.1 _ _ _ (List.forall_mem_singleton.mpr .typeVariable)
      (List.forall_mem_singleton.mpr .literal)
        (Bindings.isComposition_andThen _ _)
  · decide +kernel

end PklAnalysis.Ty

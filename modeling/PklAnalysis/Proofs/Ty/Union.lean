import Mathlib.Data.List.Basic
import Mathlib.Data.List.Nodup
import PklAnalysis.Ty.Basic

/-!
Unions in normal form: a union of two or more types that differ, none of which
is itself a union, unknown or without values. Joining types gives such a union,
opens those among the types, and does not depend on how the types are grouped.
-/

namespace PklAnalysis.Ty

/-! The first occurrence of each type. -/

theorem mem_distinct {types : List Ty} {ty : Ty} :
    ty ∈ distinct types ↔ ty ∈ types := by
  induction types with
  | nil => exact Iff.rfl
  | cons first rest ih =>
      rw [distinct, List.mem_cons, List.mem_cons, List.mem_filter, ih]
      by_cases hsame : ty = first
      · simp [hsame]
      · simp [hsame]

theorem nodup_distinct (types : List Ty) : (distinct types).Nodup := by
  induction types with
  | nil => exact List.nodup_nil
  | cons first rest ih =>
      rw [distinct, List.nodup_cons]
      exact ⟨by simp, ih.filter _⟩

theorem distinct_of_nodup {types : List Ty} (hnodup : types.Nodup) :
    distinct types = types := by
  induction types with
  | nil => rfl
  | cons first rest ih =>
      obtain ⟨hfresh, hrest⟩ := List.nodup_cons.mp hnodup
      rw [distinct, ih hrest, List.filter_eq_self.mpr]
      intro ty hty
      exact decide_eq_true fun hsame => hfresh (hsame ▸ hty)

@[simp] theorem distinct_distinct (types : List Ty) :
    distinct (distinct types) = distinct types :=
  distinct_of_nodup (nodup_distinct types)

theorem distinct_filter (types : List Ty) (keeps : Ty → Bool) :
    distinct (types.filter keeps) = (distinct types).filter keeps := by
  induction types with
  | nil => rfl
  | cons first rest ih =>
      rw [distinct]
      cases hkeeps : keeps first with
      | true =>
          rw [List.filter_cons_of_pos hkeeps, List.filter_cons_of_pos hkeeps,
            distinct, ih, List.filter_comm]
      | false =>
          rw [List.filter_cons_of_neg (by simp [hkeeps]),
            List.filter_cons_of_neg (by simp [hkeeps]), ih, List.filter_filter]
          -- the first type is left out anyway
          refine List.filter_congr fun ty _ => ?_
          cases hty : keeps ty with
          | false => rfl
          | true =>
              have hne : ty ≠ first := by
                rintro rfl
                rw [hkeeps] at hty
                cases hty
              simp [hne]

theorem distinct_append (left right : List Ty) :
    distinct (left ++ right) =
      distinct left ++ (distinct right).filter (· ∉ left) := by
  induction left with
  | nil => simp [distinct]
  | cons first rest ih =>
      rw [List.cons_append, distinct, distinct, ih, List.filter_append,
        List.filter_filter, List.cons_append]
      congr 2
      refine List.filter_congr fun ty _ => ?_
      simp [List.mem_cons, not_or]

theorem distinct_flatMap_distinct (types : List Ty) (parts : Ty → List Ty) :
    distinct ((distinct types).flatMap parts) =
      distinct (types.flatMap parts) := by
  induction types with
  | nil => rfl
  | cons first rest ih =>
      have hfirst : ∀ types : List Ty,
          ((types.filter (· ≠ first)).flatMap parts).filter (· ∉ parts first) =
            (types.flatMap parts).filter (· ∉ parts first) := by
        intro types
        induction types with
        | nil => rfl
        | cons ty more ihMore =>
            rw [List.flatMap_cons, List.filter_append]
            by_cases hsame : ty = first
            · have hnone : (parts ty).filter (· ∉ parts first) = [] := by
                rw [hsame, List.filter_eq_nil_iff]
                simp
              rw [List.filter_cons_of_neg (by simpa using hsame), hnone, ihMore,
                List.nil_append]
            · rw [List.filter_cons_of_pos (by simpa using hsame),
                List.flatMap_cons, List.filter_append, ihMore]
      rw [distinct, List.flatMap_cons, List.flatMap_cons, distinct_append,
        distinct_append, ← distinct_filter, hfirst, distinct_filter, ih]

theorem distinct_flatMap (types : List α) (parts : α → List Ty) :
    distinct (types.flatMap fun ty => distinct (parts ty)) =
      distinct (types.flatMap parts) := by
  induction types with
  | nil => rfl
  | cons first rest ih =>
      rw [List.flatMap_cons, List.flatMap_cons, distinct_append,
        distinct_append, ih, distinct_distinct]
      congr 1
      refine List.filter_congr fun ty _ => ?_
      simp only [mem_distinct]

def isAlternative : Ty → Bool
  | .unknown | .nothing | .union _ => false
  | _ => true

/-- A union has at least two members, which differ and may be listed; what is in
the members does not matter. -/
def Normal : Ty → Prop
  | .union members =>
      2 ≤ members.length ∧ members.Nodup ∧ ∀ member ∈ members,
        member.isAlternative = true
  | _ => True

theorem Normal.of_isAlternative {ty : Ty} (hty : ty.isAlternative = true) :
    ty.Normal := by
  cases ty with
  | union members => cases hty
  | _ => trivial

theorem alternatives_of_isAlternative {ty : Ty}
    (hty : ty.isAlternative = true) :
    ty.alternatives = [ty] := by
  cases ty with
  | unknown | nothing => cases hty
  | union members => cases hty
  | _ => rfl

theorem eq_unknown_of_isUnknown {ty : Ty} (hunknown : ty.isUnknown = true) :
    ty = .unknown := by
  cases ty with
  | unknown => rfl
  | _ => cases hunknown

theorem isUnknown_of_isAlternative {ty : Ty} (hty : ty.isAlternative = true) :
    ty.isUnknown = false := by
  cases ty with
  | unknown => cases hty
  | _ => rfl

theorem Normal.isAlternative_of_mem {ty member : Ty} (hty : ty.Normal)
    (hknown : ty.isUnknown = false) (hmember : member ∈ ty.alternatives) :
    member.isAlternative = true := by
  cases ty with
  | unknown => cases hknown
  | nothing => cases hmember
  | union members => exact hty.2.2 member hmember
  | _ =>
      cases List.mem_singleton.mp hmember
      rfl

section

variable {types : List Ty}

theorem alternatives_ofAlternatives
    (htypes : ∀ ty ∈ types, ty.isAlternative = true) :
    (ofAlternatives types).alternatives = types := by
  match types, htypes with
  | [], _ => rfl
  | [ty], htypes =>
      exact alternatives_of_isAlternative (htypes ty List.mem_cons_self)
  | _ :: _ :: _, _ => rfl

theorem isUnknown_ofAlternatives
    (htypes : ∀ ty ∈ types, ty.isAlternative = true) :
    (ofAlternatives types).isUnknown = false := by
  match types, htypes with
  | [], _ => rfl
  | [ty], htypes =>
      exact isUnknown_of_isAlternative (htypes ty List.mem_cons_self)
  | _ :: _ :: _, _ => rfl

theorem normal_ofAlternatives (htypes : ∀ ty ∈ types, ty.isAlternative = true)
    (hnodup : types.Nodup) : (ofAlternatives types).Normal := by
  match types, htypes, hnodup with
  | [], _, _ => trivial
  | [ty], htypes, _ => exact .of_isAlternative (htypes ty List.mem_cons_self)
  | _ :: _ :: _, htypes, hnodup => exact ⟨by simp, hnodup, htypes⟩

theorem Normal.ofAlternatives_alternatives {ty : Ty} (hty : ty.Normal) :
    ofAlternatives ty.alternatives = ty := by
  match ty, hty with
  | .union [], hty | .union [_], hty => exact absurd hty.1 (by simp)
  | .union (_ :: _ :: _), _ => rfl
  | .unknown, _ | .nothing, _ | .classType _ _, _ | .moduleType _,
      _ | .literal _, _
  | .function _ _, _ | .variable _, _ => rfl

theorem unionOf_of_unknown (hunknown : types.any isUnknown = true) :
    unionOf types = .unknown := by
  rw [unionOf, if_pos hunknown]

theorem unionOf_of_known (hknown : types.any isUnknown = false) :
    unionOf types = ofAlternatives (distinct (types.flatMap alternatives)) := by
  rw [unionOf, if_neg (by simp [hknown])]

theorem isAlternative_of_mem_parts (htypes : ∀ ty ∈ types, ty.Normal)
    (hknown : types.any isUnknown = false) :
    ∀ ty ∈ distinct (types.flatMap alternatives), ty.isAlternative = true := by
  intro ty hty
  obtain ⟨outer, houter, hty⟩ := List.mem_flatMap.mp (mem_distinct.mp hty)
  have houterKnown :=
    Bool.eq_false_iff.mpr (List.any_eq_false.mp hknown outer houter)
  exact (htypes outer houter).isAlternative_of_mem houterKnown hty

theorem isUnknown_unionOf (htypes : ∀ ty ∈ types, ty.Normal) :
    (unionOf types).isUnknown = types.any isUnknown := by
  cases hunknown : types.any isUnknown with
  | true =>
      rw [unionOf_of_unknown hunknown]
      rfl
  | false =>
      rw [unionOf_of_known hunknown]
      exact isUnknown_ofAlternatives
        (isAlternative_of_mem_parts htypes hunknown)

theorem unionOf_of_isAlternative
    (htypes : ∀ ty ∈ types, ty.isAlternative = true) (hnodup : types.Nodup) :
    unionOf types = ofAlternatives types := by
  have hknown : types.any isUnknown = false :=
    List.any_eq_false.mpr
      fun ty hty => by simp [isUnknown_of_isAlternative (htypes ty hty)]
  rw [unionOf_of_known hknown,
    List.flatMap_congr fun ty hty => alternatives_of_isAlternative
      (htypes ty hty),
    List.flatMap_singleton', distinct_of_nodup hnodup]

theorem Normal.unionOf_members {members : List Ty}
    (hunion : (Ty.union members).Normal) :
    Ty.unionOf members = .union members := by
  rw [unionOf_of_isAlternative hunion.2.2 hunion.2.1]
  exact hunion.ofAlternatives_alternatives

theorem alternatives_unionOf (htypes : ∀ ty ∈ types, ty.Normal)
    (hknown : types.any isUnknown = false) :
    (unionOf types).alternatives = distinct (types.flatMap alternatives) := by
  rw [unionOf_of_known hknown]
  exact alternatives_ofAlternatives (isAlternative_of_mem_parts htypes hknown)

theorem normal_unionOf (htypes : ∀ ty ∈ types, ty.Normal) :
    (unionOf types).Normal := by
  cases hunknown : types.any isUnknown with
  | true =>
      rw [unionOf_of_unknown hunknown]
      trivial
  | false =>
      rw [unionOf_of_known hunknown]
      exact normal_ofAlternatives (isAlternative_of_mem_parts htypes hunknown)
        (nodup_distinct _)

theorem nodup_alternatives {ty : Ty} (hty : ty.Normal) :
    ty.alternatives.Nodup := by
  cases ty with
  | nothing => exact List.nodup_nil
  | union members => exact hty.2.1
  | _ => exact List.nodup_singleton _

theorem unionOf_singleton {ty : Ty} (hty : ty.Normal) : unionOf [ty] = ty := by
  cases hunknown : ty.isUnknown with
  | true =>
      rw [unionOf_of_unknown (by simp [hunknown]),
        eq_unknown_of_isUnknown hunknown]
  | false =>
      rw [unionOf_of_known (by simp [hunknown]), List.flatMap_singleton,
        distinct_of_nodup (nodup_alternatives hty),
        hty.ofAlternatives_alternatives]

theorem unionOf_distinct (types : List Ty) (change : Ty → Ty) :
    unionOf ((distinct types).map change) = unionOf (types.map change) := by
  have hunknown : ((distinct types).map change).any isUnknown =
      (types.map change).any isUnknown := by
    rw [Bool.eq_iff_iff]
    simp [mem_distinct]
  rw [unionOf, unionOf, hunknown, List.flatMap_map, List.flatMap_map,
    distinct_flatMap_distinct]

theorem unionOf_map_unionOf (groups : List α) (types : α → List Ty)
    (htypes : ∀ group ∈ groups, ∀ ty ∈ types group, ty.Normal) :
    unionOf (groups.map fun group => unionOf (types group)) =
      unionOf (groups.flatMap types) := by
  have hunknown :
      (groups.map fun group => unionOf (types group)).any isUnknown =
      (groups.flatMap types).any isUnknown := by
    rw [List.any_map, List.any_flatMap, Bool.eq_iff_iff, List.any_eq_true,
      List.any_eq_true]
    refine exists_congr fun group => and_congr_right fun hgroup => ?_
    rw [Function.comp_apply, isUnknown_unionOf (htypes group hgroup)]
  cases hany : (groups.flatMap types).any isUnknown with
  | true =>
      rw [unionOf_of_unknown hany, unionOf_of_unknown (hunknown.trans hany)]
  | false =>
      have hparts :
          (groups.flatMap fun group => (unionOf (types group)).alternatives) =
          groups.flatMap fun group =>
            distinct ((types group).flatMap alternatives) := by
        refine List.flatMap_congr fun group hgroup => ?_
        refine alternatives_unionOf (htypes group hgroup) ?_
        rw [List.any_flatMap] at hany
        exact Bool.eq_false_iff.mpr (List.any_eq_false.mp hany group hgroup)
      rw [unionOf_of_known hany, unionOf_of_known (hunknown.trans hany),
        List.flatMap_map, hparts, distinct_flatMap, List.flatMap_assoc]

end

section

variable {first second third : Ty}

theorem unknown_join (ty : Ty) : unknown.join ty = .unknown :=
  unionOf_of_unknown rfl

theorem join_unknown (ty : Ty) : ty.join .unknown = .unknown := by
  refine unionOf_of_unknown ?_
  rw [List.any_cons, List.any_cons, isUnknown, Bool.true_or, Bool.or_true]

theorem nothing_join (hfirst : first.Normal) : nothing.join first = first := by
  have hdrop : nothing.join first = unionOf [first] := rfl
  rw [hdrop, unionOf_singleton hfirst]

theorem join_nothing (hfirst : first.Normal) : first.join .nothing = first := by
  have hdrop : first.join .nothing = unionOf [first] := by
    simp [join, unionOf, isUnknown, alternatives]
  rw [hdrop, unionOf_singleton hfirst]

theorem join_self (hfirst : first.Normal) : first.join first = first := by
  have honce : distinct [first, first] = [first] := by simp [distinct]
  have hdrop := unionOf_distinct [first, first] id
  rw [honce, List.map_id, List.map_id, unionOf_singleton hfirst] at hdrop
  exact hdrop.symm

theorem join_assoc (hfirst : first.Normal) (hsecond : second.Normal)
    (hthird : third.Normal) :
    (first.join second).join third = first.join (second.join third) := by
  have hgroups : ∀ group ∈ [[first, second], [third], [first], [second, third]],
      ∀ ty ∈ group, ty.Normal := by
    simp [hfirst, hsecond, hthird]
  have hleft :=
    unionOf_map_unionOf [[first, second], [third]] id fun group hgroup =>
    hgroups group (List.mem_append_left [[first], [second, third]] hgroup)
  have hright :=
    unionOf_map_unionOf [[first], [second, third]] id fun group hgroup =>
    hgroups group (List.mem_append_right [[first, second], [third]] hgroup)
  calc (first.join second).join third
      = unionOf [unionOf [first, second], unionOf [third]] := by
        rw [unionOf_singleton hthird]
        rfl
    _ = unionOf [first, second, third] := hleft
    _ = unionOf [unionOf [first], unionOf [second, third]] := hright.symm
    _ = first.join (second.join third) := by
        rw [unionOf_singleton hfirst]
        rfl

variable (hfirst : first.Normal) (hsecond : second.Normal)
include hfirst hsecond

theorem isUnknown_join :
    (first.join second).isUnknown = (first.isUnknown || second.isUnknown) := by
  rw [join, isUnknown_unionOf (by simp [hfirst, hsecond]), List.any_cons,
    List.any_cons, List.any_nil, Bool.or_false]

theorem alternatives_join (hknown : (first.join second).isUnknown = false) :
    (first.join second).alternatives =
      distinct (first.alternatives ++ second.alternatives) := by
  rw [isUnknown_join hfirst hsecond, Bool.or_eq_false_iff] at hknown
  rw [join, alternatives_unionOf (by simp [hfirst, hsecond]) (by simp [hknown])]
  simp

theorem mem_alternatives_join (hknown : (first.join second).isUnknown = false)
    {ty : Ty} :
    ty ∈ (first.join second).alternatives ↔
      ty ∈ first.alternatives ∨ ty ∈ second.alternatives := by
  rw [alternatives_join hfirst hsecond hknown, mem_distinct, List.mem_append]

theorem normal_join : (first.join second).Normal :=
  normal_unionOf (by simp [hfirst, hsecond])

theorem perm_alternatives_join :
    (first.join second).alternatives.Perm (second.join first).alternatives := by
  cases hknown : (first.join second).isUnknown with
  | true =>
      rw [isUnknown_join hfirst hsecond, Bool.or_eq_true] at hknown
      rcases hknown with hunknown | hunknown
      · rw [eq_unknown_of_isUnknown hunknown, unknown_join, join_unknown]
      · rw [eq_unknown_of_isUnknown hunknown, unknown_join, join_unknown]
  | false =>
      have hknown' : (second.join first).isUnknown = false := by
        rw [isUnknown_join hsecond hfirst, Bool.or_comm,
          ← isUnknown_join hfirst hsecond, hknown]
      refine (List.perm_ext_iff_of_nodup
        (nodup_alternatives (normal_join hfirst hsecond))
        (nodup_alternatives (normal_join hsecond hfirst))).mpr fun ty => ?_
      rw [mem_alternatives_join hfirst hsecond hknown,
        mem_alternatives_join hsecond hfirst hknown', or_comm]

theorem join_cases (hknown : (first.join second).isUnknown = false) :
    first.join second = first ∨ first.join second = second ∨
      ∃ members, first.join second = .union members := by
  have hjoin := (normal_join hfirst hsecond).ofAlternatives_alternatives
  rw [alternatives_join hfirst hsecond hknown, distinct_append,
    distinct_of_nodup (nodup_alternatives hfirst)] at hjoin
  -- what the second type adds to the first
  generalize (distinct second.alternatives).filter (· ∉ first.alternatives) =
    added at hjoin
  cases added with
  | nil =>
      rw [List.append_nil, hfirst.ofAlternatives_alternatives] at hjoin
      exact .inl hjoin.symm
  | cons new others =>
      cases hparts : first.alternatives with
      | nil =>
          have hnothing := hfirst.ofAlternatives_alternatives
          rw [hparts] at hnothing
          rw [← hnothing]
          exact .inr (.inl (nothing_join hsecond))
      | cons part rest =>
          rw [hparts] at hjoin
          refine .inr (.inr ⟨part :: (rest ++ new :: others),
            hjoin.symm.trans ?_⟩)
          cases rest <;> rfl

end

end PklAnalysis.Ty

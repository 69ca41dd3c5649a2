import Mathlib.Data.List.Forall2
import PklAnalysis.Proofs.Ty.Substitution

/-!
Types of which parts are not known. One type blurs another if it says the same
wherever it says something. What is formed of blurred types blurs what is formed
of the types themselves; for unions this needs care, since members that differ
may blur to the same type and the other way round.
-/

namespace PklAnalysis.Ty

mutual
def hasUnknown : Ty → Bool
  | .unknown => true
  | .classType _ args => hasUnknownIn args
  | .union members => hasUnknownIn members
  | .function params result => hasUnknownIn params || result.hasUnknown
  | .nothing | .moduleType _ | .literal _ | .variable _ => false
termination_by structural ty => ty

def hasUnknownIn : List Ty → Bool
  | [] => false
  | ty :: rest => ty.hasUnknown || hasUnknownIn rest
termination_by structural types => types
end

theorem hasUnknownIn_eq_any (types : List Ty) :
    hasUnknownIn types = types.any hasUnknown := by
  induction types with
  | nil => rfl
  | cons ty rest ih => rw [hasUnknownIn, ih, List.any_cons]

-- Lists of pairs stand for pairs of lists: the relation would not be strictly
-- positive otherwise.
mutual
/-- The first type is unknown, or it has the alternatives of the second, and
these are alike. -/
inductive Blurs : Ty → Ty → Prop
  | unknown {ty : Ty} : Blurs .unknown ty
  | known (pairs : List (Ty × Ty))
      (alike : ∀ pair ∈ pairs, Alike pair.1 pair.2) :
      Blurs (ofAlternatives (distinct (pairs.map Prod.fst)))
        (ofAlternatives (distinct (pairs.map Prod.snd)))

/-- Two alternatives are of the same form, and what the first is formed of blurs
what the second is formed of. -/
inductive Alike : Ty → Ty → Prop
  | classType (decl : Node) (pairs : List (Ty × Ty))
  (args : ∀ pair ∈ pairs, Blurs pair.1 pair.2) :
      Alike (.classType decl (pairs.map Prod.fst))
        (.classType decl (pairs.map Prod.snd))
  | function {left right : Ty} (pairs : List (Ty × Ty))
      (params : ∀ pair ∈ pairs, Blurs pair.1 pair.2)
      (result : Blurs left right) :
      Alike (.function (pairs.map Prod.fst) left)
        (.function (pairs.map Prod.snd) right)
  | moduleType (root : Node) : Alike (.moduleType root) (.moduleType root)
  | literal (text : String) : Alike (.literal text) (.literal text)
  | variable (param : Node) : Alike (.variable param) (.variable param)
end

theorem any_hasUnknown_or_eq {pairs : List (Ty × Ty)}
    (hpairs : ∀ pair ∈ pairs, pair.1.hasUnknown = true ∨ pair.1 = pair.2) :
    (pairs.map Prod.fst).any hasUnknown = true ∨
      pairs.map Prod.fst = pairs.map Prod.snd := by
  induction pairs with
  | nil => exact .inr rfl
  | cons pair rest ih =>
      obtain ⟨hfirst, hrest⟩ := List.forall_mem_cons.mp hpairs
      rw [List.map_cons, List.map_cons, List.any_cons]
      rcases hfirst with hunknown | hsame
      · exact .inl (by rw [hunknown, Bool.true_or])
      · rcases ih hrest with hunknown | hothers
        · exact .inl (by rw [hunknown, Bool.or_true])
        · exact .inr (by rw [hsame, hothers])

theorem hasUnknown_ofAlternatives {types : List Ty}
    (hunknown : types.any hasUnknown = true) :
    (ofAlternatives types).hasUnknown = true := by
  match types, hunknown with
  | [], hunknown => cases hunknown
  | [ty], hunknown =>
      have hty : ty.hasUnknown = true := by simpa using hunknown
      exact hty
  | first :: second :: rest, hunknown =>
      have hmembers := hasUnknownIn_eq_any (first :: second :: rest)
      exact hmembers.trans hunknown

mutual

theorem Blurs.hasUnknown_or_eq : {left right : Ty} → Blurs left right →
    left.hasUnknown = true ∨ left = right
  | _, _, .unknown => .inl rfl
  | _, _, .known pairs halike => by
      rcases any_hasUnknown_or_eq fun pair hpair =>
        (halike pair hpair).hasUnknown_or_eq with hany | hsame
      · refine .inl (hasUnknown_ofAlternatives ?_)
        obtain ⟨ty, hty, hunknown⟩ := List.any_eq_true.mp hany
        exact List.any_eq_true.mpr ⟨ty, mem_distinct.mpr hty, hunknown⟩
      · exact .inr (by rw [hsame])

theorem Alike.hasUnknown_or_eq : {left right : Ty} → Alike left right →
    left.hasUnknown = true ∨ left = right
  | _, _, .classType decl pairs hargs => by
      rw [hasUnknown, hasUnknownIn_eq_any]
      rcases any_hasUnknown_or_eq fun pair hpair =>
        (hargs pair hpair).hasUnknown_or_eq with hany | hsame
      · exact .inl hany
      · exact .inr (by rw [hsame])
  | _, _, .function pairs hparams hresult => by
      rw [hasUnknown, hasUnknownIn_eq_any]
      rcases any_hasUnknown_or_eq fun pair hpair =>
        (hparams pair hpair).hasUnknown_or_eq
        with hany | hsame
      · exact .inl (by rw [hany, Bool.true_or])
      · rcases hresult.hasUnknown_or_eq with hunknown | hsame'
        · exact .inl (by rw [hunknown, Bool.or_true])
        · exact .inr (by rw [hsame, hsame'])
  | _, _, .moduleType _ | _, _, .literal _ | _, _, .variable _ => .inr rfl

end

theorem exists_pairs {R : Ty → Ty → Prop} {left right : List Ty}
    (hall : List.Forall₂ R left right) :
    ∃ pairs : List (Ty × Ty),
      (∀ pair ∈ pairs, R pair.1 pair.2) ∧ left = pairs.map Prod.fst ∧
      right = pairs.map Prod.snd := by
  induction hall with
  | nil => exact ⟨[], fun _ hpair => absurd hpair List.not_mem_nil, rfl, rfl⟩
  | @cons first second _ _ hfirst _ ih =>
      obtain ⟨pairs, hpairs, rfl, rfl⟩ := ih
      exact ⟨(first, second) :: pairs,
        List.forall_mem_cons.mpr ⟨hfirst, hpairs⟩, rfl, rfl⟩

theorem forall₂_map {α : Type} {R : Ty → Ty → Prop} {f g : α → Ty}
    {list : List α} (hall : ∀ element ∈ list, R (f element) (g element)) :
    List.Forall₂ R (list.map f) (list.map g) := by
  rw [List.forall₂_map_left_iff, List.forall₂_map_right_iff]
  exact List.forall₂_same.mpr hall

theorem Alike.of_args {left right : List Ty} (decl : Node)
    (hargs : List.Forall₂ Blurs left right) :
    Alike (.classType decl left) (.classType decl right) := by
  obtain ⟨pairs, hpairs, rfl, rfl⟩ := exists_pairs hargs
  exact .classType decl pairs hpairs

theorem Alike.of_params {left right : List Ty} {result result' : Ty}
    (hparams : List.Forall₂ Blurs left right) (hresult : Blurs result result') :
    Alike (.function left result) (.function right result') := by
  obtain ⟨pairs, hpairs, rfl, rfl⟩ := exists_pairs hparams
  exact .function pairs hpairs hresult

theorem Alike.isAlternative_left {left right : Ty} (halike : Alike left right) :
    left.isAlternative = true := by
  cases halike <;> rfl

theorem Alike.isAlternative_right {left right : Ty}
    (halike : Alike left right) :
    right.isAlternative = true := by
  cases halike <;> rfl

theorem Alike.blurs {left right : Ty} (halike : Alike left right) :
    Blurs left right :=
  .known [(left, right)] (List.forall_mem_singleton.mpr halike)

theorem Blurs.nothing : Blurs .nothing .nothing :=
  .known [] fun _ hpair => absurd hpair List.not_mem_nil

theorem blurs_generic (base : Base) (name : String) {left right : List Ty}
    (hargs : List.Forall₂ Blurs left right) :
    Blurs (base.generic name left) (base.generic name right) := by
  rw [Base.generic, Base.generic]
  split
  · exact (Alike.of_args _ hargs).blurs
  · exact .unknown

theorem blurs_type (base : Base) (name : String) :
    Blurs (base.type name) (base.type name) :=
  blurs_generic base name .nil

section

variable {pairs : List (Ty × Ty)} (halike : ∀ pair ∈ pairs, Alike pair.1 pair.2)
include halike

theorem isAlternative_of_alike_left :
    ∀ ty ∈ pairs.map Prod.fst, ty.isAlternative = true :=
  List.forall_mem_map.mpr fun pair hpair =>
    (halike pair hpair).isAlternative_left

theorem isAlternative_of_alike_right :
    ∀ ty ∈ pairs.map Prod.snd, ty.isAlternative = true :=
  List.forall_mem_map.mpr fun pair hpair =>
    (halike pair hpair).isAlternative_right

end

theorem Blurs.exists_known {left right : Ty} (hblurs : Blurs left right)
    (hknown : left.isUnknown = false) : ∃ pairs : List (Ty × Ty),
      (∀ pair ∈ pairs, Alike pair.1 pair.2) ∧ right.isUnknown = false ∧
      left.alternatives = distinct (pairs.map Prod.fst) ∧
      right.alternatives = distinct (pairs.map Prod.snd) := by
  cases hblurs with
  | unknown => cases hknown
  | known pairs halike =>
      have hleft := isAlternative_of_alike_left halike
      have hright := isAlternative_of_alike_right halike
      refine ⟨pairs, halike, isUnknown_ofAlternatives fun ty hty =>
        hright ty (mem_distinct.mp hty),
        alternatives_ofAlternatives fun ty hty =>
          hleft ty (mem_distinct.mp hty),
        alternatives_ofAlternatives fun ty hty =>
          hright ty (mem_distinct.mp hty)⟩

theorem Blurs.isUnknown_left {left right : Ty} (hblurs : Blurs left right)
    (hright : right.isUnknown = true) : left = .unknown := by
  cases hknown : left.isUnknown with
  | true => exact eq_unknown_of_isUnknown hknown
  | false =>
      obtain ⟨-, -, hnot, -⟩ := hblurs.exists_known hknown
      rw [hnot] at hright
      cases hright

theorem distinct_append_congr {first first' second second' : List Ty}
    (hfirst : distinct first = distinct first')
    (hsecond : distinct second = distinct second') :
    distinct (first ++ second) = distinct (first' ++ second') := by
  have hmem : ∀ ty, ty ∈ first ↔ ty ∈ first' := fun ty => by
    rw [← mem_distinct, hfirst, mem_distinct]
  rw [distinct_append, distinct_append, hfirst, hsecond]
  congr 1
  exact List.filter_congr fun ty _ => by simp only [hmem]

theorem exists_parts {left right : List Ty}
    (hblurs : List.Forall₂ Blurs left right)
    (hknown : left.any isUnknown = false) : ∃ pairs : List (Ty × Ty),
      (∀ pair ∈ pairs, Alike pair.1 pair.2) ∧ right.any isUnknown = false ∧
      distinct (left.flatMap alternatives) = distinct (pairs.map Prod.fst) ∧
      distinct (right.flatMap alternatives) =
        distinct (pairs.map Prod.snd) := by
  induction hblurs with
  | nil =>
      exact ⟨[], fun _ hpair => absurd hpair List.not_mem_nil, rfl, rfl, rfl⟩
  | @cons first second left right hfirst _ ih =>
      rw [List.any_cons, Bool.or_eq_false_iff] at hknown
      obtain ⟨pairs, halike, hright, hfirsts, hseconds⟩ :=
        hfirst.exists_known hknown.1
      obtain ⟨others, hothers, hrest, hlefts, hrights⟩ := ih hknown.2
      refine ⟨pairs ++ others, List.forall_mem_append.mpr ⟨halike, hothers⟩,
        ?_, ?_, ?_⟩
      · rw [List.any_cons, hright, hrest]
        rfl
      · rw [List.flatMap_cons, List.map_append, hfirsts]
        exact distinct_append_congr (distinct_distinct _) hlefts
      · rw [List.flatMap_cons, List.map_append, hseconds]
        exact distinct_append_congr (distinct_distinct _) hrights

theorem Blurs.unionOf {left right : List Ty}
    (hblurs : List.Forall₂ Blurs left right) :
    Blurs (unionOf left) (unionOf right) := by
  cases hknown : left.any isUnknown with
  | true =>
      rw [unionOf_of_unknown hknown]
      exact .unknown
  | false =>
      obtain ⟨pairs, halike, hright, hlefts, hrights⟩ :=
        exists_parts hblurs hknown
      rw [unionOf_of_known hknown, unionOf_of_known hright, hlefts, hrights]
      exact .known pairs halike

theorem Blurs.join {left right left' right' : Ty} (hfirst : Blurs left left')
    (hsecond : Blurs right right') :
    Blurs (left.join right) (left'.join right') :=
  .unionOf (.cons hfirst (.cons hsecond .nil))

theorem Blurs.nullable {left right : Ty} (hblurs : Blurs left right)
    (base : Base) :
    Blurs (left.nullable base) (right.nullable base) :=
  hblurs.join (blurs_type base "Null")

theorem Alike.isNull_eq {left right : Ty} (halike : Alike left right)
    (base : Base) :
    left.isNull base = right.isNull base := by
  cases halike <;> rfl

theorem nonNull_ofAlternatives (base : Base) {types : List Ty}
    (htypes : ∀ ty ∈ types, ty.isAlternative = true) (hnodup : types.Nodup) :
    (ofAlternatives types).nonNull base =
      ofAlternatives (types.filter (!isNull base ·)) := by
  match types, htypes with
  | [], _ => rfl
  | [ty], htypes =>
      have hty := htypes ty List.mem_cons_self
      have hsingle : (ofAlternatives [ty]).nonNull base =
          if ty.isNull base then .nothing else ty := by
        cases ty with
        | union members => cases hty
        | _ => rfl
      rw [hsingle]
      cases hnull : ty.isNull base with
      | true =>
          rw [List.filter_cons_of_neg (by simp [hnull])]
          rfl
      | false =>
          rw [List.filter_cons_of_pos (by simp [hnull])]
          rfl
  | first :: second :: rest, htypes =>
      have hkept : ∀ ty ∈ (first :: second :: rest).filter (!isNull base ·),
          ty.isAlternative = true :=
        fun ty hty => htypes ty (List.mem_filter.mp hty).1
      exact unionOf_of_isAlternative hkept (hnodup.filter _)

theorem Blurs.nonNull {left right : Ty} (hblurs : Blurs left right)
    (base : Base) :
    Blurs (left.nonNull base) (right.nonNull base) := by
  cases hblurs with
  | unknown => exact .unknown
  | known pairs halike =>
      have hleft : ∀ ty ∈ distinct (pairs.map Prod.fst),
          ty.isAlternative = true :=
        fun ty hty => isAlternative_of_alike_left halike ty
          (mem_distinct.mp hty)
      have hright : ∀ ty ∈ distinct (pairs.map Prod.snd),
          ty.isAlternative = true :=
        fun ty hty => isAlternative_of_alike_right halike ty
          (mem_distinct.mp hty)
      rw [nonNull_ofAlternatives base hleft (nodup_distinct _),
        nonNull_ofAlternatives base hright (nodup_distinct _),
        ← distinct_filter, ← distinct_filter, List.filter_map, List.filter_map]
      have hsame : pairs.filter ((!isNull base ·) ∘ Prod.fst) =
          pairs.filter ((!isNull base ·) ∘ Prod.snd) :=
        List.filter_congr fun pair hpair => by
          simp only [Function.comp_apply, (halike pair hpair).isNull_eq base]
      rw [hsame]
      exact .known _ fun pair hpair => halike pair (List.mem_filter.mp hpair).1

def isUnion : Ty → Bool
  | .union _ => true
  | _ => false

theorem isUnion_of_isAlternative {ty : Ty} (hty : ty.isAlternative = true) :
    ty.isUnion = false := by
  cases ty with
  | union members => cases hty
  | _ => rfl

theorem Blurs.exists_alike_right {left right ty : Ty}
    (hblurs : Blurs left right) (hknown : left.isUnknown = false)
    (hty : ty ∈ left.alternatives) :
    ∃ ty' ∈ right.alternatives, Alike ty ty' := by
  obtain ⟨pairs, halike, -, hleft, hright⟩ := hblurs.exists_known hknown
  rw [hleft, mem_distinct] at hty
  obtain ⟨pair, hpair, rfl⟩ := List.mem_map.mp hty
  refine ⟨pair.2, ?_, halike pair hpair⟩
  rw [hright, mem_distinct]
  exact List.mem_map_of_mem hpair

theorem Blurs.exists_alike_left {left right ty : Ty} (hblurs : Blurs left right)
    (hknown : left.isUnknown = false) (hty : ty ∈ right.alternatives) :
    ∃ ty' ∈ left.alternatives, Alike ty' ty := by
  obtain ⟨pairs, halike, -, hleft, hright⟩ := hblurs.exists_known hknown
  rw [hright, mem_distinct] at hty
  obtain ⟨pair, hpair, rfl⟩ := List.mem_map.mp hty
  refine ⟨pair.1, ?_, halike pair hpair⟩
  rw [hleft, mem_distinct]
  exact List.mem_map_of_mem hpair

theorem eq_of_mem_alternatives {ty member : Ty} (hunion : ty.isUnion = false)
    (hmember : member ∈ ty.alternatives) : member = ty := by
  cases ty with
  | nothing => cases hmember
  | union members => cases hunion
  | _ => exact List.mem_singleton.mp hmember

theorem Blurs.alike {left right : Ty} (hblurs : Blurs left right)
    (hunion : right.isUnion = false) (hleft : left.isAlternative = true) :
    Alike left right := by
  obtain ⟨ty, hty, halike⟩ :=
    hblurs.exists_alike_right (isUnknown_of_isAlternative hleft)
    (alternatives_of_isAlternative hleft ▸ List.mem_singleton_self left)
  rwa [eq_of_mem_alternatives hunion hty] at halike

/-- The types into which a lookup in a type goes: a union is looked into without
its null. -/
def subjects (base : Base) : Ty → List Ty
  | .union members => members.filter (!isNull base ·)
  | ty => [ty]

theorem mem_subjects {base : Base} {ty member : Ty}
    (hmember : member ∈ ty.alternatives) (hnull : member.isNull base = false) :
    member ∈ ty.subjects base := by
  cases ty with
  | nothing => cases hmember
  | union members =>
      exact List.mem_filter.mpr ⟨hmember, by rw [hnull, Bool.not_false]⟩
  | _ => exact hmember

theorem Blurs.exists_subject_of_alternative {base : Base} {left right : Ty}
    (hblurs : Blurs left right) (hsome : right.subjects base ≠ [])
    (hleft : left.isAlternative = true) :
    ∃ ty ∈ right.subjects base, Alike left ty := by
  have hknown := isUnknown_of_isAlternative hleft
  have halternatives := alternatives_of_isAlternative hleft
  cases right with
  | union members =>
      obtain ⟨ty, hty⟩ := List.exists_mem_of_ne_nil _ hsome
      obtain ⟨ty', hty', halike⟩ :=
        hblurs.exists_alike_left hknown (List.mem_filter.mp hty).1
      rw [halternatives, List.mem_singleton] at hty'
      exact ⟨ty, hty, hty' ▸ halike⟩
  | _ => exact ⟨_, List.mem_singleton_self _, hblurs.alike rfl hleft⟩

/-- A lookup in a blurred type goes where it goes in the type itself, as far as
that is known. -/
theorem Blurs.exists_subject {base : Base} {left right ty : Ty}
    (hblurs : Blurs left right) (hsome : right.subjects base ≠ [])
    (hty : ty ∈ left.subjects base) :
    ty = .unknown ∨ ty = .nothing ∨ ∃ ty' ∈ right.subjects base,
      Alike ty ty' := by
  cases left with
  | unknown => exact .inl (List.mem_singleton.mp hty)
  | nothing => exact .inr (.inl (List.mem_singleton.mp hty))
  | union members =>
      obtain ⟨hmember, hnull⟩ := List.mem_filter.mp hty
      obtain ⟨ty', hty', halike⟩ := hblurs.exists_alike_right rfl hmember
      rw [halike.isNull_eq, Bool.not_eq_true'] at hnull
      exact .inr (.inr ⟨ty', mem_subjects hty' hnull, halike⟩)
  | _ =>
      cases List.mem_singleton.mp hty
      exact .inr (.inr (hblurs.exists_subject_of_alternative hsome rfl))

/-! Relations that go through all ways of forming types. -/

/-- Types that are formed in the same way of related types are related, and an
unknown type is related to all. -/
structure Congruent (R : Ty → Ty → Prop) : Prop where
  unknown {ty : Ty} : R .unknown ty
  nothing : R .nothing .nothing
  moduleType (root : Node) : R (.moduleType root) (.moduleType root)
  literal (text : String) : R (.literal text) (.literal text)
  typeVariable (param : Node) : R (.variable param) (.variable param)
  classType (decl : Node) {left right : List Ty}
    (hargs : List.Forall₂ R left right) :
    R (.classType decl left) (.classType decl right)
  function {left right : List Ty} {result result' : Ty}
    (hparams : List.Forall₂ R left right)
    (hresult : R result result') :
      R (.function left result) (.function right result')
  unionOf {left right : List Ty} (hmembers : List.Forall₂ R left right) :
    R (Ty.unionOf left) (Ty.unionOf right)

theorem congruent_blurs : Congruent Blurs where
  unknown := .unknown
  nothing := .nothing
  moduleType root := (Alike.moduleType root).blurs
  literal text := (Alike.literal text).blurs
  typeVariable param := (Alike.variable param).blurs
  classType decl _ _ hargs := (Alike.of_args decl hargs).blurs
  function hparams hresult := (Alike.of_params hparams hresult).blurs
  unionOf := .unionOf

section

variable {R : Ty → Ty → Prop} (hcongruent : Congruent R)
include hcongruent

theorem Congruent.type (base : Base) (name : String) :
    R (base.type name) (base.type name) := by
  rw [Base.type, Base.generic]
  split
  · exact hcongruent.classType _ .nil
  · exact hcongruent.unknown

theorem Congruent.nullable {left right : Ty} (hrel : R left right)
    (base : Base) :
    R (left.nullable base) (right.nullable base) :=
  hcongruent.unionOf (.cons hrel (.cons (hcongruent.type base "Null") .nil))

end

def Bindings.Rel (R : Ty → Ty → Prop) (left right : Bindings) : Prop :=
  List.Forall₂ (fun binding binding' => binding.1 = binding'.1 ∧
    R binding.2 binding'.2) left right

section

variable {R : Ty → Ty → Prop}

theorem Bindings.Rel.refl (hrefl : ∀ ty, R ty ty) (bindings : Bindings) :
    bindings.Rel R bindings :=
  List.forall₂_same.mpr fun binding _ => ⟨rfl, hrefl binding.2⟩

theorem Bindings.Rel.get? {left right : Bindings} (hrel : left.Rel R right)
    (param : Node) :
    Option.Rel R (left.get? param) (right.get? param) := by
  induction hrel with
  | nil => exact .none
  | @cons binding binding' left right hfirst _ ih =>
      rw [Bindings.get?, Bindings.get?, List.find?_cons, List.find?_cons,
        hfirst.1]
      split
      · exact .some hfirst.2
      · exact ih

theorem Bindings.Rel.ofArgs (params : List Node) {left right : List Ty}
    (hargs : List.Forall₂ R left right) :
    (Bindings.ofArgs params left).Rel R (.ofArgs params right) := by
  induction hargs generalizing params with
  | nil =>
      rw [Bindings.ofArgs, List.zip_nil_right]
      exact .nil
  | cons hfirst _ ih =>
      cases params with
      | nil => exact .nil
      | cons param params => exact .cons ⟨rfl, hfirst⟩ (ih params)

theorem Congruent.getD (hcongruent : Congruent R) {left right : Bindings}
    (hbindings : left.Rel R right) (param : Node) :
    R ((left.get? param).getD (.variable param))
      ((right.get? param).getD (.variable param)) := by
  have hrel := hbindings.get? param
  generalize left.get? param = first, right.get? param = second at hrel
  cases hrel with
  | none => exact hcongruent.typeVariable param
  | some hvalue => exact hvalue

end

def Bindings.Blur (left right : Bindings) : Prop :=
  List.Forall₂ (fun binding binding' => binding.1 = binding'.1 ∧
    Blurs binding.2 binding'.2) left right

theorem Bindings.Blur.nil : Bindings.Blur [] [] :=
  List.Forall₂.nil

theorem Bindings.Blur.ofArgs (params : List Node) {left right : List Ty}
    (hargs : List.Forall₂ Blurs left right) :
    (Bindings.ofArgs params left).Blur (.ofArgs params right) :=
  Bindings.Rel.ofArgs params hargs

theorem Bindings.Blur.getD {left right : Bindings} (hblur : left.Blur right)
    (param : Node) :
    Blurs ((left.get? param).getD (.variable param))
      ((right.get? param).getD (.variable param)) :=
  congruent_blurs.getD hblur param

theorem blurs_ofClass (decl : Node) : Blurs (.ofClass decl) (.ofClass decl) :=
  (Alike.of_args decl
    (forall₂_map fun param _ => (Alike.variable param).blurs)).blurs

theorem Bindings.Blur.ofClass {left right : Bindings} (hblur : left.Blur right)
    (decl : Node) :
    Blurs ((Ty.ofClass decl).substitute left)
      ((Ty.ofClass decl).substitute right) := by
  have hempty : left.isEmpty = right.isEmpty := by cases hblur <;> rfl
  rw [substitute, substitute, hempty]
  split
  · exact blurs_ofClass decl
  · rw [Ty.ofClass, replace_classType, replace_classType, List.map_map,
      List.map_map]
    exact (Alike.of_args decl
      (forall₂_map fun param _ => hblur.getD param)).blurs

/-! Types that are formed as the program forms them. -/

/-- All unions in a type are in normal form, as joining types makes them. -/
inductive Formed : Ty → Prop
  | unknown : Formed .unknown
  | nothing : Formed .nothing
  | classType {decl : Node} {args : List Ty}
      (args_formed : ∀ arg ∈ args, Formed arg) :
      Formed (.classType decl args)
  | moduleType {root : Node} : Formed (.moduleType root)
  | union {members : List Ty} (normal : (Ty.union members).Normal)
      (members_formed : ∀ member ∈ members, Formed member) :
        Formed (.union members)
  | literal {text : String} : Formed (.literal text)
  | function {params : List Ty} {result : Ty}
      (params_formed : ∀ param ∈ params, Formed param)
      (result_formed : Formed result) : Formed (.function params result)
  | typeVariable {param : Node} : Formed (.variable param)

theorem Formed.blurs {ty : Ty} (hformed : ty.Formed) : Blurs ty ty := by
  induction hformed with
  | unknown => exact .unknown
  | nothing => exact .nothing
  | classType _ ih => exact (Alike.of_args _ (List.forall₂_same.mpr ih)).blurs
  | moduleType => exact (Alike.moduleType _).blurs
  | @union members hnormal _ ih =>
      have halike : ∀ member ∈ members, Alike member member :=
        fun member hmember =>
        (ih member hmember).alike
          (isUnion_of_isAlternative (hnormal.2.2 member hmember))
          (hnormal.2.2 member hmember)
      have hknown :
          Blurs
            (ofAlternatives
              (distinct ((members.map fun member => (member, member)).map
          Prod.fst))) _ := .known _ (List.forall_mem_map.mpr halike)
      rw [List.map_map, List.map_map] at hknown
      have hsame : ofAlternatives (distinct (members.map id)) =
          .union members := by
        rw [List.map_id, distinct_of_nodup hnormal.2.1]
        exact hnormal.ofAlternatives_alternatives
      exact hsame ▸ hknown
  | literal => exact (Alike.literal _).blurs
  | function _ _ ih ihResult =>
      exact (Alike.of_params (List.forall₂_same.mpr ih) ihResult).blurs
  | typeVariable => exact (Alike.variable _).blurs

theorem Blurs.normal {left right : Ty} (hblurs : Blurs left right) :
    left.Normal := by
  cases hblurs with
  | unknown => trivial
  | known pairs halike =>
      refine normal_ofAlternatives (fun ty hty => ?_) (nodup_distinct _)
      exact isAlternative_of_alike_left halike ty (mem_distinct.mp hty)

theorem formed_ofAlternatives {types : List Ty}
    (hnormal : (ofAlternatives types).Normal)
    (hformed : ∀ ty ∈ types, ty.Formed) : (ofAlternatives types).Formed := by
  match types, hnormal, hformed with
  | [], _, _ => exact .nothing
  | [ty], _, hformed => exact hformed ty List.mem_cons_self
  | _ :: _ :: _, hnormal, hformed => exact .union hnormal hformed

mutual

theorem Blurs.formed : {left right : Ty} → Blurs left right → left.Formed
  | _, _, .unknown => .unknown
  | _, _, .known pairs halike => by
      refine formed_ofAlternatives (Blurs.known pairs halike).normal
        fun ty hty => ?_
      obtain ⟨pair, hpair, rfl⟩ := List.mem_map.mp (mem_distinct.mp hty)
      exact (halike pair hpair).formed

theorem Alike.formed : {left right : Ty} → Alike left right → left.Formed
  | _, _, .classType _ _ hargs =>
      .classType (List.forall_mem_map.mpr fun pair hpair =>
        (hargs pair hpair).formed)
  | _, _, .function _ hparams hresult =>
      .function (List.forall_mem_map.mpr fun pair hpair =>
        (hparams pair hpair).formed) hresult.formed
  | _, _, .moduleType _ => .moduleType
  | _, _, .literal _ => .literal
  | _, _, .variable _ => .typeVariable

end

theorem Formed.normal {ty : Ty} (hformed : ty.Formed) : ty.Normal :=
  hformed.blurs.normal

theorem formed_unionOf {types : List Ty} (htypes : ∀ ty ∈ types, ty.Formed) :
    (Ty.unionOf types).Formed :=
  (Blurs.unionOf (List.forall₂_same.mpr fun ty hty =>
    (htypes ty hty).blurs)).formed

theorem Formed.join {left right : Ty} (hleft : left.Formed)
    (hright : right.Formed) :
    (left.join right).Formed :=
  (hleft.blurs.join hright.blurs).formed

theorem Formed.nullable {ty : Ty} (hformed : ty.Formed) (base : Base) :
    (ty.nullable base).Formed :=
  (hformed.blurs.nullable base).formed

theorem Formed.nonNull {ty : Ty} (hformed : ty.Formed) (base : Base) :
    (ty.nonNull base).Formed :=
  (hformed.blurs.nonNull base).formed

theorem formed_type (base : Base) (name : String) : (base.type name).Formed :=
  (blurs_type base name).formed

theorem Normal.nonNull_nonNull {ty : Ty} (hnormal : ty.Normal) (base : Base) :
    (ty.nonNull base).nonNull base = ty.nonNull base := by
  cases hknown : ty.isUnknown with
  | true =>
      rw [eq_unknown_of_isUnknown hknown]
      rfl
  | false =>
      have halternative : ∀ member ∈ ty.alternatives,
          member.isAlternative = true :=
        fun member hmember => hnormal.isAlternative_of_mem hknown hmember
      have hnodup := nodup_alternatives hnormal
      rw [← hnormal.ofAlternatives_alternatives,
        nonNull_ofAlternatives base halternative hnodup,
        nonNull_ofAlternatives base (fun member hmember =>
          halternative member (List.mem_filter.mp hmember).1) (hnodup.filter _),
        List.filter_filter]
      simp only [Bool.and_self]

abbrev Bindings.Formed (bindings : Bindings) : Prop :=
  bindings.Blur bindings

theorem Bindings.formed_iff {bindings : Bindings} :
    bindings.Formed ↔ ∀ binding ∈ bindings, binding.2.Formed := by
  refine List.forall₂_same.trans (forall₂_congr fun binding _ => ?_)
  exact ⟨fun hblurs => hblurs.2.formed, fun hformed => ⟨rfl, hformed.blurs⟩⟩

theorem Bindings.formed_ofArgs (params : List Node) {args : List Ty}
    (hargs : ∀ arg ∈ args, arg.Formed) : (Bindings.ofArgs params args).Formed :=
  .ofArgs params (List.forall₂_same.mpr fun arg harg => (hargs arg harg).blurs)

theorem Formed.replace {bindings : Bindings} (hbindings : bindings.Formed)
    {ty : Ty} (hformed : ty.Formed) : (ty.replace bindings).Formed := by
  induction hformed with
  | unknown => exact .unknown
  | nothing => exact .nothing
  | moduleType => exact .moduleType
  | literal => exact .literal
  | classType _ ih =>
      rw [replace_classType]
      exact .classType (List.forall_mem_map.mpr ih)
  | union _ _ ih =>
      rw [replace_union]
      exact formed_unionOf (List.forall_mem_map.mpr ih)
  | function _ _ ih ihResult =>
      rw [replace_function]
      exact .function (List.forall_mem_map.mpr ih) ihResult
  | typeVariable => exact (hbindings.getD _).formed

theorem Formed.substitute {bindings : Bindings} (hbindings : bindings.Formed)
    {ty : Ty} (hformed : ty.Formed) : (ty.substitute bindings).Formed := by
  rw [Ty.substitute]
  split
  case isTrue => exact hformed
  case isFalse => exact hformed.replace hbindings

end PklAnalysis.Ty

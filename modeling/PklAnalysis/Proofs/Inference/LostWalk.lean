import PklAnalysis.Proofs.Inference.Exhaustion
import PklAnalysis.Proofs.Inference.Subtype

/-!
What less depth does to subtyping. What lies beyond the depth is taken to
conform, and so is what less depth makes unknown. A walk along superclasses is
different: it ends at a superclass that is not known, and classes that come
after it are missed. This is the only way in which types that conform with
enough depth can fail to conform with less.
-/

namespace PklAnalysis

namespace Inference

open Lookup Ty

/-- The superclass is not fully known, and it is no class. -/
def losesWay (context : Context) (budget : Nat) (place : Node × List Ty) :
    Bool :=
  (superclass? context (resolveType context budget)
    (.ofArgs place.1.typeParameters place.2)
    place.1).any fun parent => parent.decl?.isNone && parent.hasUnknown

/-- A walk along the superclasses of a class misses another class and loses its
way. -/
def misses (context : Context) (budget : Nat) : Ty → Ty → Bool
  | .classType decl args, .classType target _ =>
      (argsFor? context budget (.classType decl args) target).isNone &&
        (classChain context budget (.classType decl args)).getLast?.any
          (losesWay context budget)
  | _, _ => false

def comparisons (context : Context) (budget : Nat) (sub sup : Ty) :
    List (Ty × Ty) :=
  match sub, sup with
  | .unknown, _ | _, .unknown | .nothing, _ | _, .nothing => []
  | .union members, _ => members.map (·, sup)
  | _, .union members => members.map (sub, ·)
  | .variable _, _ | _, .variable _ => []
  | .classType decl args, .classType target expected =>
      let pairs :=
        ((argsFor? context (budget - 1) (.classType decl args) target).getD
          []).zip expected
      pairs ++ pairs.map Prod.swap
  | _, .classType _ _ => [(classView context.base sub, sup)]
  | .function params result, .function params' result' =>
      (result, result') :: params'.zip params
  | _, _ => []

/-- A walk loses its way and misses a class where two types are compared, or in
a comparison that fails and on which that of the types may call. -/
def strays (context : Context) : Nat → Ty → Ty → Bool
  | 0 => fun _ _ => false
  | budget + 1 => fun sub sup =>
      misses context (budget - 1) sub sup ||
        (comparisons context budget sub sup).any fun pair =>
          !subtype context budget pair.1 pair.2 &&
            strays context budget pair.1 pair.2

/-- Whether a type is a subtype of another, with a limited depth, where walks
that lose their way are taken to come to the class in the end. -/
def subtypeGranting (context : Context) : Nat → Ty → Ty → Bool
  | 0 => fun _ _ => true
  | budget + 1 => fun sub sup =>
      sub = sup || misses context (budget - 1) sub sup ||
        subtypeStep context (subtypeGranting context budget) budget sub sup

theorem subtypeGranting_succ {context : Context} {budget : Nat} {sub sup : Ty} :
    subtypeGranting context (budget + 1) sub sup =
      (decide (sub = sup) || misses context (budget - 1) sub sup ||
        subtypeStep context (subtypeGranting context budget) budget sub sup) :=
  rfl

/-! Depth is all that tells the contexts apart. -/

section

variable (context : Context) (depth : Nat)

theorem argsFor?_atDepth :
    argsFor? (context.atDepth depth) = argsFor? context := by
  funext budget ty target
  rw [argsFor?, argsFor?, classChain_atDepth]

theorem subtypeStep_atDepth :
    subtypeStep (context.atDepth depth) = subtypeStep context := by
  have hclass : conformsToClass (context.atDepth depth) =
      conformsToClass context := by
    unfold conformsToClass
    rw [argsFor?_atDepth]
    rfl
  unfold subtypeStep
  rw [hclass]
  rfl

theorem subtype_atDepth (budget : Nat) :
    subtype (context.atDepth depth) budget = subtype context budget := by
  induction budget with
  | zero => rfl
  | succ budget ih => rw [subtype, subtype, subtypeStep_atDepth, ih]

theorem misses_atDepth : misses (context.atDepth depth) = misses context := by
  have hloses : losesWay (context.atDepth depth) = losesWay context := by
    funext budget place
    rw [losesWay, losesWay, resolveType_atDepth]
    rfl
  funext budget sub sup
  rw [misses.eq_def, misses.eq_def, argsFor?_atDepth, hloses]
  simp only [classChain_atDepth]

theorem strays_atDepth (budget : Nat) :
    strays (context.atDepth depth) budget = strays context budget := by
  have hcomparisons : comparisons (context.atDepth depth) =
      comparisons context := by
    unfold comparisons
    rw [argsFor?_atDepth]
    rfl
  induction budget with
  | zero => rfl
  | succ budget ih =>
      rw [strays, strays, hcomparisons, misses_atDepth, subtype_atDepth, ih]

end

variable {context : Context}

section

variable {less more : Nat} (hle : less ≤ more)
include hle

/-- Where a walk with more depth goes on to a class, one with less depth goes on
to the same class or loses its way. -/
theorem parentClass?_or_losesWay {place place' next' : Node × List Ty}
    (hplace : PlaceBlurs place place')
    (hnext : parentClass? context (resolveType context more) place' =
      some next') :
    (∃ next, parentClass? context (resolveType context less) place = some next ∧
      PlaceBlurs next next') ∨
    parentClass? context (resolveType context less) place = none ∧
      losesWay context less place = true := by
  obtain ⟨decl, args⟩ := place
  obtain ⟨decl', args'⟩ := place'
  obtain ⟨rfl, hargs⟩ := hplace
  have hrel :=
    blurs_superclass? context hle (.ofArgs decl.typeParameters hargs) decl
  rw [parentClass?] at hnext
  rw [losesWay, parentClass?]
  dsimp only at hrel hnext ⊢
  generalize superclass? context (resolveType context less) _ decl =
    left at hrel ⊢
  generalize superclass? context (resolveType context more) _ decl =
    right at hrel hnext
  cases hrel with
  | none => cases hnext
  | @some ty ty' hblurs =>
      cases ty' with
      | classType parent args' =>
          cases hnext
          cases hclass : ty.decl? with
          | some decl =>
              cases ty with
              | classType _ args =>
                  cases hblurs.alike rfl rfl with
                  | classType _ pairs hpairs =>
                      exact .inl ⟨_, rfl, rfl, forall₂_map hpairs⟩
              | _ => cases hclass
          | none =>
              have hunknown : ty.hasUnknown = true := by
                refine hblurs.hasUnknown_or_eq.resolve_right fun hsame => ?_
                rw [hsame] at hclass
                cases hclass
              refine .inr ⟨?_, ?_⟩
              · cases ty with
                | classType _ _ => cases hclass
                | _ => rfl
              · rw [Option.any_some, hclass, hunknown]
                rfl
      | _ => cases hnext

def argsAt? (target : Node) (places : List (Node × List Ty)) :
    Option (List Ty) :=
  (places.find? fun place => place.1 = target).map Prod.snd

omit hle in
theorem argsAt?_cons (target : Node) (place : Node × List Ty)
    (places : List (Node × List Ty)) :
    argsAt? target (place :: places) =
      if place.1 = target then some place.2 else argsAt? target places := by
  rw [argsAt?, argsAt?, List.find?_cons]
  split <;> simp_all

theorem argsAt?_or_losesWay (fuel : Nat) {place place' : Node × List Ty}
    (hplace : PlaceBlurs place place') (seen : List Node) {target : Node}
    {args' : List Ty}
    (hfound :
    argsAt? target
      (unroll
        (Node.walkStep Prod.fst
          (parentClass? context (resolveType context more))) (fun _ => []) fuel
            (seen, place')) = some args') :
    let places := unroll (Node.walkStep Prod.fst
      (parentClass? context (resolveType context less))) (fun _ => []) fuel
        (seen, place)
    (∃ args,
      argsAt? target places = some args ∧ List.Forall₂ Blurs args args') ∨
      argsAt? target places = none ∧
        places.getLast?.any (losesWay context less) = true := by
  -- the walks are at the same classes for as long as both go on
  induction fuel generalizing place place' seen with
  | zero => cases hfound
  | succ fuel ih =>
      rw [unroll, Node.walkStep] at hfound ⊢
      rw [hplace.1]
      split at hfound
      case isTrue => cases hfound
      case isFalse hfresh =>
          rw [if_neg hfresh]
          dsimp only
          rw [argsAt?_cons] at hfound ⊢
          rw [hplace.1]
          split at hfound
          case isTrue htarget =>
              cases hfound
              exact .inl ⟨place.2, by rw [if_pos htarget], hplace.2⟩
          case isFalse htarget =>
              rw [if_neg htarget]
              cases hnext' : parentClass? context (resolveType context more)
                place' with
              | none =>
                  rw [hnext'] at hfound
                  cases hfound
              | some next' =>
                  rw [hnext'] at hfound
                  rcases parentClass?_or_losesWay hle hplace hnext' with
                    ⟨next, hnext, hafter⟩ | ⟨hnone, hlost⟩
                  · rw [hnext]
                    refine (ih hafter _ hfound).imp_right
                      (And.imp_right fun hlast => ?_)
                    dsimp only
                    generalize unroll _ _ fuel _ = places at hlast ⊢
                    cases places with
                    | nil => cases hlast
                    | cons first rest => exact hlast
                  · rw [hnone]
                    exact .inr ⟨rfl, hlost⟩

theorem argsFor?_or_misses {decl target : Node} {args args' : List Ty}
    {expected found' : List Ty} (hargs : List.Forall₂ Blurs args args')
    (hfound : argsFor? context more (.classType decl args') target =
      some found') :
    (∃ found, argsFor? context less (.classType decl args) target = some found ∧
      List.Forall₂ Blurs found found') ∨
    misses context less (.classType decl args) (.classType target expected) =
      true := by
  -- the limits differ, since they depend on the arguments; both walks end
  -- before either
  obtain ⟨fuel, hfuel, hfuel'⟩ : ∃ fuel,
      classLimit context (.classType decl args) ≤ fuel ∧
      classLimit context (.classType decl args') ≤ fuel :=
    ⟨_, Nat.le_max_left _ _, Nat.le_max_right _ _⟩
  have hless :=
    endsWithin_classChain context less decl args fuel hfuel fun _ => []
  have hmore :=
    endsWithin_classChain context more decl args' fuel hfuel' fun _ => []
  have hplace : PlaceBlurs (decl, args) (decl, args') := ⟨rfl, hargs⟩
  rw [argsFor?, ← hmore] at hfound
  rw [misses, argsFor?, ← hless]
  refine (argsAt?_or_losesWay hle fuel hplace [] hfound).imp_right
    fun hmissed => ?_
  obtain ⟨hnone, hlost⟩ := hmissed
  rw [argsAt?] at hnone
  rw [hnone, hlost]
  rfl

end

/-! One level of comparing types with less depth. -/

theorem subtypeStep_class_self {conforms : Ty → Ty → Bool} {budget : Nat}
    {decl : Node} {args : List Ty} (hrefl : ∀ ty, conforms ty ty = true) :
    subtypeStep context conforms budget (.classType decl args)
      (.classType decl args) = true := by
  have hargs : ∀ variances,
      argsConform conforms variances args args = true := by
    induction args with
    | nil => exact fun _ => rfl
    | cons arg rest ih =>
        intro variances
        rw [argsConform, ih, Bool.and_true, argConforms.eq_def]
        split <;> simp only [hrefl, Bool.and_self]
  have hlimit : 0 < classLimit context (.classType decl args) :=
    Nat.lt_of_le_of_lt (Nat.zero_le _) (length_reachedNodes context _)
  obtain ⟨limit, hlimit⟩ := Nat.exists_eq_succ_of_ne_zero (Nat.ne_of_gt hlimit)
  have hself : argsFor? context (budget - 1) (.classType decl args) decl =
      some args := by
    rw [argsFor?, classChain, hlimit, Node.walk]
    simp
  change (context.base.isClass decl "Any" ||
    conformsToClass context conforms budget decl args (.classType decl args)) =
      true
  rw [conformsToClass, hself, Bool.or_eq_true]
  exact .inr (hargs _)

theorem blurs_classView (base : Base) {left right : Ty}
    (halike : Alike left right) (hsimple : isSimple left = true)
    (hclass : left.decl? = none) :
    isSimple right = true ∧ right.decl? = none ∧
      Blurs (classView base left) (classView base right) := by
  cases halike with
  | classType _ _ _ => cases hclass
  | function _ hparams hresult =>
      exact ⟨rfl, rfl, blurs_functionClass base (forall₂_map hparams) hresult⟩
  | moduleType _ | literal _ => exact ⟨rfl, rfl, blurs_type base _⟩
  | «variable» _ => cases hsimple

section

variable {conforms conforms' : Ty → Ty → Bool} {less more : Nat}
  (hconforms : ∀ {sub sub' sup sup' : Ty}, Blurs sub sub' → Blurs sup sup' →
    conforms' sub' sup' = true → conforms sub sup = true)
include hconforms

theorem argConforms_of_blurs {variance : Node.Variance}
    {actual actual' expected expected' : Ty} (hactual : Blurs actual actual')
    (hexpected : Blurs expected expected')
    (hargs : argConforms conforms' variance actual' expected' = true) :
    argConforms conforms variance actual expected = true := by
  cases variance with
  | covariant => exact hconforms hactual hexpected hargs
  | contravariant => exact hconforms hexpected hactual hargs
  | invariant =>
      obtain ⟨hbelow, habove⟩ := (Bool.and_eq_true _ _).mp hargs
      exact (Bool.and_eq_true _ _).mpr
        ⟨hconforms hactual hexpected hbelow, hconforms hexpected hactual habove⟩

theorem argsConform_of_blurs {actual actual' expected expected' : List Ty}
    (hactual : List.Forall₂ Blurs actual actual')
    (hexpected : List.Forall₂ Blurs expected expected')
    {variances : List Node.Variance}
    (hargs : argsConform conforms' variances actual' expected' = true) :
    argsConform conforms variances actual expected = true := by
  induction hactual generalizing expected expected' variances with
  | nil => cases hexpected <;> rfl
  | cons hfirst _ ih =>
      cases hexpected with
      | nil => rfl
      | cons hfirst' hrest' =>
          obtain ⟨hhead, htail⟩ := (Bool.and_eq_true _ _).mp hargs
          exact (Bool.and_eq_true _ _).mpr
            ⟨argConforms_of_blurs hconforms hfirst hfirst' hhead,
              ih hrest' htail⟩

theorem forall_zip_of_blurs {params params' others others' : List Ty}
    (hparams : List.Forall₂ Blurs params params')
    (hothers : List.Forall₂ Blurs others others')
    (hpairs : ∀ pair ∈ others'.zip params', conforms' pair.1 pair.2 = true) :
    ∀ pair ∈ others.zip params, conforms pair.1 pair.2 = true := by
  induction hothers generalizing params params' with
  | nil => exact nofun
  | cons hfirst _ ih =>
      cases hparams with
      | nil => exact nofun
      | cons hfirst' hrest' =>
          rw [List.zip_cons_cons, List.forall_mem_cons] at hpairs ⊢
          exact ⟨hconforms hfirst hfirst' hpairs.1, ih hrest' hpairs.2⟩

omit hconforms in
theorem eq_of_mem_zip_self {types : List Ty} {pair : Ty × Ty}
    (hpair : pair ∈ types.zip types) :
    pair.1 = pair.2 := by
  induction types with
  | nil => cases hpair
  | cons ty rest ih =>
      rw [List.zip_cons_cons, List.mem_cons] at hpair
      rcases hpair with rfl | hpair
      · rfl
      · exact ih hpair

theorem subtypeStep_classes_of_blurs (hle : less ≤ more) {decl target : Node}
    {args args' expected expected' : List Ty}
    (hargs : List.Forall₂ Blurs args args')
    (hexpected : List.Forall₂ Blurs expected expected')
    (hstep :
    subtypeStep context conforms' more (.classType decl args')
      (.classType target expected') = true) :
    misses context (less - 1) (.classType decl args) (.classType target
      expected) = true ∨
      subtypeStep context conforms less (.classType decl args)
        (.classType target expected) = true := by
  change (context.base.isClass target "Any" ||
    conformsToClass context conforms' more target expected' (.classType decl
      args')) = true at hstep
  change _ ∨ (context.base.isClass target "Any" ||
    conformsToClass context conforms less target expected (.classType decl
      args)) = true
  rw [Bool.or_eq_true] at hstep ⊢
  rcases hstep with hany | hstep
  · exact .inr (.inl hany)
  · rw [conformsToClass] at hstep
    split at hstep
    case h_1 found' hfound' =>
        rcases argsFor?_or_misses (Nat.sub_le_sub_right hle 1) hargs
          hfound' with
          ⟨found, hfound, hblurs⟩ | hmissed
        · refine .inr (.inr ?_)
          rw [conformsToClass, hfound]
          exact argsConform_of_blurs hconforms hblurs hexpected hstep
        · exact .inl hmissed
    case h_2 => cases hstep

theorem subtypeStep_classView_of_blurs {sub sub' : Ty} {target : Node}
    {expected expected' : List Ty} (hsub : Alike sub sub')
    (hsimple : isSimple sub = true) (hclass : sub.decl? = none)
    (hexpected : Blurs (.classType target expected)
      (.classType target expected'))
    (hstep :
    subtypeStep context conforms' more sub' (.classType target expected') =
      true) :
    subtypeStep context conforms less sub (.classType target expected) =
      true := by
  obtain ⟨hsimple', hclass', hview⟩ :=
    blurs_classView context.base hsub hsimple hclass
  rw [subtypeStep_classView hsimple hclass]
  rw [subtypeStep_classView hsimple' hclass'] at hstep
  exact hstep.imp_right (hconforms hview hexpected)

theorem subtypeStep_of_alike (hle : less ≤ more)
    (hrefl : ∀ ty, conforms' ty ty = true) {sub sub' sup sup' : Ty}
    (hsub : Alike sub sub') (hsup : Alike sup sup')
    (hstep : sub' = sup' ∨
      subtypeStep context conforms' more sub' sup' = true) :
    sub = sup ∨ misses context (less - 1) sub sup = true ∨
      subtypeStep context conforms less sub sup = true := by
  cases hsup with
  | «variable» param => exact .inr (.inr (by cases hsub <;> rfl))
  | moduleType target =>
      cases hsub with
      | moduleType root =>
          rcases hstep with hsame | hstep
          · exact .inl hsame
          · exact .inr (.inr hstep)
      | «variable» _ => exact .inr (.inr rfl)
      | _ => exact absurd hstep nofun
  | literal text =>
      cases hsub with
      | literal other =>
          rcases hstep with hsame | hstep
          · exact .inl hsame
          · cases hstep
      | «variable» _ => exact .inr (.inr rfl)
      | _ => exact absurd hstep nofun
  | @function _ result pairs hpairs hresult =>
      cases hsub with
      | @function _ result' pairs' hpairs' hresult' =>
          have hstep' :
              subtypeStep context conforms' more
                (.function (pairs'.map Prod.snd) result')
              (.function (pairs.map Prod.snd) result) = true := by
            rcases hstep with hsame | hstep
            · rw [hsame, subtypeStep_functions]
              refine ⟨rfl, fun pair hpair => ?_, hrefl _⟩
              rw [eq_of_mem_zip_self hpair]
              exact hrefl _
            · exact hstep
          rw [subtypeStep_functions] at hstep' ⊢
          obtain ⟨hlength, hparams, hresults⟩ := hstep'
          refine .inr (.inr ⟨?_, ?_, hconforms hresult' hresult hresults⟩)
          · simpa using hlength
          · exact forall_zip_of_blurs hconforms (forall₂_map hpairs')
              (forall₂_map hpairs) hparams
      | «variable» _ => exact .inr (.inr rfl)
      | _ => exact absurd hstep nofun
  | classType target pairs hpairs =>
      have hexpected := forall₂_map hpairs
      have hclass := (Alike.classType target pairs hpairs).blurs
      cases hsub with
      | classType decl pairs' hpairs' =>
          refine .inr (subtypeStep_classes_of_blurs hconforms hle
            (forall₂_map hpairs') hexpected ?_)
          rcases hstep with hsame | hstep
          · rw [hsame]
            exact subtypeStep_class_self hrefl
          · exact hstep
      | «variable» _ => exact .inr (.inr rfl)
      | moduleType _ | literal _ | function _ _ _ =>
          refine .inr
            (.inr (subtypeStep_classView_of_blurs hconforms ?_ rfl rfl hclass
            (hstep.resolve_left nofun)))
          first
            | exact .moduleType _
            | exact .literal _
            | exact .function _ ‹_› ‹_›

end

/-- With some depth that is not less than the given one, a type is a subtype of
another. -/
def ConformsBeyond (context : Context) (least : Nat) (sub sup : Ty) : Prop :=
  ∃ budget ≥ least, subtype context budget sub sup = true

/-- With no more than the given depth, a type is granted to be a subtype of
another. -/
def GrantedUpTo (context : Context) (most : Nat) (sub sup : Ty) : Prop :=
  ∀ budget ≤ most, subtypeGranting context budget sub sup = true

section

variable {least most : Nat} {sub sup ty : Ty}

/-- What conforms conforms with all its alternatives, at the cost of one
level. -/
theorem ConformsBeyond.of_mem_left
    (hconforms : ConformsBeyond context (least + 1) sub sup)
    (hty : ty ∈ sub.alternatives) (halternative : ty.isAlternative = true) :
    ConformsBeyond context least ty sup := by
  obtain ⟨budget, hbudget, hsub⟩ := hconforms
  cases sub with
  | nothing => cases hty
  | union members =>
      obtain ⟨budget, rfl⟩ :=
        Nat.exists_eq_succ_of_ne_zero (Nat.ne_of_gt (Nat.zero_lt_of_lt hbudget))
      exact ⟨budget, Nat.le_of_succ_le_succ hbudget,
        subtype_of_mem_members hsub hty halternative⟩
  | _ =>
      cases List.mem_singleton.mp hty
      exact ⟨budget, Nat.le_of_succ_le hbudget, hsub⟩

theorem ConformsBeyond.exists_mem_right
    (hconforms : ConformsBeyond context (least + 1) sub sup)
    (hsub : sub.isAlternative = true) (hknown : sup.isUnknown = false) :
    ∃ ty ∈ sup.alternatives, ConformsBeyond context least sub ty := by
  obtain ⟨budget, hbudget, hstep⟩ := hconforms
  cases sup with
  | unknown => cases hknown
  | nothing =>
      obtain ⟨budget, rfl⟩ :=
        Nat.exists_eq_succ_of_ne_zero (Nat.ne_of_gt (Nat.zero_lt_of_lt hbudget))
      rw [subtype_succ, subtypeStep_nothing hsub, Bool.or_false,
        decide_eq_true_iff] at hstep
      subst hstep
      cases hsub
  | union members =>
      obtain ⟨budget, rfl⟩ :=
        Nat.exists_eq_succ_of_ne_zero (Nat.ne_of_gt (Nat.zero_lt_of_lt hbudget))
      rw [subtype_succ, subtypeStep_members_right hsub, Bool.or_eq_true,
        decide_eq_true_iff] at hstep
      obtain ⟨ty, hty, hmember⟩ :=
        List.any_eq_true.mp
          (hstep.resolve_left (ne_union_of_isAlternative hsub))
      exact ⟨ty, hty, budget, Nat.le_of_succ_le_succ hbudget, hmember⟩
  | _ =>
      exact ⟨_, List.mem_singleton_self _, budget,
        Nat.le_of_succ_le hbudget, hstep⟩

theorem GrantedUpTo.of_mem_right (hsub : sub.isAlternative = true)
    (hty : ty ∈ sup.alternatives) (hgranted : GrantedUpTo context most sub ty) :
    GrantedUpTo context most sub sup := by
  cases sup with
  | nothing => cases hty
  | union members =>
      intro budget hbudget
      cases budget with
      | zero => rfl
      | succ budget =>
          rw [subtypeGranting_succ, subtypeStep_members_right hsub,
            Bool.or_eq_true]
          exact .inr (List.any_eq_true.mpr ⟨ty, hty,
            hgranted budget (Nat.le_of_succ_le hbudget)⟩)
  | _ => exact List.mem_singleton.mp hty ▸ hgranted

theorem GrantedUpTo.of_unknown_left : GrantedUpTo context most .unknown sup
  | 0, _ => rfl
  | budget + 1, _ => by simp [subtypeGranting, subtypeStep]

theorem GrantedUpTo.of_unknown_right : GrantedUpTo context most sub .unknown
  | 0, _ => rfl
  | budget + 1, _ => by cases sub <;> simp [subtypeGranting, subtypeStep]

theorem GrantedUpTo.of_alternatives (hnormal : sub.Normal)
    (hknown : sub.isUnknown = false) (hknown' : sup.isUnknown = false)
    (hall : ∀ ty ∈ sub.alternatives,
      ty.isAlternative = true ∧ ∃ ty' ∈ sup.alternatives,
        GrantedUpTo context most ty ty') :
    GrantedUpTo context most sub sup := by
  have hmembers : ∀ ty ∈ sub.alternatives, GrantedUpTo context most ty sup :=
    fun ty hty =>
    have ⟨halternative, _, hty', hgranted⟩ := hall ty hty
    hgranted.of_mem_right halternative hty'
  cases sub with
  | unknown => cases hknown
  | nothing =>
      intro budget _
      cases budget with
      | zero => rfl
      | succ budget => cases sup <;> simp [subtypeGranting, subtypeStep]
  | union members =>
      intro budget hbudget
      have hsome : sup ≠ .nothing := by
        rintro rfl
        obtain ⟨ty, hty⟩ :=
          List.exists_mem_of_length_pos
            (Nat.lt_of_lt_of_le Nat.two_pos hnormal.1)
        obtain ⟨-, _, hty', -⟩ := hall ty hty
        cases hty'
      cases budget with
      | zero => rfl
      | succ budget =>
          rw [subtypeGranting_succ, subtypeStep_members_left hknown' hsome,
            Bool.or_eq_true]
          refine .inr (List.all_eq_true.mpr fun ty hty => ?_)
          exact hmembers ty hty budget (Nat.le_of_succ_le hbudget)
  | _ => exact hmembers _ (List.mem_singleton_self _)

end

/-- What conforms with enough depth is granted with less, also for types that
are known in parts. Of the levels that there are with enough depth, one goes
into each of two unions and one into the types in them. -/
theorem grantedUpTo_of_blurs {most : Nat} {sub sub' sup sup' : Ty}
    (hsub : Blurs sub sub') (hsup : Blurs sup sup')
    (hconforms : ConformsBeyond context (3 * most) sub' sup') :
    GrantedUpTo context most sub sup := by
  induction most generalizing sub sub' sup sup' with
  | zero =>
      intro budget hbudget
      cases Nat.le_zero.mp hbudget
      rfl
  | succ most ih =>
      cases hknown : sub.isUnknown with
      | true =>
          rw [eq_unknown_of_isUnknown hknown]
          exact .of_unknown_left
      | false =>
      cases hknown' : sup.isUnknown with
      | true =>
          rw [eq_unknown_of_isUnknown hknown']
          exact .of_unknown_right
      | false =>
          obtain ⟨-, -, hsup'Known, -⟩ := hsup.exists_known hknown'
          have hconforms : ConformsBeyond context (3 * most + 1 + 1 + 1) sub'
              sup' := hconforms
          refine .of_alternatives hsub.normal hknown hknown' fun ty hty => ?_
          obtain ⟨ty', hty', halike⟩ := hsub.exists_alike_right hknown hty
          obtain ⟨other', hother', hpair⟩ := (hconforms.of_mem_left hty'
            halike.isAlternative_right).exists_mem_right
              halike.isAlternative_right hsup'Known
          obtain ⟨other, hother, halike'⟩ :=
            hsup.exists_alike_left hknown' hother'
          refine ⟨halike.isAlternative_left, other, hother,
            fun budget hbudget => ?_⟩
          obtain ⟨more, hmore, hpair⟩ := hpair
          cases budget with
          | zero => rfl
          | succ less =>
          obtain ⟨more, rfl⟩ :=
            Nat.exists_eq_succ_of_ne_zero
              (Nat.ne_of_gt (Nat.zero_lt_of_lt hmore))
          rw [subtype_succ, Bool.or_eq_true, decide_eq_true_iff] at hpair
          rw [subtypeGranting_succ, Bool.or_eq_true, Bool.or_eq_true,
            decide_eq_true_iff, or_assoc]
          have hdeeper : ∀ {sub sub' sup sup' : Ty},
              Blurs sub sub' → Blurs sup sup' →
              subtype context more sub' sup' = true →
              subtypeGranting context less sub sup = true :=
            fun hsub hsup hpair =>
              ih hsub hsup ⟨more, by omega, hpair⟩ less
                (Nat.le_of_succ_le_succ hbudget)
          exact subtypeStep_of_alike hdeeper (by omega) (subtype_refl more)
            halike halike' hpair

/-! Where the answer comes from that walks which lose their way are granted. -/

section

variable {budget : Nat} {conforms conforms' : Ty → Ty → Bool}

theorem argsConform_mono_on {variances : List Node.Variance}
    {actual expected : List Ty}
    (hpairs : ∀ pair ∈ actual.zip expected,
      (conforms' pair.1 pair.2 = true → conforms pair.1 pair.2 = true) ∧
        (conforms' pair.2 pair.1 = true → conforms pair.2 pair.1 = true))
    (hargs : argsConform conforms' variances actual expected = true) :
    argsConform conforms variances actual expected = true := by
  induction actual generalizing variances expected with
  | nil => rfl
  | cons first rest ih =>
      cases expected with
      | nil => rfl
      | cons first' rest' =>
          rw [List.zip_cons_cons, List.forall_mem_cons] at hpairs
          obtain ⟨⟨hup, hdown⟩, hrest⟩ := hpairs
          rw [argsConform, Bool.and_eq_true] at hargs ⊢
          refine ⟨?_, ih hrest hargs.2⟩
          have hfirst := hargs.1
          revert hfirst
          cases variances.head?.getD .invariant with
          | covariant => exact hup
          | contravariant => exact hdown
          | invariant =>
              rw [argConforms, argConforms, Bool.and_eq_true, Bool.and_eq_true]
              exact And.imp hup hdown

theorem conformsToClass_mono_on {decl target : Node} {args expected : List Ty}
    (hpairs :
    ∀ pair ∈ ((argsFor? context (budget - 1) (.classType decl args) target).getD
      []).zip expected,
        (conforms' pair.1 pair.2 = true → conforms pair.1 pair.2 = true) ∧
          (conforms' pair.2 pair.1 = true → conforms pair.2 pair.1 = true))
    (hclass :
    conformsToClass context conforms' budget target expected
      (.classType decl args) = true) :
    conformsToClass context conforms budget target expected
      (.classType decl args) = true := by
  rw [conformsToClass] at hclass ⊢
  cases hfound : argsFor? context (budget - 1) (.classType decl args)
    target with
  | none =>
      rw [hfound] at hclass
      cases hclass
  | some found =>
      rw [hfound] at hclass hpairs
      exact argsConform_mono_on hpairs hclass

theorem mem_comparisons_left {sup ty : Ty} {members : List Ty}
    (hknown : sup.isUnknown = false) (hsome : sup ≠ .nothing)
    (hty : ty ∈ members) :
    (ty, sup) ∈ comparisons context budget (.union members) sup := by
  cases sup with
  | unknown => cases hknown
  | nothing => exact absurd rfl hsome
  | _ => exact List.mem_map_of_mem hty

theorem mem_comparisons_right {sub ty : Ty} {members : List Ty}
    (hsub : sub.isAlternative = true) (hty : ty ∈ members) :
    (sub, ty) ∈ comparisons context budget sub (.union members) := by
  cases sub with
  | unknown | nothing => cases hsub
  | union _ => cases hsub
  | _ => exact List.mem_map_of_mem hty

theorem mem_comparisons_classView {sub : Ty} {target : Node}
    {expected : List Ty} (hsimple : isSimple sub = true)
    (hclass : sub.decl? = none) :
    (classView context.base sub, .classType target expected) ∈
      comparisons context budget sub (.classType target expected) := by
  cases sub with
  | moduleType _ | literal _ | function _ _ => exact List.mem_singleton_self _
  | classType _ _ => cases hclass
  | _ => cases hsimple

section

variable {sub sup : Ty} {members : List Ty}

theorem subtypeStep_members_left_mono_on (hknown : sup.isUnknown = false)
    (hsome : sup ≠ .nothing)
    (hpairs : ∀ pair ∈ comparisons context budget (.union members) sup,
      conforms' pair.1 pair.2 = true → conforms pair.1 pair.2 = true)
    (hstep : subtypeStep context conforms' budget (.union members) sup = true) :
    subtypeStep context conforms budget (.union members) sup = true := by
  rw [subtypeStep_members_left hknown hsome, List.all_eq_true] at hstep ⊢
  exact fun ty hty => hpairs _ (mem_comparisons_left hknown hsome hty)
    (hstep ty hty)

theorem subtypeStep_members_right_mono_on (hsub : sub.isAlternative = true)
    (hpairs : ∀ pair ∈ comparisons context budget sub (.union members),
      conforms' pair.1 pair.2 = true → conforms pair.1 pair.2 = true)
    (hstep : subtypeStep context conforms' budget sub (.union members) = true) :
    subtypeStep context conforms budget sub (.union members) = true := by
  rw [subtypeStep_members_right hsub, List.any_eq_true] at hstep ⊢
  obtain ⟨ty, hty, hconforms⟩ := hstep
  exact ⟨ty, hty, hpairs _ (mem_comparisons_right hsub hty) hconforms⟩

theorem subtypeStep_classView_mono_on {target : Node} {expected : List Ty}
    (hsimple : isSimple sub = true) (hclass : sub.decl? = none)
    (hpairs :
    ∀ pair ∈ comparisons context budget sub (.classType target expected),
      conforms' pair.1 pair.2 = true → conforms pair.1 pair.2 = true)
    (hstep :
    subtypeStep context conforms' budget sub (.classType target expected) =
      true) :
    subtypeStep context conforms budget sub (.classType target expected) =
      true := by
  rw [subtypeStep_classView hsimple hclass] at hstep ⊢
  exact hstep.imp_right (hpairs _ (mem_comparisons_classView hsimple hclass))

theorem subtypeStep_mono_on
    (hpairs : ∀ pair ∈ comparisons context budget sub sup,
      conforms' pair.1 pair.2 = true → conforms pair.1 pair.2 = true)
    (hstep : subtypeStep context conforms' budget sub sup = true) :
    subtypeStep context conforms budget sub sup = true := by
  cases sub with
  | unknown => rfl
  | nothing => cases sup <;> rfl
  | union members =>
      cases sup with
      | unknown => rfl
      | nothing => exact hstep
      | _ => exact subtypeStep_members_left_mono_on rfl (by simp) hpairs hstep
  | «variable» _ =>
      cases sup with
      | union _ => exact subtypeStep_members_right_mono_on rfl hpairs hstep
      | _ => exact hstep
  | classType decl args =>
      cases sup with
      | union _ => exact subtypeStep_members_right_mono_on rfl hpairs hstep
      | classType target expected =>
          obtain hany | hclass := (Bool.or_eq_true _ _).mp hstep
          · exact (Bool.or_eq_true _ _).mpr (.inl hany)
          · refine (Bool.or_eq_true _ _).mpr
              (.inr (conformsToClass_mono_on (fun pair hpair => ?_) hclass))
            exact ⟨hpairs pair (List.mem_append_left _ hpair),
              hpairs pair.swap
                (List.mem_append_right _ (List.mem_map_of_mem hpair))⟩
      | _ => exact hstep
  | moduleType _ | literal _ =>
      cases sup with
      | union _ => exact subtypeStep_members_right_mono_on rfl hpairs hstep
      | classType _ _ =>
          exact subtypeStep_classView_mono_on rfl rfl hpairs hstep
      | _ => exact hstep
  | function params result =>
      cases sup with
      | union _ => exact subtypeStep_members_right_mono_on rfl hpairs hstep
      | classType _ _ =>
          exact subtypeStep_classView_mono_on rfl rfl hpairs hstep
      | function params' result' =>
          rw [subtypeStep_functions] at hstep ⊢
          obtain ⟨hlength, hparams, hresult⟩ := hstep
          exact ⟨hlength,
            fun pair hpair => hpairs pair (List.mem_cons_of_mem _ hpair)
              (hparams pair hpair),
            hpairs (_, _) List.mem_cons_self hresult⟩
      | _ => exact hstep

end

/-- What is granted conforms, or a walk loses its way. -/
theorem subtype_or_strays {sub sup : Ty}
    (hgranted : subtypeGranting context budget sub sup = true) :
    subtype context budget sub sup = true ∨
      strays context budget sub sup = true := by
  induction budget generalizing sub sup with
  | zero => exact .inl rfl
  | succ budget ih =>
      rw [subtypeGranting_succ, Bool.or_eq_true, Bool.or_eq_true,
        decide_eq_true_iff] at hgranted
      rw [subtype_succ, strays, Bool.or_eq_true, Bool.or_eq_true,
        decide_eq_true_iff]
      by_cases hstray : ((comparisons context budget sub sup).any fun pair =>
          !subtype context budget pair.1 pair.2 &&
            strays context budget pair.1 pair.2) = true
      case pos => exact .inr (.inr hstray)
      case neg =>
          rcases hgranted with (hsame | hmissed) | hstep
          · exact .inl (.inl hsame)
          · exact .inr (.inl hmissed)
          · refine .inl
              (.inr (subtypeStep_mono_on (fun pair hpair hpairGranted =>
                ?_) hstep))
            by_contra hfails
            refine hstray (List.any_eq_true.mpr ⟨pair, hpair, ?_⟩)
            rw [Bool.and_eq_true, Bool.not_eq_true', ← Bool.not_eq_true]
            exact ⟨hfails, (ih hpairGranted).resolve_left hfails⟩

end

end Inference

namespace Context

/-- Whether a walk along superclasses loses its way and misses a class, in
comparing two types. -/
def strays (context : Context) (sub sup : Ty) : Bool :=
  Inference.strays context context.budget sub sup

variable {context : Context} {sub sup : Ty}

/-- Running out of depth does not refute what holds with all depths that are
large enough, unless a walk along superclasses loses its way for want of
depth. -/
theorem isSubtype_or_strays (hsub : sub.Formed) (hsup : sup.Formed)
    (hdeep : ∃ bound, ∀ depth ≥ bound,
      (context.atDepth depth).isSubtype sub sup = true)
    (depth : Nat) :
    (context.atDepth depth).isSubtype sub sup = true ∨
      (context.atDepth depth).strays sub sup = true := by
  obtain ⟨bound, hdeep⟩ := hdeep
  have hconforms := hdeep (bound + 3 * (depth + 1)) (Nat.le_add_right _ _)
  rw [isSubtype, Inference.subtype_atDepth] at hconforms
  rw [isSubtype, strays, Inference.subtype_atDepth, Inference.strays_atDepth]
  refine Inference.subtype_or_strays
    (Inference.grantedUpTo_of_blurs hsub.blurs hsup.blurs ⟨_, ?_, hconforms⟩ _
      (Nat.le_refl _))
  change 3 * (depth + 1) ≤ bound + 3 * (depth + 1) + 1
  omega

theorem isSubtype_or_strays_chain : ∃ (context : Context) (lower upper : Node),
    lower ≠ upper ∧
      (context.atDepth 2).strays (.classType lower []) (.classType upper []) =
        false ∧
      (context.atDepth 2).isSubtype (.classType lower [])
        (.classType upper []) = true := by
  let context := (Context.ofBase .plain).withDocument chainOfClasses
  let lower : Node := ⟨chainOfClasses, 2⟩
  let upper : Node := ⟨chainOfClasses, 1⟩
  have hsettled : Inference.Settled context 1 (lower, []) :=
    Inference.settled_of_name ⟨chainOfClasses, 5⟩ upper (by decide +kernel)
      (by decide +kernel)
      (by decide +kernel) (by decide +kernel) (by decide +kernel)
  have hparent :
      Inference.parentClass? context (Inference.resolveType context 1) (lower,
        []) =
      some (upper, []) := by decide +kernel
  have hdeep : ∃ bound, ∀ depth ≥ bound,
      (context.atDepth depth).isSubtype (.classType lower []) (.classType upper
        []) = true := by
    refine ⟨2, fun depth hdepth => ?_⟩
    obtain ⟨more, rfl⟩ := Nat.exists_eq_add_of_le' hdepth
    have hnext :
        Inference.parentClass? context
          (Inference.resolveType context (more + 1))
        (lower, []) = some (upper, []) := by
      rw [Nat.add_comm, hsettled more, hparent]
    rw [isSubtype, Inference.subtype_atDepth, budget, Inference.subtype_succ,
      Bool.or_eq_true, Inference.subtypeStep_classes]
    exact .inr
      (.inr (Inference.closed_classChain Inference.mem_classChain_self hnext))
  have hfound :
      (context.atDepth 2).strays (.classType lower []) (.classType upper []) =
        false := by
    decide +kernel
  refine ⟨context, lower, upper, by decide +kernel, hfound, ?_⟩
  have hformed : ∀ decl, (Ty.classType decl []).Formed :=
    fun _ => .classType (by simp)
  refine (isSubtype_or_strays (hformed lower) (hformed upper) hdeep
    2).resolve_right ?_
  rw [hfound]
  exact Bool.false_ne_true

/-- Without depth, the class that `B` extends is not known, and `B` is found not
to extend `C`. -/
example :
    let context :=
      ((Context.ofBase .plain).withDocument chainOfClasses).atDepth 0
    let node (index : Nat) : Ty := .classType ⟨chainOfClasses, index⟩ []
    context.isSubtype (node 2) (node 1) = false ∧
      context.strays (node 2) (node 1) = true := by
  decide +kernel

end Context

end PklAnalysis

import PklAnalysis.Proofs.Inference.Comparison
import PklAnalysis.Proofs.Inference.Hierarchy
import PklAnalysis.Proofs.Node.Contents

/-!
Subtyping is transitive on types without unknowns, type variables and arguments.
It is an order on such types, given by rules, that the comparison of types
decides as far as its depth goes. Classes count as subtypes of all that a walk
along their superclasses would find, so this needs that the class which a class
extends does not depend on its arguments: a walk does not look at a class again
that comes with other arguments.
-/

namespace PklAnalysis

namespace Inference

open Lookup

variable {context : Context} {budget : Nat}

/-! Types without unknowns, variables and arguments. -/

/-- A type made of the type without values, classes without arguments, modules,
string literals, unions and functions. -/
inductive Ground (context : Context) : Ty → Prop
  | nothing : Ground context .nothing
  | classType {decl : Node} (decl_mem : decl ∈ classesOf context) :
      Ground context (.classType decl [])
  | moduleType {root : Node} : Ground context (.moduleType root)
  | literal {text : String} : Ground context (.literal text)
  | union {members : List Ty}
      (members_ground : ∀ member ∈ members, Ground context member) :
      Ground context (.union members)
  | function {params : List Ty} {result : Ty}
      (params_ground : ∀ param ∈ params, Ground context param)
      (result_ground : Ground context result) :
        Ground context (.function params result)

def classView (base : Base) : Ty → Ty
  | .literal _ => base.type "String"
  | .moduleType _ => base.type "Module"
  | .function params result => .functionClass base params result
  | ty => ty

/-- A class is, or extends, another; or that is the class above all. -/
def Below (context : Context) (decl target : Node) : Prop :=
  context.base.isClass target "Any" = true ∨
    Relation.ReflTransGen (Extends context) decl target

/-- An instance of the type is an instance of a class. Of an unknown type all is
taken to be true. -/
def Instance (context : Context) (target : Node) : Ty → Prop
  | .classType decl _ => Below context decl target
  | .unknown => True
  | _ => False

inductive Sub (context : Context) : Ty → Ty → Prop
  | refl {ty : Ty} : Sub context ty ty
  | nothing {sup : Ty} : Sub context .nothing sup
  | members {members : List Ty} {sup : Ty} (hsup : sup ≠ .nothing)
      (hmembers : ∀ member ∈ members, Sub context member sup) :
        Sub context (.union members) sup
  | member {members : List Ty} {member sub : Ty} (hmember : member ∈ members)
      (hsub : Sub context sub member) : Sub context sub (.union members)
  | top {target : Node} {sub : Ty}
      (hany : context.base.isClass target "Any" = true) :
      Sub context sub (.classType target [])
  | nominal {target : Node} {sub : Ty}
      (hinstance : Instance context target (classView context.base sub)) :
      Sub context sub (.classType target [])
  | amends {root target : Node} (hchain : target ∈ moduleChain context root) :
      Sub context (.moduleType root) (.moduleType target)
  | function {params params' : List Ty} {result result' : Ty}
      (hlength : params.length = params'.length)
      (hparams : ∀ pair ∈ params'.zip params, Sub context pair.1 pair.2)
      (hresult : Sub context result result') :
      Sub context (.function params result) (.function params' result')

variable {decl target above : Node}

theorem isClass_of_below
    (hroot : ∀ any, context.base.class? "Any" = some any →
      any.supertype? = none)
    (hany : context.base.isClass decl "Any" = true)
    (hbelow : Below context decl target) :
    context.base.isClass target "Any" = true := by
  have hclass : context.base.class? "Any" = some decl := of_decide_eq_true hany
  rcases hbelow with htarget | hpath
  · exact htarget
  · rcases Relation.ReflTransGen.cases_head hpath with hsame | ⟨next, hstep, -⟩
    · exact hsame ▸ hany
    · obtain ⟨budget, args, args', -, hparent⟩ := hstep
      have hcontains : context.base.contains decl = true :=
        decide_eq_true
          (Node.document_of_mem_childrenOf (Base.mem_of_class? hclass))
      simp [parentClass?, superclass?, hroot decl hclass, hcontains] at hparent

theorem Below.trans
    (hroot : ∀ any, context.base.class? "Any" = some any →
      any.supertype? = none)
    (hlower : Below context decl target) (hupper : Below context target above) :
    Below context decl above := by
  rcases hlower with hany | hlower
  · exact .inl (isClass_of_below hroot hany hupper)
  · exact hupper.imp_right hlower.trans

theorem Instance.trans
    (hroot : ∀ any, context.base.class? "Any" = some any →
      any.supertype? = none)
    {ty : Ty} (hinstance : Instance context target ty)
    (hbelow : Below context target above) :
    Instance context above ty := by
  cases ty with
  | classType decl args => exact Below.trans hroot hinstance hbelow
  | unknown => trivial
  | _ => cases hinstance

theorem instance_generic {name : String} {args : List Ty} :
    Instance context target (context.base.generic name args) ↔
      ∀ decl, context.base.class? name = some decl →
      Below context decl target := by
  rw [Base.generic]
  cases context.base.class? name with
  | none => simp [Instance]
  | some decl => simp [Instance]

def functionName : Nat → String
  | 0 => "Function0"
  | 1 => "Function1"
  | 2 => "Function2"
  | _ => "Function"

theorem functionClass_eq_generic (base : Base) (params : List Ty)
    (result : Ty) :
    ∃ args,
      Ty.functionClass base params result =
        base.generic (functionName params.length) args := by
  match params with
  | [] | [_] | [_, _] | _ :: _ :: _ :: _ => exact ⟨_, rfl⟩

theorem instance_functionClass {params params' : List Ty} {result result' : Ty}
    (hlength : params.length = params'.length)
    (hinstance : Instance context target
      (.functionClass context.base params' result')) :
    Instance context target (.functionClass context.base params result) := by
  obtain ⟨args, hclass⟩ := functionClass_eq_generic context.base params result
  obtain ⟨args', hclass'⟩ :=
    functionClass_eq_generic context.base params' result'
  rw [hclass', instance_generic] at hinstance
  rw [hclass, instance_generic, hlength]
  exact hinstance

theorem sizeOf_lt_of_mem {types : List Ty} {ty : Ty} (hty : ty ∈ types) :
    sizeOf ty < sizeOf (Ty.union types) := by
  have hlt := List.sizeOf_lt_of_mem hty
  rw [Ty.union.sizeOf_spec]
  omega

theorem eq_nothing_of_sub {ty : Ty} (hsub : Sub context ty .nothing) :
    ty = .nothing := by
  cases hsub with
  | refl | nothing => rfl
  | members hsup _ => exact absurd rfl hsup

theorem exists_middle {left middle right : List Ty}
    (hleft : left.length = middle.length)
    (hright : middle.length = right.length) {pair : Ty × Ty}
    (hpair : pair ∈ right.zip left) :
    ∃ ty, (pair.1, ty) ∈ right.zip middle ∧ (ty, pair.2) ∈ middle.zip left := by
  obtain ⟨i, hi, rfl⟩ := List.mem_iff_getElem.mp hpair
  rw [List.length_zip] at hi
  have hmiddle : i < middle.length := by omega
  refine ⟨middle[i], List.mem_iff_getElem.mpr ⟨i, ?_, ?_⟩,
    List.mem_iff_getElem.mpr ⟨i, ?_, ?_⟩⟩
  · rw [List.length_zip]
    omega
  · simp
  · rw [List.length_zip]
    omega
  · simp

section

variable (hroot : ∀ any, context.base.class? "Any" = some any →
    any.supertype? = none)
include hroot

/-- The rules compose: the last one of either derivation is taken off, until
they meet at a class, a module or a function. -/
theorem Sub.trans_of_sizeOf_lt {size : Nat} {left middle right : Ty}
    (hsize : sizeOf left + sizeOf middle + sizeOf right < size)
    (hleft : Sub context left middle) (hright : Sub context middle right) :
    Sub context left right := by
  induction size generalizing left middle right with
  | zero => omega
  | succ size ih =>
      -- a union on the left is below what all its members are below
      have hunion : ∀ {members}, left = .union members →
          (∀ member ∈ members, Sub context member middle) →
          Sub context left right := by
        intro members hunion hmembers
        subst hunion
        by_cases hnothing : right = .nothing
        case pos =>
            subst hnothing
            cases eq_nothing_of_sub hright
            cases eq_nothing_of_sub hleft
        case neg =>
            refine .members hnothing fun member hmember =>
              ih ?_ (hmembers member hmember) hright
            have hlt := sizeOf_lt_of_mem hmember
            omega
      cases hright with
      | refl => exact hleft
      | nothing =>
          cases eq_nothing_of_sub hleft
          exact .nothing
      | members hsup hmembers =>
          cases hleft with
          | refl => exact .members hsup hmembers
          | nothing => exact .nothing
          | members _ hbelow => exact hunion rfl hbelow
          | member hmember hsub =>
              refine ih ?_ hsub (hmembers _ hmember)
              have hlt := sizeOf_lt_of_mem hmember
              omega
      | member hmember hsub =>
          refine .member hmember (ih ?_ hleft hsub)
          have hlt := sizeOf_lt_of_mem hmember
          omega
      | top hany => exact .top hany
      | nominal hinstance =>
          cases hleft with
          | refl => exact .nominal hinstance
          | nothing => exact .nothing
          | members _ hbelow => exact hunion rfl hbelow
          | member _ _ => cases hinstance
          | top hany => exact .top (isClass_of_below hroot hany hinstance)
          | nominal hlower => exact .nominal (hlower.trans hroot hinstance)
          | amends _ => exact .nominal hinstance
          | function hlength _ _ =>
              exact .nominal (instance_functionClass hlength hinstance)
      | amends hchain =>
          cases hleft with
          | refl => exact .amends hchain
          | nothing => exact .nothing
          | members _ hbelow => exact hunion rfl hbelow
          | amends hlower => exact .amends (mem_moduleChain_trans hlower hchain)
      | function hlength hparams hresult =>
          cases hleft with
          | refl => exact .function hlength hparams hresult
          | nothing => exact .nothing
          | members _ hbelow => exact hunion rfl hbelow
          | function hlower hparams' hresult' =>
              simp only [Ty.function.sizeOf_spec] at hsize
              refine .function (hlower.trans hlength) (fun pair hpair => ?_)
                (ih (by omega) hresult' hresult)
              obtain ⟨ty, houter, hinner⟩ := exists_middle hlower hlength hpair
              have hfirst := List.sizeOf_lt_of_mem (List.of_mem_zip houter).1
              have hmiddle := List.sizeOf_lt_of_mem (List.of_mem_zip hinner).1
              have hlast := List.sizeOf_lt_of_mem (List.of_mem_zip hinner).2
              have hupper : Sub context pair.1 ty := hparams (pair.1, ty) houter
              have hlower : Sub context ty pair.2 :=
                hparams' (ty, pair.2) hinner
              exact ih (by omega) hupper hlower

theorem Sub.trans {left middle right : Ty} (hleft : Sub context left middle)
    (hright : Sub context middle right) : Sub context left right :=
  Sub.trans_of_sizeOf_lt hroot (Nat.lt_succ_self _) hleft hright

end

theorem Sub.of_mem {members : List Ty} {member sup : Ty}
    (hsub : Sub context (.union members) sup) (hmember : member ∈ members) :
    Sub context member sup := by
  generalize hunion : Ty.union members = sub at hsub
  induction hsub with
  | refl => exact hunion ▸ .member hmember .refl
  | members _ hmembers _ =>
      cases hunion
      exact hmembers member hmember
  | member hlisted _ ih => exact .member hlisted (ih hunion)
  | top hany => exact .top hany
  | nominal hinstance =>
      subst hunion
      cases hinstance
  | nothing | amends _ | function _ _ _ => cases hunion

/-- Comparing two classes comes to a superclass that more depth may change. -/
def CutShort (context : Context) (budget : Nat) : Ty → Ty → Prop
  | .classType decl args, .classType target _ =>
      context.base.isClass target "Any" = false ∧
        ∃ place ∈ chainBefore context (budget - 1) (.classType decl
          args) target, ¬ Settled context (budget - 1) place
  | _, _ => False

open Classical in
/-- Whether a type is a subtype of another, where `beyond` answers all that
takes more depth than there is. -/
noncomputable def subtypeBeyond (context : Context) (beyond : Ty → Ty → Bool) :
    Nat → Ty → Ty → Bool
  | 0 => fun sub sup => sub = sup || beyond sub sup
  | budget + 1 => fun sub sup =>
      sub = sup ||
        if CutShort context budget sub sup then beyond sub sup
        else
          subtypeStep context (subtypeBeyond context beyond budget)
            budget sub sup

variable {conforms : Ty → Ty → Bool} {args : List Ty}

theorem argsConform_nil (variances : List Node.Variance) (actuals : List Ty) :
    argsConform conforms variances actuals [] = true := by
  cases actuals <;> rfl

theorem subtypeStep_classes :
    subtypeStep context conforms budget (.classType decl args)
        (.classType target []) = true ↔
      context.base.isClass target "Any" = true ∨
        target ∈
          (classChain context (budget - 1) (.classType decl args)).map
            Prod.fst := by
  change (context.base.isClass target "Any" ||
    conformsToClass context conforms budget target [] (.classType decl args)) =
      true ↔ _
  rw [Bool.or_eq_true, conformsToClass, argsFor?]
  refine or_congr_right ?_
  cases hfound : (classChain context (budget - 1) (.classType decl args)).find?
      fun entry => entry.1 = target with
  | none =>
      refine iff_of_false Bool.false_ne_true fun hmem => ?_
      obtain ⟨place, hplace, hsame⟩ := List.mem_map.mp hmem
      exact List.find?_eq_none.mp hfound place hplace (decide_eq_true hsame)
  | some place =>
      have hsame := List.find?_some hfound
      exact iff_of_true (argsConform_nil _ _) (List.mem_map.mpr
        ⟨place, List.mem_of_find?_eq_some hfound, of_decide_eq_true hsame⟩)

theorem below_of_subtypeStep
    (hcut : ¬ CutShort context budget (.classType decl args)
      (.classType target []))
    (hstep :
    subtypeStep context conforms budget (.classType decl args)
      (.classType target []) = true) :
    Below context decl target := by
  rcases subtypeStep_classes.mp hstep with hany | hmem
  · exact .inl hany
  · by_cases hany : context.base.isClass target "Any" = true
    case pos => exact .inl hany
    case neg =>
        refine .inr (reflTransGen_of_mem_classChain
          (fun place hplace => ?_) hmem)
        by_contra hopen
        exact hcut ⟨Bool.eq_false_iff.mpr hany, place, hplace, hopen⟩

theorem subtypeStep_of_below (huniform : Uniform context)
    (hdecl : decl ∈ classesOf context)
    (hcut : ¬ CutShort context budget (.classType decl args)
      (.classType target []))
    (hbelow : Below context decl target) :
    subtypeStep context conforms budget (.classType decl args)
      (.classType target []) = true := by
  refine subtypeStep_classes.mpr ?_
  by_cases hany : context.base.isClass target "Any" = true
  case pos => exact .inl hany
  case neg =>
      refine .inr (mem_classChain_of_reflTransGen huniform hdecl
        (fun place hplace => ?_)
        (hbelow.resolve_left hany))
      by_contra hopen
      exact hcut ⟨Bool.eq_false_iff.mpr hany, place, hplace, hopen⟩

section

variable {sub sup : Ty} {members : List Ty}

theorem Ground.isUnknown_eq (hground : Ground context sup) :
    sup.isUnknown = false := by
  cases hground <;> rfl

/-- Whether a type is a class, or all its values are instances of one class. -/
def isSimple : Ty → Bool
  | .classType _ _ | .moduleType _ | .literal _ | .function _ _ => true
  | _ => false

theorem isAlternative_of_isSimple (hsimple : isSimple sub = true) :
    sub.isAlternative = true := by
  match sub, hsimple with
  | .classType _ _, _ | .moduleType _, _ | .literal _, _ | .function _ _, _ =>
      rfl

theorem subtypeStep_classView (hsimple : isSimple sub = true)
    (hclass : sub.decl? = none) :
    subtypeStep context conforms budget sub (.classType target args) = true ↔
      context.base.isClass target "Any" = true ∨
        conforms (classView context.base sub) (.classType target args) =
          true := by
  match sub, hsimple, hclass with
  | .moduleType _, _, _ | .literal _, _, _ | .function _ _, _, _ =>
      exact Bool.or_eq_true_iff

theorem classView_eq_generic (base : Base) (hsimple : isSimple sub = true)
    (hclass : sub.decl? = none) :
    ∃ name args, classView base sub = base.generic name args := by
  match sub, hsimple, hclass with
  | .moduleType _, _, _ | .literal _, _, _ => exact ⟨_, _, rfl⟩
  | .function params result, _, _ =>
      exact ⟨_, functionClass_eq_generic base params result⟩

theorem subtypeStep_functions {params params' : List Ty} {result result' : Ty} :
    subtypeStep context conforms budget (.function params result) (.function
      params' result') = true ↔
      params.length = params'.length ∧
        (∀ pair ∈ params'.zip params, conforms pair.1 pair.2 = true) ∧
        conforms result result' = true := by
  change (decide (params.length = params'.length) &&
    (params'.zip params).all (fun pair =>
      conforms pair.1 pair.2) && conforms result result') = true ↔ _
  rw [Bool.and_eq_true, Bool.and_eq_true, decide_eq_true_iff, List.all_eq_true,
    and_assoc]

theorem subtypeStep_modules {root : Node} :
    subtypeStep context conforms budget (.moduleType root) (.moduleType
      target) = true ↔
      target ∈ moduleChain context root :=
  List.contains_iff_mem

end

section

variable {sub sup : Ty}

theorem below_of_subtypeBeyond
    (hsub :
    subtypeBeyond context (fun _ _ => false) budget (.classType decl args)
      (.classType target []) = true) : Below context decl target := by
  cases budget with
  | zero =>
      simp [subtypeBeyond] at hsub
      exact .inr (hsub.1 ▸ .refl)
  | succ budget =>
      rw [subtypeBeyond, Bool.or_eq_true, decide_eq_true_iff] at hsub
      rcases hsub with hsame | hsub
      · cases hsame
        exact .inr .refl
      · split at hsub
        case isTrue => cases hsub
        case isFalse hcut => exact below_of_subtypeStep hcut hsub

theorem instance_of_subtypeBeyond {name : String}
    (hsub :
    subtypeBeyond context (fun _ _ => false) budget
      (context.base.generic name args) (.classType target []) = true) :
    Instance context target (context.base.generic name args) := by
  refine instance_generic.mpr fun decl hdecl => ?_
  rw [Base.generic, hdecl] at hsub
  exact below_of_subtypeBeyond hsub

theorem sub_of_subtypeStep
    (hdeeper : ∀ {sub sup}, Ground context sub → Ground context sup →
      subtypeBeyond context (fun _ _ => false) budget sub sup = true →
        Sub context sub sup)
    (hcut : ¬ CutShort context budget sub sup) (hsubGround : Ground context sub)
    (hsupGround : Ground context sup)
    (hstep :
    subtypeStep context (subtypeBeyond context (fun _ _ => false) budget) budget
      sub sup = true) : Sub context sub sup := by
  by_cases hsimple : isSimple sub = true
  case neg =>
      cases hsubGround with
      | nothing => exact .nothing
      | union hmembers =>
          by_cases hnothing : sup = .nothing
          case pos =>
              subst hnothing
              cases hstep
          case neg =>
              rw [subtypeStep_members_left hsupGround.isUnknown_eq hnothing,
                List.all_eq_true] at hstep
              exact .members hnothing fun member hmember =>
                hdeeper (hmembers member hmember) hsupGround
                  (hstep member hmember)
      | classType _ | moduleType | literal | function _ _ =>
          exact absurd rfl hsimple
  case pos =>
      cases hsupGround with
      | nothing =>
          rw [subtypeStep_nothing (isAlternative_of_isSimple hsimple)] at hstep
          cases hstep
      | union hmembers =>
          rw [subtypeStep_members_right (isAlternative_of_isSimple hsimple),
            List.any_eq_true] at hstep
          obtain ⟨member, hmember, hmemberStep⟩ := hstep
          exact .member hmember
            (hdeeper hsubGround (hmembers member hmember) hmemberStep)
      | classType _ =>
          by_cases hclass : sub.decl? = none
          case pos =>
              rcases (subtypeStep_classView hsimple hclass).mp hstep with
                hany | hview
              · exact .top hany
              · obtain ⟨name, args, hgeneric⟩ :=
                  classView_eq_generic context.base hsimple hclass
                rw [hgeneric] at hview
                exact .nominal (hgeneric ▸ instance_of_subtypeBeyond hview)
          case neg =>
              cases hsubGround with
              | classType _ => exact .nominal (below_of_subtypeStep hcut hstep)
              | _ => exact absurd rfl hclass
      | moduleType =>
          cases hsubGround with
          | moduleType => exact .amends (subtypeStep_modules.mp hstep)
          | nothing | union _ => cases hsimple
          | classType _ | literal | function _ _ => cases hstep
      | literal =>
          cases hsubGround with
          | nothing | union _ => cases hsimple
          | classType _ | moduleType | literal | function _ _ => cases hstep
      | function hparams' hresult' =>
          cases hsubGround with
          | function hparams hresult =>
              obtain ⟨hlength, hpairs, hresults⟩ :=
                subtypeStep_functions.mp hstep
              refine .function hlength (fun pair hpair => ?_)
                (hdeeper hresult hresult' hresults)
              obtain ⟨hexpected, hactual⟩ := List.of_mem_zip hpair
              exact hdeeper (hparams' _ hexpected) (hparams _ hactual)
                (hpairs pair hpair)
          | nothing | union _ => cases hsimple
          | classType _ | moduleType | literal => cases hstep

/-- What is accepted where all that takes more depth is denied follows from the
rules. -/
theorem sub_of_subtypeBeyond (hsubGround : Ground context sub)
    (hsupGround : Ground context sup)
    (hsub : subtypeBeyond context (fun _ _ => false) budget sub sup = true) :
    Sub context sub sup := by
  induction budget generalizing sub sup with
  | zero =>
      simp [subtypeBeyond] at hsub
      exact hsub ▸ .refl
  | succ budget ih =>
      rw [subtypeBeyond, Bool.or_eq_true, decide_eq_true_iff] at hsub
      rcases hsub with rfl | hsub
      · exact .refl
      · split at hsub
        case isTrue => cases hsub
        case isFalse hcut =>
            exact sub_of_subtypeStep (fun hsub hsup h => ih hsub hsup h) hcut
              hsubGround hsupGround hsub

/-! The rules are followed by the comparison. -/

variable (huniform : Uniform context)
include huniform

theorem subtypeBeyond_of_below (hdecl : decl ∈ classesOf context)
    (hbelow : Below context decl target) :
    subtypeBeyond context (fun _ _ => true) budget (.classType decl args)
      (.classType target []) = true := by
  cases budget with
  | zero => simp [subtypeBeyond]
  | succ budget =>
      rw [subtypeBeyond, Bool.or_eq_true]
      refine .inr ?_
      split
      case isTrue => rfl
      case isFalse hcut => exact subtypeStep_of_below huniform hdecl hcut hbelow

theorem subtypeBeyond_of_instance {name : String}
    (hinstance : Instance context target (context.base.generic name args)) :
    subtypeBeyond context (fun _ _ => true) budget
      (context.base.generic name args)
      (.classType target []) = true := by
  have hbelow := instance_generic.mp hinstance
  rw [Base.generic]
  cases hclass : context.base.class? name with
  | some decl =>
      exact subtypeBeyond_of_below huniform (mem_classesOf_class? hclass)
        (hbelow decl hclass)
  | none =>
      cases budget with
      | zero => simp [subtypeBeyond]
      | succ budget => simp [subtypeBeyond, CutShort, subtypeStep]

theorem subtypeStep_of_sub
    (hdeeper : ∀ {sub sup}, Ground context sub → Ground context sup →
      Sub context sub sup →
        subtypeBeyond context (fun _ _ => true) budget sub sup = true)
    (hcut : ¬ CutShort context budget sub sup) (hne : sub ≠ sup)
    (hsubGround : Ground context sub) (hsupGround : Ground context sup)
    (hsub : Sub context sub sup) :
    subtypeStep context (subtypeBeyond context (fun _ _ => true) budget) budget
      sub sup = true := by
  by_cases hsimple : isSimple sub = true
  case neg =>
      cases hsubGround with
      | nothing => exact subtypeStep_of_nothing
      | union hmembers =>
          have hnothing : sup ≠ .nothing := by
            rintro rfl
            cases eq_nothing_of_sub hsub
          rw [subtypeStep_members_left hsupGround.isUnknown_eq hnothing,
            List.all_eq_true]
          exact fun member hmember =>
            hdeeper (hmembers member hmember) hsupGround (hsub.of_mem hmember)
      | classType _ | moduleType | literal | function _ _ =>
          exact absurd rfl hsimple
  case pos =>
      cases hsub with
      | refl => exact absurd rfl hne
      | nothing | members _ _ => cases hsimple
      | member hmember hmemberSub =>
          cases hsupGround with
          | union hmembers =>
              rw [subtypeStep_members_right (isAlternative_of_isSimple hsimple),
                List.any_eq_true]
              exact ⟨_, hmember,
                hdeeper hsubGround (hmembers _ hmember) hmemberSub⟩
      | top hany =>
          by_cases hclass : sub.decl? = none
          case pos =>
              exact (subtypeStep_classView hsimple hclass).mpr (.inl hany)
          case neg =>
              cases hsubGround with
              | classType _ => exact subtypeStep_classes.mpr (.inl hany)
              | _ => exact absurd rfl hclass
      | nominal hinstance =>
          by_cases hclass : sub.decl? = none
          case pos =>
              refine (subtypeStep_classView hsimple hclass).mpr (.inr ?_)
              obtain ⟨name, args, hgeneric⟩ :=
                classView_eq_generic context.base hsimple hclass
              rw [hgeneric] at hinstance ⊢
              exact subtypeBeyond_of_instance huniform hinstance
          case neg =>
              cases hsubGround with
              | classType hdecl =>
                  exact subtypeStep_of_below huniform hdecl hcut hinstance
              | _ => exact absurd rfl hclass
      | amends hchain => exact subtypeStep_modules.mpr hchain
      | function hlength hpairs hresults =>
          cases hsubGround with
          | function hparams hresult =>
          cases hsupGround with
          | function hparams' hresult' =>
              refine subtypeStep_functions.mpr
                ⟨hlength, fun pair hpair => ?_,
                  hdeeper hresult hresult' hresults⟩
              obtain ⟨hexpected, hactual⟩ := List.of_mem_zip hpair
              exact hdeeper (hparams' _ hexpected) (hparams _ hactual)
                (hpairs pair hpair)

/-- What follows from the rules is accepted where all that takes more depth is
granted. -/
theorem subtypeBeyond_of_sub (hsubGround : Ground context sub)
    (hsupGround : Ground context sup) (hsub : Sub context sub sup) :
    subtypeBeyond context (fun _ _ => true) budget sub sup = true := by
  induction budget generalizing sub sup with
  | zero => simp [subtypeBeyond]
  | succ budget ih =>
      rw [subtypeBeyond, Bool.or_eq_true, decide_eq_true_iff]
      by_cases hsame : sub = sup
      case pos => exact .inl hsame
      case neg =>
          refine .inr ?_
          split
          case isTrue => rfl
          case isFalse hcut =>
              exact subtypeStep_of_sub huniform
                (fun hsub hsup h => ih hsub hsup h) hcut hsame hsubGround
                hsupGround hsub

end

/-- The depth is enough to compare two types: the answer does not depend on what
takes more. -/
def Unguarded (context : Context) (sub sup : Ty) : Prop :=
  ∀ beyond, subtypeBeyond context beyond context.budget sub sup =
    context.isSubtype sub sup

theorem unguarded_classes {decl target : Node} {args : List Ty}
    (hsettled :
    ∀ place ∈
      chainBefore context (context.maxDepth - 1) (.classType decl args) target,
        Settled context (context.maxDepth - 1) place) :
    Unguarded context (.classType decl args) (.classType target []) := by
  intro beyond
  have hcut : ¬ CutShort context context.maxDepth (.classType decl args)
      (.classType target []) :=
    fun ⟨_, place, hplace, hopen⟩ => hopen (hsettled place hplace)
  rw [Context.isSubtype, Context.budget, subtypeBeyond, subtype]
  dsimp only
  rw [if_neg hcut]
  congr 1
  rw [Bool.eq_iff_iff, subtypeStep_classes, subtypeStep_classes]

theorem isSubtype_iff_sub (huniform : Uniform context) {sub sup : Ty}
    (hsubGround : Ground context sub) (hsupGround : Ground context sup)
    (hdepth : Unguarded context sub sup) :
    context.isSubtype sub sup = true ↔ Sub context sub sup := by
  refine ⟨fun hsub => ?_, fun hsub => ?_⟩
  · rw [← hdepth fun _ _ => false] at hsub
    exact sub_of_subtypeBeyond hsubGround hsupGround hsub
  · rw [← hdepth fun _ _ => true]
    exact subtypeBeyond_of_sub huniform hsubGround hsupGround hsub

end Inference

/-- Subtyping is transitive on types without unknowns, type variables and
arguments, where the depth is enough and the class that a class extends never
depends on arguments. -/
theorem Context.isSubtype_trans (context : Context)
    (hroot : ∀ any, context.base.class? "Any" = some any →
      any.supertype? = none)
    (huniform : Inference.Uniform context) {left middle right : Ty}
    (hleft : Inference.Ground context left)
    (hmiddle : Inference.Ground context middle)
    (hright : Inference.Ground context right)
    (hlower : Inference.Unguarded context left middle)
    (hupper : Inference.Unguarded context middle right)
    (hboth : Inference.Unguarded context left right)
    (hleftMiddle : context.isSubtype left middle = true)
    (hmiddleRight : context.isSubtype middle right = true) :
    context.isSubtype left right = true := by
  rw [Inference.isSubtype_iff_sub huniform hleft hmiddle hlower] at hleftMiddle
  rw [Inference.isSubtype_iff_sub huniform hmiddle hright hupper]
    at hmiddleRight
  rw [Inference.isSubtype_iff_sub huniform hleft hright hboth]
  exact hleftMiddle.trans hroot hmiddleRight

def chainOfClasses : Document :=
  .ofTokens "file:///chain.pkl" "class C\nclass B extends C\nclass A extends B"
    [⟨.classKw, "class", 0⟩, ⟨.whitespace, " ", 5⟩, ⟨.identifier, "C", 6⟩,
     ⟨.whitespace, "\n", 7⟩, ⟨.classKw, "class", 8⟩, ⟨.whitespace, " ", 13⟩,
     ⟨.identifier, "B", 14⟩, ⟨.whitespace, " ", 15⟩,
     ⟨.extendsKw, "extends", 16⟩, ⟨.whitespace, " ", 23⟩,
     ⟨.identifier, "C", 24⟩, ⟨.whitespace, "\n", 25⟩, ⟨.classKw, "class", 26⟩,
     ⟨.whitespace, " ", 31⟩, ⟨.identifier, "A", 32⟩, ⟨.whitespace, " ", 33⟩,
     ⟨.extendsKw, "extends", 34⟩, ⟨.whitespace, " ", 41⟩,
     ⟨.identifier, "B", 42⟩]
    (Token.ok_of_toOption (by decide +kernel))

theorem Context.isSubtype_trans_chain :
    ∃ (context : Context) (lower middle upper : Node),
      lower ≠ middle ∧ middle ≠ upper ∧
        context.isSubtype (.classType lower []) (.classType upper []) =
          true := by
  let context := (Context.ofBase .plain).withDocument chainOfClasses
  let node (index : Nat) : Node := ⟨chainOfClasses, index⟩
  have hroot : ∀ any, context.base.class? "Any" = some any →
      any.supertype? = none := by
    have hplain : ∀ node ∈ Base.plain.root.childrenOf .classDecl,
        node.supertype? = none := by
      decide +kernel
    exact fun any hclass => hplain any (Base.mem_of_class? hclass)
  have huniform : Inference.Uniform context :=
    Inference.uniform_of_no_params (by decide +kernel)
  have hground : ∀ index ∈ [1, 2, 3],
      Inference.Ground context (.classType (node index) []) := by
    have hclasses : ∀ index ∈ [1, 2, 3],
        node index ∈ Inference.classesOf context := by
      decide +kernel
    exact fun index hindex => .classType (hclasses index hindex)
  have hsettled : ∀ place ∈ [(node 3, []), (node 2, ([] : List Ty))],
      Inference.Settled context (context.maxDepth - 1) place := by
    refine List.forall_mem_cons.mpr ⟨?_, List.forall_mem_singleton.mpr ?_⟩
    · exact Inference.settled_of_name (node 8) (node 2) (by decide +kernel)
        (by decide +kernel) (by decide +kernel) (by decide +kernel)
          (by decide +kernel)
    · exact Inference.settled_of_name (node 5) (node 1) (by decide +kernel)
        (by decide +kernel) (by decide +kernel) (by decide +kernel)
          (by decide +kernel)
  have hlower : Inference.Unguarded context (.classType (node 3) [])
      (.classType (node 2) []) := by
    refine Inference.unguarded_classes fun place hplace => hsettled place ?_
    revert place
    decide +kernel
  have hupper : Inference.Unguarded context (.classType (node 2) [])
      (.classType (node 1) []) := by
    refine Inference.unguarded_classes fun place hplace => hsettled place ?_
    revert place
    decide +kernel
  have hboth : Inference.Unguarded context (.classType (node 3) [])
      (.classType (node 1) []) := by
    refine Inference.unguarded_classes fun place hplace => hsettled place ?_
    revert place
    decide +kernel
  refine ⟨context, node 3, node 2,
    node 1, by decide +kernel, by decide +kernel, ?_⟩
  exact context.isSubtype_trans hroot huniform (hground 3 (by simp))
    (hground 2 (by simp))
    (hground 1 (by simp)) hlower hupper hboth (by decide +kernel)
      (by decide +kernel)

/-- A class that extends its own parameter, and two that extend it with other
arguments. -/
def hiddenSuperclass : Document :=
  .ofTokens "file:///hidden.pkl"
    "class G<T> extends T\nclass C\nclass B extends G<C>\nclass A extends G<B>"
    [⟨.classKw, "class", 0⟩, ⟨.whitespace, " ", 5⟩, ⟨.identifier, "G", 6⟩,
     ⟨.less, "<", 7⟩, ⟨.identifier, "T", 8⟩, ⟨.greater, ">", 9⟩,
     ⟨.whitespace, " ", 10⟩, ⟨.extendsKw, "extends", 11⟩,
     ⟨.whitespace, " ", 18⟩, ⟨.identifier, "T", 19⟩, ⟨.whitespace, "\n", 20⟩,
     ⟨.classKw, "class", 21⟩, ⟨.whitespace, " ", 26⟩, ⟨.identifier, "C", 27⟩,
     ⟨.whitespace, "\n", 28⟩, ⟨.classKw, "class", 29⟩, ⟨.whitespace, " ", 34⟩,
     ⟨.identifier, "B", 35⟩, ⟨.whitespace, " ", 36⟩,
     ⟨.extendsKw, "extends", 37⟩, ⟨.whitespace, " ", 44⟩,
     ⟨.identifier, "G", 45⟩, ⟨.less, "<", 46⟩, ⟨.identifier, "C", 47⟩,
     ⟨.greater, ">", 48⟩, ⟨.whitespace, "\n", 49⟩, ⟨.classKw, "class", 50⟩,
     ⟨.whitespace, " ", 55⟩, ⟨.identifier, "A", 56⟩, ⟨.whitespace, " ", 57⟩,
     ⟨.extendsKw, "extends", 58⟩, ⟨.whitespace, " ", 65⟩,
     ⟨.identifier, "G", 66⟩, ⟨.less, "<", 67⟩, ⟨.identifier, "B", 68⟩,
     ⟨.greater, ">", 69⟩]
    (Token.ok_of_toOption (by decide +kernel))

/-- The walk from `A` comes to `B` by way of `G<B>`, and ends where it comes to
`G` again, before `C`. -/
example :
    let context := (Context.ofBase .plain).withDocument hiddenSuperclass
    let node (index : Nat) : Ty := .classType ⟨hiddenSuperclass, index⟩ []
    context.isSubtype (node 4) (node 3) = true ∧
      context.isSubtype (node 3) (node 2) = true ∧
      context.isSubtype (node 4) (node 2) = false := by
  decide +kernel

end PklAnalysis

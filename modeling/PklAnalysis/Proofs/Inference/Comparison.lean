import PklAnalysis.Inference.Subtype
import PklAnalysis.Proofs.Ty.Union

/-!
Comparing types at a given depth: what is unknown, the type without values, and
unions. A union conforms where its members do, and a type conforms to a union
that lists it.
-/

namespace PklAnalysis.Inference

open Lookup Ty

variable {context : Context} {conforms : Ty → Ty → Bool} {budget : Nat}
  {sub sup ty : Ty} {members : List Ty}

theorem subtype_succ : subtype context (budget + 1) sub sup =
    (decide (sub = sup) ||
      subtypeStep context (subtype context budget) budget sub sup) :=
  rfl

theorem subtype_refl (budget : Nat) (ty : Ty) :
    subtype context budget ty ty = true := by
  cases budget with
  | zero => rfl
  | succ budget => simp [subtype]

theorem subtypeStep_of_nothing :
    subtypeStep context conforms budget .nothing sup = true := by
  cases sup <;> rfl

theorem subtypeStep_members_left (hknown : sup.isUnknown = false)
    (hsome : sup ≠ .nothing) :
    subtypeStep context conforms budget (.union members) sup =
      members.all (conforms · sup) := by
  cases sup with
  | unknown => cases hknown
  | nothing => exact absurd rfl hsome
  | _ => rfl

theorem subtypeStep_members_right (hsub : sub.isAlternative = true) :
    subtypeStep context conforms budget sub (.union members) =
      members.any (conforms sub ·) := by
  cases sub with
  | unknown | nothing => cases hsub
  | union _ => cases hsub
  | _ => rfl

theorem subtypeStep_nothing (hsub : sub.isAlternative = true) :
    subtypeStep context conforms budget sub .nothing = false := by
  cases sub with
  | unknown | nothing => cases hsub
  | union _ => cases hsub
  | _ => rfl

theorem ne_union_of_isAlternative (hsub : sub.isAlternative = true) :
    sub ≠ .union members := by
  rintro rfl
  cases hsub

theorem subtype_unknown_left : subtype context budget .unknown sup = true := by
  cases budget with
  | zero => rfl
  | succ budget => simp [subtype, subtypeStep]

theorem subtype_unknown_right : subtype context budget sub .unknown = true := by
  cases budget with
  | zero => rfl
  | succ budget => cases sub <;> simp [subtype, subtypeStep]

theorem subtype_nothing_left : subtype context budget .nothing sup = true := by
  cases budget with
  | zero => rfl
  | succ budget => rw [subtype_succ, subtypeStep_of_nothing, Bool.or_true]

theorem eq_nothing_of_subtype (hknown : sub.isUnknown = false)
    (hsub : subtype context (budget + 1) sub .nothing = true) :
    sub = .nothing := by
  rw [subtype_succ, Bool.or_eq_true, decide_eq_true_iff] at hsub
  rcases hsub with hsame | hstep
  · exact hsame
  · cases sub with
    | unknown => cases hknown
    | nothing => rfl
    | _ => cases hstep

theorem subtype_of_mem_alternatives (hsub : sub.isAlternative = true)
    (hmem : sub ∈ sup.alternatives) :
    subtype context budget sub sup = true := by
  cases sup with
  | nothing => cases hmem
  | union members =>
      cases budget with
      | zero => rfl
      | succ budget =>
          rw [subtype_succ, subtypeStep_members_right hsub, Bool.or_eq_true,
            List.any_eq_true]
          exact .inr ⟨sub, hmem, subtype_refl budget sub⟩
  | _ =>
      cases List.mem_singleton.mp hmem
      exact subtype_refl budget _

theorem subtype_of_mem_members
    (hsub : subtype context (budget + 1) (.union members) sup = true)
    (hty : ty ∈ members) (halternative : ty.isAlternative = true) :
    subtype context budget ty sup = true := by
  rw [subtype_succ, Bool.or_eq_true, decide_eq_true_iff] at hsub
  rcases hsub with rfl | hstep
  · exact subtype_of_mem_alternatives halternative hty
  · cases sup with
    | unknown => exact subtype_unknown_right
    | nothing => cases hstep
    | _ => exact List.all_eq_true.mp hstep ty hty

theorem subtype_union (hsome : sup ≠ .nothing)
    (hmembers : ∀ ty ∈ members, subtype context budget ty sup = true) :
    subtype context (budget + 1) (.union members) sup = true := by
  cases hknown : sup.isUnknown with
  | true =>
      rw [eq_unknown_of_isUnknown hknown]
      exact subtype_unknown_right
  | false =>
      rw [subtype_succ, subtypeStep_members_left hknown hsome, Bool.or_eq_true]
      exact .inr (List.all_eq_true.mpr hmembers)

end PklAnalysis.Inference

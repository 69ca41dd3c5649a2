import PklAnalysis.Proofs.Inference.Subtype

/-!
Types with their union are a semilattice up to the order of members, with the
type without values below and the unknown type above. Where depth does not run
out, subtyping agrees: the union of two types is the least type above both.
-/

namespace PklAnalysis

namespace Inference

open Lookup Ty

variable {context : Context} {budget : Nat} {sub sup first second part : Ty}

/-- One more level of depth makes no difference to the comparison of two types.
This is so wherever depth does not run out in it. -/
def Decided (context : Context) (sub sup : Ty) : Prop :=
  subtype context (context.budget + 1) sub sup =
    subtype context context.budget sub sup

instance (context : Context) (sub sup : Ty) :
    Decidable (Decided context sub sup) :=
  inferInstanceAs (Decidable (_ = _))

theorem subtype_of_alternatives (hsub : sub.Normal)
    (hknown : sub.isUnknown = false)
    (hparts : ∀ part ∈ sub.alternatives, part ∈ sup.alternatives) :
    subtype context budget sub sup = true := by
  have hconforms : ∀ part ∈ sub.alternatives, ∀ budget,
      subtype context budget part sup = true := fun part hpart budget =>
    subtype_of_mem_alternatives (hsub.isAlternative_of_mem hknown hpart)
      (hparts part hpart)
  cases sub with
  | unknown => cases hknown
  | nothing => exact subtype_nothing_left
  | union members =>
      cases budget with
      | zero => rfl
      | succ budget =>
          refine subtype_union (fun hnothing => ?_) fun part hpart =>
            hconforms part hpart budget
          -- nothing lists no alternatives, and a union has some
          obtain ⟨part, hpart⟩ :=
            List.exists_mem_of_length_pos
              (Nat.lt_of_lt_of_le Nat.two_pos hsub.1)
          have hlisted := hparts part hpart
          rw [hnothing] at hlisted
          cases hlisted
  | _ => exact hconforms _ (List.mem_singleton_self _) budget

theorem subtype_part (hsub : sub.Normal) (hknown : sub.isUnknown = false)
    (hlower : subtype context budget sub sup = true)
    (hupper : subtype context (budget + 1) sub sup = true)
    (hpart : part ∈ sub.alternatives) :
    subtype context budget part sup = true := by
  have halternative := hsub.isAlternative_of_mem hknown hpart
  cases sub with
  | nothing => cases hpart
  | union members => exact subtype_of_mem_members hupper hpart halternative
  | _ =>
      cases List.mem_singleton.mp hpart
      exact hlower

theorem subtype_unionOf {types : List Ty} (htypes : ∀ ty ∈ types, ty.Normal)
    (hsub : sub ∈ types) :
    subtype context budget sub (unionOf types) = true := by
  cases hunknown : types.any isUnknown with
  | true =>
      rw [unionOf_of_unknown hunknown]
      exact subtype_unknown_right
  | false =>
      have hknown :=
        Bool.eq_false_iff.mpr (List.any_eq_false.mp hunknown sub hsub)
      refine subtype_of_alternatives (htypes sub hsub) hknown fun part hpart =>
        ?_
      rw [alternatives_unionOf htypes hunknown, mem_distinct]
      exact List.mem_flatMap.mpr ⟨sub, hsub, hpart⟩

section

variable (hfirst : first.Normal) (hsecond : second.Normal)
include hfirst hsecond

/-- What two types conform to, their union conforms to: its members are compared
one level deeper. -/
theorem subtype_join (hlower : subtype context budget first sup = true)
    (hupper : subtype context (budget + 1) first sup = true)
    (hlower' : subtype context budget second sup = true)
    (hupper' : subtype context (budget + 1) second sup = true) :
    subtype context (budget + 1) (first.join second) sup = true := by
  cases hknown : (first.join second).isUnknown with
  | true =>
      rw [eq_unknown_of_isUnknown hknown]
      exact subtype_unknown_left
  | false =>
      obtain ⟨hfirstKnown, hsecondKnown⟩ :=
        Bool.or_eq_false_iff.mp (isUnknown_join hfirst hsecond ▸ hknown)
      rcases join_cases hfirst hsecond hknown with
        hjoin | hjoin | ⟨members, hjoin⟩
      · rwa [hjoin]
      · rwa [hjoin]
      · have hmembers : ∀ member ∈ members,
            subtype context budget member sup = true := by
          intro member hmember
          have hlisted : member ∈ (first.join second).alternatives := by
            rwa [hjoin]
          rcases (mem_alternatives_join hfirst hsecond hknown).mp hlisted with
            hpart | hpart
          · exact subtype_part hfirst hfirstKnown hlower hupper hpart
          · exact subtype_part hsecond hsecondKnown hlower' hupper' hpart
        have hsup : sup ≠ .nothing := by
          rintro rfl
          rw [eq_nothing_of_subtype hfirstKnown hupper,
            eq_nothing_of_subtype hsecondKnown hupper']
            at hjoin
          cases hjoin
        rw [hjoin]
        exact subtype_union hsup hmembers

end

end Inference

open Inference in
/-- Joining types is associative and idempotent, commutes up to the order of
members, and has the type without values as neutral and the unknown type as
absorbing element. Both types conform to their union, and the union conforms to
all that both conform to, where the depth is enough. -/
theorem Context.join_laws (context : Context) (first second third : Ty)
    (hfirst : first.Normal) (hsecond : second.Normal) (hthird : third.Normal) :
    ((first.join second).join third = first.join (second.join third) ∧
      first.join first = first ∧
      (first.join second).alternatives.Perm (second.join first).alternatives ∧
      first.join .nothing = first ∧ Ty.nothing.join first = first ∧
      first.join .unknown = .unknown ∧ Ty.unknown.join first = .unknown) ∧
    (context.isSubtype first (first.join second) = true ∧
      context.isSubtype second (first.join second) = true) ∧
    (Decided context first third → Decided context second third →
      Decided context (first.join second) third →
      context.isSubtype first third = true →
      context.isSubtype second third = true →
      context.isSubtype (first.join second) third = true) := by
  have hboth : ∀ ty ∈ [first, second], ty.Normal := by simp [hfirst, hsecond]
  refine ⟨⟨Ty.join_assoc hfirst hsecond hthird, Ty.join_self hfirst,
    Ty.perm_alternatives_join hfirst hsecond, Ty.join_nothing hfirst,
    Ty.nothing_join hfirst, Ty.join_unknown first, Ty.unknown_join first⟩,
    ⟨subtype_unionOf hboth (by simp), subtype_unionOf hboth (by simp)⟩, ?_⟩
  intro hleftDecided hrightDecided hdecided hleft hright
  have hjoin :=
    subtype_join hfirst hsecond hleft (hleftDecided.trans hleft) hright
    (hrightDecided.trans hright)
  exact hdecided.symm.trans hjoin

/-- Two classes that extend a third, as a union with a string literal or by
themselves. -/
theorem Context.join_laws_chain :
    let context := (Context.ofBase .plain).withDocument chainOfClasses
    let node (index : Nat) : Ty := .classType ⟨chainOfClasses, index⟩ []
    let first : Ty := .union [node 3, .literal "x"]
    let second := node 2
    let third : Ty := .union [node 1, .literal "x"]
    first.join second = .union [node 3, .literal "x", node 2] ∧
      context.isSubtype (first.join second) third = true := by
  intro context node first second third
  have hlaws :=
    context.join_laws first second third
      ⟨by decide, by decide +kernel, by decide⟩
    trivial ⟨by decide, by decide +kernel, by decide⟩
  exact ⟨by decide +kernel,
    hlaws.2.2 (by decide +kernel) (by decide +kernel) (by decide +kernel)
    (by decide +kernel) (by decide +kernel)⟩

end PklAnalysis

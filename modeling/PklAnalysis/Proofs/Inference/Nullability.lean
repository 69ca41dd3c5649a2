import PklAnalysis.Proofs.Inference.Access

/-!
Null as an alternative of a type. Making a type nullable lists the class `Null`
among its alternatives, and taking its null away takes that class out again; an
unknown type has no alternatives and stays unknown. Null-safe accesses and null
coalescing are typed by the two.
-/

namespace PklAnalysis

theorem Base.isAlternative_type (base : Base) {name : String}
    (hname : name ∈ requiredClasses) :
    (base.type name).isAlternative = true := by
  obtain ⟨decl, hclass⟩ :=
    Option.isSome_iff_exists.mp (base.isSome_class? hname)
  rw [type_of_class? hclass]
  rfl

namespace Ty

variable {base : Base} {ty : Ty}

theorem isNullable_eq_any (base : Base) (ty : Ty) :
    ty.isNullable base = ty.alternatives.any (isNull base) := by
  cases ty with
  | union members => rfl
  | nothing => rfl
  | _ => exact (Bool.or_false _).symm

theorem isNullable_of_isNull (hty : ty.isNull base = true) :
    ty.isNullable base = true := by
  cases ty with
  | classType decl args => exact hty
  | _ => cases hty

theorem isNullable_ofAlternatives {types : List Ty} (hmember : ty ∈ types)
    (hty : ty.isNull base = true) :
    (ofAlternatives types).isNullable base = true := by
  match types, hmember with
  | [only], hmember =>
      cases List.mem_singleton.mp hmember
      exact isNullable_of_isNull hty
  | _ :: _ :: _, hmember => exact List.any_eq_true.mpr ⟨ty, hmember, hty⟩

theorem isNullable_type (base : Base) :
    (base.type "Null").isNullable base = true :=
  isNullable_of_isNull base.isNull_type

/-- A type with null is nullable, unless it is unknown; the type need not be in
normal form. -/
theorem unknown_or_isNullable_nullable (base : Base) (ty : Ty) :
    (ty.nullable base).isUnknown = true ∨
      (ty.nullable base).isNullable base = true := by
  rw [nullable, join]
  cases hunknown : [ty, base.type "Null"].any isUnknown with
  | true =>
      rw [unionOf_of_unknown hunknown]
      exact .inl rfl
  | false =>
      have hnullable := isNullable_type base
      rw [isNullable_eq_any, List.any_eq_true] at hnullable
      obtain ⟨member, hmember, hnull⟩ := hnullable
      rw [unionOf_of_known hunknown]
      refine .inr (isNullable_ofAlternatives (mem_distinct.mpr ?_) hnull)
      exact List.mem_flatMap.mpr ⟨base.type "Null", by simp, hmember⟩

theorem Normal.nonNull_eq (hnormal : ty.Normal) (hknown : ty.isUnknown = false)
    (base : Base) :
    ty.nonNull base =
      ofAlternatives (ty.alternatives.filter (!isNull base ·)) := by
  conv => lhs; rw [← hnormal.ofAlternatives_alternatives]
  refine nonNull_ofAlternatives base (fun member hmember => ?_)
    (nodup_alternatives hnormal)
  exact hnormal.isAlternative_of_mem hknown hmember

theorem Normal.isNullable_nonNull (hnormal : ty.Normal) (base : Base) :
    (ty.nonNull base).isNullable base = false := by
  cases hknown : ty.isUnknown with
  | true =>
      rw [eq_unknown_of_isUnknown hknown]
      rfl
  | false =>
      rw [isNullable_eq_any, hnormal.nonNull_eq hknown,
        alternatives_ofAlternatives, List.any_filter]
      · simp
      · exact fun member hmember =>
          hnormal.isAlternative_of_mem hknown (List.mem_filter.mp hmember).1

section

variable (base : Base) (hnormal : ty.Normal)
include hnormal

theorem isUnknown_nullable : (ty.nullable base).isUnknown = ty.isUnknown := by
  rw [nullable, isUnknown_join hnormal (normal_type base "Null"),
    isUnknown_of_isAlternative
      (base.isAlternative_type Base.null_mem_requiredClasses),
    Bool.or_false]

theorem nonNull_nullable :
    (ty.nullable base).nonNull base = ty.nonNull base := by
  cases hknown : ty.isUnknown with
  | true =>
      rw [eq_unknown_of_isUnknown hknown, nullable, unknown_join]
  | false =>
      have hnullable : (ty.nullable base).isUnknown = false :=
        (isUnknown_nullable base hnormal).trans hknown
      have hadded :
          ((distinct (base.type "Null").alternatives).filter
            (· ∉ ty.alternatives)).filter
          (!isNull base ·) = [] := by
        rw [alternatives_of_isAlternative
            (base.isAlternative_type Base.null_mem_requiredClasses),
          List.filter_eq_nil_iff]
        intro member hmember
        have honly :=
          List.mem_singleton.mp (mem_distinct.mp (List.mem_filter.mp hmember).1)
        rw [honly, base.isNull_type]
        exact Bool.false_ne_true
      rw [(normal_nullable base hnormal).nonNull_eq hnullable,
        hnormal.nonNull_eq hknown]
      rw [nullable] at hnullable ⊢
      rw [alternatives_join hnormal (normal_type base "Null") hnullable,
        distinct_append, distinct_of_nodup (nodup_alternatives hnormal),
        List.filter_append, hadded, List.append_nil]

theorem isNullable_nullable_eq :
    (ty.nullable base).isNullable base = !ty.isUnknown := by
  cases hknown : ty.isUnknown with
  | true =>
      rw [eq_unknown_of_isUnknown hknown, nullable, unknown_join]
      rfl
  | false =>
      refine (unknown_or_isNullable_nullable base ty).resolve_left ?_
      rw [isUnknown_nullable base hnormal, hknown]
      exact Bool.false_ne_true

end

theorem isNullable_join {left right : Ty} (hleft : left.Normal)
    (hright : right.Normal) (hknown : (left.join right).isUnknown = false) :
    (left.join right).isNullable base =
      (left.isNullable base || right.isNullable base) := by
  rw [isNullable_eq_any, alternatives_join hleft hright hknown,
    isNullable_eq_any, isNullable_eq_any, ← List.any_append, Bool.eq_iff_iff,
    List.any_eq_true, List.any_eq_true]
  simp only [mem_distinct]

end Ty

namespace Inference

variable {context : Context} {deeper : Answers} {bindings : Ty.Bindings}
  {node : Node}

/-- A null-safe access is nullable or unknown, whatever its receiver and the
member are. -/
theorem isNullable_accessType (hsafe : node.isNullSafeAccess = true) :
    (accessType context deeper bindings node).isUnknown = true ∨
      (accessType context deeper bindings node).isNullable context.base =
        true := by
  obtain ⟨hkind, hsafe⟩ : node.kind = .qualifiedAccessExpr ∧
    node.isNullSafe = true := by
    simpa [Node.isNullSafeAccess] using hsafe
  rw [accessType]
  cases Lookup.accessName? node with
  | none => exact .inl rfl
  | some entry =>
      dsimp only
      rw [if_pos hkind]
      cases node.receiver with
      | error _ => exact .inl rfl
      | ok receiver =>
          dsimp only
          rw [if_pos hsafe]
          split
          case isTrue => exact .inr (Ty.isNullable_type context.base)
          case isFalse => exact Ty.unknown_or_isNullable_nullable context.base _

/-- Coalescing takes the null of the left operand away, so that of the right one
is left. -/
theorem isNullable_coalesced (hdeeper : deeper.Formed)
    (hbindings : bindings.Formed) (hkind : node.kind = .nullCoalesceExpr)
    {budget : Nat}
    (hknown : (exprType context deeper budget bindings node).isUnknown =
      false) :
    ∃ right, node.exprs[1]? = some right ∧
      (exprType context deeper budget bindings node).isNullable context.base =
        (deeper.exprType bindings right).isNullable context.base := by
  have hcoalesced : exprType context deeper budget bindings node =
      ((exprTypeOf deeper bindings node.expr?).nonNull context.base).join
        (exprTypeOf deeper bindings node.exprs[1]?) := by
    rw [exprType, hkind]
  have hleft := formed_exprTypeOf hdeeper hbindings node.expr?
  have hright := (formed_exprTypeOf hdeeper hbindings node.exprs[1]?).normal
  rw [hcoalesced] at hknown ⊢
  rw [Ty.isNullable_join (hleft.nonNull context.base).normal hright hknown,
    hleft.normal.isNullable_nonNull context.base, Bool.false_or]
  cases hexprs : node.exprs[1]? with
  | some right => exact ⟨right, rfl, rfl⟩
  | none =>
      rw [hexprs, exprTypeOf, Ty.join_unknown] at hknown
      cases hknown

end Inference

/-- Making a type nullable and taking its null away undo each other; a null-safe
access is nullable, and `??` is nullable where its right operand is. -/
theorem Context.nullability_laws (context : Context) :
    (∀ ty : Ty, ty.Normal →
      (ty.nullable context.base).nonNull context.base =
        ty.nonNull context.base ∧
      (ty.nonNull context.base).isNullable context.base = false ∧
      (ty.nonNull context.base).nonNull context.base = ty.nonNull context.base ∧
      (ty.nullable context.base).isNullable context.base = !ty.isUnknown) ∧
    (∀ bindings node, node.isNullSafeAccess = true →
      (context.exprType bindings node).isUnknown = true ∨
        (context.exprType bindings node).isNullable context.base = true) ∧
    ∀ bindings : Ty.Bindings, (∀ binding ∈ bindings, binding.2.Formed) →
      ∀ node : Node, node.kind = .nullCoalesceExpr →
        (context.exprType bindings node).isUnknown = false →
        ∃ right, node.exprs[1]? = some right ∧
          (context.exprType bindings node).isNullable context.base =
            ((Inference.answers context context.maxDepth).exprType bindings
              right).isNullable
              context.base := by
  refine ⟨fun ty hnormal => ⟨?_, ?_, ?_, ?_⟩, fun bindings node hsafe => ?_,
    fun bindings hbindings node hkind hknown => ?_⟩
  · exact Ty.nonNull_nullable context.base hnormal
  · exact hnormal.isNullable_nonNull context.base
  · exact hnormal.nonNull_nonNull context.base
  · exact Ty.isNullable_nullable_eq context.base hnormal
  · have hkind : node.kind = .qualifiedAccessExpr :=
      of_decide_eq_true (Bool.and_eq_true_iff.mp hsafe).1
    rw [context.exprType_eq, Inference.exprType, hkind]
    exact Inference.isNullable_accessType hsafe
  · exact Inference.isNullable_coalesced
      (Inference.formed_answers context context.maxDepth)
      (Ty.Bindings.formed_iff.mpr hbindings) hkind hknown

def moduleOfCoalesces : Document :=
  .ofTokens "file:///coalesce.pkl" "x=null?.p??null\ny=null??true"
    [⟨.identifier, "x", 0⟩, ⟨.equal, "=", 1⟩, ⟨.nullKw, "null", 2⟩,
     ⟨.questionDot, "?.", 6⟩, ⟨.identifier, "p", 8⟩,
     ⟨.questionQuestion, "??", 9⟩, ⟨.nullKw, "null", 11⟩,
     ⟨.whitespace, "\n", 15⟩, ⟨.identifier, "y", 16⟩, ⟨.equal, "=", 17⟩,
     ⟨.nullKw, "null", 18⟩, ⟨.questionQuestion, "??", 22⟩,
     ⟨.trueKw, "true", 24⟩]
    (Token.ok_of_toOption (by decide +kernel))

def contextOfCoalesces : Context :=
  (Context.ofBase .plain).withDocument moduleOfCoalesces

/-- The access and the first `??` are nullable, the second `??` is not. -/
theorem Context.nullability_laws_coalesce :
    let node (index : Nat) : Node := ⟨moduleOfCoalesces, index⟩
    let isNullable (index : Nat) : Bool :=
      (contextOfCoalesces.exprType [] (node index)).isNullable
        contextOfCoalesces.base
    ((Ty.literal "text").nullable
      contextOfCoalesces.base).isNullable contextOfCoalesces.base = true ∧
      isNullable 4 = true ∧ isNullable 3 = true ∧ isNullable 7 = false := by
  intro node isNullable
  obtain ⟨htypes, hsafe, hcoalesce⟩ := contextOfCoalesces.nullability_laws
  have hexprs : (node 3).exprs[1]? = some (node 5) ∧
      (node 7).exprs[1]? = some (node 9) := by
    decide +kernel
  refine ⟨(htypes (.literal "text") trivial).2.2.2, ?_, ?_, ?_⟩
  · refine (hsafe [] (node 4) (by decide +kernel)).resolve_left ?_
    decide +kernel
  · obtain ⟨right, hright, hsame⟩ :=
      hcoalesce [] (fun _ hbinding => absurd hbinding List.not_mem_nil)
      (node 3) (by decide +kernel) (by decide +kernel)
    cases Option.some.inj (hright.symm.trans hexprs.1)
    exact hsame.trans (by decide +kernel)
  · obtain ⟨right, hright, hsame⟩ :=
      hcoalesce [] (fun _ hbinding => absurd hbinding List.not_mem_nil)
      (node 7) (by decide +kernel) (by decide +kernel)
    cases Option.some.inj (hright.symm.trans hexprs.2)
    exact hsame.trans (by decide +kernel)

end PklAnalysis

import PklAnalysis.Proofs.Inference.Exhaustion
import PklAnalysis.Proofs.Node.Contents

/-!
Written types that more depth does not change. What lies too deep is unknown,
and what is formed of an unknown part has an unknown part, however types are
joined. An argument that lies too deep may still be lost without a trace, if it
is that of a type alias which does not use it; then it does not matter.
-/

namespace PklAnalysis

namespace Ty

/-- The first type has an unknown part or is the second. What bindings stand for
need not be in normal form, which `Blurs` would ask. -/
def FinalFor (left right : Ty) : Prop :=
  left.hasUnknown = true ∨ left = right

theorem FinalFor.refl (ty : Ty) : ty.FinalFor ty :=
  .inr rfl

theorem FinalFor.eq {left right : Ty} (hfinal : left.FinalFor right)
    (hknown : left.hasUnknown = false) : left = right :=
  hfinal.resolve_left (by simp [hknown])

theorem finalFor_all {left right : List Ty}
    (hall : List.Forall₂ FinalFor left right) :
    left.any hasUnknown = true ∨ left = right := by
  obtain ⟨pairs, hpairs, rfl, rfl⟩ := exists_pairs hall
  exact any_hasUnknown_or_eq hpairs

theorem any_hasUnknown_alternatives {ty : Ty} (hknown : ty.isUnknown = false)
    (hunknown : ty.hasUnknown = true) :
    ty.alternatives.any hasUnknown = true := by
  cases ty with
  | unknown => cases hknown
  | nothing => cases hunknown
  | union members => rwa [hasUnknown, hasUnknownIn_eq_any] at hunknown
  | _ => exact List.any_eq_true.mpr ⟨_, List.mem_singleton_self _, hunknown⟩

/-- Joining types takes in their unknown parts, also where members are left out
as duplicates. -/
theorem hasUnknown_unionOf {types : List Ty}
    (hunknown : types.any hasUnknown = true) :
    (unionOf types).hasUnknown = true := by
  cases hany : types.any isUnknown with
  | true =>
      rw [unionOf_of_unknown hany]
      rfl
  | false =>
      obtain ⟨ty, hty, htyUnknown⟩ := List.any_eq_true.mp hunknown
      have hknown := Bool.eq_false_iff.mpr (List.any_eq_false.mp hany ty hty)
      obtain ⟨part, hpart, hpartUnknown⟩ :=
        List.any_eq_true.mp (any_hasUnknown_alternatives hknown htyUnknown)
      rw [unionOf_of_known hany]
      refine hasUnknown_ofAlternatives
        (List.any_eq_true.mpr ⟨part, ?_, hpartUnknown⟩)
      exact mem_distinct.mpr (List.mem_flatMap.mpr ⟨ty, hty, hpart⟩)

theorem congruent_finalFor : Congruent FinalFor where
  unknown := .inl rfl
  nothing := .refl _
  moduleType _ := .refl _
  literal _ := .refl _
  typeVariable _ := .refl _
  classType decl left right hargs := by
    rw [FinalFor, hasUnknown, hasUnknownIn_eq_any]
    exact (finalFor_all hargs).imp_right (congrArg (Ty.classType decl))
  function {left right result result'} hparams hresult := by
    rw [FinalFor, hasUnknown, hasUnknownIn_eq_any, Bool.or_eq_true]
    rcases finalFor_all hparams with hunknown | rfl
    · exact .inl (.inl hunknown)
    · exact hresult.imp .inr (congrArg (Ty.function left))
  unionOf hmembers :=
    (finalFor_all hmembers).imp hasUnknown_unionOf (congrArg unionOf)

end Ty

variable {d d' : Nat}

/-- A written type that resolves to one without unknown parts resolves to the
same however much deeper types may be resolved. -/
theorem Context.resolveType_final (context : Context) (hle : d ≤ d')
    (bindings : Ty.Bindings) (node : Node)
    (hknown : ((context.atDepth d).resolveType bindings node).hasUnknown =
      false) :
    (context.atDepth d').resolveType bindings node =
      (context.atDepth d).resolveType bindings node := by
  have hsame : ∀ depth, (context.atDepth depth).resolveType bindings node =
      Inference.resolveType context (depth + 1) bindings node := fun depth => by
    rw [Context.resolveType, Inference.resolveType_atDepth]
    rfl
  rw [hsame] at hknown
  rw [hsame, hsame]
  have hfinal : (Inference.resolveType context (d + 1) bindings node).FinalFor
      (Inference.resolveType context (d' + 1) bindings node) :=
    Inference.rel_resolveType Ty.congruent_finalFor (Nat.succ_le_succ hle)
      (.refl .refl bindings) node
  exact (hfinal.eq hknown).symm

def constantAlias : Document :=
  .ofTokens "file:///constant.pkl" "typealias K<X> = C\nclass C\np:K<K<C>>"
    [⟨.typealiasKw, "typealias", 0⟩, ⟨.whitespace, " ", 9⟩,
     ⟨.identifier, "K", 10⟩, ⟨.less, "<", 11⟩, ⟨.identifier, "X", 12⟩,
     ⟨.greater, ">", 13⟩, ⟨.whitespace, " ", 14⟩, ⟨.equal, "=", 15⟩,
     ⟨.whitespace, " ", 16⟩, ⟨.identifier, "C", 17⟩, ⟨.whitespace, "\n", 18⟩,
     ⟨.classKw, "class", 19⟩, ⟨.whitespace, " ", 24⟩, ⟨.identifier, "C", 25⟩,
     ⟨.whitespace, "\n", 26⟩, ⟨.identifier, "p", 27⟩, ⟨.colon, ":", 28⟩,
     ⟨.identifier, "K", 29⟩, ⟨.less, "<", 30⟩, ⟨.identifier, "K", 31⟩,
     ⟨.less, "<", 32⟩, ⟨.identifier, "C", 33⟩, ⟨.greater, ">", 34⟩,
     ⟨.greater, ">", 35⟩]
    (Token.ok_of_toOption (by decide +kernel))

/-- The argument alone is too deep at the depth at which the whole is known. -/
theorem Context.resolveType_final_unused :
    ∃ (context : Context) (node argument : Node),
      argument ∈ node.typeArguments ∧
      Inference.resolveType context 1 [] argument = .unknown ∧
      (context.atDepth 1).resolveType [] node =
        .classType ⟨constantAlias, 2⟩ [] ∧
      (context.atDepth 64).resolveType [] node = (context.atDepth 1).resolveType
        [] node := by
  let context := (Context.ofBase .plain).withDocument constantAlias
  have hresult : (context.atDepth 1).resolveType [] ⟨constantAlias, 9⟩ =
      .classType ⟨constantAlias, 2⟩ [] := by
    decide +kernel
  refine ⟨context, ⟨constantAlias, 9⟩,
    ⟨constantAlias, 12⟩, by decide +kernel, by decide +kernel, hresult,
    Context.resolveType_final context (by decide) [] ⟨constantAlias, 9⟩ ?_⟩
  rw [hresult]
  rfl

end PklAnalysis

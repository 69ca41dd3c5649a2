import PklAnalysis.Base.Basic
import PklAnalysis.Proofs.Ty.Union

/-!
Replacing type variables. Where variables stand for types in normal form,
replacing them in a union is joining the types that its members become.
-/

namespace PklAnalysis.Ty

def Bindings.Normal (bindings : Bindings) : Prop :=
  ∀ binding ∈ bindings, binding.2.Normal

theorem Bindings.Normal.of_get? {bindings : Bindings}
    (hbindings : bindings.Normal) {param : Node} {ty : Ty}
    (hty : bindings.get? param = some ty) : ty.Normal := by
  obtain ⟨binding, hbinding, rfl⟩ := Option.map_eq_some_iff.mp hty
  exact hbindings binding (List.mem_of_find?_eq_some hbinding)

theorem Bindings.Normal.ofArgs {params : List Node} {args : List Ty}
    (hargs : ∀ arg ∈ args, arg.Normal) : (Bindings.ofArgs params args).Normal :=
  fun _ hbinding => hargs _ (List.of_mem_zip hbinding).2

variable {bindings : Bindings}

theorem replaceAll_eq_map (bindings : Bindings) (types : List Ty) :
    replaceAll bindings types = types.map (replace bindings) := by
  induction types with
  | nil => rfl
  | cons ty rest ih => rw [replaceAll, ih, List.map_cons]

@[simp] theorem replace_variable (bindings : Bindings) (param : Node) :
    (Ty.variable param).replace bindings =
      (bindings.get? param).getD (.variable param) := rfl

@[simp] theorem replace_classType (bindings : Bindings) (decl : Node)
    (args : List Ty) :
    (classType decl args).replace bindings =
      .classType decl (args.map (replace bindings)) := by
  rw [replace, replaceAll_eq_map]

@[simp] theorem replace_union (bindings : Bindings) (members : List Ty) :
    (union members).replace bindings =
      unionOf (members.map (replace bindings)) := by
  rw [replace, replaceAll_eq_map]

@[simp] theorem replace_function (bindings : Bindings) (params : List Ty)
    (result : Ty) :
    (function params result).replace bindings =
      .function (params.map (replace bindings)) (result.replace bindings) := by
  rw [replace, replaceAll_eq_map]

@[simp] theorem replace_unknown (bindings : Bindings) :
    unknown.replace bindings = .unknown := rfl

@[simp] theorem replace_nothing (bindings : Bindings) :
    nothing.replace bindings = .nothing := rfl

@[simp] theorem replace_moduleType (bindings : Bindings) (root : Node) :
    (moduleType root).replace bindings = .moduleType root := rfl

@[simp] theorem replace_literal (bindings : Bindings) (text : String) :
    (literal text).replace bindings = .literal text := rfl

theorem normal_replace_of_isAlternative (hbindings : bindings.Normal) {ty : Ty}
    (hty : ty.isAlternative = true) : (ty.replace bindings).Normal := by
  match ty, hty with
  | .variable param, _ =>
      rw [replace_variable]
      cases hbound : bindings.get? param with
      | none => trivial
      | some value => exact hbindings.of_get? hbound
  | .classType _ _, _ | .function _ _, _ | .moduleType _, _ | .literal _, _ =>
      trivial

theorem replace_ofAlternatives (hbindings : bindings.Normal) {types : List Ty}
    (htypes : ∀ ty ∈ types, ty.isAlternative = true) :
    (ofAlternatives types).replace bindings =
      unionOf (types.map (replace bindings)) := by
  match types, htypes with
  | [], _ => rfl
  | [ty], htypes =>
      have hty :=
        normal_replace_of_isAlternative hbindings (htypes ty List.mem_cons_self)
      exact (unionOf_singleton hty).symm
  | _ :: _ :: _, _ => exact replace_union bindings _

theorem Normal.replace_eq (hbindings : bindings.Normal) {ty : Ty}
    (hty : ty.Normal) (hknown : ty.isUnknown = false) :
    unionOf (ty.alternatives.map (replace bindings)) = ty.replace bindings := by
  have hmembers : ∀ member ∈ ty.alternatives, member.isAlternative = true :=
    fun member hmember => hty.isAlternative_of_mem hknown hmember
  rw [← replace_ofAlternatives hbindings hmembers,
    hty.ofAlternatives_alternatives]

theorem replace_unionOf (hbindings : bindings.Normal) {types : List Ty}
    (htypes : ∀ ty ∈ types, ty.Normal) :
    (unionOf types).replace bindings =
      unionOf (types.map (replace bindings)) := by
  cases hany : types.any isUnknown with
  | true =>
      have hunknown : (types.map (replace bindings)).any isUnknown = true := by
        obtain ⟨ty, hty, hunknown⟩ := List.any_eq_true.mp hany
        cases ty with
        | unknown =>
            exact List.any_eq_true.mpr ⟨_, List.mem_map_of_mem hty, rfl⟩
        | _ => cases hunknown
      rw [unionOf_of_unknown hany, unionOf_of_unknown hunknown, replace_unknown]
  | false =>
      have hknown : ∀ ty ∈ types, ty.isUnknown = false :=
        fun ty hty => Bool.eq_false_iff.mpr (List.any_eq_false.mp hany ty hty)
      have hparts := isAlternative_of_mem_parts htypes hany
      have hnormal : ∀ ty ∈ types,
          ∀ part ∈ ty.alternatives.map (replace bindings), part.Normal := by
        intro ty hty part hpart
        obtain ⟨member, hmember, rfl⟩ := List.mem_map.mp hpart
        refine normal_replace_of_isAlternative hbindings ?_
        exact (htypes ty hty).isAlternative_of_mem (hknown ty hty) hmember
      calc (unionOf types).replace bindings
          =
            unionOf
              ((distinct (types.flatMap alternatives)).map
                (replace bindings)) := by
            rw [unionOf_of_known hany, replace_ofAlternatives hbindings hparts]
        _ =
          unionOf
            (types.flatMap fun ty =>
              ty.alternatives.map (replace bindings)) := by
            rw [unionOf_distinct, List.map_flatMap]
        _ =
          unionOf
            (types.map fun ty =>
              unionOf (ty.alternatives.map (replace bindings))) :=
            (unionOf_map_unionOf types _ hnormal).symm
        _ = unionOf (types.map (replace bindings)) := by
            congr 1
            exact List.map_congr_left fun ty hty =>
              (htypes ty hty).replace_eq hbindings (hknown ty hty)

theorem normal_type (base : Base) (name : String) :
    (base.type name).Normal := by
  rw [Base.type, Base.generic]
  split
  · trivial
  · trivial

theorem replace_type (bindings : Bindings) (base : Base) (name : String) :
    (base.type name).replace bindings = base.type name := by
  rw [Base.type, Base.generic]
  split
  · rfl
  · rfl

theorem normal_nullable (base : Base) {ty : Ty} (hty : ty.Normal) :
    (ty.nullable base).Normal := by
  refine normal_unionOf fun member hmember => ?_
  rcases List.mem_cons.mp hmember with rfl | hnull
  · exact hty
  · cases List.mem_singleton.mp hnull
    exact normal_type base "Null"

theorem replace_nullable (hbindings : bindings.Normal) (base : Base) {ty : Ty}
    (hty : ty.Normal) :
    (ty.nullable base).replace bindings =
      (ty.replace bindings).nullable base := by
  have hboth : ∀ member ∈ [ty, base.type "Null"], member.Normal := by
    rintro member (_ | ⟨_, _ | ⟨_, hnone⟩⟩)
    · exact hty
    · exact normal_type base "Null"
    · cases hnone
  rw [nullable, join, replace_unionOf hbindings hboth, List.map_cons,
    List.map_cons, List.map_nil, replace_type]
  rfl

end PklAnalysis.Ty

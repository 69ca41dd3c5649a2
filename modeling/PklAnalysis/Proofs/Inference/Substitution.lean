import PklAnalysis.Inference.Engine
import PklAnalysis.Proofs.Lookup.TypeParameter
import PklAnalysis.Proofs.Ty.Substitution

/-!
Resolving a written type under bindings is resolving it without any and then
replacing the type variables in the result. The bindings are those of classes
and methods; a type alias brings its own, under which the type that it stands
for is resolved afresh.
-/

namespace PklAnalysis.Inference

open Lookup

variable {context : Context} {first second both : Ty.Bindings}
  {node part : Node} {budget : Nat}

theorem get?_ofArgs_map (params : List Node) (args : List Ty) (change : Ty → Ty)
    (param : Node) :
    (Ty.Bindings.ofArgs params (args.map change)).get? param =
      ((Ty.Bindings.ofArgs params args).get? param).map change := by
  rw [Ty.Bindings.ofArgs, Ty.Bindings.ofArgs, List.zip_map_right,
    Ty.Bindings.get?, Ty.Bindings.get?, List.find?_map, Option.map_map,
    Option.map_map]
  rfl

/-- At the type parameters that a node sees, replacing by the first bindings and
then by the second ones is replacing by both. -/
def Composes (first second both : Ty.Bindings) (node : Node) : Prop :=
  ∀ param, node.Sees param →
    ((Ty.variable param).replace first).replace second =
      (Ty.variable param).replace both

theorem Composes.mono (hcomposes : Composes first second both node)
    (hpart : ∀ param, part.Sees param → node.Sees param) :
    Composes first second both part :=
  fun param hsees => hcomposes param (hpart param hsees)

def SparesAliases (bindings : Ty.Bindings) : Prop :=
  ∀ decl : Node, decl.kind = .typeAlias → ∀ param ∈ decl.typeParameters,
    bindings.get? param = none

theorem composes_ofArgs {decl : Node} (args : List Ty)
    (hspares : SparesAliases second) (hkind : decl.kind = .typeAlias)
    (hpart : ∀ param, part.Sees param → param ∈ decl.typeParameters) :
    Composes (.ofArgs decl.typeParameters args) second
      (.ofArgs decl.typeParameters (args.map (Ty.replace second))) part := by
  intro param hsees
  rw [Ty.replace_variable, Ty.replace_variable, get?_ofArgs_map]
  cases (Ty.Bindings.ofArgs decl.typeParameters args).get? param with
  | some ty => rfl
  | none =>
      rw [Option.map_none, Option.getD_none, Ty.replace_variable,
        hspares decl hkind param (hpart param hsees)]
      rfl

section

variable {resolve : Ty.Bindings → Node → Ty} {bindings : Ty.Bindings}
  (hresolve : ∀ bindings : Ty.Bindings, bindings.Normal → ∀ node,
    (resolve bindings node).Normal)
include hresolve

theorem normal_declared (hbindings : bindings.Normal) (node : Node) :
    (typeStep.declared context resolve bindings node).Normal := by
  rw [typeStep.declared]
  cases node.typeName.toOption.bind (typeName? context) with
  | none => trivial
  | some target =>
      have hargs : ∀ arg ∈ node.typeArguments.map (resolve bindings),
          arg.Normal := by
        intro arg harg
        obtain ⟨written, -, rfl⟩ := List.mem_map.mp harg
        exact hresolve bindings hbindings written
      dsimp only
      split
      case h_1 | h_4 | h_5 => trivial
      case h_2 =>
          split
          case h_1 => exact hresolve _ (.ofArgs hargs) _
          case h_2 => trivial
      case h_3 =>
          cases hbound : bindings.get? target with
          | none => trivial
          | some ty => exact hbindings.of_get? hbound

theorem normal_typeStep (hbindings : bindings.Normal) (node : Node) :
    (typeStep context resolve bindings node).Normal := by
  rw [typeStep]
  split
  case h_1 | h_7 | h_9 => trivial
  case h_2 => split <;> trivial
  case h_3 =>
      split
      case h_1 => trivial
      case h_2 => exact Ty.normal_type _ _
  case h_4 =>
      split
      case h_1 => exact Ty.normal_nullable _ (hresolve bindings hbindings _)
      case h_2 => trivial
  case h_5 =>
      split
      case h_1 => exact hresolve bindings hbindings _
      case h_2 => trivial
  case h_6 =>
      refine Ty.normal_unionOf fun ty hty => ?_
      obtain ⟨member, -, rfl⟩ := List.mem_map.mp hty
      exact hresolve bindings hbindings member
  case h_8 => exact normal_declared hresolve hbindings node

end

theorem normal_resolveType {bindings : Ty.Bindings}
    (hbindings : bindings.Normal) (node : Node) :
    (resolveType context budget bindings node).Normal := by
  induction budget generalizing bindings node with
  | zero => trivial
  | succ budget ih =>
      exact normal_typeStep (fun _ hbindings node => ih hbindings node)
        hbindings node

section

variable (hfirst : first.Normal) (hsecond : second.Normal)
  (hspares : SparesAliases second)
  (hbelow : ∀ {first both node},
    first.Normal → Composes first second both node →
    (resolveType context budget first node).replace second =
      resolveType context budget both node)
  (hcomposes : Composes first second both node)
include hfirst hbelow hcomposes

theorem map_replace_resolveType {parts : List Node}
    (hparts : ∀ part ∈ parts, ∀ param, part.Sees param → node.Sees param) :
    (parts.map (resolveType context budget first)).map (Ty.replace second) =
      parts.map (resolveType context budget both) := by
  rw [List.map_map]
  exact List.map_congr_left fun part hpart =>
    hbelow hfirst (hcomposes.mono (hparts part hpart))

include hspares

theorem replace_declared (hkind : node.kind.bindsTypes = false) :
    (typeStep.declared context (resolveType context budget) first node).replace
      second =
      typeStep.declared context (resolveType context budget) both node := by
  have hargs := map_replace_resolveType hfirst hbelow hcomposes
    fun part (hpart : part ∈ node.typeArguments) param hsees =>
      hsees.of_mem_typeArguments hkind hpart
  rw [typeStep.declared, typeStep.declared]
  cases hname : node.typeName.toOption.bind (typeName? context) with
  | none => rfl
  | some target =>
      obtain ⟨name, hnode, htarget⟩ := Option.bind_eq_some_iff.mp hname
      dsimp only
      split
      case h_1 => rw [Ty.replace_classType, hargs]
      case h_2 halias =>
          split
          case h_1 aliased haliased =>
              rw [← hargs]
              refine hbelow (.ofArgs fun arg harg => ?_) ?_
              · obtain ⟨written, -, rfl⟩ := List.mem_map.mp harg
                exact normal_resolveType hfirst written
              · exact composes_ofArgs _ hspares halias fun param hsees =>
                  mem_typeParameters_of_typeAlias htarget halias haliased hsees
          case h_2 => rfl
      case h_3 hparam =>
          have hbelowNode :=
            Node.mem_children_of_required (toOption_eq_some.mp hnode)
          have hsees :=
            (sees_of_typeName? htarget hparam).of_mem_children hkind hbelowNode
          exact hcomposes target hsees
      case h_4 | h_5 => rfl

include hsecond

theorem replace_typeStep :
    (typeStep context (resolveType context budget) first node).replace second =
      typeStep context (resolveType context budget) both node := by
  have hchild : ∀ {child}, node.kind.bindsTypes = false →
      child ∈ node.children →
      (resolveType context budget first child).replace second =
        resolveType context budget both child :=
    fun hkind hchild =>
      hbelow hfirst
        (hcomposes.mono fun _ hsees => hsees.of_mem_children hkind hchild)
  rw [typeStep, typeStep]
  split
  case h_1 | h_9 => rfl
  case h_2 => split <;> rfl
  case h_3 =>
      split
      case h_1 => rfl
      case h_2 => exact Ty.replace_type _ _ _
  case h_4 hkind =>
      split
      case h_1 inner hinner =>
          rw [Ty.replace_nullable hsecond _ (normal_resolveType hfirst inner),
            hchild (by rw [hkind]; rfl) (Node.mem_children_of_required hinner)]
      case h_2 => rfl
  case h_5 hkind =>
      split
      case h_1 inner hinner =>
          exact hchild (by rw [hkind]; rfl)
            (Node.mem_children_of_required hinner)
      case h_2 => rfl
  case h_6 hkind =>
      rw [Ty.replace_unionOf hsecond,
        map_replace_resolveType hfirst hbelow hcomposes]
      · exact fun part hpart param hsees =>
          hsees.of_mem_alternatives (by rw [hkind]; rfl) hpart
      · intro ty hty
        obtain ⟨member, -, rfl⟩ := List.mem_map.mp hty
        exact normal_resolveType hfirst member
  case h_7 hkind =>
      have hbinds : node.kind.bindsTypes = false := by rw [hkind]; rfl
      rw [Ty.replace_function, map_replace_resolveType hfirst hbelow hcomposes]
      · congr 1
        split
        case h_1 result hresult =>
            exact hchild hbinds (Node.mem_children_of_resultType hresult)
        case h_2 => rfl
      · exact fun part hpart param hsees => hsees.of_mem_children hbinds
          (Node.mem_children_of_mem_types (List.mem_filter.mp hpart).1)
  case h_8 hkind =>
      exact replace_declared hfirst hspares hbelow hcomposes
        (by rw [hkind]; rfl)

end

/-- Replacing variables in what a written type stands for is resolving it under
other bindings. -/
theorem replace_resolveType (hfirst : first.Normal) (hsecond : second.Normal)
    (hspares : SparesAliases second)
    (hcomposes : Composes first second both node) :
    (resolveType context budget first node).replace second =
      resolveType context budget both node := by
  induction budget generalizing first both node with
  | zero => rfl
  | succ budget ih =>
      exact replace_typeStep hfirst hsecond hspares
        (fun hfirst hcomposes => ih hfirst hcomposes)
        hcomposes

end PklAnalysis.Inference

namespace PklAnalysis

variable {bindings : Ty.Bindings}

theorem Inference.sparesAliases_of_keys
    (hkeys : ∀ binding ∈ bindings, ∃ decl : Node,
      (decl.kind = .classDecl ∨ decl.kind = .classMethod ∨
        decl.kind = .objectMethod) ∧ binding.1 ∈ decl.typeParameters) :
    SparesAliases bindings := by
  intro decl hkind param hparam
  refine Option.map_eq_none_iff.mpr
    (List.find?_eq_none.mpr fun binding hbinding hsame => ?_)
  obtain ⟨owner, howner, hkey⟩ := hkeys binding hbinding
  rw [of_decide_eq_true hsame] at hkey
  rw [Node.eq_of_mem_typeParameters hkey hparam, hkind] at howner
  simp at howner

/-- Resolving a written type under bindings of the type parameters of classes
and methods is resolving it without any and replacing the type variables in the
result, however deep types may be resolved. -/
theorem Context.resolveType_eq_substitute (context : Context)
    (hkeys : ∀ binding ∈ bindings, ∃ decl : Node,
      (decl.kind = .classDecl ∨ decl.kind = .classMethod ∨
        decl.kind = .objectMethod) ∧ binding.1 ∈ decl.typeParameters)
    (hvalues : bindings.Normal) (node : Node) :
    context.resolveType bindings node =
      (context.resolveType [] node).substitute bindings := by
  rw [Ty.substitute]
  split
  case isTrue hempty => rw [List.isEmpty_iff.mp hempty]
  case isFalse =>
      exact (Inference.replace_resolveType
        (fun _ hbinding => absurd hbinding List.not_mem_nil) hvalues
        (Inference.sparesAliases_of_keys hkeys) fun _ _ => rfl).symm

def appliedAlias : Document :=
  .ofTokens "file:///alias.pkl"
    "typealias M<X> = X|C\nclass C\nclass B<T>\x7bp:M<T>\x7d"
    [⟨.typealiasKw, "typealias", 0⟩, ⟨.whitespace, " ", 9⟩,
     ⟨.identifier, "M", 10⟩, ⟨.less, "<", 11⟩, ⟨.identifier, "X", 12⟩,
     ⟨.greater, ">", 13⟩, ⟨.whitespace, " ", 14⟩, ⟨.equal, "=", 15⟩,
     ⟨.whitespace, " ", 16⟩, ⟨.identifier, "X", 17⟩, ⟨.pipe, "|", 18⟩,
     ⟨.identifier, "C", 19⟩, ⟨.whitespace, "\n", 20⟩, ⟨.classKw, "class", 21⟩,
     ⟨.whitespace, " ", 26⟩, ⟨.identifier, "C", 27⟩, ⟨.whitespace, "\n", 28⟩,
     ⟨.classKw, "class", 29⟩, ⟨.whitespace, " ", 34⟩, ⟨.identifier, "B", 35⟩,
     ⟨.less, "<", 36⟩, ⟨.identifier, "T", 37⟩, ⟨.greater, ">", 38⟩,
     ⟨.leftBrace, "\x7b", 39⟩, ⟨.identifier, "p", 40⟩, ⟨.colon, ":", 41⟩,
     ⟨.identifier, "M", 42⟩, ⟨.less, "<", 43⟩, ⟨.identifier, "T", 44⟩,
     ⟨.greater, ">", 45⟩, ⟨.rightBrace, "\x7d", 46⟩]
    (Token.ok_of_toOption (by decide +kernel))

/-- The parameter of the class stands for a union that has the other alternative
of the alias. -/
theorem Context.resolveType_eq_substitute_alias :
    ∃ (context : Context) (bindings : Ty.Bindings) (node : Node),
      context.resolveType bindings node =
        (context.resolveType [] node).substitute bindings ∧
        context.resolveType bindings node ≠ context.resolveType [] node := by
  let context := (Context.ofBase .plain).withDocument appliedAlias
  let bindings : Ty.Bindings :=
    [(⟨appliedAlias, 13⟩,
      .union [.classType ⟨appliedAlias, 2⟩ [], .literal "text"])]
  have hkeys : ∀ binding ∈ bindings, ∃ decl : Node,
      (decl.kind = .classDecl ∨ decl.kind = .classMethod ∨
        decl.kind = .objectMethod) ∧ binding.1 ∈ decl.typeParameters :=
    List.forall_mem_singleton.mpr ⟨⟨appliedAlias, 3⟩,
      .inl (by decide +kernel), by decide +kernel⟩
  have hvalues : bindings.Normal :=
    List.forall_mem_singleton.mpr
      ⟨by decide, by decide +kernel, by decide +kernel⟩
  refine ⟨context, bindings, ⟨appliedAlias, 16⟩,
    Context.resolveType_eq_substitute context hkeys hvalues ⟨appliedAlias, 16⟩,
      ?_⟩
  decide +kernel

end PklAnalysis

import PklAnalysis.Proofs.Inference.Degradation
import PklAnalysis.Proofs.Lookup.Origin

/-!
All types that the inference comes to are formed as types are: their unions, at
any depth, are opened and list no type twice. So it does not matter how often
null is taken out of such a type.
-/

namespace PklAnalysis

namespace Inference

open Lookup Ty

variable {context : Context} {budget : Nat} {bindings : Ty.Bindings}

theorem formed_superclass? (hbindings : bindings.Formed) {decl : Node}
    {parent : Ty}
    (hparent : superclass? context (resolveType context budget) bindings decl =
      some parent) :
    parent.Formed := by
  rw [superclass?] at hparent
  split at hparent
  case h_1 supertype _ =>
      cases hparent
      exact formed_resolveType context budget hbindings supertype
  case h_2 =>
      split at hparent
      case isTrue => cases hparent
      case isFalse =>
          cases hparent
          exact formed_type _ _

def FormedArgs (place : Node × List Ty) : Prop :=
  ∀ arg ∈ place.2, arg.Formed

theorem formed_parentClass? {place next : Node × List Ty}
    (hplace : FormedArgs place)
    (hnext : parentClass? context (resolveType context budget) place =
      some next) :
    FormedArgs next := by
  obtain ⟨decl, args⟩ := place
  rw [parentClass?] at hnext
  split at hnext
  case h_1 parent parentArgs hparent =>
      cases hnext
      cases formed_superclass? (Bindings.formed_ofArgs _ hplace) hparent with
      | classType hargs => exact hargs
  case h_2 => cases hnext

theorem formed_classChain {ty : Ty} (hty : ty.Formed) :
    ∀ place ∈ classChain context budget ty, FormedArgs place := by
  cases hty with
  | @classType decl args hargs =>
      exact Node.forall_mem_walk
        (fun _ _ hplace hnext => formed_parentClass? hplace hnext) hargs
  | _ => exact nofun

theorem formed_argsFor? {ty : Ty} (hty : ty.Formed) {target : Node}
    {args : List Ty} (hargs : argsFor? context budget ty target = some args) :
    ∀ arg ∈ args, arg.Formed := by
  obtain ⟨place, hplace, rfl⟩ := Option.map_eq_some_iff.mp hargs
  exact formed_classChain hty place (List.mem_of_find?_eq_some hplace)

theorem formed_findSome? {ty : Ty} (hty : ty.Formed) {names : List String}
    {args : List Ty}
    (hargs : names.findSome? (builtinArgs? context ty) = some args) :
    ∀ arg ∈ args, arg.Formed := by
  obtain ⟨name, -, hname⟩ := List.exists_of_findSome?_eq_some hargs
  obtain ⟨decl, -, hdecl⟩ := Option.bind_eq_some_iff.mp hname
  exact formed_argsFor? hty hdecl

theorem formed_getD {ty? : Option Ty} (hty : ∀ ty, ty? = some ty → ty.Formed) :
    (ty?.getD .unknown).Formed := by
  cases ty? with
  | none => exact .unknown
  | some ty => exact hty ty rfl

theorem formed_getElem {args : List Ty} (hargs : ∀ arg ∈ args, arg.Formed)
    (index : Nat) :
    (args[index]?.getD .unknown).Formed :=
  formed_getD fun _ hty => hargs _ (List.mem_of_getElem? hty)

section

variable {container : Ty} (hcontainer : container.Formed)
include hcontainer

theorem formed_elementType : (elementType context container).Formed := by
  rw [elementType]
  split
  case h_1 args hargs =>
      exact formed_getD fun _ hty => formed_findSome? hcontainer hargs _
        (List.mem_of_head? hty)
  case h_2 => exact .unknown

theorem formed_entryType : (entryType context container).Formed := by
  rw [entryType]
  split
  case h_1 args hargs =>
      exact formed_getElem (formed_findSome? hcontainer hargs) 1
  case h_2 =>
      dsimp only
      split
      case isTrue => exact formed_type _ _
      case isFalse => exact formed_elementType hcontainer

theorem formed_iterationType (isKey : Bool) :
    (iterationType context container isKey).Formed := by
  rw [iterationType]
  split
  case h_1 args hargs =>
      exact formed_getElem (formed_findSome? hcontainer hargs) _
  case h_2 =>
      split
      case isTrue => exact formed_type _ _
      case isFalse => exact formed_elementType hcontainer

theorem formed_functionResult : (functionResult context container).Formed := by
  rw [functionResult.eq_def]
  split
  case h_1 =>
      cases hcontainer with
      | function _ hresult => exact hresult
  case h_2 =>
      refine formed_getD fun ty hty => ?_
      obtain ⟨args, hargs, hhead⟩ := Option.bind_eq_some_iff.mp hty
      obtain ⟨decl, -, hdecl⟩ := Option.bind_eq_some_iff.mp hargs
      exact formed_argsFor? hcontainer hdecl _ (List.mem_of_head? hhead)

end

def FormedIn (candidate : Candidate) : Prop :=
  candidate.bindings.Formed

theorem formedIn_of_mem_ofNodes (hbindings : bindings.Formed)
    {nodes : List Node} :
    ∀ candidate ∈ Candidates.ofNodes bindings nodes, FormedIn candidate := by
  intro candidate hcandidate
  rw [FormedIn, (Candidates.mem_ofNodes.mp hcandidate).2.2]
  exact hbindings

theorem passes_formed (base : Base) : Passes base Formed where
  member hunion hmember := by
    cases hunion with
    | union _ hmembers => exact hmembers _ hmember
  literal _ := formed_type base "String"
  function hfunction := by
    cases hfunction with
    | function hparams hresult =>
        exact (blurs_functionClass base
            (List.forall₂_same.mpr fun param hparam =>
          (hparams param hparam).blurs) hresult.blurs).formed

theorem formed_classMembers {space : Space} {ty : Ty} (hty : ty.Formed) :
    (classMembers context budget space ty).All FormedIn := by
  intro candidate hcandidate
  obtain ⟨place, hplace, hcandidate⟩ := mem_toList_classMembers.mp hcandidate
  have hargs := formed_classChain hty place hplace
  exact formedIn_of_mem_ofNodes (Bindings.formed_ofArgs _ hargs) candidate
    hcandidate

theorem formed_moduleMembers {space : Space} (withLocal : Bool) (root : Node) :
    (moduleMembers context budget space withLocal root).All FormedIn :=
  (all_chainDeclarations (fun _ _ => formedIn_of_mem_ofNodes .nil) fun _ =>
    formedIn_of_mem_ofNodes .nil).append (formed_classMembers (formed_type _ _))

theorem formed_ofMembers {space : Space} :
    OfMembers context budget space Formed FormedIn where
  passes := passes_formed context.base
  ofClass := formed_classMembers
  ofModule := formed_moduleMembers false

section

variable {space : Space} {receivers : Receivers} (hbindings : bindings.Formed)
  (hthis : ∀ node, (receivers.thisType bindings node).Formed)
include hbindings hthis

theorem formed_scopeMembers (body? : Option Node) (scope inner : Node) :
    (scopeMembers context receivers space bindings body? scope inner).All
      FormedIn :=
  formed_ofMembers.scopeMembers hthis
    (fun _ => formedIn_of_mem_ofNodes hbindings)
    (hbindings.ofClass scope).formed
    (all_rootScope (formed_moduleMembers true scope)
      (fun _ => formedIn_of_mem_ofNodes .nil)
      (formedIn_of_mem_ofNodes .nil))
    (fun _ => formedIn_of_mem_ofNodes hbindings) body?

theorem formed_unqualified (access : Node) :
    (unqualified context receivers space bindings access).All FormedIn := by
  intro candidate hcandidate
  obtain ⟨scope, inner, -, body?, hcandidate⟩ :=
    exists_scope_of_mem_unqualified hcandidate
  exact formed_scopeMembers hbindings hthis body? scope inner candidate
    hcandidate

end

structure Answers.Formed (answers : Answers) : Prop where
  exprType : ∀ {bindings}, bindings.Formed → ∀ node,
    (answers.exprType bindings node).Formed
  declType : ∀ {bindings}, bindings.Formed → ∀ node,
    (answers.declType bindings node).Formed
  propertyType : ∀ {bindings}, bindings.Formed → ∀ node,
    (answers.propertyType bindings node).Formed
  thisType : ∀ {bindings}, bindings.Formed → ∀ node,
    (answers.thisType bindings node).Formed
  expectedType : ∀ {bindings}, bindings.Formed → ∀ node,
    (answers.expectedType bindings node).Formed
  candidates : ∀ {receiver?}, (∀ ty, receiver? = some ty → ty.Formed) →
    ∀ {bindings}, bindings.Formed → ∀ node,
    (answers.candidates receiver? bindings node).All FormedIn

theorem formed_none (context : Context) : (Answers.none context).Formed where
  exprType _ _ := .unknown
  declType _ _ := .unknown
  propertyType _ _ := .unknown
  thisType _ _ := .unknown
  expectedType _ _ := formed_type _ _
  candidates _ _ _ _ := Candidates.all_nil

section

variable {deeper : Answers} (hdeeper : deeper.Formed)
  (hbindings : bindings.Formed)
include hdeeper

theorem formed_foundType {found? : Option Candidate}
    (hfound : ∀ found, found? = some found → FormedIn found) :
    (foundType deeper found?).Formed := by
  cases found? with
  | none => exact .unknown
  | some found => exact hdeeper.declType (hfound found rfl) found.node

theorem formed_operatorType {receiver : Ty} (hreceiver : receiver.Formed)
    (operator : String) :
    (operatorType context deeper budget receiver operator).Formed :=
  formed_foundType hdeeper fun _ =>
    (formed_ofMembers.typeMembers hreceiver).of_first?

include hbindings

theorem formed_exprTypeOf (node? : Option Node) :
    (exprTypeOf deeper bindings node?).Formed := by
  cases node? with
  | none => exact .unknown
  | some node => exact hdeeper.exprType hbindings node

theorem formed_bodyType? (body : Node) {ty : Ty}
    (hty : bodyType? context deeper budget bindings body = some ty) :
    ty.Formed := by
  obtain ⟨owner, -, hty⟩ := Option.bind_eq_some_iff.mp hty
  split at hty
  case h_1 =>
      split at hty
      case h_1 type _ =>
          cases hty; exact formed_resolveType context budget hbindings type
      case h_2 => cases hty; exact hdeeper.expectedType hbindings owner
  case h_2 => cases hty; exact formed_exprTypeOf hdeeper hbindings _
  case h_3 | h_4 => cases hty; exact hdeeper.propertyType hbindings owner
  case h_5 =>
      cases hty; exact formed_entryType (hdeeper.thisType hbindings owner)
  case h_6 =>
      split at hty
      case h_1 type _ =>
          cases hty; exact formed_resolveType context budget hbindings type
      case h_2 => cases hty; exact .unknown
  case h_7 | h_8 => cases hty
  case h_9 => cases hty; exact formed_type _ _

theorem formed_scopeType? (scope : Node) {ty : Ty}
    (hty : scopeType? context deeper budget bindings scope = some ty) :
    ty.Formed := by
  rw [scopeType?] at hty
  split at hty
  case h_1 => cases hty; exact (hbindings.ofClass scope).formed
  case h_2 => cases hty; exact .moduleType
  case h_3 => exact formed_bodyType? hdeeper hbindings scope hty
  case h_4 => cases hty

theorem formed_thisType (node : Node) :
    (thisType context deeper budget bindings node).Formed := by
  refine formed_getD fun ty hty => ?_
  obtain ⟨scope, -, hscope⟩ := List.exists_of_findSome?_eq_some hty
  exact formed_scopeType? hdeeper hbindings scope hscope

theorem formed_wantedType (node : Node) :
    (wantedType context deeper bindings node).Formed := by
  rw [wantedType]
  split
  case h_1 => exact .unknown
  case h_2 place _ =>
      split
      case h_1 | h_2 => exact hdeeper.propertyType hbindings place
      case h_3 => exact formed_entryType (hdeeper.thisType hbindings place)
      case h_4 => exact formed_elementType (hdeeper.thisType hbindings place)
      case h_5 => exact .unknown

theorem formed_expectedType (node : Node) :
    (expectedType context deeper bindings node).Formed := by
  rw [expectedType_eq]
  split
  case isTrue => exact formed_type _ _
  case isFalse => exact formed_wantedType hdeeper hbindings node

theorem formed_propertyType (property : Node) :
    (propertyType context deeper budget bindings property).Formed := by
  cases hdeclared : property.declaredType? with
  | some declared =>
      rw [propertyType, hdeclared]
      exact formed_resolveType context budget hbindings declared
  | none =>
      cases hname : property.name.toOption with
      | none =>
          rw [propertyType, hdeclared, hname]
          exact .unknown
      | some name =>
          cases hscope : property.parent? with
          | none =>
              rw [propertyType, hdeclared, hname, hscope]
              exact .unknown
          | some scope =>
              rw [propertyType_of_inherited hdeclared hname hscope]
              refine formed_getD fun ty hty => ?_
              obtain ⟨candidate, hcandidate, hty⟩ :=
                Option.bind_eq_some_iff.mp hty
              have hformed : FormedIn candidate :=
                formed_ofMembers.typeMembers (hdeeper.thisType hbindings scope)
                  candidate
                  (List.mem_of_find?_eq_some hcandidate)
              rw [declaredBy] at hty
              split at hty
              case isTrue => cases hty
              case isFalse =>
                  split at hty
                  case isTrue =>
                      obtain ⟨declared, -, rfl⟩ := Option.map_eq_some_iff.mp hty
                      exact formed_resolveType context budget hformed declared
                  case isFalse => cases hty

theorem formed_parameterType (parameter : Node) :
    (parameterType context deeper budget bindings parameter).Formed := by
  rw [parameterType]
  split
  case h_1 declared _ =>
      exact formed_resolveType context budget hbindings declared
  case h_2 =>
      split
      case h_1 => exact .unknown
      case h_2 =>
          split
          case h_1 => exact formed_exprTypeOf hdeeper hbindings _
          case h_2 =>
              exact formed_iterationType
                (formed_exprTypeOf hdeeper hbindings _) _
          case h_3 => exact .unknown

theorem formed_valueType (property : Node) :
    (valueType context deeper bindings property).Formed := by
  rw [valueType]
  split
  case isTrue =>
      split
      case h_1 value _ => exact hdeeper.exprType hbindings value
      case h_2 =>
          split
          case isTrue => exact formed_type _ _
          case isFalse => exact .unknown
  case isFalse => exact hdeeper.propertyType hbindings property

theorem formed_declType (node : Node) :
    (declType context deeper budget bindings node).Formed := by
  rw [declType]
  split
  case h_1 | h_2 => exact formed_valueType hdeeper hbindings node
  case h_3 | h_4 =>
      split
      case h_1 result _ =>
          exact formed_resolveType context budget hbindings result
      case h_2 => exact formed_exprTypeOf hdeeper hbindings _
  case h_5 => exact formed_parameterType hdeeper hbindings node
  case h_6 =>
      split
      case h_1 declared _ =>
          exact formed_resolveType context budget hbindings declared
      case h_2 =>
          split
          case h_1 =>
              split
              case isTrue => exact formed_parameterType hdeeper hbindings _
              case isFalse => exact .unknown
          case h_2 => exact .unknown
  case h_7 => exact (blurs_generic _ _ (.cons (blurs_ofClass node) .nil)).formed
  case h_8 => exact formed_type _ _
  case h_9 =>
      split
      case isTrue => exact (blurs_globType context).formed
      case isFalse => exact (blurs_rootType _).formed
  case h_10 => exact .moduleType
  case h_11 => exact .unknown

theorem formed_candidates {receiver? : Option Ty}
    (hreceiver : ∀ ty, receiver? = some ty → ty.Formed) (node : Node) :
    (candidates context deeper budget receiver? bindings node).All
      FormedIn := by
  have hor : ∀ ty,
      receiver?.or (node.receiver.toOption.map
        (deeper.exprType bindings)) = some ty →
      ty.Formed := by
    intro ty hty
    rcases Option.or_eq_some_iff.mp hty with hgiven | ⟨-, hown⟩
    · exact hreceiver ty hgiven
    · obtain ⟨receiver, -, rfl⟩ := Option.map_eq_some_iff.mp hown
      exact hdeeper.exprType hbindings receiver
  exact all_candidates (fun _ _ _ _ => formed_ofMembers)
    (fun ty hty => (hor ty hty).nonNull _)
    (hdeeper.thisType hbindings) (fun _ _ _ => formed_superclass? hbindings)
    fun _ _ _ _ =>
      formed_unqualified hbindings (hdeeper.thisType hbindings) node

theorem formed_memberType (name : String) {receiver? : Option Ty}
    (hreceiver : ∀ ty, receiver? = some ty → ty.Formed) (node : Node) :
    (memberType deeper name receiver? bindings node).Formed :=
  formed_foundType hdeeper fun _ =>
    (hdeeper.candidates hreceiver hbindings node).of_first?

theorem formed_accessType (node : Node) :
    (accessType context deeper bindings node).Formed := by
  rw [accessType]
  split
  case h_1 => exact .unknown
  case h_2 name _ _ =>
      split
      case isTrue =>
          split
          case h_1 => exact .unknown
          case h_2 receiver _ =>
              have hreceiver := hdeeper.exprType hbindings receiver
              dsimp only
              split
              case isTrue =>
                  split
                  case isTrue => exact formed_type _ _
                  case isFalse =>
                      refine (formed_memberType hdeeper hbindings name ?_
                        node).nullable _
                      rintro _ ⟨⟩
                      exact hreceiver.nonNull _
              case isFalse =>
                  refine formed_memberType hdeeper hbindings name ?_ node
                  rintro _ ⟨⟩
                  exact hreceiver
      case isFalse =>
          have hnone : ∀ ty, (none : Option Ty) = some ty → ty.Formed := by
            rintro _ ⟨⟩
          exact formed_memberType hdeeper hbindings name hnone node

theorem formed_binaryType (node : Node) :
    (binaryType context deeper budget bindings node).Formed := by
  rw [binaryType]
  split
  case h_1 left operator _ _ =>
      dsimp only
      split
      case isTrue => exact formed_type _ _
      case isFalse =>
          exact formed_operatorType hdeeper (hdeeper.exprType hbindings left) _
  case h_2 => exact .unknown

theorem formed_outerType (node : Node) :
    (outerType deeper bindings node).Formed := by
  rw [outerType]
  split
  case h_1 scope _ => exact hdeeper.thisType hbindings scope
  case h_2 => exact .unknown

theorem formed_functionType (node : Node) :
    (functionType context deeper budget bindings node).Formed := by
  refine .function (List.forall_mem_map.mpr fun parameter _ => ?_)
    (formed_exprTypeOf hdeeper hbindings _)
  split
  case h_1 declared _ =>
      exact formed_resolveType context budget hbindings declared
  case h_2 => exact .unknown

theorem formed_exprType (node : Node) :
    (exprType context deeper budget bindings node).Formed := by
  have hparts : ∀ node?, (exprTypeOf deeper bindings node?).Formed :=
    formed_exprTypeOf hdeeper hbindings
  rw [exprType]
  dsimp only
  split
  case h_1 | h_2 | h_3 | h_4 | h_5 | h_6 | h_7 => exact formed_type _ _
  case h_8 => exact hdeeper.thisType hbindings node
  case h_9 => exact formed_outerType hdeeper hbindings node
  case h_10 => exact (blurs_rootType _).formed
  case h_11 => exact .nothing
  case h_12 | h_13 | h_14 | h_15 => exact hparts _
  case h_16 => exact (blurs_importType context node).formed
  case h_17 => exact (blurs_readType context node).formed
  case h_18 | h_19 | h_20 => exact formed_accessType hdeeper hbindings node
  case h_21 =>
      split
      case h_1 receiver _ =>
          exact formed_operatorType hdeeper
            (hdeeper.exprType hbindings receiver) "[]"
      case h_2 => exact .unknown
  case h_22 =>
      exact formed_operatorType hdeeper (hdeeper.thisType hbindings node) "[]"
  case h_23 => exact (hparts _).nonNull context.base
  case h_24 =>
      split
      case h_1 operand _ =>
          split
          case isTrue => exact formed_type _ _
          case isFalse =>
              exact formed_operatorType hdeeper
                (hdeeper.exprType hbindings operand) "!"
      case h_2 => exact formed_type _ _
  case h_25 | h_26 | h_27 | h_28 | h_29 | h_30 | h_31 =>
      exact formed_binaryType hdeeper hbindings node
  case h_32 => exact ((hparts _).nonNull context.base).join (hparts _)
  case h_33 => exact formed_functionResult (hparts _)
  case h_34 =>
      split
      case isTrue =>
          split
          case h_1 type _ =>
              exact formed_resolveType context budget hbindings type
          case h_2 => exact .unknown
      case isFalse => exact formed_type _ _
  case h_35 => exact (hparts _).join (hparts _)
  case h_36 => exact hparts _
  case h_37 => exact formed_functionType hdeeper hbindings node
  case h_38 =>
      split
      case h_1 type _ => exact formed_resolveType context budget hbindings type
      case h_2 => exact hdeeper.expectedType hbindings node
  case h_39 => exact .unknown

end

theorem formed_answers (context : Context) (budget : Nat) :
    (answers context budget).Formed := by
  induction budget with
  | zero => exact formed_none context
  | succ budget ih =>
      exact {
        exprType := formed_exprType ih
        declType := formed_declType ih
        propertyType := formed_propertyType ih
        thisType := formed_thisType ih
        expectedType := formed_expectedType ih
        candidates :=
          fun hreceiver _ hbindings => formed_candidates ih hbindings
            hreceiver }

end Inference

/-- All types that are computed are in normal form at any depth, where type
parameters stand for such types, and what is made of such types is in normal
form too. -/
theorem Context.formed_types (context : Context) {bindings : Ty.Bindings}
    (hbindings : ∀ binding ∈ bindings, binding.2.Formed) :
    (∀ node, (context.resolveType bindings node).Formed ∧
      (context.exprType bindings node).Formed ∧
      (context.thisType bindings node).Formed ∧
        (context.declType bindings node).Formed) ∧
    (∀ types : List Ty, (∀ ty ∈ types, ty.Formed) → (Ty.unionOf types).Formed) ∧
    ∀ ty : Ty,
      ty.Formed →
      (ty.nullable context.base).Formed ∧ (ty.nonNull context.base).Formed ∧
      (ty.substitute bindings).Formed := by
  have hformed := Ty.Bindings.formed_iff.mpr hbindings
  have hanswers := Inference.formed_answers context context.budget
  refine ⟨fun node => ⟨?_, ?_, ?_, ?_⟩,
    fun types htypes => Ty.formed_unionOf htypes, fun ty hty => ⟨?_, ?_, ?_⟩⟩
  · exact Inference.formed_resolveType context context.budget hformed node
  · exact hanswers.exprType hformed node
  · exact hanswers.thisType hformed node
  · exact hanswers.declType hformed node
  · exact hty.nullable context.base
  · exact hty.nonNull context.base
  · exact hty.substitute hformed

def optionalParameter : Document :=
  .ofTokens "file:///optional.pkl" "class G<T>\x7bp:T?\x7d"
    [⟨.classKw, "class", 0⟩, ⟨.whitespace, " ", 5⟩, ⟨.identifier, "G", 6⟩,
     ⟨.less, "<", 7⟩, ⟨.identifier, "T", 8⟩, ⟨.greater, ">", 9⟩,
     ⟨.leftBrace, "\x7b", 10⟩, ⟨.identifier, "p", 11⟩, ⟨.colon, ":", 12⟩,
     ⟨.identifier, "T", 13⟩, ⟨.question, "?", 14⟩, ⟨.rightBrace, "\x7d", 15⟩]
    (Token.ok_of_toOption (by decide +kernel))

/-- Where the type parameter stands for one of two strings, the union with null
is opened. -/
theorem Context.formed_types_union :
    let context := (Context.ofBase .plain).withDocument optionalParameter
    let node (index : Nat) : Node := ⟨optionalParameter, index⟩
    let bindings : Ty.Bindings :=
      [(node 4, .union [.literal "a", .literal "b"])]
    context.resolveType bindings (node 7) =
        .union [.literal "a", .literal "b", context.base.type "Null"] ∧
      (context.resolveType bindings (node 7)).Formed := by
  intro context node bindings
  have hbindings : ∀ binding ∈ bindings, binding.2.Formed := by
    refine List.forall_mem_singleton.mpr
      (.union ⟨by decide, by decide, by decide⟩ ?_)
    exact List.forall_mem_cons.mpr ⟨.literal,
      List.forall_mem_singleton.mpr .literal⟩
  exact ⟨by decide +kernel, ((context.formed_types hbindings).1 (node 7)).1⟩

end PklAnalysis

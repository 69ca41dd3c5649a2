import PklAnalysis.Proofs.Inference.Steady
import PklAnalysis.Proofs.Node.Contents

/-!
Less depth gives types of which less is known, but no other types, as long as
the question is steady.
-/

namespace PklAnalysis

namespace Inference

open Lookup Ty

/-- The answers with less depth blur those with more, as far as the questions
are steady. -/
structure Answers.Blur (less more : Answers) (steady : Steady) : Prop where
  exprType : ∀ {left right : Ty.Bindings}, left.Blur right → ∀ node,
    steady.exprType right node = true →
    Blurs (less.exprType left node) (more.exprType right node)
  declType : ∀ {left right : Ty.Bindings}, left.Blur right → ∀ node,
    steady.declType right node = true →
    Blurs (less.declType left node) (more.declType right node)
  propertyType : ∀ {left right : Ty.Bindings}, left.Blur right → ∀ node,
    steady.propertyType right node = true →
      Blurs (less.propertyType left node) (more.propertyType right node)
  thisType : ∀ {left right : Ty.Bindings}, left.Blur right → ∀ node,
    steady.thisType right node = true →
    Blurs (less.thisType left node) (more.thisType right node)
  expectedType : ∀ {left right : Ty.Bindings}, left.Blur right → ∀ node,
    steady.expectedType right node = true →
      Blurs (less.expectedType left node) (more.expectedType right node)
  candidates : ∀ {receiver? receiver'? : Option Ty},
    Option.Rel Blurs receiver? receiver'? →
    ∀ {left right : Ty.Bindings}, left.Blur right → ∀ node,
      steady.candidates receiver'? right node = true → ∀ name space,
        accessName? node = some (name, space) → Settles (Steady.named name)
          (less.candidates receiver? left node).toList
            (more.candidates receiver'? right node).toList

theorem blurs_default {ty ty' fallback fallback' : Ty} (hty : Blurs ty ty')
    (hfallback : Blurs fallback fallback')
    (hallows : Steady.allows fallback' ty' = true) :
    Blurs (if ty.isUnknown then fallback else ty)
      (if ty'.isUnknown then fallback' else ty') := by
  rw [Steady.allows, Bool.or_eq_true, decide_eq_true_eq] at hallows
  split
  case isTrue =>
      split
      case isTrue => exact hfallback
      case isFalse hknown => rwa [hallows.resolve_left hknown]
  case isFalse hknown =>
      obtain ⟨-, -, hright, -⟩ :=
        hty.exists_known (Bool.eq_false_iff.mpr hknown)
      rwa [hright, if_neg Bool.false_ne_true]

theorem blurs_getD_unknown {ty? ty'? : Option Ty}
    (hrel : Option.Rel Blurs ty? ty'?) :
    Blurs (ty?.getD .unknown) (ty'?.getD .unknown) := by
  cases hrel with
  | none => exact .unknown
  | some hblurs => exact hblurs

theorem ite_isUnknown (ty : Ty) :
    (if ty.isUnknown then .unknown else ty) = ty := by
  cases ty <;> rfl

theorem allows_of_sureEntry {context : Context} {container : Ty}
    (hsure : sureEntry context container = true) :
    Steady.allows (context.base.type "Dynamic") (entryType context container) =
      true := by
  rw [sureEntry, Bool.and_eq_true] at hsure
  rw [Steady.allows, hsure.2, Bool.or_true]

theorem isNull_of_mem_subjects {base : Base} {ty subject : Ty}
    (hsubject : subject ∈ ty.subjects base) (hnull : ty.isNull base = false) :
    subject.isNull base = false := by
  cases ty with
  | union members => simpa using (List.mem_filter.mp hsubject).2
  | _ => rwa [List.mem_singleton.mp hsubject]

/-- A null-safe access. Null can only blur to null, and where it blurs to
something else there is no member. -/
theorem blurs_nullSafe {base : Base} {receiver receiver' member member' : Ty}
    (hreceiver : Blurs receiver receiver') (hmember : Blurs member member')
    (hsafe : (if receiver'.isNull base then member'.isUnknown
      else !(receiver'.subjects base).isEmpty) = true) :
    Blurs
      (if receiver.isNull base then base.type "Null" else member.nullable base)
      (if receiver'.isNull base then base.type "Null" else
        member'.nullable base) := by
  have hnull := blurs_type base "Null"
  cases hless : receiver.isNull base with
  | true =>
      cases hmore : receiver'.isNull base with
      | true => exact hnull
      | false =>
          rw [hmore, if_neg Bool.false_ne_true, Bool.not_eq_true',
            List.isEmpty_eq_false_iff] at hsafe
          -- then one of the types into which the lookup goes is null, and none
          -- is
          have halternative : receiver.isAlternative = true := by
            cases receiver with
            | classType => rfl
            | _ => cases hless
          obtain ⟨subject, hsubject, halike⟩ :=
            hreceiver.exists_subject_of_alternative hsafe halternative
          rw [halike.isNull_eq, isNull_of_mem_subjects hsubject hmore] at hless
          cases hless
  | false =>
      cases hmore : receiver'.isNull base with
      | true =>
          rw [hmore, if_pos rfl] at hsafe
          rw [hmember.isUnknown_left hsafe]
          exact .unknown
      | false => exact hmember.nullable base

theorem blurs_rootType (root? : Option Node) :
    Blurs (rootType root?) (rootType root?) := by
  cases root? with
  | none => exact .unknown
  | some root => exact (Alike.moduleType root).blurs

theorem blurs_globType (context : Context) :
    Blurs (globType context) (globType context) :=
  blurs_generic _ _ (.cons (blurs_type _ _) (.cons (blurs_type _ _) .nil))

theorem blurs_importType (context : Context) (node : Node) :
    Blurs (importType context node) (importType context node) := by
  rw [importType]
  split
  case isTrue => exact blurs_globType context
  case isFalse => exact blurs_rootType _

theorem blurs_readType (context : Context) (node : Node) :
    Blurs (readType context node) (readType context node) := by
  rw [readType]
  split
  case isTrue =>
      exact blurs_generic _ _
        (.cons (blurs_type _ _) (.cons (blurs_type _ _) .nil))
  case isFalse =>
      split
      case isTrue => exact (blurs_type _ _).nullable _
      case isFalse => exact blurs_type _ _

theorem findSome?_eq_bind {α β : Type} {f : α → Option β} {finds : α → Bool}
    (hfinds : ∀ place, (f place).isSome = finds place) (places : List α) :
    places.findSome? f = (places.find? finds).bind f := by
  induction places with
  | nil => rfl
  | cons place rest ih =>
      rw [List.findSome?_cons, List.find?_cons, ← hfinds place]
      cases hplace : f place with
      | none => exact ih
      | some found => exact hplace.symm

theorem isSome_scopeType? (context : Context) (deeper : Answers) (budget : Nat)
    (bindings : Ty.Bindings) (scope : Node) :
    (scopeType? context deeper budget bindings scope).isSome =
      Steady.bindsThis scope := by
  rw [scopeType?]
  split
  case h_1 hkind | h_2 hkind =>
      simp only [Steady.bindsThis, hkind, Option.isSome_some]
  case h_3 hkind =>
      simp only [Steady.bindsThis, hkind, bodyType?]
      cases scope.parent? with
      | none => rfl
      | some owner =>
          rw [Option.bind_eq_bind, Option.bind_some]
          dsimp only
          split
          case h_1 hkind | h_6 hkind =>
              simp only [hkind]
              split
              case h_1 => rfl
              case h_2 => rfl
          case h_2 hkind | h_3 hkind | h_4 hkind | h_5 hkind =>
              simp only [hkind, Option.isSome_some]
          case h_7 hkind | h_8 hkind => simp only [hkind, Option.isSome_none]
          case h_9 => simp only [Option.isSome_some]
  case h_4 =>
      simp only [Steady.bindsThis]
      rfl

def declaredBy (context : Context) (budget : Nat) (property : Node)
    (candidate : Candidate) : Option Ty :=
  if candidate.node = property then none
  else if candidate.node.kind.isProperty then
    candidate.node.declaredType?.map
      (deeperType context budget candidate.bindings)
  else
    none

theorem isSome_declaredBy (context : Context) (budget : Nat) (property : Node)
    (candidate : Candidate) :
    (declaredBy context budget property candidate).isSome =
      Steady.declares property candidate.node := by
  rw [declaredBy, Steady.declares]
  split
  case isTrue hsame => simp [hsame]
  case isFalse hother =>
      split
      case isTrue hkind => simp [hother, hkind]
      case isFalse hkind => simp [hkind]

theorem propertyType_of_inherited {context : Context} {deeper : Answers}
    {budget : Nat} {bindings : Ty.Bindings} {property scope : Node}
    {name : String} (hdeclared : property.declaredType? = none)
    (hname : property.name.toOption = some name)
    (hscope : property.parent? = some scope) :
    propertyType context deeper budget bindings property =
      (((membersOf context budget .property
        (deeper.thisType bindings scope)).toList.find?
        (Steady.typed property name).hits).bind
          (declaredBy context budget property)).getD .unknown := by
  have hsearch := Candidates.findSome?_named
    (membersOf context budget .property (deeper.thisType bindings scope)) name
    (isSome_declaredBy context budget property)
  rw [propertyType, hdeclared, hname, hscope]
  exact congrArg (Option.getD · Ty.unknown) hsearch

def wantedType (context : Context) (deeper : Answers) (bindings : Ty.Bindings)
    (node : Node) : Ty :=
  match node.parent? with
  | none => .unknown
  | some place =>
      match place.kind with
      | .classProperty | .objectProperty => deeper.propertyType bindings place
      | .objectEntry => entryType context (deeper.thisType bindings place)
      | .objectElement => elementType context (deeper.thisType bindings place)
      | _ => .unknown

theorem expectedType_eq (context : Context) (deeper : Answers)
    (bindings : Ty.Bindings) (node : Node) :
    expectedType context deeper bindings node =
      if (wantedType context deeper bindings node).isUnknown then
        context.base.type "Dynamic"
      else wantedType context deeper bindings node :=
  rfl

theorem allows_wantedType {context : Context} {deeper : Answers}
    {steady : Steady} {bindings : Ty.Bindings} {node : Node}
    (hsteady : steady.ofExpected context deeper bindings node = true) :
    Steady.allows (context.base.type "Dynamic")
      (wantedType context deeper bindings node) = true := by
  rw [Steady.ofExpected] at hsteady
  rw [wantedType]
  cases hparent : node.parent? with
  | none => rfl
  | some place =>
      rw [hparent] at hsteady
      dsimp only at hsteady ⊢
      split
      case h_1 hkind | h_2 hkind =>
          simp only [hkind, Bool.and_eq_true] at hsteady
          exact hsteady.2
      case h_3 hkind =>
          simp only [hkind, Bool.and_eq_true] at hsteady
          exact allows_of_sureEntry hsteady.2
      case h_4 hkind =>
          simp only [hkind, Bool.and_eq_true] at hsteady
          exact hsteady.2
      case h_5 => rfl

theorem expectedType_of_steady {context : Context} {deeper : Answers}
    {steady : Steady} {bindings : Ty.Bindings} {node : Node}
    (hsteady : steady.ofExpected context deeper bindings node = true) :
    expectedType context deeper bindings node =
      context.base.type "Dynamic" := by
  have hallows := allows_wantedType hsteady
  rw [Steady.allows, Bool.or_eq_true, decide_eq_true_eq] at hallows
  rw [expectedType_eq]
  split
  case isTrue => rfl
  case isFalse hknown => exact hallows.resolve_left hknown

/-! One level. The answers one level deeper blur. -/

section

variable {context : Context} {depth n m : Nat}
  (hdepth : depth ≤ context.maxDepth) (hle : n ≤ m)
  {less more : Answers} {steady : Steady}
  (hanswers : Answers.Blur less more steady)
  {left right : Ty.Bindings} (hblur : left.Blur right)

section

include hle

theorem blurs_deeperType (hblur : left.Blur right) (node : Node) :
    Blurs (deeperType (context.atDepth depth) n left node)
      (deeperType context m right node) := by
  rw [deeperType, deeperType, resolveType_atDepth]
  exact blurs_resolveType hle hblur node

theorem blurs_declaredBy (property : Node) {candidate candidate' : Candidate}
    (hblurs : CandidateBlurs candidate candidate') :
    Option.Rel Blurs (declaredBy (context.atDepth depth) n property candidate)
      (declaredBy context m property candidate') := by
  rw [declaredBy, declaredBy, hblurs.node_eq]
  split
  case isTrue => exact .none
  case isFalse =>
      split
      case isTrue =>
          cases candidate'.node.declaredType? with
          | none => exact .none
          | some declared =>
              exact .some (blurs_deeperType hle hblurs.bindings declared)
      case isFalse => exact .none

theorem settles_membersOf {space : Space} {sought : Sought} {ty ty' : Ty}
    (hblurs : Blurs ty ty')
    (hsure : sureMembers context (m - 1) space sought ty' = true) :
    Settles sought (membersOf (context.atDepth depth) n space ty).toList
      (membersOf context m space ty').toList := by
  rw [membersOf, membersOf, typeMembers_atDepth]
  exact settles_typeMembers (Nat.sub_le_sub_right hle 1) hblurs hsure

end

section

include hanswers

theorem blurs_foundType {name : String} {candidates candidates' : Candidates}
    (hsettles : Settles (Steady.named name) candidates.toList
      candidates'.toList)
    (hsteady : steady.found (candidates'.first? name) = true) :
    Blurs (foundType less (candidates.first? name))
      (foundType more (candidates'.first? name)) := by
  have hless : candidates.first? name =
      candidates.toList.find? (Steady.named name).hits :=
    candidates.first?_eq_find? name
  have hmore : candidates'.first? name =
      candidates'.toList.find? (Steady.named name).hits :=
    candidates'.first?_eq_find? name
  rw [hmore] at hsteady
  rw [hless, hmore]
  cases hfound : candidates.toList.find? (Steady.named name).hits with
  | none => exact .unknown
  | some found =>
      obtain ⟨found', hfound', hblurs⟩ := hsettles found hfound
      rw [hfound'] at hsteady
      rw [hfound', foundType, foundType, hblurs.node_eq]
      exact hanswers.declType hblurs.bindings _ hsteady

include hle in
theorem blurs_operatorType {receiver receiver' : Ty}
    (hblurs : Blurs receiver receiver') {operator : String}
    (hsteady : steady.operator context m receiver' operator = true) :
    Blurs (operatorType (context.atDepth depth) less n receiver operator)
      (operatorType context more m receiver' operator) := by
  rw [Steady.operator, Bool.and_eq_true] at hsteady
  exact blurs_foundType hanswers (settles_membersOf hle hblurs hsteady.1)
    hsteady.2

include hblur

theorem blurs_exprTypeOf {node? : Option Node}
    (hsteady : steady.exprOf right node? = true) :
    Blurs (exprTypeOf less left node?) (exprTypeOf more right node?) := by
  cases node? with
  | none => exact .unknown
  | some node => exact hanswers.exprType hblur node hsteady

include hdepth in
theorem blurs_wantedType {node : Node}
    (hsteady : steady.ofExpected context more right node = true) :
    Blurs (wantedType (context.atDepth depth) less left node)
      (wantedType context more right node) := by
  rw [Steady.ofExpected] at hsteady
  rw [wantedType, wantedType]
  cases hparent : node.parent? with
  | none => exact .unknown
  | some place =>
      rw [hparent] at hsteady
      dsimp only at hsteady ⊢
      split
      case h_1 hkind | h_2 hkind =>
          simp only [hkind, Bool.and_eq_true] at hsteady
          exact hanswers.propertyType hblur place hsteady.1
      case h_3 hkind =>
          simp only [hkind, Bool.and_eq_true] at hsteady
          exact blurs_entryType hdepth (hanswers.thisType hblur place hsteady.1)
            hsteady.2
      case h_4 hkind =>
          simp only [hkind, Bool.and_eq_true] at hsteady
          exact blurs_elementType hdepth
            (hanswers.thisType hblur place hsteady.1.1) hsteady.1.2
      case h_5 => exact .unknown

include hdepth in
theorem blurs_expectedType {node : Node}
    (hsteady : steady.ofExpected context more right node = true) :
    Blurs (expectedType (context.atDepth depth) less left node)
      (expectedType context more right node) :=
  blurs_default (blurs_wantedType hdepth hanswers hblur hsteady)
    (blurs_type context.base "Dynamic")
    (allows_wantedType hsteady)

section

include hdepth hle

theorem blurs_bodyType? {body : Node}
    (hsteady : steady.body context more right body = true) :
    Option.Rel Blurs (bodyType? (context.atDepth depth) less n left body)
      (bodyType? context more m right body) := by
  rw [Steady.body] at hsteady
  rw [bodyType?, bodyType?]
  cases hparent : body.parent? with
  | none => exact .none
  | some owner =>
      rw [hparent] at hsteady
      rw [Option.bind_eq_bind, Option.bind_some, Option.bind_some]
      dsimp only at hsteady ⊢
      split
      case h_1 hkind =>
          simp only [hkind] at hsteady
          split
          case h_1 type _ => exact .some (blurs_deeperType hle hblur type)
          case h_2 hnone =>
              rw [hnone] at hsteady
              exact .some (hanswers.expectedType hblur owner hsteady)
      case h_2 hkind =>
          simp only [hkind] at hsteady
          exact .some (blurs_exprTypeOf hanswers hblur hsteady)
      case h_3 hkind | h_4 hkind =>
          simp only [hkind] at hsteady
          exact .some (hanswers.propertyType hblur owner hsteady)
      case h_5 hkind =>
          simp only [hkind, Bool.and_eq_true] at hsteady
          exact .some
            (blurs_entryType hdepth (hanswers.thisType hblur owner hsteady.1)
              hsteady.2)
      case h_6 =>
          split
          case h_1 type _ => exact .some (blurs_deeperType hle hblur type)
          case h_2 => exact .some .unknown
      case h_7 | h_8 => exact .none
      case h_9 => exact .some (blurs_type _ _)

theorem blurs_scopeType? {scope : Node}
    (hsteady : steady.scope context more right scope = true) :
    Option.Rel Blurs (scopeType? (context.atDepth depth) less n left scope)
      (scopeType? context more m right scope) := by
  rw [Steady.scope] at hsteady
  rw [scopeType?, scopeType?]
  split
  case h_1 => exact .some (hblur.ofClass scope)
  case h_2 => exact .some (Alike.moduleType scope).blurs
  case h_3 hkind =>
      simp only [hkind] at hsteady
      exact blurs_bodyType? hdepth hle hanswers hblur hsteady
  case h_4 => exact .none

theorem blurs_thisType {node : Node}
    (hsteady : steady.ofThis context more right node = true) :
    Blurs (thisType (context.atDepth depth) less n left node)
      (thisType context more m right node) := by
  rw [thisType, thisType, findSome?_eq_bind (isSome_scopeType? _ _ _ _),
    findSome?_eq_bind (isSome_scopeType? _ _ _ _)]
  rw [Steady.ofThis] at hsteady
  cases hscope : (node :: node.ancestors).find? Steady.bindsThis with
  | none => exact .unknown
  | some scope =>
      rw [hscope] at hsteady
      exact blurs_getD_unknown
        (blurs_scopeType? hdepth hle hanswers hblur hsteady)

end

include hle in
theorem blurs_propertyType {property : Node}
    (hsteady : steady.ofProperty context more m right property = true) :
    Blurs (propertyType (context.atDepth depth) less n left property)
      (propertyType context more m right property) := by
  cases hdeclared : property.declaredType? with
  | some declared =>
      rw [propertyType, propertyType, hdeclared]
      exact blurs_deeperType hle hblur declared
  | none =>
      rw [Steady.ofProperty, hdeclared, Option.isSome_none, Bool.false_or]
        at hsteady
      cases hname : property.name.toOption with
      | none =>
          rw [propertyType, hdeclared, hname]
          exact .unknown
      | some name =>
          cases hscope : property.parent? with
          | none =>
              rw [propertyType, hdeclared, hname, hscope]
              exact .unknown
          | some scope =>
              rw [hname, hscope] at hsteady
              simp only [Bool.and_eq_true] at hsteady
              rw [propertyType_of_inherited hdeclared hname hscope,
                propertyType_of_inherited hdeclared hname hscope]
              have hthis := hanswers.thisType hblur scope hsteady.1
              have hsettles :
                  Settles _ (membersOf (context.atDepth depth) n _ _).toList
                    _ :=
                settles_membersOf hle hthis hsteady.2
              cases hfound : (membersOf (context.atDepth depth) n .property
                (less.thisType left scope)).toList.find?
                  (Steady.typed property name).hits with
              | none => exact .unknown
              | some found =>
                  obtain ⟨found', hfound', hblurs⟩ := hsettles found hfound
                  rw [hfound']
                  exact blurs_getD_unknown
                    (blurs_declaredBy hle property hblurs)

theorem blurs_valueType {property : Node}
    (hsteady : steady.value context more right property = true) :
    Blurs (valueType (context.atDepth depth) less left property)
      (valueType context more right property) := by
  rw [Steady.value, Bool.and_eq_true] at hsteady
  obtain ⟨hproperty, hvalue⟩ := hsteady
  have hdeclared := hanswers.propertyType hblur property hproperty
  rw [valueType, valueType]
  cases hexpr : property.expr? with
  | some value =>
      rw [hexpr] at hvalue
      simp only [Bool.and_eq_true] at hvalue
      exact blurs_default hdeclared (hanswers.exprType hblur value hvalue.1)
        hvalue.2
  | none =>
      rw [hexpr] at hvalue
      cases hamendment : property.isAmendment with
      | true =>
          rw [hamendment] at hvalue
          exact blurs_default hdeclared
            (blurs_type context.base "Dynamic") hvalue
      | false =>
          dsimp only
          rw [if_neg Bool.false_ne_true, if_neg Bool.false_ne_true,
            ite_isUnknown, ite_isUnknown]
          exact hdeclared

section

include hdepth hle

theorem blurs_parameterType {parameter : Node}
    (hsteady : steady.parameter context more right parameter = true) :
    Blurs (parameterType (context.atDepth depth) less n left parameter)
      (parameterType context more m right parameter) := by
  rw [parameterType, parameterType]
  cases hdeclared : parameter.parameterType? with
  | some declared => exact blurs_deeperType hle hblur declared
  | none =>
      rw [Steady.parameter, hdeclared, Option.isSome_none, Bool.false_or]
        at hsteady
      cases hsite : parameter.parent? with
      | none => exact .unknown
      | some site =>
          rw [hsite] at hsteady
          dsimp only at hsteady ⊢
          split
          case h_1 hkind =>
              simp only [hkind] at hsteady
              exact blurs_exprTypeOf hanswers hblur hsteady
          case h_2 hkind =>
              simp only [hkind, Bool.and_eq_true] at hsteady
              exact blurs_iterationType hdepth
                (blurs_exprTypeOf hanswers hblur hsteady.1) hsteady.2
          case h_3 => exact .unknown

theorem blurs_declType {node : Node}
    (hsteady : steady.ofDecl context more right node = true) :
    Blurs (declType (context.atDepth depth) less n left node)
      (declType context more m right node) := by
  rw [Steady.ofDecl] at hsteady
  rw [declType, declType]
  split
  case h_1 hkind | h_2 hkind =>
      simp only [hkind] at hsteady
      exact blurs_valueType hanswers hblur hsteady
  case h_3 hkind | h_4 hkind =>
      simp only [hkind] at hsteady
      cases hdeclared : node.declaredType? with
      | some result => exact blurs_deeperType hle hblur result
      | none =>
          rw [hdeclared] at hsteady
          exact blurs_exprTypeOf hanswers hblur hsteady
  case h_5 hkind =>
      simp only [hkind] at hsteady
      exact blurs_parameterType hdepth hle hanswers hblur hsteady
  case h_6 hkind =>
      simp only [hkind] at hsteady
      cases hdeclared : node.declaredType? with
      | some declared => exact blurs_deeperType hle hblur declared
      | none =>
          rw [hdeclared, Option.isSome_none, Bool.false_or] at hsteady
          cases hparent : node.parent? with
          | none => exact .unknown
          | some parent =>
              rw [hparent] at hsteady
              dsimp only at hsteady ⊢
              split
              case isTrue hkind =>
                  rw [Bool.or_eq_true, decide_eq_true_eq] at hsteady
                  exact blurs_parameterType hdepth hle hanswers hblur
                    (hsteady.resolve_left (not_not_intro hkind))
              case isFalse => exact .unknown
  case h_7 => exact blurs_generic _ _ (.cons (blurs_ofClass node) .nil)
  case h_8 => exact blurs_type _ _
  case h_9 =>
      split
      case isTrue => exact blurs_globType context
      case isFalse => exact blurs_rootType _
  case h_10 => exact (Alike.moduleType node).blurs
  case h_11 => exact .unknown

end

theorem blurs_receiver {receiver? receiver'? : Option Ty}
    (hreceiver : Option.Rel Blurs receiver? receiver'?) {node? : Option Node}
    (hsteady : (receiver'?.isSome || steady.exprOf right node?) = true) :
    Option.Rel Blurs (receiver?.or (node?.map (less.exprType left)))
      (receiver'?.or (node?.map (more.exprType right))) := by
  cases hreceiver with
  | some hblurs => exact .some hblurs
  | none =>
      cases node? with
      | none => exact .none
      | some node => exact .some (hanswers.exprType hblur node hsteady)

include hle in
theorem settles_candidates {receiver? receiver'? : Option Ty}
    (hreceiver : Option.Rel Blurs receiver? receiver'?) {node : Node}
    (hsteady : steady.ofCandidates context more m receiver'? right node = true)
    {name : String} {space : Space}
    (haccess : accessName? node = some (name, space)) :
    Settles (Steady.named name)
      (candidates (context.atDepth depth) less n receiver? left node).toList
      (candidates context more m receiver'? right node).toList := by
  have hbudget : n - 1 ≤ m - 1 := Nat.sub_le_sub_right hle 1
  have hsame : (context.atDepth depth).cancelled = context.cancelled := rfl
  rw [Steady.ofCandidates, haccess] at hsteady
  rw [candidates, candidates, haccess, hsame]
  cases context.cancelled with
  | true => exact settles_nil _ _
  | false =>
      dsimp only at hsteady ⊢
      split
      case h_1 hkind =>
          simp only [hkind, Bool.and_eq_true] at hsteady
          have hrel := blurs_receiver hanswers hblur hreceiver hsteady.1
          generalize receiver?.or (node.receiver.toOption.map
            (less.exprType left)) = found at hrel
          generalize receiver'?.or (node.receiver.toOption.map
            (more.exprType right)) = found'
            at hrel hsteady
          match found, found', hrel with
          | _, _, .none => exact settles_nil _ _
          | _, _, .some hblurs =>
              exact settles_membersOf hle (hblurs.nonNull context.base)
                hsteady.2
      case h_2 hkind =>
          simp only [hkind, Bool.and_eq_true] at hsteady
          rw [superMembers_atDepth]
          refine settles_superMembers hbudget hblur
            (fun scope hscope hkind => ?_) hsteady.2
          rw [hscope, Option.all_some, Bool.or_eq_true, decide_eq_true_eq]
            at hsteady
          exact hanswers.thisType hblur scope
            (hsteady.1.resolve_left (not_not_intro hkind))
      case h_3 =>
          simp only [Bool.and_eq_true] at hsteady
          rw [unqualified_atDepth]
          refine settles_unqualified hbudget hblur (fun body hbody => ?_)
            hsteady.2
          rw [hbody, Option.all_some] at hsteady
          exact hanswers.thisType hblur body hsteady.1

theorem blurs_memberType {receiver? receiver'? : Option Ty}
    (hreceiver : Option.Rel Blurs receiver? receiver'?) {node : Node}
    {name : String} {space : Space}
    (haccess : accessName? node = some (name, space))
    (hsteady : steady.member more name receiver'? right node = true) :
    Blurs (memberType less name receiver? left node)
      (memberType more name receiver'? right node) := by
  rw [Steady.member, Bool.and_eq_true] at hsteady
  exact blurs_foundType hanswers
    (hanswers.candidates hreceiver hblur node hsteady.1 name space haccess)
    hsteady.2

theorem blurs_accessType {node : Node}
    (hsteady : steady.access context more right node = true) :
    Blurs (accessType (context.atDepth depth) less left node)
      (accessType context more right node) := by
  rw [Steady.access] at hsteady
  rw [accessType, accessType]
  cases haccess : accessName? node with
  | none => exact .unknown
  | some access =>
      rw [haccess] at hsteady
      dsimp only at hsteady ⊢
      split
      case isTrue hkind =>
          rw [if_pos hkind] at hsteady
          cases hreceiver : node.receiver with
          | error => exact .unknown
          | ok receiver =>
              rw [hreceiver] at hsteady
              simp only [Bool.and_eq_true] at hsteady
              have hblurs := hanswers.exprType hblur receiver hsteady.1
              dsimp only
              split
              case isTrue hsafe =>
                  rw [if_pos hsafe, Bool.and_eq_true] at hsteady
                  have hmember :=
                    blurs_memberType hanswers hblur
                      (.some (hblurs.nonNull context.base))
                    haccess hsteady.2.1
                  exact blurs_nullSafe hblurs hmember hsteady.2.2
              case isFalse hunsafe =>
                  rw [if_neg hunsafe] at hsteady
                  exact blurs_memberType hanswers hblur (.some hblurs) haccess
                    hsteady.2
      case isFalse hkind =>
          rw [if_neg hkind] at hsteady
          exact blurs_memberType hanswers hblur .none haccess hsteady

include hle in
theorem blurs_binaryType {node : Node}
    (hsteady : steady.binary context more m right node = true) :
    Blurs (binaryType (context.atDepth depth) less n left node)
      (binaryType context more m right node) := by
  rw [Steady.binary] at hsteady
  rw [binaryType, binaryType]
  split
  case h_1 operand operator hleft hoperator =>
      rw [hleft, hoperator] at hsteady
      simp only [Bool.and_eq_true, Bool.or_eq_true, Bool.not_eq_true']
        at hsteady
      have hresult :
          Blurs (operatorType (context.atDepth depth) less n _ operator.text)
            _ :=
        blurs_operatorType hle hanswers
          (hanswers.exprType hblur operand hsteady.1.1) hsteady.1.2
      dsimp only
      cases hboolean : givesBoolean node.kind with
      | true =>
          rw [Bool.and_true, Bool.and_true]
          refine blurs_default hresult (blurs_type context.base "Boolean")
            (hsteady.2.resolve_left ?_)
          rw [hboolean]
          exact Bool.noConfusion
      | false =>
          rw [Bool.and_false, Bool.and_false]
          exact hresult
  case h_2 => exact .unknown

theorem blurs_outerType {node : Node}
    (hsteady : steady.outer right node = true) :
    Blurs (outerType less left node) (outerType more right node) := by
  rw [Steady.outer] at hsteady
  rw [outerType, outerType]
  split
  case h_1 scope hscope =>
      rw [hscope] at hsteady
      exact hanswers.thisType hblur scope hsteady
  case h_2 => exact .unknown

include hle in
theorem blurs_functionType {node : Node}
    (hsteady : steady.exprOf right node.expr? = true) :
    Blurs (functionType (context.atDepth depth) less n left node)
      (functionType context more m right node) := by
  have hresult := blurs_exprTypeOf hanswers hblur hsteady
  refine (Alike.of_params (forall₂_map fun parameter _ => ?_) hresult).blurs
  split
  case h_1 declared _ => exact blurs_deeperType hle hblur declared
  case h_2 => exact .unknown

include hdepth hle in
theorem blurs_exprType {node : Node}
    (hsteady : steady.ofExpr context more m right node = true) :
    Blurs (exprType (context.atDepth depth) less n left node)
      (exprType context more m right node) := by
  rw [Steady.ofExpr] at hsteady
  rw [exprType, exprType]
  split
  case h_1 | h_2 | h_3 | h_4 | h_5 | h_6 | h_7 => exact blurs_type _ _
  case h_8 hkind =>
      simp only [hkind] at hsteady
      exact hanswers.thisType hblur node hsteady
  case h_9 hkind =>
      simp only [hkind] at hsteady
      exact blurs_outerType hanswers hblur hsteady
  case h_10 => exact blurs_rootType _
  case h_11 => exact .nothing
  case h_12 hkind | h_13 hkind | h_14 hkind | h_15 hkind =>
      simp only [hkind] at hsteady
      exact blurs_exprTypeOf hanswers hblur hsteady
  case h_16 => exact blurs_importType context node
  case h_17 => exact blurs_readType context node
  case h_18 hkind | h_19 hkind | h_20 hkind =>
      simp only [hkind] at hsteady
      exact blurs_accessType hanswers hblur hsteady
  case h_21 hkind =>
      simp only [hkind] at hsteady
      split
      case h_1 receiver hreceiver =>
          rw [hreceiver] at hsteady
          simp only [Bool.and_eq_true] at hsteady
          exact blurs_operatorType hle hanswers
            (hanswers.exprType hblur receiver hsteady.1) hsteady.2
      case h_2 => exact .unknown
  case h_22 hkind =>
      simp only [hkind, Bool.and_eq_true] at hsteady
      exact blurs_operatorType hle hanswers
        (hanswers.thisType hblur node hsteady.1) hsteady.2
  case h_23 hkind =>
      simp only [hkind] at hsteady
      exact (blurs_exprTypeOf hanswers hblur hsteady).nonNull context.base
  case h_24 hkind =>
      simp only [hkind] at hsteady
      cases hexpr : node.expr? with
      | none => exact blurs_type _ _
      | some operand =>
          rw [hexpr] at hsteady
          simp only [Bool.and_eq_true] at hsteady
          exact blurs_default (blurs_operatorType hle hanswers
            (hanswers.exprType hblur operand hsteady.1.1) hsteady.1.2)
            (blurs_type context.base "Boolean") hsteady.2
  case h_25 hkind | h_26 hkind | h_27 hkind | h_28 hkind | h_29 hkind | h_30
      hkind | h_31 hkind =>
      simp only [hkind] at hsteady
      exact blurs_binaryType hle hanswers hblur hsteady
  case h_32 hkind =>
      simp only [hkind, Bool.and_eq_true] at hsteady
      exact ((blurs_exprTypeOf hanswers hblur hsteady.1).nonNull
        context.base).join
        (blurs_exprTypeOf hanswers hblur hsteady.2)
  case h_33 hkind =>
      simp only [hkind, Bool.and_eq_true] at hsteady
      exact blurs_functionResult hdepth
        (blurs_exprTypeOf hanswers hblur hsteady.1) hsteady.2
  case h_34 =>
      split
      case isTrue =>
          split
          case h_1 type _ => exact blurs_deeperType hle hblur type
          case h_2 => exact .unknown
      case isFalse => exact blurs_type _ _
  case h_35 hkind =>
      simp only [hkind, Bool.and_eq_true] at hsteady
      exact (blurs_exprTypeOf hanswers hblur hsteady.1).join
        (blurs_exprTypeOf hanswers hblur hsteady.2)
  case h_36 hkind =>
      simp only [hkind] at hsteady
      exact blurs_exprTypeOf hanswers hblur hsteady
  case h_37 hkind =>
      simp only [hkind] at hsteady
      exact blurs_functionType hle hanswers hblur hsteady
  case h_38 hkind =>
      simp only [hkind] at hsteady
      split
      case h_1 type _ => exact blurs_deeperType hle hblur type
      case h_2 hnone =>
          rw [hnone] at hsteady
          exact hanswers.expectedType hblur node hsteady
  case h_39 => exact .unknown

end

end

variable {context : Context} {depth : Nat}

theorem blur_none (m : Nat) :
    Answers.Blur (Answers.none (context.atDepth depth)) (answers context m)
      (steady context m) where
  exprType _ _ _ := .unknown
  declType _ _ _ := .unknown
  propertyType _ _ _ := .unknown
  thisType _ _ _ := .unknown
  expectedType {_ right} _ node hsteady := by
    have hmore : (answers context m).expectedType right node =
        context.base.type "Dynamic" := by
      cases m with
      | zero => rfl
      | succ m => exact expectedType_of_steady hsteady
    rw [hmore]
    exact blurs_type context.base "Dynamic"
  candidates _ _ _ _ _ _ _ _ _ := settles_nil _ _

theorem blur_answers (hdepth : depth ≤ context.maxDepth) {n m : Nat}
    (hle : n ≤ m) :
    Answers.Blur (answers (context.atDepth depth) n) (answers context m)
      (steady context m) := by
  -- each level asks the next one with one less on both sides, so the distance
  -- stays
  induction n generalizing m with
  | zero => exact blur_none m
  | succ n ih =>
      cases m with
      | zero => exact absurd hle (Nat.not_succ_le_zero n)
      | succ m =>
          have hle := Nat.le_of_succ_le_succ hle
          have hanswers := ih hle
          exact
            { exprType := fun hblur _ hsteady =>
                blurs_exprType hdepth hle hanswers hblur hsteady
              declType := fun hblur _ hsteady =>
                blurs_declType hdepth hle hanswers hblur hsteady
              propertyType := fun hblur _ hsteady =>
                blurs_propertyType hle hanswers hblur hsteady
              thisType := fun hblur _ hsteady =>
                blurs_thisType hdepth hle hanswers hblur hsteady
              expectedType := fun hblur _ hsteady =>
                blurs_expectedType hdepth hanswers hblur hsteady
              candidates := fun hreceiver _ _ hblur _ hsteady _ _ haccess =>
                settles_candidates hle hanswers hblur hreceiver hsteady
                  haccess }

end Inference

/-- Less depth gives no other type of an expression: the type has an unknown
part, or it is the same. -/
theorem Context.hasUnknown_or_eq_exprType (context : Context)
    {bindings : Ty.Bindings} (hbindings : bindings.Blur bindings) (node : Node)
    (hsteady : context.isSteady bindings node = true) {depth : Nat}
    (hdepth : depth ≤ context.maxDepth) :
    ((context.atDepth depth).exprType bindings node).hasUnknown = true ∨
      (context.atDepth depth).exprType bindings node =
        context.exprType bindings node :=
  have hanswers := Inference.blur_answers hdepth (Nat.succ_le_succ hdepth)
  (hanswers.exprType hbindings node hsteady).hasUnknown_or_eq

def moduleOfObjects : Document :=
  .ofTokens "file:///m"
    "class A\x7ba:Int\x7d\nclass B extends A\nv:B\nw=v.a\nx:B=new\x7b\x7d"
    [⟨.classKw, "class", 0⟩, ⟨.whitespace, " ", 5⟩, ⟨.identifier, "A", 6⟩,
     ⟨.leftBrace, "\x7b", 7⟩, ⟨.identifier, "a", 8⟩, ⟨.colon, ":", 9⟩,
     ⟨.identifier, "Int", 10⟩, ⟨.rightBrace, "\x7d", 13⟩,
     ⟨.whitespace, "\n", 14⟩, ⟨.classKw, "class", 15⟩, ⟨.whitespace, " ", 20⟩,
     ⟨.identifier, "B", 21⟩, ⟨.whitespace, " ", 22⟩,
     ⟨.extendsKw, "extends", 23⟩, ⟨.whitespace, " ", 30⟩,
     ⟨.identifier, "A", 31⟩, ⟨.whitespace, "\n", 32⟩, ⟨.identifier, "v", 33⟩,
     ⟨.colon, ":", 34⟩, ⟨.identifier, "B", 35⟩, ⟨.whitespace, "\n", 36⟩,
     ⟨.identifier, "w", 37⟩, ⟨.equal, "=", 38⟩, ⟨.identifier, "v", 39⟩,
     ⟨.dot, ".", 40⟩, ⟨.identifier, "a", 41⟩, ⟨.whitespace, "\n", 42⟩,
     ⟨.identifier, "x", 43⟩, ⟨.colon, ":", 44⟩, ⟨.identifier, "B", 45⟩,
     ⟨.equal, "=", 46⟩, ⟨.newKw, "new", 47⟩, ⟨.leftBrace, "\x7b", 50⟩,
     ⟨.rightBrace, "\x7d", 51⟩]
    (Token.ok_of_toOption (by decide +kernel))

def contextOfObjects : Context :=
  (Context.ofBase .plain).withDocument moduleOfObjects

/-- The type of the access is known at depth 4, and so it is the same with all
depth. -/
theorem Context.hasUnknown_or_eq_exprType_inherited : ∃ access : Node,
    contextOfObjects.isSteady [] access = true ∧ 4 ≤ contextOfObjects.maxDepth ∧
      (contextOfObjects.atDepth 4).exprType
        [] access = contextOfObjects.exprType [] access := by
  have hsteady : contextOfObjects.isSteady [] ⟨moduleOfObjects, 17⟩ = true := by
    decide +kernel
  have hdepth : 4 ≤ contextOfObjects.maxDepth := by decide
  have hknown :
      ((contextOfObjects.atDepth 4).exprType [] ⟨moduleOfObjects,
        17⟩).hasUnknown =
      false := by
    decide +kernel
  refine ⟨⟨moduleOfObjects, 17⟩, hsteady, hdepth, ?_⟩
  exact (contextOfObjects.hasUnknown_or_eq_exprType .nil _ hsteady
    hdepth).resolve_left
    (by rw [hknown]; exact Bool.false_ne_true)

/-- The object is not steady: without depth its type is the default, and with
depth it is that of the property. -/
example : contextOfObjects.isSteady [] ⟨moduleOfObjects, 20⟩ = false ∧
    ((contextOfObjects.atDepth 0).exprType [] ⟨moduleOfObjects, 20⟩).decl? =
      Base.plain.class? "Dynamic" ∧
    (contextOfObjects.exprType [] ⟨moduleOfObjects, 20⟩).decl? =
      some ⟨moduleOfObjects, 2⟩ := by
  decide +kernel

end PklAnalysis

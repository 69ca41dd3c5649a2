import PklAnalysis.Proofs.Grammar.Loop
import PklAnalysis.Proofs.Grammar.Productions

/-!
Every production of the grammar goes the same way in two runs from states that
are alike, as long as the rules that it refers to do while fewer tokens are
left.
-/

namespace PklAnalysis.Grammar

open PklAnalysis.Parser
open PklAnalysis.Parser.View

/-- Calls of rules go the same way while fewer than `bound` tokens are left. -/
structure Agree (like : Likeness) (bound : Nat) (call call' : Call) : Prop where
  type : ∀ start start',
    Twin like anything bound never start start' (call .type) (call' .type)
  expression : ∀ power start start', Twin like anything bound never start start'
    (call (.expression power)) (call' (.expression power))
  starting : ∀ power start start',
    Twin like (first expressionStarts) bound always start start'
    (call (.expression power)) (call' (.expression power))
  literal : ∀ start start', Twin like known bound always start start'
    (call .stringLiteral) (call' .stringLiteral)
  body : ∀ start start', Twin like known bound always start start'
    (call .objectBody) (call' .objectBody)
  member : ∀ start start', Twin like something bound always start start'
    (call .member) (call' .member)

def AgreeLiteral (like : Likeness) (bound : Nat) (call call' : Call) : Prop :=
  ∀ start start',
    Twin like known (bound + 1) always start start' (call .stringLiteral)
    (call' .stringLiteral)

variable {like : Likeness} {ahead : View} {bound start start' : Nat}
  {call call' : Call}

theorem twin_type (hcall : Agree like bound call call') :
    Twin like ahead bound never start start' (type call) (type call') :=
  (hcall.type start start').weaken.map fun _ hnever => hnever

theorem twin_expression (hcall : Agree like bound call call') :
    Twin like ahead bound never start start' (expression call)
      (expression call') :=
  (hcall.expression 0 start start').weaken.map fun _ hnever => hnever

theorem twin_expression_starting (hcall : Agree like bound call call') :
    Twin like (first expressionStarts) bound always start start'
      (expression call)
      (expression call') :=
  (hcall.starting 0 start start').map fun _ _ => trivial

theorem twin_stringLiteral (hcall : Agree like bound call call') :
    Twin like known bound always start start' (stringLiteral call)
      (stringLiteral call') :=
  (hcall.literal start start').map fun _ _ => trivial

theorem twin_objectBody (hcall : Agree like bound call call') :
    Twin like known bound always start start' (objectBody call)
      (objectBody call') :=
  (hcall.body start start').map fun _ _ => trivial

theorem twin_member (hcall : Agree like bound call call') :
    Twin like something bound always start start' (member call)
      (member call') :=
  (hcall.member start start').map fun _ _ => trivial

theorem twin_single {kind : Node.Kind}
    (hkind : decide (kind = .error) = false) :
    Twin like known bound always start start' (single kind) (single kind) :=
  twin_node hkind fun _ _ => twin_take

theorem twin_nextNamePart :
    Twin like ahead bound (· = true) start start' nextNamePart
      nextNamePart := by
  refine twin_at?_bind rfl
    (twin_peek?_bind fun second => .ite (fun hsecond => ?_) fun _ => ?_) ?_
  · have htwice : Twin like (fun peek => peek 1 = second ∧ known peek)
        (bound + 1) (· = true) start
        start' (do take; take; return true) (do take; take; return true) :=
      twin_take_again twin_done fun _ hseen =>
        ⟨hseen.2, .identifier, hseen.1.trans (of_decide_eq_true hsecond), nofun⟩
    exact htwice.lower
  · exact twin_pure nofun
  · exact twin_peek?_bind fun _ => twin_pure nofun

theorem twin_qualifiedName :
    Twin like ahead bound never start start' qualifiedName qualifiedName := by
  refine twin_node rfl fun _ _ => (twin_expect rfl).bind fun _ =>
    twin_repeatWhile twin_nextNamePart

theorem twin_nextType (hcall : Agree like bound call call') :
    Twin like ahead bound (· = true) start start' (nextType call)
      (nextType call') :=
  twin_accept_bind rfl ((twin_type hcall).bind fun _ => twin_done)
    (twin_pure nofun)

theorem twin_typeSequence (hcall : Agree like bound call call') :
    Twin like ahead bound never start start' (typeSequence call)
      (typeSequence call') :=
  (twin_type hcall).bind fun _ => twin_repeatWhile (twin_nextType hcall)

theorem twin_typeArguments (hcall : Agree like bound call call') :
    Twin like known (bound + 1) always start start' (typeArguments call)
      (typeArguments call') := by
  refine twin_node rfl fun _ _ => twin_take_bind ?_
  exact (twin_typeSequence hcall).bind fun _ => (twin_expect rfl).bind fun _ =>
    twin_done

theorem twin_declaredType (hcall : Agree like bound call call') :
    Twin like ahead (bound + 1) never start start' (declaredType call)
      (declaredType call') :=
  twin_node rfl fun _ _ => twin_qualifiedName.bind fun _ =>
    twin_at?_bind rfl (twin_typeArguments hcall).forget twin_done

theorem twin_parenthesizedOrFunctionType (hlike : like.Covers bound)
    (hcall : Agree like bound call call') :
    Twin like known (bound + 1) always start start'
      (parenthesizedOrFunctionType call)
      (parenthesizedOrFunctionType call') := by
  have hclosed : ∀ {place place'}, Twin like anything bound never place place'
      (do
        close .rightParen
        if ← at? .arrow then
          nodeAt place .functionType do
            take
            type call
        else
          nodeAt place .parenthesizedType (return ()))
      (do
        close .rightParen
        if ← at? .arrow then
          nodeAt place' .functionType do
            take
            type call'
        else
          nodeAt place' .parenthesizedType (return ())) := by
    intro place place'
    refine (twin_close hlike rfl).bind fun _ =>
      twin_at?_bind rfl ?_ (twin_nodeAt rfl fun _ _ => twin_done)
    exact twin_nodeAt rfl fun _ _ => twin_take.before fun _ => twin_type hcall
  refine twin_mark_bind fun place place' =>
    twin_take_bind (twin_at?_bind rfl ?_ ?_)
  · exact hclosed.weaken
  · exact (twin_typeSequence hcall).bind fun _ => hclosed

theorem twin_primaryType (hlike : like.Covers bound)
    (hcall : Agree like bound call call')
    (hliteral : AgreeLiteral like bound call call') :
    Twin like ahead (bound + 1) never start start' (primaryType call)
      (primaryType call') := by
  refine twin_current?_bind fun found => ?_
  split
  case h_1 | h_2 | h_3 => exact ((twin_single rfl).of_known rfl).forget
  case h_4 =>
      have hnode : Twin like known (bound + 1) always start start'
          (node .stringLiteralType (stringLiteral call))
          (node .stringLiteralType (stringLiteral call')) :=
        twin_node rfl fun _ _ => (hliteral _ _).map fun _ _ => trivial
      exact (hnode.of_known rfl).forget
  case h_5 => exact twin_declaredType hcall
  case h_6 =>
      exact ((twin_parenthesizedOrFunctionType hlike hcall).of_known rfl).forget
  case h_7 => exact twin_report _

theorem twin_nextQuestion :
    Twin like ahead bound (· = true) start start' (nextQuestion start)
      (nextQuestion start') := by
  refine twin_at?_bind rfl ?_ (twin_pure nofun)
  exact (twin_nodeAt rfl fun _ _ => twin_take).before fun _ => twin_done

theorem twin_nullableType (hlike : like.Covers bound)
    (hcall : Agree like bound call call')
    (hliteral : AgreeLiteral like bound call call') :
    Twin like ahead (bound + 1) never start start' (nullableType call)
      (nullableType call') :=
  twin_mark_bind fun _ _ => (twin_primaryType hlike hcall hliteral).bind
      fun _ =>
    twin_repeatWhile twin_nextQuestion

theorem twin_nextAlternative (hlike : like.Covers bound)
    (hcall : Agree like bound call call')
    (hliteral : AgreeLiteral like bound call call') :
    Twin like ahead (bound + 1) (· = true) start start'
      (nextAlternative call start)
      (nextAlternative call' start') := by
  refine twin_at?_bind rfl ?_ (twin_pure nofun)
  refine .before (twin_nodeAt rfl fun _ _ => twin_take.before fun _ => ?_)
    fun _ => twin_done
  exact twin_nullableType hlike hcall hliteral

theorem twin_typeRule (hlike : like.Covers bound)
    (hcall : Agree like bound call call')
    (hliteral : AgreeLiteral like bound call call') :
    Twin like ahead (bound + 1) never start start' (typeRule call)
      (typeRule call') :=
  twin_mark_bind fun _ _ => (twin_nullableType hlike hcall hliteral).bind
      fun _ =>
    twin_repeatWhile (twin_nextAlternative hlike hcall hliteral)

theorem twin_typeClause (hcall : Agree like bound call call') :
    Twin like known bound always start start' (typeClause call)
      (typeClause call') :=
  twin_node rfl fun _ _ => twin_take.before fun _ => twin_type hcall

theorem twin_optionalTypeClause (hcall : Agree like bound call call') :
    Twin like ahead bound never start start' (optionalTypeClause call)
      (optionalTypeClause call') :=
  twin_at?_bind rfl (twin_typeClause hcall).forget twin_done

theorem twin_parameter (hcall : Agree like bound call call') :
    Twin like ahead bound never start start' (parameter call)
      (parameter call') := by
  refine twin_node rfl fun _ _ => (twin_accept rfl).bind fun _ =>
    .ite (fun _ => ?_) fun _ => twin_done
  exact twin_node rfl fun _ _ => (twin_expect rfl).bind fun _ =>
    twin_optionalTypeClause hcall

theorem twin_nextParameter (hcall : Agree like bound call call') :
    Twin like ahead bound (· = true) start start' (nextParameter call)
      (nextParameter call') :=
  twin_atAny?_bind ((twin_parameter hcall).bind fun _ => twin_accept rfl)
    (twin_pure nofun)

theorem twin_parameterList (hcall : Agree like bound call call') :
    Twin like known (bound + 1) always start start' (parameterList call)
      (parameterList call') := by
  refine twin_node rfl fun _ _ => twin_take_bind ?_
  refine (twin_repeatWhile (twin_nextParameter hcall)).bind fun _ => ?_
  exact (twin_expect rfl).bind fun _ => twin_done

theorem twin_typeParameter :
    Twin like ahead bound never start start' typeParameter typeParameter := by
  have hname : ∀ {ahead start start'}, Twin like ahead bound never start start'
      (do let _ ← expect .identifier) (do let _ ← expect .identifier) :=
    (twin_expect rfl).bind fun _ => twin_done
  refine twin_node rfl fun _ _ => (twin_accept rfl).bind fun _ =>
    .ite (fun _ => ?_) fun _ => hname
  exact (twin_accept rfl).bind fun _ => hname

theorem twin_nextTypeParameter :
    Twin like ahead bound (· = true) start start' nextTypeParameter
      nextTypeParameter :=
  twin_typeParameter.bind fun _ => twin_accept rfl

theorem twin_optionalTypeParameters :
    Twin like ahead bound never start start' optionalTypeParameters
      optionalTypeParameters := by
  refine twin_at?_bind rfl (twin_node rfl fun _ _ => twin_take.before fun _ =>
    ?_) twin_done
  refine (twin_repeatWhile twin_nextTypeParameter).bind fun _ => ?_
  exact (twin_expect rfl).bind fun _ => twin_done

theorem twin_nextAnnotated (hcall : Agree like bound call call') :
    Twin like ahead (bound + 1) (· = true) start start' (nextAnnotated call)
      (nextAnnotated call') := by
  have hbody : ∀ {start start'}, Twin like anything bound never start start'
      (do if ← at? .leftBrace then objectBody call)
        (do if ← at? .leftBrace then objectBody call') :=
    twin_at?_bind rfl (twin_objectBody hcall).forget twin_done
  refine twin_at?_bind rfl ?_ (twin_pure nofun)
  refine .before
    (twin_node rfl fun _ _ => twin_take_bind (twin_atAny?_bind ?_ ?_)) fun _ =>
      twin_done
  · exact (twin_type hcall).bind fun _ => hbody
  · exact (twin_report _).bind fun _ => hbody

theorem twin_annotations (hcall : Agree like bound call call') :
    Twin like ahead (bound + 1) never start start' (annotations call)
      (annotations call') :=
  twin_repeatWhile (twin_nextAnnotated hcall)

theorem twin_atModifier?_bind {spends : α → Prop} {next next' : Bool → Parser α}
    (hfound : Twin like known bound spends start start' (next true)
      (next' true))
    (hmissed : Twin like ahead bound spends start start' (next false)
      (next' false)) :
    Twin like ahead bound spends start start' (atModifier? >>= next)
      (atModifier? >>= next') := by
  refine twin_test_bind (fun kind? => kind?.any Token.Kind.isModifier)
    (fun _ => rfl) ?_ ?_
  · refine hfound.mono (fun peek hseen => ?_) (Nat.le_refl _)
      fun _ hvalue => hvalue
    obtain ⟨kind, hpeek, hmodifier⟩ := (Option.any_eq_true _ _).mp hseen.1
    exact ⟨kind, hpeek, fun herror => nomatch herror ▸ hmodifier⟩
  · exact hmissed.mono (fun _ hseen => hseen.2) (Nat.le_refl _)
      fun _ hvalue => hvalue

theorem twin_nextModifier :
    Twin like ahead bound (· = true) start start' nextModifier nextModifier :=
  twin_atModifier?_bind (twin_take.before fun _ => twin_done) (twin_pure nofun)

theorem twin_modifiers :
    Twin like ahead bound never start start' modifiers modifiers :=
  twin_atModifier?_bind
    (twin_node rfl fun _ _ => twin_repeatWhile twin_nextModifier) twin_done

theorem twin_nextBody (hcall : Agree like bound call call') :
    Twin like ahead bound (· = true) start start' (nextBody call)
      (nextBody call') :=
  twin_at?_bind rfl ((twin_objectBody hcall).before fun _ => twin_done)
    (twin_pure nofun)

theorem twin_objectBodies (hcall : Agree like bound call call') :
    Twin like ahead bound never start start' (objectBodies call)
      (objectBodies call') :=
  twin_repeatWhile (twin_nextBody hcall)

theorem twin_property (hcall : Agree like bound call call') {kind : Node.Kind}
    (hkind : decide (kind = .error) = false) :
    Twin like known (bound + 1) always start start' (property call start kind)
      (property call' start' kind) := by
  refine twin_nodeAt hkind fun _ _ => twin_take_bind ?_
  refine (twin_optionalTypeClause hcall).bind fun _ => ?_
  exact twin_accept_bind rfl (twin_expression hcall) (twin_objectBodies hcall)

theorem twin_method (hcall : Agree like bound call call') {kind : Node.Kind}
    (hkind : decide (kind = .error) = false) :
    Twin like known (bound + 1) always start start' (method call start kind)
      (method call' start' kind) := by
  have hrest : ∀ {start start'}, Twin like anything bound never start start'
      (do
        optionalTypeClause call
        if ← accept .equal then
          expression call)
      (do
        optionalTypeClause call'
        if ← accept .equal then
          expression call') :=
    (twin_optionalTypeClause hcall).bind fun _ =>
      twin_accept_bind rfl (twin_expression hcall) twin_done
  refine twin_nodeAt hkind fun _ _ =>
    twin_take_bind ((twin_expect rfl).bind fun _ => ?_)
  refine twin_optionalTypeParameters.bind fun _ => twin_at?_bind rfl ?_ ?_
  · exact (twin_parameterList hcall).lower.forget.bind fun _ => hrest
  · exact (twin_report _).bind fun _ => hrest

theorem twin_typeAlias (hcall : Agree like bound call call') :
    Twin like known (bound + 1) always start start' (typeAlias call start)
      (typeAlias call' start') := by
  refine twin_nodeAt rfl fun _ _ =>
    twin_take_bind ((twin_expect rfl).bind fun _ => ?_)
  refine twin_optionalTypeParameters.bind fun _ =>
    (twin_expect rfl).bind fun _ => ?_
  exact .ite (fun _ => twin_type hcall) fun _ => twin_done

theorem twin_unlessClosed {step step' : Parser Bool}
    (hstep : Twin like something bound (· = true) start start' step step') :
    Twin like ahead bound (· = true) start start'
      (do if (← atEnd?) || (← at? .rightBrace) then return false else step)
      (do if (← atEnd?) || (← at? .rightBrace) then return false else step') := by
  let closed (kind? : Option Token.Kind) : Bool :=
    kind?.isNone || kind? = some .rightBrace
  let closed? : Parser Bool := return closed ((← get).peek? 0)
  change Twin like ahead bound (· = true) start start'
    (closed? >>= fun found => if found then pure false else step)
    (closed? >>= fun found => if found then pure false else step')
  refine twin_test_bind closed (fun _ => rfl) (twin_pure nofun) ?_
  refine hstep.mono (fun peek hseen => ?_) (Nat.le_refl _)
    fun _ hvalue => hvalue
  cases hpeek : peek 0 with
  | none =>
      rw [hpeek] at hseen
      exact nomatch hseen.1
  | some kind => exact something_of_eq hpeek

theorem twin_nextClassMember (hcall : Agree like bound call call') :
    Twin like ahead bound (· = true) start start' (nextClassMember call)
      (nextClassMember call') :=
  twin_unlessClosed ((twin_member hcall).before fun _ => twin_done)

theorem twin_classBody (hcall : Agree like bound call call') :
    Twin like known (bound + 1) always start start' (classBody call)
      (classBody call') := by
  refine twin_node rfl fun _ _ => twin_take_bind ?_
  refine (twin_repeatWhile (twin_nextClassMember hcall)).bind fun _ => ?_
  exact (twin_expect rfl).bind fun _ => twin_done

theorem twin_classDecl (hcall : Agree like bound call call') :
    Twin like known (bound + 1) always start start' (classDecl call start)
      (classDecl call' start') := by
  have hbody : ∀ {start start'}, Twin like anything bound never start start'
      (do if ← at? .leftBrace then classBody call)
        (do if ← at? .leftBrace then classBody call') :=
    twin_at?_bind rfl (twin_classBody hcall).lower.forget twin_done
  have hextends : ∀ {start start'}, Twin like known bound always start start'
      (node .classHeaderExtends do take; type call)
        (node .classHeaderExtends do take; type call') :=
    twin_node rfl fun _ _ => twin_take.before fun _ => twin_type hcall
  refine twin_nodeAt rfl fun _ _ =>
    twin_take_bind ((twin_expect rfl).bind fun _ => ?_)
  refine twin_optionalTypeParameters.bind fun _ => twin_at?_bind rfl ?_ hbody
  exact hextends.bind fun _ => hbody

/-- A member that is not there is reported at the end only, where nothing is
left to take. -/
theorem twin_memberRest_of_none {spends : Unit → Prop}
    (hlike : like.Covers bound) (hcall : Agree like bound call call')
    (hnone : Twin like (fun peek => peek 0 = none ∧ ahead peek) (bound + 1)
      spends start start' (report .expectedMember) (report .expectedMember)) :
    Twin like ahead (bound + 1) spends start start' (memberRest call start)
      (memberRest call' start') := by
  refine twin_current?_bind fun found => ?_
  split
  case h_1 => exact hnone
  case h_2 => exact ((twin_classDecl hcall).of_known rfl).spend
  case h_3 => exact ((twin_typeAlias hcall).of_known rfl).spend
  case h_4 => exact ((twin_method hcall rfl).of_known rfl).spend
  case h_5 => exact ((twin_property hcall rfl).of_known rfl).spend
  case h_6 => exact (twin_recover hlike _ _).of_some.spend

theorem twin_memberRest (hlike : like.Covers bound)
    (hcall : Agree like bound call call') :
    Twin like ahead (bound + 1) never start start' (memberRest call start)
      (memberRest call' start') :=
  twin_memberRest_of_none hlike hcall (twin_report _)

theorem twin_memberRule (hlike : like.Covers bound)
    (hcall : Agree like bound call call') :
    Twin like something (bound + 1) always start start' (memberRule call)
      (memberRule call') := by
  refine twin_mark_bind fun _ _ => (twin_annotations hcall).after (fun _ => ?_)
    fun _ => ?_
  · exact twin_modifiers.bind fun _ => twin_memberRest hlike hcall
  · refine twin_modifiers.after (fun _ => twin_memberRest hlike hcall)
      fun _ => ?_
    refine twin_memberRest_of_none hlike hcall ?_
    refine twin_of_impossible (keeps_report _) (keeps_report _)
      fun peek hseen => ?_
    exact Option.isSome_iff_ne_none.mp hseen.2 hseen.1

theorem twin_operand (hcall : Agree like bound call call') (power : Nat) :
    Twin like ahead bound never start start' (operand call power)
      (operand call' power) :=
  (hcall.expression power _ _).weaken.bind fun _ =>
    .ite (fun _ => twin_report _) fun _ => twin_done

theorem twin_nextLiteralPart (hlike : like.Covers bound)
    (hcall : Agree like bound call call') :
    Twin like ahead bound (· = true) start start' (nextLiteralPart call)
      (nextLiteralPart call') := by
  refine twin_current?_bind fun found => ?_
  split
  case h_1 => exact (twin_take.before fun _ => twin_done).of_known rfl
  case h_2 =>
      refine .of_known (.before (twin_node rfl fun _ _ => ?_) fun _ =>
        twin_done) rfl
      exact twin_take.before fun _ => (twin_expression hcall).bind fun _ =>
        twin_close hlike rfl
  case h_3 => exact twin_pure nofun

theorem twin_literalRest (hlike : like.Covers bound)
    (hcall : Agree like bound call call') :
    Twin like ahead bound never start start' (literalRest call)
      (literalRest call') := by
  refine (twin_repeatWhile (twin_nextLiteralPart hlike hcall)).bind fun _ => ?_
  exact (twin_accept rfl).bind fun _ => .ite (fun _ => twin_report _) fun _ =>
    twin_done

theorem literalKind_ne_error (delimiter : String) :
    literalKind delimiter ≠ .error := by
  rw [literalKind]
  split <;> exact nofun

theorem twin_stringLiteralRule (hlike : like.Covers bound)
    (hcall : Agree like bound call call') :
    Twin like known (bound + 1) always start start' (stringLiteralRule call)
      (stringLiteralRule call') := by
  let delimiter (state : State) : String :=
    (state.current?.map Token.text).getD ""
  let rest (call : Call) (delimiter : String) : Parser (Option Node.Kind) := do
    node (literalKind delimiter) do
      take
      literalRest call
    return some (literalKind delimiter)
  change Twin like known (bound + 1) always start start'
    ((do return delimiter (← get)) >>= rest call)
      ((do return delimiter (← get)) >>= rest call')
  refine twin_look_bind delimiter delimiter (fun _ => rfl) (fun _ => rfl)
    (fun _ _ hrel _ _ => ?_) (fun _ => known) (fun _ hsees => hsees)
      fun delimiter => ?_
  · simp only [delimiter, Likeness.text_eq hrel]
  · have hbody : ∀ {start start'},
        Twin like known (bound + 1) always start start'
        (take >>= fun _ => literalRest call)
          (take >>= fun _ => literalRest call') :=
      twin_take_bind (twin_literalRest hlike hcall)
    have hkind := decide_eq_false (literalKind_ne_error delimiter)
    exact (twin_node hkind fun _ _ => hbody).before fun _ => twin_done

/-- Two loops do the same if their steps do, save that one of them may take one
last turn in which it does nothing. -/
theorem repeatWhile_congr_last {step step' : Parser Bool}
    (hstep : ∀ state, step.run state = step'.run state ∨ ∃ after,
      step.run state = (true, after) ∧ step'.run state = (false, after) ∧
        step.run after = (false, after)) :
    repeatWhile step = repeatWhile step' := by
  have hloop : ∀ limit state,
      (iterate (once step) limit ()).run state =
        (iterate (once step') limit ()).run state := by
    intro limit
    induction limit with
    | zero => exact fun _ => rfl
    | succ limit ih =>
        intro state
        rcases hstep state with hsame | ⟨after, hmore, hdone, hlast⟩
        · rw [iterate, iterate, run_bind, run_bind, run_once, run_once, hsame]
          cases (step'.run state).1 with
          | true => exact ih (step'.run state).2
          | false => rfl
        · rw [run_iterate_of_true limit hmore, run_iterate_of_false limit hdone,
            run_iterate_of_unchanged limit hlast]
  funext state
  exact hloop (state.tokens.length + 1) state

/-- The next argument of a call; at the end of the text it does not ask to look
for another. -/
def nextArgumentLeft (call : Call) : Parser Bool := do
  if ← atAny? expressionStarts then
    expression call
    return (← accept .comma) || (!(← afterBreak?) && !(← atEnd?))
  else
    return false

theorem repeatWhile_nextArgument (call : Call) :
    repeatWhile (nextArgument call) = repeatWhile (nextArgumentLeft call) := by
  let test (state : State) : Bool :=
    (state.peek? 0).any expressionStarts.contains
  let argument : Parser Bool := expression call >>= fun _ => accept .comma
  have hrun : ∀ state, (nextArgument call).run state =
      if test state then
        ((argument.run state).1 || !(argument.run state).2.afterBreak,
          (argument.run state).2)
      else (false, state) := by
    intro state
    have hlook : (nextArgument call).run state =
        (if test state then do return (← argument) || !(← afterBreak?) else
          return false).run state :=
      rfl
    rw [hlook]
    split <;> rfl
  have hrun' : ∀ state, (nextArgumentLeft call).run state =
      if test state then
        ((argument.run state).1 || (!(argument.run state).2.afterBreak &&
          !((argument.run state).2.peek? 0).isNone), (argument.run state).2)
      else (false, state) := by
    intro state
    have hlook : (nextArgumentLeft call).run state =
        (if test state then do return (← argument) ||
          (!(← afterBreak?) && !(← atEnd?))
          else return false).run state := rfl
    rw [hlook]
    split <;> rfl
  refine repeatWhile_congr_last fun state => ?_
  rw [hrun, hrun']
  cases htest : test state with
  | false => exact .inl rfl
  | true =>
      generalize argument.run state = after
      cases hpeek : after.2.peek? 0 with
      | some kind => exact .inl (by simp)
      | none =>
          have hlast : (nextArgument call).run after.2 = (false, after.2) := by
            rw [hrun]
            simp [test, hpeek]
          cases hfound : after.1 <;> cases hbreak : after.2.afterBreak
          case false.false => exact .inr ⟨after.2, rfl, by simp, hlast⟩
          all_goals exact .inl (by simp)

theorem twin_nextArgumentLeft (hlike : like.Covers bound)
    (hcall : Agree like bound call call') :
    Twin like ahead bound (· = true) start start' (nextArgumentLeft call)
      (nextArgumentLeft call') := by
  refine twin_atAny?_bind ((twin_expression_starting hcall).before fun _ => ?_)
    (twin_pure nofun)
  refine (twin_accept rfl).forget.bind fun found => ?_
  let more (state : State) : Bool :=
    found || (!state.afterBreak && !(state.peek? 0).isNone)
  have hrun : ∀ state,
      (do return found || (!(← afterBreak?) && !(← atEnd?)) : Parser Bool).run
        state =
      (more state, state) := fun _ => rfl
  refine twin_of_view hrun hrun fun state state' hrel _ hcount => ?_
  simp only [more, ← Likeness.peek?_eq hrel]
  cases hpeek : state.peek? 0 with
  | none => simp only [Option.isNone_none, Bool.not_true, Bool.and_false]
  | some kind =>
      rw [afterBreak_eq_of_something hlike.le hrel
          (something_of_eq hpeek) hcount]

theorem twin_argumentList (hlike : like.Covers bound)
    (hcall : Agree like bound call call') :
    Twin like known bound always start start' (argumentList call)
      (argumentList call') := by
  refine twin_node rfl fun _ _ => twin_take.before fun _ => ?_
  change Twin like anything bound never _ _
    (repeatWhile (nextArgument call) >>= fun _ => close .rightParen)
    (repeatWhile (nextArgument call') >>= fun _ => close .rightParen)
  rw [repeatWhile_nextArgument, repeatWhile_nextArgument]
  exact (twin_repeatWhile (twin_nextArgumentLeft hlike hcall)).bind fun _ =>
    twin_close hlike rfl

theorem twin_optionalArguments (hlike : like.Covers bound)
    (hcall : Agree like bound call call') :
    Twin like ahead bound never start start' (optionalArguments call)
      (optionalArguments call') := by
  let opens (state : State) : Bool :=
    decide (state.peek? 0 = some .leftParen) && !state.afterBreak
  let opens? : Parser Bool := return opens (← get)
  change Twin like ahead bound never start start'
    (opens? >>= fun found => if found then argumentList call else pure ())
    (opens? >>= fun found => if found then argumentList call' else pure ())
  refine twin_look_bind opens opens (fun _ => rfl) (fun _ => rfl)
    (fun state state' hrel _ hcount => ?_)
    (fun found peek => found = true → known peek) (fun state _ hfound => ?_)
      fun found => ?_
  · simp only [opens, ← Likeness.peek?_eq hrel]
    by_cases hpeek : state.peek? 0 = some .leftParen
    · rw [afterBreak_eq_of_something hlike.le hrel
          (something_of_eq hpeek) hcount]
    · simp only [hpeek, decide_false, Bool.false_and]
  · simp only [opens, Bool.and_eq_true, decide_eq_true_eq] at hfound
    exact ⟨_, hfound.1, nofun⟩
  · cases found with
    | true =>
        exact (twin_argumentList hlike hcall).mono (fun _ hseen => hseen rfl)
          (Nat.le_refl _)
          fun _ hnever => hnever.elim
    | false => exact twin_done

theorem twin_keywordCall (hlike : like.Covers bound)
    (hcall : Agree like bound call call') :
    Twin like known (bound + 1) always start start' (keywordCall call)
      (keywordCall call') := by
  refine twin_take_bind ((twin_expect rfl).bind fun _ =>
    .ite (fun _ => ?_) fun _ => twin_done)
  exact (twin_expression hcall).bind fun _ => twin_close hlike rfl

theorem twin_importExpr (hlike : like.Covers bound)
    (hcall : Agree like bound call call') :
    Twin like known (bound + 1) always start start' (importExpr call)
      (importExpr call') := by
  refine twin_take_bind ((twin_expect rfl).bind fun _ =>
    .ite (fun _ => ?_) fun _ => twin_done)
  refine twin_at?_bind rfl ?_ ?_
  · exact (twin_stringLiteral hcall).forget.bind fun _ => twin_close hlike rfl
  · exact (twin_report _).bind fun _ => twin_close hlike rfl

theorem twin_newExpr (hcall : Agree like bound call call') :
    Twin like known (bound + 1) always start start' (newExpr call)
      (newExpr call') := by
  have hbody : ∀ {ahead start start'}, Twin like ahead bound never start start'
      (do
        if ← at? .leftBrace then objectBody call
        else report .expectedObjectBody)
      (do
        if ← at? .leftBrace then objectBody call'
        else report .expectedObjectBody) :=
    twin_at?_bind rfl (twin_objectBody hcall).forget (twin_report _)
  refine twin_take_bind (twin_at?_bind rfl hbody ?_)
  exact (twin_type hcall).bind fun _ => hbody

theorem twin_superSubscriptExpr (hlike : like.Covers bound)
    (hcall : Agree like bound call call') :
    Twin like (fun peek => known peek ∧ known fun n => peek (n + 1)) (bound + 1)
      always start start'
      (superSubscriptExpr call) (superSubscriptExpr call') :=
  twin_take_again ((twin_expression hcall).bind fun _ => twin_close hlike rfl)
    fun _ hseen => hseen

theorem twin_superAccessExpr (hlike : like.Covers bound)
    (hcall : Agree like bound call call') :
    Twin like known (bound + 1) always start start' (superAccessExpr call)
      (superAccessExpr call') := by
  refine twin_take_bind ((twin_expect rfl).bind fun _ =>
    .ite (fun _ => ?_) fun _ => twin_done)
  exact (twin_expect rfl).bind fun _ => twin_optionalArguments hlike hcall

theorem twin_ifExpr (hlike : like.Covers bound)
    (hcall : Agree like bound call call') :
    Twin like known (bound + 1) always start start' (ifExpr call)
      (ifExpr call') := by
  have hrest : ∀ {start start'}, Twin like anything bound never start start'
      (do
        expression call
        if ← expect .elseKw then
          expression call)
      (do
        expression call'
        if ← expect .elseKw then
          expression call') :=
    (twin_expression hcall).bind fun _ => (twin_expect rfl).bind fun _ =>
      .ite (fun _ => twin_expression hcall) fun _ => twin_done
  refine twin_take_bind ((twin_expect rfl).bind fun _ =>
    .ite (fun _ => ?_) fun _ => hrest)
  exact (twin_expression hcall).bind fun _ => (twin_close hlike rfl).bind
    fun _ => hrest

theorem twin_letExpr (hlike : like.Covers bound)
    (hcall : Agree like bound call call') :
    Twin like known (bound + 1) always start start' (letExpr call)
      (letExpr call') := by
  refine twin_take_bind ((twin_expect rfl).bind fun _ =>
    .ite (fun _ => ?_) fun _ => twin_expression hcall)
  refine (twin_parameter hcall).bind fun _ => (twin_expect rfl).bind fun _ => ?_
  exact (twin_expression hcall).bind fun _ => (twin_close hlike rfl).bind
    fun _ => twin_expression hcall

theorem twin_parenthesizedExpr (hlike : like.Covers bound)
    (hcall : Agree like bound call call') :
    Twin like known (bound + 1) always start start' (parenthesizedExpr call)
      (parenthesizedExpr call') :=
  twin_take_bind ((twin_expression hcall).bind fun _ => twin_close hlike rfl)

theorem twin_functionLiteral (hcall : Agree like bound call call') :
    Twin like known (bound + 1) always start start' (functionLiteral call)
      (functionLiteral call') := by
  refine (twin_parameterList hcall).bind_spent (fun _ _ => ?_) fun _ hunspent =>
    absurd trivial hunspent
  exact (twin_expect rfl).bind fun _ => twin_expression hcall

/-- The tokens that are no trivia, as if each of them stood at the beginning of
its text. -/
def spelling (tokens : List Token) : List Token :=
  ((Token.significant tokens).map Token.leaf).map fun leaf =>
    ⟨leaf.1, leaf.2, 0⟩

theorem spelling_of_trivia {token : Token} (rest : List Token)
    (htrivia : token.isTrivia = true) :
    spelling (token :: rest) = spelling rest := by
  rw [spelling, Token.significant_cons_of_trivia _ htrivia, spelling]

theorem spelling_cons {token : Token} (rest : List Token)
    (htrivia : token.isTrivia = false) :
    spelling (token :: rest) = { token with offset := 0 } :: spelling rest := by
  rw [spelling, Token.significant_cons _ htrivia]
  rfl

theorem nth?_spelling (n : Nat) (tokens : List Token) :
    (nth? n (spelling tokens)).map Token.kind =
      (nth? n tokens).map Token.kind := by
  induction tokens generalizing n with
  | nil => rfl
  | cons token rest ih =>
      cases htrivia : token.isTrivia with
      | true =>
          simp only [spelling_of_trivia _ htrivia, nth?, htrivia, if_true, ih]
      | false =>
          have hplain : ({ token with offset := 0 } : Token).isTrivia = false :=
            htrivia
          rw [spelling_cons _ htrivia]
          cases n <;> simp [nth?, htrivia, hplain, ih]

/-- The search for the arrow of a function literal looks at kinds only, and past
trivia. -/
theorem functionAhead_spelling (depth limit : Nat) (tokens : List Token) :
    functionAhead depth limit (spelling tokens) =
      functionAhead depth limit tokens := by
  induction tokens generalizing depth limit with
  | nil => rfl
  | cons token rest ih =>
      cases htrivia : token.isTrivia with
      | true =>
          simp only [spelling_of_trivia _ htrivia, functionAhead, htrivia,
            if_true, ih]
      | false =>
          have hplain : ({ token with offset := 0 } : Token).isTrivia = false :=
            htrivia
          have hnext :
              ((nth? 0 (spelling rest)).any fun next => next.kind = .arrow) =
              (nth? 0 rest).any fun next => next.kind = .arrow := by
            have hkind := nth?_spelling 0 rest
            cases hspelling : nth? 0 (spelling rest) <;> cases hrest :
              nth? 0 rest <;> simp_all
          rw [spelling_cons _ htrivia]
          cases limit with
          | zero => simp [functionAhead, htrivia, hplain]
          | succ limit => simp only [functionAhead, htrivia, hplain, ih, hnext]

theorem arrowAhead_spelling (limit : Nat) (tokens : List Token) :
    arrowAhead limit (spelling tokens) = arrowAhead limit tokens := by
  induction tokens generalizing limit with
  | nil => rfl
  | cons token rest ih =>
      cases htrivia : token.isTrivia with
      | true =>
          simp only [spelling_of_trivia _ htrivia, arrowAhead, htrivia, if_true,
            ih]
      | false =>
          have hplain : ({ token with offset := 0 } : Token).isTrivia = false :=
            htrivia
          rw [spelling_cons _ htrivia]
          cases limit with
          | zero => simp [arrowAhead, htrivia, hplain]
          | succ limit => simp only [arrowAhead, htrivia, hplain, ih]

theorem spelling_eq {state state' : State}
    (hrel : like.rel start start' state state') :
    spelling state.tokens = spelling state'.tokens := by
  rw [spelling, spelling, like.leaves_eq hrel]

theorem twin_atFunctionLiteral?_bind {spends : α → Prop}
    {next next' : Bool → Parser α}
    (hnext : ∀ found,
      Twin like ahead bound spends start start' (next found) (next' found)) :
    Twin like ahead bound spends start start' (atFunctionLiteral? >>= next)
      (atFunctionLiteral? >>= next') := by
  refine twin_look_bind
    (fun state => functionAhead 0 functionLookahead state.tokens)
    (fun state => functionAhead 0 functionLookahead state.tokens) (fun _ => rfl)
      (fun _ => rfl)
    (fun state state' hrel _ _ => ?_) (fun _ => ahead)
      (fun _ hsees => hsees) hnext
  rw [← functionAhead_spelling, spelling_eq hrel, functionAhead_spelling]

theorem twin_built {body body' : Parser Unit} {kind : Node.Kind}
    (hkind : decide (kind = .error) = false)
    (hbody : ∀ inner inner',
      Twin like ahead bound always inner inner' body body') :
    Twin like ahead bound always start start' (built kind body)
      (built kind body') :=
  (twin_node hkind hbody).before fun _ => twin_done

theorem twin_operandStart_of_missing {spends : Option Node.Kind → Prop}
    (hlike : like.Covers bound) (hcall : Agree like bound call call')
    (hliteral : AgreeLiteral like bound call call')
    (hmissing : ∀ kind?, kind?.any expressionStarts.contains = false →
      Twin like (fun peek => peek 0 = kind? ∧ ahead peek) (bound + 1) spends
        start start' (do report .expectedExpression; return none)
          (do report .expectedExpression; return none)) :
    Twin like ahead (bound + 1) spends start start' (operandStart call)
      (operandStart call') := by
  refine twin_current?_bind fun found => ?_
  split
  case h_1 | h_2 | h_3 | h_4 | h_5 | h_6 | h_7 | h_8 =>
      exact ((twin_built rfl fun _ _ => twin_take).of_known rfl).spend
  case h_9 => exact ((hliteral _ _).of_known rfl).spend
  case h_10 | h_11 | h_12 | h_13 | h_14 =>
      exact ((twin_built rfl fun _ _ => twin_keywordCall hlike hcall).of_known
        rfl).spend
  case h_15 | h_16 =>
      exact ((twin_built rfl fun _ _ => twin_importExpr hlike hcall).of_known
        rfl).spend
  case h_17 =>
      exact
        ((twin_built rfl fun _ _ =>
          twin_take_bind (twin_optionalArguments hlike hcall)).of_known
            rfl).spend
  case h_18 =>
      exact ((twin_built rfl fun _ _ => twin_newExpr hcall).of_known rfl).spend
  case h_19 =>
      refine twin_peek?_bind fun _ => .ite (fun hbracket => ?_) fun _ => ?_
      · have hsubscript : Twin like _ (bound + 1) always start start'
            (built .superSubscriptExpr _) _ :=
          twin_built rfl fun _ _ => twin_superSubscriptExpr hlike hcall
        refine hsubscript.spend.mono (fun peek hseen => ?_) (Nat.le_refl _)
          fun _ hvalue => hvalue
        exact ⟨⟨_, hseen.2.1, nofun⟩, _, hseen.1.trans hbracket, nofun⟩
      · have haccess : Twin like known (bound + 1) always start start'
            (built .superAccessExpr _) _ :=
          twin_built rfl fun _ _ => twin_superAccessExpr hlike hcall
        exact haccess.spend.mono (fun _ hseen => ⟨_, hseen.2.1, nofun⟩)
          (Nat.le_refl _)
          fun _ hvalue => hvalue
  case h_20 | h_21 =>
      exact
        ((twin_built rfl fun _ _ =>
          twin_take_bind (twin_operand hcall _)).of_known rfl).spend
  case h_22 =>
      exact ((twin_built rfl fun _ _ => twin_ifExpr hlike hcall).of_known
        rfl).spend
  case h_23 =>
      exact ((twin_built rfl fun _ _ => twin_letExpr hlike hcall).of_known
        rfl).spend
  case h_24 =>
      refine twin_atFunctionLiteral?_bind fun _ =>
        .ite (fun _ => ?_) fun _ => ?_
      · exact ((twin_built rfl fun _ _ => twin_functionLiteral hcall).of_known
          rfl).spend
      · exact
          ((twin_built rfl fun _ _ =>
            twin_parenthesizedExpr hlike hcall).of_known rfl).spend
  case h_25 =>
      refine hmissing found ?_
      cases found with
      | none => rfl
      | some kind => cases kind <;> first | rfl | contradiction

theorem twin_operandStart (hlike : like.Covers bound)
    (hcall : Agree like bound call call')
    (hliteral : AgreeLiteral like bound call call') :
    Twin like ahead (bound + 1) (·.isSome = true) start start'
      (operandStart call)
      (operandStart call') :=
  twin_operandStart_of_missing hlike hcall hliteral fun _ _ =>
    twin_report_bind (twin_pure nofun)

theorem twin_operandStart_starting (hlike : like.Covers bound)
    (hcall : Agree like bound call call')
    (hliteral : AgreeLiteral like bound call call') :
    Twin like (first expressionStarts) (bound + 1) always start start'
      (operandStart call)
      (operandStart call') := by
  refine twin_operandStart_of_missing hlike hcall hliteral fun kind? hmissing =>
    ?_
  refine twin_of_impossible (.bind (keeps_report _) fun _ => keeps_pure none)
    (.bind (keeps_report _) fun _ => keeps_pure none) fun peek ⟨hkind, kind,
      hmem, hpeek⟩ => ?_
  rw [← hkind, hpeek, Option.any_some, List.contains_iff_mem.mpr hmem]
    at hmissing
  exact nomatch hmissing

theorem twin_suffix (hlike : like.Covers bound)
    (hcall : Agree like bound call call') (operandKind : Node.Kind) :
    Twin like ahead bound (·.isSome = true) start start'
      (suffix call start operandKind)
      (suffix call' start' operandKind) := by
  refine twin_current?_bind fun found => ?_
  split
  case h_1 | h_2 =>
      refine .of_known
        (.before (twin_nodeAt rfl fun _ _ => twin_take.before fun _ => ?_)
          fun _ => twin_done) rfl
      exact (twin_expect rfl).bind fun _ => twin_optionalArguments hlike hcall
  case h_3 =>
      refine .of_known
        (twin_afterBreak?_bind hlike.le (fun _ => known.something)
          fun broken => ?_) rfl
      refine .ite (fun _ => twin_pure nofun) fun _ => ?_
      refine .before (twin_nodeAt rfl fun _ _ => twin_take.before fun _ => ?_)
        fun _ => twin_done
      exact (twin_expression hcall).bind fun _ => twin_close hlike rfl
  case h_4 =>
      exact .of_known (.before (twin_nodeAt rfl fun _ _ => twin_take) fun _ =>
        twin_done) rfl
  case h_5 =>
      refine .ite (fun _ => .of_known ?_ rfl) fun _ => twin_pure nofun
      exact .before (twin_nodeAt rfl fun _ _ => twin_objectBody hcall) fun _ =>
        twin_done
  case h_6 => exact twin_pure nofun

/-- Whether a minus sign starts a line is seen alike, since it stands after an
operand. -/
theorem operator_eq (hlike : like.Covers bound) {state state' : State}
    (hrel : like.rel start start' state state') (hcount : state.count < bound) :
    Operator.current? state = Operator.current? state' := by
  rw [Operator.current?, Operator.current?, ← Likeness.peek?_eq hrel]
  cases hpeek : state.peek? 0 with
  | none => rfl
  | some kind =>
      rw [afterBreak_eq_of_something hlike.le hrel
          (something_of_eq hpeek) hcount]

theorem Operator.ne_error_of_ofToken? {kind : Token.Kind} {operator : Operator}
    (hoperator : ofToken? kind = some operator) :
    kind ≠ .error ∧ operator.kind ≠ .error := by
  cases kind <;> simp [ofToken?] at hoperator <;> subst hoperator <;>
    exact ⟨nofun, nofun⟩

theorem Operator.known_of_current? {state : State} {operator : Operator}
    (hoperator : current? state = some operator) :
    known state.peek? ∧ operator.kind ≠ .error := by
  rw [Operator.current?] at hoperator
  cases hpeek : state.peek? 0 with
  | none => simp [hpeek] at hoperator
  | some kind =>
      simp only [hpeek, Option.bind_eq_bind, Option.bind_some] at hoperator
      split at hoperator
      case isTrue => exact nomatch hoperator
      case isFalse =>
          obtain ⟨hkind, hnode⟩ := Operator.ne_error_of_ofToken? hoperator
          exact ⟨⟨kind, hpeek, hkind⟩, hnode⟩

theorem twin_operation (hlike : like.Covers bound)
    (hcall : Agree like bound call call') (power : Nat) :
    Twin like ahead bound (·.isSome = true) start start'
      (operation call start power)
      (operation call' start' power) := by
  let operator? : Parser (Option Operator) := return Operator.current? (← get)
  let build (call : Call) (start : Nat) (operator : Operator) :
      Parser (Option Node.Kind) := do
    nodeAt start operator.kind do
      take
      if operator.kind = .typeTestExpr then
        type call
      else
        operand call operator.right
    return some operator.kind
  let next (call : Call) (start : Nat) (operator? : Option Operator) :
    Parser (Option Node.Kind) :=
    operator?.elim (return none) fun operator =>
      if operator.left < power then return none else build call start operator
  have hbuild : ∀ operator : Operator,
      Twin like (fun peek => known peek ∧ operator.kind ≠ .error) bound
        (·.isSome = true) start start'
        (build call start operator) (build call' start' operator) := by
    intro operator
    have hbody : ∀ {start start'}, Twin like known bound always start start'
        (take >>= fun _ => if operator.kind = .typeTestExpr then type call else
          operand call operator.right)
        (take >>= fun _ => if operator.kind = .typeTestExpr then type call' else
          operand call' operator.right) :=
      twin_take.before fun _ => .ite (fun _ => twin_type hcall) fun _ =>
        twin_operand hcall _
    refine .before (twin_nodeAt_of (fun _ _ => ?_) fun _ hseen herror =>
      absurd herror hseen.2)
      fun _ => twin_done
    exact hbody.mono (fun _ hseen => hseen.1) (Nat.le_refl _)
      fun _ hvalue => hvalue
  have hnext : ∀ call start, operation call start power = operator? >>=
      next call start := by
    refine fun call start => congrArg (get >>= ·) (funext fun state => ?_)
    change _ = next call start (Operator.current? state)
    cases Operator.current? state <;> rfl
  rw [hnext, hnext]
  refine twin_look_bind Operator.current? Operator.current? (fun _ => rfl)
    (fun _ => rfl)
    (fun _ _ hrel _ hcount => operator_eq hlike hrel hcount)
    (fun operator? peek => ∀ operator, operator? = some operator →
      known peek ∧ operator.kind ≠ .error)
    (fun state _ operator hfound => Operator.known_of_current? hfound)
      fun operator? => ?_
  cases operator? with
  | none => exact twin_pure nofun
  | some operator =>
      refine .ite (fun _ => twin_pure nofun) fun _ => ?_
      exact (hbuild operator).mono (fun _ hseen => hseen operator rfl)
        (Nat.le_refl _)
        fun _ hvalue => hvalue

theorem twin_continuation (hlike : like.Covers bound)
    (hcall : Agree like bound call call') (power : Nat)
    (operandKind : Node.Kind) :
    Twin like ahead bound (·.isSome = true) start start'
      (continuation call start power operandKind)
      (continuation call' start' power operandKind) := by
  refine (twin_suffix hlike hcall operandKind).bind_of_spends
    (fun found result => found = none ∧ result.isSome = true) (fun found => ?_)
    fun found result hresult => ?_
  · cases found with
    | some kind => exact twin_pure fun hspent => nomatch hspent.1
    | none =>
        exact (twin_operation hlike hcall power).mono (fun _ hseen => hseen)
          (Nat.le_refl _)
          fun _ hvalue => hvalue.2
  · cases found with
    | some kind => exact .inl rfl
    | none => exact .inr ⟨rfl, hresult⟩

theorem twin_continuations (hlike : like.Covers bound)
    (hcall : Agree like bound call call') (power : Nat)
    (found : Option Node.Kind) :
    Twin like ahead bound never start start'
      (match found with
        | none => return none
        | some kind =>
          return some (← repeatFrom (continuation call start power) kind))
      (match found with
        | none => return none
        | some kind =>
          return some
            (← repeatFrom (continuation call' start' power) kind)) := by
  cases found with
  | none => exact twin_done
  | some kind =>
      exact (twin_repeatFrom (twin_continuation hlike hcall power)).bind
        fun _ => twin_done

theorem twin_expressionRule (hlike : like.Covers bound)
    (hcall : Agree like bound call call')
    (hliteral : AgreeLiteral like bound call call') (power : Nat) :
    Twin like ahead (bound + 1) never start start' (expressionRule call power)
      (expressionRule call' power) := by
  refine twin_mark_bind fun _ _ =>
    (twin_operandStart hlike hcall hliteral).bind_spent
    (fun found _ => twin_continuations hlike hcall power found)
      fun found hmissing => ?_
  cases found with
  | none => exact twin_done
  | some kind => exact absurd rfl hmissing

theorem twin_expressionRule_starting (hlike : like.Covers bound)
    (hcall : Agree like bound call call')
    (hliteral : AgreeLiteral like bound call call') (power : Nat) :
    Twin like (first expressionStarts) (bound + 1) always start start'
      (expressionRule call power)
      (expressionRule call' power) :=
  twin_mark_bind fun _ _ =>
    (twin_operandStart_starting hlike hcall hliteral).bind_spent
    (fun found _ => twin_continuations hlike hcall power found)
      fun _ hunspent =>
      absurd trivial hunspent

theorem twin_atBodyParameters? :
    Twin like ahead bound never start start' atBodyParameters?
      atBodyParameters? := by
  refine twin_of_view run_atBodyParameters? run_atBodyParameters?
    fun state state' hrel _ _ => ?_
  rw [parametersAhead, parametersAhead, Likeness.peek?_eq hrel,
    ← arrowAhead_spelling, spelling_eq hrel, arrowAhead_spelling]

theorem twin_expectedBody (hcall : Agree like bound call call') :
    Twin like ahead bound never start start' (expectedBody call)
      (expectedBody call') :=
  twin_at?_bind rfl (twin_objectBody hcall).forget (twin_report _)

theorem twin_objectEntry (hcall : Agree like bound call call') :
    Twin like known bound always start start' (objectEntry call)
      (objectEntry call') := by
  refine twin_node rfl fun _ _ => twin_take.before fun _ =>
    (twin_expression hcall).bind fun _ => ?_
  refine (twin_expect rfl).bind fun _ =>
    twin_accept_bind rfl (twin_expression hcall) ?_
  exact twin_at?_bind rfl (twin_objectBodies hcall) (twin_report _)

theorem twin_objectSpread (hcall : Agree like bound call call') :
    Twin like known bound always start start' (objectSpread call)
      (objectSpread call') :=
  twin_node rfl fun _ _ => twin_take.before fun _ => twin_expression hcall

theorem twin_objectElement (hcall : Agree like bound call call') :
    Twin like (first expressionStarts) bound always start start'
      (objectElement call)
      (objectElement call') :=
  twin_node rfl fun _ _ => twin_expression_starting hcall

theorem twin_forGenerator (hcall : Agree like bound call call') :
    Twin like known bound always start start' (forGenerator call)
      (forGenerator call') := by
  have hrest : ∀ {ahead start start'}, Twin like ahead bound never start start'
      (do
        let _ ← expect .inKw
        expression call
        let _ ← expect .rightParen
        expectedBody call)
      (do
        let _ ← expect .inKw
        expression call'
        let _ ← expect .rightParen
        expectedBody call') :=
    (twin_expect rfl).bind fun _ => (twin_expression hcall).bind fun _ =>
        (twin_expect rfl).bind fun _ =>
      twin_expectedBody hcall
  refine twin_node rfl fun _ _ => twin_take.before fun _ =>
      (twin_expect rfl).bind fun _ =>
    .ite (fun _ => ?_) fun _ => twin_expectedBody hcall
  refine (twin_parameter hcall).bind fun _ => twin_accept_bind rfl ?_ hrest
  exact (twin_parameter hcall).bind fun _ => hrest

theorem twin_whenGenerator (hcall : Agree like bound call call') :
    Twin like known bound always start start' (whenGenerator call)
      (whenGenerator call') := by
  have hrest : ∀ {ahead start start'}, Twin like ahead bound never start start'
      (do
        expectedBody call
        if ← accept .elseKw then
          expectedBody call)
      (do
        expectedBody call'
        if ← accept .elseKw then
          expectedBody call') :=
    (twin_expectedBody hcall).bind fun _ =>
      twin_accept_bind rfl (twin_expectedBody hcall) twin_done
  refine twin_node rfl fun _ _ => twin_take.before fun _ =>
      (twin_expect rfl).bind fun _ =>
    .ite (fun _ => ?_) fun _ => hrest
  exact (twin_expression hcall).bind fun _ =>
    (twin_expect rfl).bind fun _ => hrest

theorem twin_modifiedMember (hlike : like.Covers bound)
    (hcall : Agree like bound call call') :
    Twin like something (bound + 1) always start start' (modifiedMember call)
      (modifiedMember call') := by
  refine twin_mark_bind fun _ _ => twin_modifiers.after (fun _ => ?_)
    fun _ => ?_
  all_goals
    refine twin_current?_bind fun found => ?_
    split
    case h_1 => exact ((twin_method hcall rfl).of_known rfl).spend
    case h_2 => exact ((twin_property hcall rfl).of_known rfl).spend
  · exact twin_recover_anything hlike _ _
  · exact (twin_recover hlike _ _).mono (fun _ hseen => hseen.2) (Nat.le_refl _)
      fun _ hvalue => hvalue

theorem twin_namedMember (hcall : Agree like bound call call') :
    Twin like (first expressionStarts) bound always start start'
      (namedMember call)
      (namedMember call') := by
  have hproperty : Twin like known (bound + 1) always start start'
      (mark >>= fun place => property call place .objectProperty)
      (mark >>= fun place => property call' place .objectProperty) :=
    twin_mark_bind fun _ _ => twin_property hcall rfl
  refine twin_peek?_bind fun next => ?_
  split
  case h_1 | h_2 | h_3 =>
      exact hproperty.mono (fun _ hseen => known_of_first hseen.2 (by decide))
        (Nat.le_succ _)
        fun _ _ => trivial
  case h_4 =>
      exact (twin_objectElement hcall).mono (fun _ hseen => hseen.2)
        (Nat.le_refl _)
        fun _ hvalue => hvalue

theorem twin_objectMember (hlike : like.Covers bound)
    (hcall : Agree like bound call call') :
    Twin like something bound always start start' (objectMember call)
      (objectMember call') := by
  refine twin_current?_bind fun found => ?_
  split
  case h_1 =>
      have hmethod : Twin like known (bound + 1) always start start'
          (mark >>= fun place => method call place .objectMethod)
          (mark >>= fun place => method call' place .objectMethod) :=
        twin_mark_bind fun _ _ => twin_method hcall rfl
      exact hmethod.lower.of_known rfl
  case h_2 =>
      exact (twin_namedMember hcall).mono
        (fun _ hseen => ⟨_, by decide, hseen.1⟩) (Nat.le_refl _)
        fun _ hvalue => hvalue
  case h_3 => exact (twin_objectEntry hcall).of_known rfl
  case h_4 | h_5 => exact (twin_objectSpread hcall).of_known rfl
  case h_6 => exact (twin_forGenerator hcall).of_known rfl
  case h_7 => exact (twin_whenGenerator hcall).of_known rfl
  case h_8 =>
      refine .ite (fun _ => (twin_modifiedMember hlike hcall).lower.of_some)
        fun _ => ?_
      refine .ite (fun hstarts => ?_) fun _ =>
        (twin_recover hlike _ _).lower.of_some
      exact (twin_objectElement hcall).mono
        (fun _ hseen => ⟨_, List.contains_iff_mem.mp hstarts, hseen.1⟩)
          (Nat.le_refl _)
        fun _ hvalue => hvalue
  case h_9 =>
      refine twin_of_impossible (keeps_recover _ _) (keeps_recover _ _)
        fun peek hseen => ?_
      exact Option.isSome_iff_ne_none.mp hseen.2 hseen.1

theorem twin_nextBodyParameter (hcall : Agree like bound call call') :
    Twin like ahead bound (· = true) start start' (nextBodyParameter call)
      (nextBodyParameter call') :=
  (twin_parameter hcall).bind fun _ => twin_accept rfl

theorem twin_bodyParameters (hcall : Agree like bound call call') :
    Twin like ahead bound never start start' (bodyParameters call)
      (bodyParameters call') :=
  (twin_repeatWhile (twin_nextBodyParameter hcall)).bind fun _ =>
    (twin_expect rfl).bind fun _ => twin_done

theorem twin_nextObjectMember (hlike : like.Covers bound)
    (hcall : Agree like bound call call') :
    Twin like ahead bound (· = true) start start' (nextObjectMember call)
      (nextObjectMember call') :=
  twin_unlessClosed ((twin_objectMember hlike hcall).before fun _ => twin_done)

theorem twin_objectBodyRule (hlike : like.Covers bound)
    (hcall : Agree like bound call call') :
    Twin like known (bound + 1) always start start' (objectBodyRule call)
      (objectBodyRule call') := by
  have hmembers : ∀ {start start'}, Twin like anything bound never start start'
      (do
        repeatWhile (nextObjectMember call)
        let _ ← expect .rightBrace)
      (do
        repeatWhile (nextObjectMember call')
        let _ ← expect .rightBrace) :=
    (twin_repeatWhile (twin_nextObjectMember hlike hcall)).bind fun _ =>
      (twin_expect rfl).bind fun _ => twin_done
  refine twin_node rfl fun _ _ =>
    twin_take_bind (twin_atBodyParameters?.bind fun _ => ?_)
  exact .ite (fun _ => (twin_bodyParameters hcall).bind fun _ => hmembers)
    fun _ => hmembers

theorem Agree.parse (hlike : like.Covers bound)
    (hcall : Agree like bound call call')
    (hliteral : AgreeLiteral like bound call call') :
    Agree like (bound + 1) (Rule.parse call) (Rule.parse call') where
  type _ _ := (twin_typeRule hlike hcall hliteral).bind fun _ => twin_done
  expression power _ _ := twin_expressionRule hlike hcall hliteral power
  starting power _ _ := twin_expressionRule_starting hlike hcall hliteral power
  literal _ _ := twin_stringLiteralRule hlike hcall
  body _ _ := (twin_objectBodyRule hlike hcall).before fun _ => twin_done
  member _ _ := (twin_memberRule hlike hcall).before fun _ => twin_done

theorem Agree.parseLiteral (hlike : like.Covers bound)
    (hcall : Agree like bound call call') :
    AgreeLiteral like bound (Rule.parse call) (Rule.parse call') :=
  fun _ _ => twin_stringLiteralRule hlike hcall

end PklAnalysis.Grammar

import PklAnalysis.Proofs.Grammar.NewLine

/-!
Object bodies do the same if more tokens follow on a new line, as long as the
rules that they refer to do. So do the rules themselves, then, however deep they
call each other.
-/

namespace PklAnalysis.Grammar

open PklAnalysis.Parser
open PklAnalysis.Parser.View

variable {rest : List Token} {view : View} {least start : Nat} {call : Call}

/-- Unless the parser finds an error, there is a token of a kind among those
that are left. -/
def Needs (kind : Token.Kind) (start : Nat) (parser : Parser α) : Prop :=
  ∀ state : State, state.builder.accepts start = true →
    (parser.run state).2.errors = [] → ∃ token ∈ state.tokens, token.kind = kind

theorem needs_expect (kind : Token.Kind) : Needs kind start (expect kind) := by
  intro state _ herrors
  by_cases hpeek : state.peek? 0 = some kind
  case pos =>
      obtain ⟨token, hnext, hkind⟩ := Option.map_eq_some_iff.mp hpeek
      rw [Token.nth?_eq] at hnext
      exact ⟨token, List.mem_of_mem_filter (List.mem_of_getElem? hnext), hkind⟩
  case neg =>
      rw [expect, run_bind, run_accept, if_neg hpeek] at herrors
      cases herrors

theorem Needs.bind {kind : Token.Kind} {first : Parser α} {next : α → Parser β}
    (hfirst : Needs kind start first)
    (hnext : ∀ value, Runs .all (next value)) :
    Needs kind start (first >>= next) := fun state haccepts herrors =>
  hfirst state haccepts ((hnext _ _).errors herrors)

theorem Needs.after {kind : Token.Kind} {first : Parser α} {next : α → Parser β}
    (hfirst : Keeps start first)
    (hnext : ∀ value, Needs kind start (next value)) :
    Needs kind start (first >>= next) := by
  intro state haccepts herrors
  have hreads := hfirst state haccepts
  obtain ⟨token, htoken, hkind⟩ := hnext _ _ (hreads.accepts haccepts) herrors
  obtain ⟨read, htokens, -⟩ := hreads.consumed
  exact ⟨token, htokens ▸ List.mem_append_right read htoken, hkind⟩

/-! What is no member of an object. -/

theorem errors_recover (cause : SyntaxError.Cause) (kinds : List Token.Kind)
    (state : State) :
    ((recover cause kinds).run state).2.errors ≠ [] := by
  let aside : Parser Unit := do
    if !(← atEnd?) then
      node .error do
        take
        takeUntil kinds
  have haside : Runs .all aside := by
    refine .bind runs_atEnd? fun ended => ?_
    split
    case isTrue =>
        exact runs_node_error (moves_take.bind fun _ => moves_takeUntil kinds)
    case isFalse => exact runs_pure ()
  exact fun herrors => List.cons_ne_nil _ _ ((haside _).errors herrors)

theorem stays_recover (cause : SyntaxError.Cause) (kinds : List Token.Kind)
    {spends : Unit → Prop} :
    Stays rest view least spends start (recover cause kinds) :=
  stays_of_errors (keeps_recover cause kinds) (runs_recover cause kinds)
      fun state _ =>
    errors_recover cause kinds state

theorem arrowAhead_append {limit : Nat} {tokens : List Token}
    (hbrace : ∃ token ∈ tokens, token.kind = .rightBrace) :
    arrowAhead limit (tokens ++ rest) = arrowAhead limit tokens := by
  induction tokens generalizing limit with
  | nil =>
      obtain ⟨token, hmem, -⟩ := hbrace
      cases hmem
  | cons token tokens ih =>
      have hlater : token.kind ≠ .rightBrace → ∃ token ∈ tokens,
          token.kind = .rightBrace := by
        intro hother
        obtain ⟨brace, hmem, hkind⟩ := hbrace
        refine ⟨brace, (List.mem_cons.mp hmem).resolve_left fun hsame =>
          hother ?_, hkind⟩
        rw [← hsame, hkind]
      simp only [List.cons_append, arrowAhead]
      split
      case isTrue htrivia =>
          refine ih (hlater fun hkind => ?_)
          rw [Token.isTrivia, hkind] at htrivia
          cases htrivia
      case isFalse =>
          cases limit with
          | zero => rfl
          | succ limit =>
              dsimp only
              split
              case isTrue => rfl
              case isFalse =>
                  split
                  case isFalse => rfl
                  case isTrue hparameter =>
                      refine ih (hlater fun hkind => ?_)
                      rw [hkind] at hparameter
                      exact absurd hparameter (by decide)

section

variable (hrest : NewLine rest)
include hrest

theorem stays_expectedBody (hcall : call.Stays rest) :
    Stays rest view least never start (expectedBody call) :=
  stays_at?_bind hrest rfl (stays_objectBody hcall).forget (stays_report _)

theorem stays_objectEntry (hcall : call.Stays rest) :
    Stays rest something least always start (objectEntry call) := by
  refine stays_node (fun _ hsome => hsome) fun _ =>
      stays_take_bind ((stays_expression hcall).bind fun _ =>
    (stays_expect _).bind fun _ =>
      stays_accept_bind hrest rfl (stays_expression hcall).forget ?_)
  exact stays_at?_bind hrest rfl
    ((stays_objectBodies hrest hcall).sees fun _ _ => trivial) (stays_report _)

omit hrest in
theorem stays_objectSpread (hcall : call.Stays rest) :
    Stays rest something least always start (objectSpread call) :=
  stays_node (fun _ hsome => hsome) fun _ =>
    stays_take_bind (stays_expression hcall).forget

omit hrest in
theorem stays_objectElement (hcall : call.Stays rest) :
    Stays rest something least always start (objectElement call) :=
  stays_node (fun _ hsome => hsome) fun _ => stays_expression hcall

theorem stays_forGenerator (hcall : call.Stays rest) :
    Stays rest something least always start (forGenerator call) := by
  have hbody : ∀ {view inner}, Stays rest view least never inner (do
      let _ ← expect .inKw
      expression call
      let _ ← expect .rightParen
      expectedBody call) :=
    (stays_expect _).bind fun _ => (stays_expression hcall).bind fun _ =>
      (stays_expect _).bind fun _ => stays_expectedBody hrest hcall
  refine stays_node (fun _ hsome => hsome) fun _ =>
      stays_take_bind ((stays_expect _).bind fun _ =>
    .ite (fun _ => ?_) fun _ => stays_expectedBody hrest hcall)
  exact (stays_parameter hrest hcall).bind fun _ =>
    stays_accept_bind hrest rfl ((stays_parameter hrest hcall).bind fun _ =>
      hbody) hbody

theorem stays_whenGenerator (hcall : call.Stays rest) :
    Stays rest something least always start (whenGenerator call) := by
  have hbodies : ∀ {view inner}, Stays rest view least never inner (do
      expectedBody call
      if ← accept .elseKw then
        expectedBody call) :=
    (stays_expectedBody hrest hcall).bind fun _ =>
      stays_accept_bind hrest rfl (stays_expectedBody hrest hcall) stays_done
  refine stays_node (fun _ hsome => hsome) fun _ =>
      stays_take_bind ((stays_expect _).bind fun _ =>
    .ite (fun _ => ?_) fun _ => hbodies)
  exact (stays_expression hcall).bind fun _ =>
    (stays_expect _).bind fun _ => hbodies

theorem stays_modifiedMember (hcall : call.Stays rest) :
    Stays rest something least always start (modifiedMember call) := by
  refine stays_mark_bind (fun _ hsome => hsome) fun place =>
      (stays_modifiers hrest).bind fun _ =>
    stays_current?_bind (fun state _ => errors_recover _ _ state)
      fun found => ?_
  split
  case h_1 => exact (stays_method hrest hcall).of_some
  case h_2 => exact (stays_property hrest hcall).of_some
  case h_3 => exact stays_recover _ _

theorem stays_namedMember (hcall : call.Stays rest) :
    Stays rest something least always start (namedMember call) := by
  have hproperty : Stays rest something least always start
      (mark >>= fun place => property call place .objectProperty) :=
    stays_mark_bind (fun _ hsome => hsome) fun _ => stays_property hrest hcall
  refine stays_peek?_bind hrest (fun _ hsome => State.count_pos hsome)
    (fun kind hkind => ?_) fun next => ?_
  · cases kind <;> first | rfl | exact absurd hkind (by decide)
  · split
    case h_1 | h_2 | h_3 => exact hproperty.sees fun _ hsees => hsees.2
    case h_4 => exact (stays_objectElement hcall).sees fun _ hsees => hsees.2

theorem stays_objectMember (hcall : call.Stays rest) :
    Stays rest something least always start (objectMember call) := by
  refine stays_current?_bind_of_some (fun _ hsome => hsome) fun found =>
    Stays.sees ?_ fun _ hsees => hsees.2
  split
  case h_1 =>
      exact stays_mark_bind (fun _ hsome => hsome) fun _ =>
        stays_method hrest hcall
  case h_2 => exact stays_namedMember hrest hcall
  case h_3 => exact stays_objectEntry hrest hcall
  case h_4 | h_5 => exact stays_objectSpread hcall
  case h_6 => exact stays_forGenerator hrest hcall
  case h_7 => exact stays_whenGenerator hrest hcall
  case h_8 =>
      exact .ite (fun _ => stays_modifiedMember hrest hcall) fun _ =>
        .ite (fun _ => stays_objectElement hcall) fun _ => stays_recover _ _
  case h_9 => exact stays_recover _ _

theorem stays_nextObjectMember (hcall : call.Stays rest) :
    Stays rest view 1 (· = true) start (nextObjectMember call) := by
  let closed? : Parser Bool := return (← atEnd?) || (← at? .rightBrace)
  change Stays rest view 1 (· = true) start (closed? >>= fun closed =>
    if closed then pure false else objectMember call >>= fun _ => pure true)
  refine .inside (stays_test_bind_of_some (fun _ hsees => hsees.1)
    (fun kind? => kind?.isNone || decide (kind? = some .rightBrace))
      (fun _ => rfl) (stays_pure nofun) ?_)
  exact ((stays_objectMember hrest hcall).sees fun _ hsees => hsees.2.1).before
    fun _ => stays_done

theorem stays_bodyParameters (hcall : call.Stays rest) :
    Stays rest view least never start (bodyParameters call) := by
  have hnext : Stays rest anything 0 (· = true) start
      (nextBodyParameter call) :=
    (stays_parameter hrest hcall).bind fun _ => stays_accept hrest rfl
  exact (stays_repeatWhile hnext).bind fun _ => (stays_expect _).bind fun _ =>
    stays_done

theorem stays_objectBodyRule (hcall : call.Stays rest) :
    Stays rest (first [.leftBrace]) least always start
      (objectBodyRule call) := by
  let members : Parser Unit := do
    repeatWhile (nextObjectMember call)
    let _ ← expect .rightBrace
  have hmembers : ∀ {view inner},
      Stays rest view least never inner members := by
    intro view inner
    refine (stays_repeatWhile (stays_nextObjectMember hrest hcall)).bind_starves
      (fun _ => ?_) fun _ => ?_
    · exact (stays_expect _).bind fun _ => stays_done
    · exact (starves_expect _).bind fun _ => runs_pure ()
  let contents (found : Bool) : Parser Unit :=
    if found then bodyParameters call >>= fun _ => members else members
  have hcontents : ∀ {inner} found,
      Stays rest anything least never inner (contents found) :=
    fun found => .ite (fun _ => (stays_bodyParameters hrest hcall).bind fun _ =>
      hmembers) fun _ => hmembers
  have hneeds : ∀ {inner} found, Needs .rightBrace inner (contents found) := by
    intro inner found
    have hnext :
        Stays rest anything 1 (· = true) inner (nextObjectMember call) :=
      stays_nextObjectMember hrest hcall
    have hclosed : Needs .rightBrace inner members :=
      .after (keeps_repeatWhile hnext.keeps) fun _ =>
        (needs_expect _).bind fun _ => runs_pure ()
    cases found with
    | true =>
        have hparameters :
            Stays rest anything 0 never inner (bodyParameters call) :=
          stays_bodyParameters hrest hcall
        exact .after hparameters.keeps fun _ => hclosed
    | false => exact hclosed
  refine stays_node (fun _ => something_of_first) fun inner =>
    stays_take_first ?_
  change Stays rest anything least never inner (atBodyParameters? >>= contents)
  refine stays_look_bind parametersAhead run_atBodyParameters?
    (fun state haccepts _ _ hsound => ?_)
    (fun _ => anything) (fun _ _ => trivial) hcontents
  have hbrace := hneeds _ state haccepts hsound.errors
  have hpos : 0 < state.count := by
    obtain ⟨token, htoken, hkind⟩ := hbrace
    refine List.length_pos_of_mem (List.mem_filter.mpr ⟨htoken, ?_⟩)
    rw [Token.isTrivia, hkind]
    rfl
  rw [parametersAhead, parametersAhead, State.peek?_followed hpos,
    State.followed, arrowAhead_append hbrace]

end

theorem stays_parse (hrest : NewLine rest) (hcall : call.Stays rest) :
    Call.Stays rest (Rule.parse call) where
  keeps := keeps_parse hcall.keeps
  runs :=
    .of_rules (fun _ => trivial) (runs_parse hcall.keeps hcall.runs fun power =>
    runs_expressionRule hcall.runs (fun _ _ _ => trivial) power)
  conforms := conforms_parse hcall.conforms
  type _ := (stays_typeRule hrest hcall).bind fun _ => stays_done
  expression power _ := stays_expressionRule hrest hcall power
  literal _ := stays_stringLiteralRule hrest hcall
  body _ := (stays_objectBodyRule hrest hcall).before fun _ => stays_done

theorem keeps_overflow : overflow.Keeps := fun _ _ =>
  (keeps_report _).bind fun _ => keeps_pure none

theorem stays_overflow : overflow.Stays rest where
  keeps := keeps_overflow
  runs :=
    .of_rules (fun _ => trivial) fun _ => (runs_report _).bind fun _ =>
      runs_pure none
  conforms := conforms_overflow
  type _ := stays_report_bind (keeps_pure none) (runs_pure none)
  expression _ _ := stays_report_bind (keeps_pure none) (runs_pure none)
  literal _ := stays_report_bind (keeps_pure none) (runs_pure none)
  body _ := stays_report_bind (keeps_pure none) (runs_pure none)

theorem stays_unroll (hrest : NewLine rest) (depth : Nat) :
    Call.Stays rest (unroll Rule.parse overflow depth) := by
  induction depth with
  | zero => exact stays_overflow
  | succ depth ih => exact stays_parse hrest ih

end PklAnalysis.Grammar

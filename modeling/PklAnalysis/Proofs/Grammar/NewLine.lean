import PklAnalysis.Proofs.Grammar.Stays

/-!
Every production of the grammar that stands in an expression does the same if
more tokens follow on a new line, as long as the rules that it refers to do.
-/

namespace PklAnalysis.Grammar

open PklAnalysis.Parser
open PklAnalysis.Parser.View

structure Call.Stays (rest : List Token) (call : Call) : Prop where
  keeps : call.Keeps
  runs : call.Runs .all
  conforms : call.Conforms
  type : ∀ start, Parser.Stays rest anything 0 never start (call .type)
  expression : ∀ power start,
    Parser.Stays rest anything 0 always start (call (.expression power))
  literal : ∀ start,
    Parser.Stays rest (first [.stringStart]) 0 always start
      (call .stringLiteral)
  body : ∀ start,
    Parser.Stays rest (first [.leftBrace]) 0 always start (call .objectBody)

variable {rest : List Token} {view : View} {least start : Nat} {call : Call}

theorem stays_type (hcall : call.Stays rest) :
    Stays rest view least never start (type call) :=
  (hcall.type start).weaken.map fun _ hnever => hnever

theorem stays_expression (hcall : call.Stays rest) :
    Stays rest view least always start (expression call) :=
  (((hcall.expression 0 start).relax.sees fun _ _ => trivial).map fun _ _ =>
    trivial)

theorem stays_stringLiteral (hcall : call.Stays rest) :
    Stays rest (first [.stringStart]) least always start (stringLiteral call) :=
  (hcall.literal start).relax.map fun _ _ => trivial

theorem stays_objectBody (hcall : call.Stays rest) :
    Stays rest (first [.leftBrace]) least always start (objectBody call) :=
  (hcall.body start).relax.map fun _ _ => trivial

theorem stays_single {kind : Node.Kind} :
    Stays rest something least always start (single kind) :=
  stays_node (fun _ hsome => hsome) fun _ => stays_take

theorem one_lt_count {state : State} (hends : state.Ends)
    (hdot : state.peek? 0 = some .dot) :
    1 < state.count := by
  have hpos := State.count_pos_of_peek? hdot
  refine Nat.lt_of_le_of_ne hpos fun hone => hends ?_
  obtain ⟨token, htoken⟩ := List.length_eq_one_iff.mp hone.symm
  rw [State.peek?, Token.nth?_eq, htoken] at hdot
  rw [htoken]
  exact hdot

section

variable (hrest : NewLine rest)
include hrest

theorem stays_nextNamePart :
    Stays rest view least (· = true) start nextNamePart := by
  let goesOn (state : State) : Bool :=
    decide (state.peek? 0 = some .dot) &&
      decide (state.peek? 1 = some .identifier)
  let goesOn? : Parser Bool :=
    return (← at? .dot) && (← peek? 1) = some .identifier
  change Stays rest view least (· = true) start
    (goesOn? >>= fun more => if more then take >>= fun _ => take >>= fun _ =>
      pure true else pure false)
  refine stays_look_bind goesOn (fun _ => rfl) (fun state _ _ hends _ => ?_)
    (fun more peek => more = true → something peek ∧ something fun n =>
      peek (n + 1))
    (fun state _ hmore => ?_) fun more => ?_
  · have hdot :=
      test_followed hrest (fun kind? => decide (kind? = some .dot))
        (by decide) state
    simp only [goesOn]
    rw [hdot]
    cases hnext : decide (state.peek? 0 = some .dot) with
    | false => rfl
    | true =>
        rw [State.peek?_followed (one_lt_count hends (of_decide_eq_true hnext))]
  · simp only [goesOn, Bool.and_eq_true, decide_eq_true_eq] at hmore
    exact ⟨something_of_eq hmore.1, something_of_eq hmore.2⟩
  · cases more with
    | true =>
        have hboth :
            Stays rest (fun peek => something peek ∧ something fun n =>
              peek (n + 1)) least
            (· = true) start (take >>= fun _ => take >>= fun _ => pure true) :=
          stays_take_again stays_done fun _ hseen => hseen
        exact hboth.sees fun _ hseen => hseen rfl
    | false => exact stays_pure nofun

theorem stays_qualifiedName : Stays rest view least never start qualifiedName :=
  stays_node_of_starves ((starves_expect _).bind fun _ => by grind) fun _ =>
    (stays_expect _).bind fun _ => stays_repeatWhile (stays_nextNamePart hrest)

theorem stays_nextType (hcall : call.Stays rest) :
    Stays rest view least (· = true) start (nextType call) :=
  stays_accept_bind hrest rfl ((stays_type hcall).bind fun _ => stays_done)
    (stays_pure nofun)

theorem stays_typeSequence (hcall : call.Stays rest) :
    Stays rest view least never start (typeSequence call) :=
  (stays_type hcall).bind fun _ =>
    stays_repeatWhile (stays_nextType hrest hcall)

theorem stays_typeArguments (hcall : call.Stays rest) :
    Stays rest (first [.less]) least always start (typeArguments call) := by
  refine stays_node (fun _ => something_of_first) fun _ => stays_take_first ?_
  exact (stays_typeSequence hrest hcall).bind fun _ =>
    (stays_expect _).bind fun _ => stays_done

theorem stays_declaredType (hcall : call.Stays rest) :
    Stays rest something least never start (declaredType call) :=
  stays_node (fun _ hsome => hsome) fun _ => (stays_qualifiedName hrest).bind
      fun _ =>
    stays_at?_bind hrest rfl (stays_typeArguments hrest hcall).forget stays_done

theorem stays_parenthesizedOrFunctionType (hcall : call.Stays rest) :
    Stays rest (first [.leftParen]) least always start
      (parenthesizedOrFunctionType call) := by
  have hclosed : ∀ {view place}, Stays rest view least never place (do
      close .rightParen
      if ← at? .arrow then
        nodeAt place .functionType do
          take
          type call
      else
        nodeAt place .parenthesizedType (return ())) := by
    intro view place
    refine (stays_close hrest rfl).bind fun _ => stays_at?_bind hrest rfl ?_ ?_
    · exact stays_nodeAt fun _ => stays_take_first (stays_type hcall)
    · exact stays_nodeAt fun _ => stays_done
  refine stays_mark_bind (fun _ => something_of_first) fun place =>
    stays_take_first (stays_at?_bind hrest rfl ?_ ?_)
  · exact hclosed
  · exact (stays_typeSequence hrest hcall).bind fun _ => hclosed

theorem stays_primaryType (hcall : call.Stays rest) :
    Stays rest view least never start (primaryType call) := by
  refine stays_current?_bind (starves_report _) fun found => ?_
  split
  case h_1 | h_2 | h_3 => exact stays_single.of_some.forget
  case h_4 =>
      have hliteral : Stays rest (first [.stringStart]) least always start
          (node .stringLiteralType (stringLiteral call)) :=
        stays_node (fun _ => something_of_first) fun _ =>
          stays_stringLiteral hcall
      exact hliteral.forget.of_among (List.mem_singleton_self _)
  case h_5 => exact (stays_declaredType hrest hcall).of_some
  case h_6 =>
      exact (stays_parenthesizedOrFunctionType hrest hcall).forget.of_among
        (List.mem_singleton_self _)
  case h_7 => exact stays_report _

theorem stays_nextQuestion :
    Stays rest view least (· = true) start (nextQuestion start) := by
  refine stays_at?_bind hrest rfl ?_ (stays_pure nofun)
  exact (stays_nodeAt fun _ => stays_take.sees fun _ =>
    something_of_first).before fun _ => stays_done

omit hrest in
theorem starves_primaryType : Starves (primaryType call) :=
  starves_current?_bind (starves_report _)

omit hrest in
theorem starves_nullableType : Starves (nullableType call) :=
  starves_mark_bind fun _ => starves_primaryType.bind fun _ => runs_repeatWhile
    (.bind (runs_at? _) fun found => by grind)

theorem stays_nullableType (hcall : call.Stays rest) :
    Stays rest view least never start (nullableType call) := by
  refine .of_starves (starves_nullableType)
    (stays_mark_bind (fun _ hsees => hsees.1) fun _ => ?_)
  exact (stays_primaryType hrest hcall).bind fun _ =>
    stays_repeatWhile (stays_nextQuestion hrest)

theorem stays_nextAlternative (hcall : call.Stays rest) :
    Stays rest view least (· = true) start (nextAlternative call start) := by
  refine stays_at?_bind hrest rfl ?_ (stays_pure nofun)
  refine .before (stays_nodeAt fun _ => stays_take_first ?_) fun _ => stays_done
  exact stays_nullableType hrest hcall

theorem stays_typeRule (hcall : call.Stays rest) :
    Stays rest view least never start (typeRule call) := by
  refine stays_mark_bind_of_starves
    (fun _ => (starves_nullableType).bind fun _ => ?_) fun _ => ?_
  · have hnullable := runs_nullableType hcall.keeps hcall.runs
    exact runs_repeatWhile (.bind (runs_at? _) fun found => by grind)
  · exact (stays_nullableType hrest hcall).bind fun _ =>
      stays_repeatWhile (stays_nextAlternative hrest hcall)

omit hrest in
theorem stays_typeClause (hcall : call.Stays rest) :
    Stays rest (first [.colon]) least always start (typeClause call) :=
  stays_node (fun _ => something_of_first) fun _ =>
    stays_take_first (stays_type hcall)

theorem stays_optionalTypeClause (hcall : call.Stays rest) :
    Stays rest view least never start (optionalTypeClause call) :=
  stays_at?_bind hrest rfl (stays_typeClause hcall).forget stays_done

theorem stays_parameter (hcall : call.Stays rest) :
    Stays rest view least never start (parameter call) := by
  have hstarves : Starves (do
      let _ ← expect .identifier
      optionalTypeClause call) :=
    (starves_expect _).bind fun _ => runs_optionalTypeClause hcall.runs
  refine stays_node_of_starves (starves_accept_bind (starves_node hstarves))
      fun _ =>
    (stays_accept hrest rfl).bind fun _ => .ite (fun _ => ?_) fun _ =>
      stays_done
  exact stays_node_of_starves hstarves fun _ =>
    (stays_expect _).bind fun _ => stays_optionalTypeClause hrest hcall

theorem stays_nextParameter (hcall : call.Stays rest) :
    Stays rest view 1 (· = true) start (nextParameter call) := by
  refine .inside
    (stays_atAny?_bind_of_some (fun _ hsees => hsees.1) ?_ (stays_pure nofun))
  exact (stays_parameter hrest hcall).bind fun _ => stays_accept hrest rfl

theorem stays_parameterList (hcall : call.Stays rest) :
    Stays rest (first [.leftParen]) least always start
      (parameterList call) := by
  have hclosed : ∀ {inner}, Stays rest anything least never inner (do
      repeatWhile (nextParameter call)
      let _ ← expect .rightParen) := by
    intro inner
    refine (stays_repeatWhile (stays_nextParameter hrest hcall)).bind_starves
      (fun _ => ?_) fun _ => ?_
    · exact (stays_expect _).bind fun _ => stays_done
    · exact (starves_expect _).bind fun _ => runs_pure ()
  exact stays_node (fun _ => something_of_first) fun _ =>
    stays_take_first hclosed

theorem stays_typeParameter :
    Stays rest view least never start typeParameter := by
  have hname : ∀ {view inner},
      Stays rest view least never inner (do let _ ← expect .identifier) :=
    (stays_expect _).bind fun _ => stays_done
  have hstarves : Starves (do let _ ← expect .identifier) :=
    (starves_expect _).bind fun _ => runs_pure ()
  refine stays_node_of_starves
      (starves_accept_bind (starves_accept_bind hstarves)) fun _ =>
    (stays_accept hrest rfl).bind fun _ => .ite (fun _ => ?_) fun _ => hname
  exact (stays_accept hrest rfl).bind fun _ => hname

theorem stays_nextTypeParameter :
    Stays rest view least (· = true) start nextTypeParameter :=
  (stays_typeParameter hrest).bind fun _ => stays_accept hrest rfl

theorem stays_optionalTypeParameters :
    Stays rest view least never start optionalTypeParameters := by
  refine stays_at?_bind hrest rfl ?_ stays_done
  refine stays_node (fun _ => something_of_first) fun _ => stays_take_first ?_
  exact (stays_repeatWhile (stays_nextTypeParameter hrest)).bind fun _ =>
    (stays_expect _).bind fun _ => stays_done

theorem stays_atModifier?_bind {spends : α → Prop} {next : Bool → Parser α}
    (hfound : Stays rest something least spends start (next true))
    (hmissed : Stays rest view least spends start (next false)) :
    Stays rest view least spends start (atModifier? >>= next) := by
  refine stays_test_bind hrest (fun kind? => kind?.any Token.Kind.isModifier)
    (fun _ => rfl) (by decide) ?_ ?_
  · refine hfound.sees fun peek hsees => ?_
    obtain ⟨kind, hpeek, -⟩ := (Option.any_eq_true _ _).mp hsees.1
    exact something_of_eq hpeek
  · exact hmissed.sees fun _ hsees => hsees.2

theorem stays_nextModifier :
    Stays rest view least (· = true) start nextModifier :=
  stays_atModifier?_bind hrest (stays_take_then true) (stays_pure nofun)

theorem stays_modifiers : Stays rest view least never start modifiers :=
  stays_atModifier?_bind hrest
    (stays_node (fun _ hsome => hsome) fun _ =>
      stays_repeatWhile (stays_nextModifier hrest)) stays_done

theorem stays_nextBody (hcall : call.Stays rest) :
    Stays rest view least (· = true) start (nextBody call) :=
  stays_at?_bind hrest rfl ((stays_objectBody hcall).before fun _ => stays_done)
    (stays_pure nofun)

theorem stays_objectBodies (hcall : call.Stays rest) :
    Stays rest view least never start (objectBodies call) :=
  stays_repeatWhile (stays_nextBody hrest hcall)

theorem stays_property (hcall : call.Stays rest) {kind : Node.Kind} :
    Stays rest something least always start (property call start kind) := by
  refine stays_nodeAt fun _ =>
    stays_take_bind ((stays_optionalTypeClause hrest hcall).bind fun _ => ?_)
  exact stays_accept_bind hrest rfl (stays_expression hcall).forget
    (stays_objectBodies hrest hcall)

theorem stays_method (hcall : call.Stays rest) {kind : Node.Kind} :
    Stays rest something least always start (method call start kind) := by
  let value : Parser Unit := do
    optionalTypeClause call
    if ← accept .equal then
      expression call
  have hvalue : ∀ {view inner}, Stays rest view least never inner value :=
    (stays_optionalTypeClause hrest hcall).bind fun _ =>
      stays_accept_bind hrest rfl (stays_expression hcall).forget stays_done
  have hfirst : Stays rest anything least never 0 value := hvalue
  refine stays_nodeAt fun _ => stays_take_bind ((stays_expect _).bind fun _ =>
    (stays_optionalTypeParameters hrest).bind fun _ => ?_)
  have hmissing : Starves (report .expectedParameterList >>= fun _ => value) :=
    (starves_report _).bind fun _ => hfirst.runs
  refine .of_starves (starves_at?_bind hmissing) ?_
  refine stays_at?_bind_of_some (fun _ hsees => hsees.1) ?_ ?_
  · exact (stays_parameterList hrest hcall).relax.forget.bind fun _ => hvalue
  · have hanywhere : ∀ {inner}, Stays rest anything least never inner value :=
      hvalue
    exact stays_report_then hanywhere.keeps hfirst.runs

omit hrest in
theorem stays_operand (hcall : call.Stays rest) (power : Nat) :
    Stays rest view least always start (operand call power) := by
  have hoperand : Stays rest view 0 always start (call (.expression power)) :=
    (hcall.expression power start).sees fun _ _ => trivial
  exact hoperand.before fun _ => .ite (fun _ => stays_report _) fun _ =>
    stays_done

theorem stays_nextLiteralPart (hcall : call.Stays rest) :
    Stays rest view 1 (· = true) start (nextLiteralPart call) := by
  refine .inside
    (stays_current?_bind_of_some (fun _ hsees => hsees.1) fun found => ?_)
  split
  case h_1 => exact (stays_take_then true).of_some
  case h_2 =>
      have hpart : Stays rest something 1 (· = true) start (do
          node .stringPart do
            take
            expression call
            close .rightParen
          return true) := by
        refine .before (stays_node (fun _ hsome => hsome) fun _ =>
          stays_take_bind ?_) fun _ => stays_done
        exact (stays_expression hcall).bind fun _ => stays_close hrest rfl
      exact hpart.of_some
  case h_3 => exact stays_pure nofun

theorem stays_literalRest (hcall : call.Stays rest) :
    Stays rest view least never start (literalRest call) := by
  refine (stays_repeatWhile (stays_nextLiteralPart hrest hcall)).bind_starves
    (fun _ => ?_) fun _ => ?_
  · exact (stays_accept hrest rfl).bind fun _ => .ite (fun _ => stays_report _)
      fun _ => stays_done
  · exact starves_accept_bind (starves_report _)

theorem stays_stringLiteralRule (hcall : call.Stays rest) :
    Stays rest (first [.stringStart]) least always start
      (stringLiteralRule call) := by
  let delimiter (state : State) : String :=
    (state.current?.map Token.text).getD ""
  let next (delimiter : String) : Parser (Option Node.Kind) := do
    node (literalKind delimiter) do
      take
      literalRest call
    return some (literalKind delimiter)
  change Stays rest (first [.stringStart]) least always start
    ((do return delimiter (← get)) >>= next)
  refine stays_look_bind delimiter (fun _ => rfl) (fun state _ hsees _ _ => ?_)
    (fun _ => first [.stringStart]) (fun _ hsees => hsees) fun delimiter => ?_
  · have hpos := State.count_pos (something_of_first hsees)
    simp only [delimiter, State.current?, Token.nth?_eq,
      State.significant_followed]
    rw [List.getElem?_append_left hpos]
  · refine .before (stays_node (fun _ => something_of_first) fun _ => ?_)
      fun _ => stays_done
    exact stays_take_first (stays_literalRest hrest hcall)

theorem stays_nextArgument (hcall : call.Stays rest) :
    Stays rest view 1 (· = true) start (nextArgument call) := by
  refine .inside
    (stays_atAny?_bind_of_some (fun _ hsees => hsees.1) ?_ (stays_pure nofun))
  refine (stays_expression hcall).before fun _ => (stays_accept hrest rfl).bind
    fun _ => ?_
  exact .inside (stays_afterBreak?_bind (fun _ hsees => hsees.1) fun _ =>
    stays_done)

theorem stays_argumentList (hcall : call.Stays rest) :
    Stays rest (first [.leftParen]) least never start (argumentList call) := by
  have hadds :
      Adds (first [.leftParen])
        (take >>= fun _ => repeatWhile (nextArgument call))
      ((Shape.token .leftParen).seq (Shape.listed .expr)) :=
    adds_take_bind (adds_repeatWhile (adds_nextArgument hcall.conforms))
  have hfront : ∀ inner, Stays rest (first [.leftParen]) 1 never inner
      (take >>= fun _ => repeatWhile (nextArgument call)) := fun _ =>
    stays_take_first (stays_repeatWhile (stays_nextArgument hrest hcall))
  exact stays_closing hrest (fun _ => something_of_first) rfl
    (show (Token.Kind.leftParen, Token.Kind.rightParen) ∈
      Node.delimiters by decide) hfront hadds
    (by decide) (by decide)

theorem stays_optionalArguments (hcall : call.Stays rest) :
    Stays rest view least never start (optionalArguments call) := by
  let opens (state : State) : Bool :=
    decide (state.peek? 0 = some .leftParen) && !state.afterBreak
  let opens? : Parser Bool := return opens (← get)
  change Stays rest view least never start
    (opens? >>= fun found => if found then argumentList call else pure ())
  refine stays_look_bind opens (fun _ => rfl) (fun state _ _ _ _ => ?_)
    (fun found peek => found = true → first [.leftParen] peek)
      (fun state _ hfound => ?_) fun found => ?_
  · simp only [opens]
    by_cases hpos : 0 < state.count
    · rw [State.peek?_followed hpos,
        State.afterBreak_followed (State.something_of_count hpos)]
    · have hzero := Nat.eq_zero_of_not_pos hpos
      rw [State.afterBreak_followed_end hrest hzero,
        State.peek?_zero_eq_none_iff.mpr hzero]
      simp
  · simp only [opens, Bool.and_eq_true, decide_eq_true_eq] at hfound
    exact ⟨_, List.mem_singleton_self _, hfound.1⟩
  · cases found with
    | true =>
        exact (stays_argumentList hrest hcall).sees fun _ hseen => hseen rfl
    | false => exact stays_done

theorem stays_keywordCall (hcall : call.Stays rest) :
    Stays rest something least always start (keywordCall call) := by
  refine stays_take_bind ((stays_expect _).bind fun _ =>
    .ite (fun _ => ?_) fun _ => stays_done)
  exact (stays_expression hcall).bind fun _ => stays_close hrest rfl

theorem stays_importExpr (hcall : call.Stays rest) :
    Stays rest something least always start (importExpr call) := by
  refine stays_take_bind ((stays_expect _).bind fun _ =>
    .ite (fun _ => ?_) fun _ => stays_done)
  have hmissing :
      Starves (report .expectedModuleUri >>= fun _ => close .rightParen) :=
    (starves_report _).bind fun _ => runs_close _
  refine .of_starves (starves_at?_bind hmissing) ?_
  refine stays_at?_bind_of_some (fun _ hsees => hsees.1) ?_ ?_
  · exact (stays_stringLiteral hcall).forget.bind fun _ => stays_close hrest rfl
  · exact stays_report_then (keeps_close _) (runs_close _)

theorem stays_newExpr (hcall : call.Stays rest) :
    Stays rest something least always start (newExpr call) := by
  have hbody : ∀ {view inner}, Stays rest view least never inner
      (do
        if ← at? .leftBrace then objectBody call
        else report .expectedObjectBody) :=
    stays_at?_bind hrest rfl (stays_objectBody hcall).forget (stays_report _)
  refine stays_take_bind (stays_at?_bind hrest rfl hbody ?_)
  exact (stays_type hcall).bind fun _ => hbody

theorem stays_superSubscriptExpr (hcall : call.Stays rest) :
    Stays rest (fun peek => something peek ∧ something fun n => peek (n + 1))
      least always start
      (superSubscriptExpr call) :=
  stays_take_again ((stays_expression hcall).bind fun _ =>
    stays_close hrest rfl) fun _ hseen => hseen

theorem stays_superAccessExpr (hcall : call.Stays rest) :
    Stays rest something least always start (superAccessExpr call) := by
  refine stays_take_bind ((stays_expect _).bind fun _ =>
    .ite (fun _ => ?_) fun _ => stays_done)
  exact (stays_expect _).bind fun _ => stays_optionalArguments hrest hcall

theorem stays_ifExpr (hcall : call.Stays rest) :
    Stays rest something least always start (ifExpr call) := by
  have hbranches : ∀ {inner}, Stays rest anything least never inner (do
      expression call
      if ← expect .elseKw then
        expression call) :=
    (stays_expression hcall).bind fun _ => (stays_expect _).bind fun _ =>
      .ite (fun _ => (stays_expression hcall).forget) fun _ => stays_done
  refine stays_take_bind ((stays_expect _).bind fun _ =>
    .ite (fun _ => ?_) fun _ => hbranches)
  exact (stays_expression hcall).bind fun _ => (stays_close hrest rfl).bind
    fun _ => hbranches

theorem stays_letExpr (hcall : call.Stays rest) :
    Stays rest something least always start (letExpr call) := by
  have hbody : ∀ {inner},
      Stays rest anything least never inner (expression call) :=
    (stays_expression hcall).forget
  refine stays_take_bind ((stays_expect _).bind fun _ =>
    .ite (fun _ => ?_) fun _ => hbody)
  refine (stays_parameter hrest hcall).bind fun _ =>
    (stays_expect _).bind fun _ => ?_
  exact (stays_expression hcall).bind fun _ => (stays_close hrest rfl).bind
    fun _ => hbody

theorem stays_parenthesizedExpr (hcall : call.Stays rest) :
    Stays rest something least always start (parenthesizedExpr call) :=
  stays_take_bind ((stays_expression hcall).bind fun _ => stays_close hrest rfl)

theorem stays_functionLiteral (hcall : call.Stays rest) :
    Stays rest (first [.leftParen]) least always start (functionLiteral call) :=
  (stays_parameterList hrest hcall).before fun _ =>
      (stays_expect _).bind fun _ =>
    (stays_expression hcall).forget

omit hrest in
theorem stays_built {body : Parser Unit} {kind : Node.Kind}
    (hsome : ∀ peek, view peek → something peek)
    (hbody : ∀ inner, Stays rest view 0 always inner body) :
    Stays rest view least always start (built kind body) :=
  (stays_node hsome hbody).before fun _ => stays_done

omit hrest in
/-- The tokens of a node are among those that were left before it, and if the
node and all that was built before are complete, no more parentheses are opened
there than closed. -/
theorem exists_read_of_sound {kind : Node.Kind} {body : Parser Unit}
    (hbody : ∀ inner, Keeps inner body) {state : State}
    (hsound : ((built kind body).run state).2.Sound) :
    ∃ read, state.tokens = read ++ ((built kind body).run state).2.tokens ∧
      read.countP (·.kind = .leftParen) ≤
        read.countP (·.kind = .rightParen) := by
  let before : State := (skipTrivia.run state).2
  let opened : State := { before with builder := before.builder.start kind }
  have hvalid : opened.builder.accepts before.builder.mark = true :=
    Builder.accepts_iff.mpr ⟨Nat.le_refl _, Nat.le_refl _⟩
  have hreads : opened.Reads before.builder.mark (body.run opened).2 :=
    hbody _ opened hvalid
  obtain ⟨hcomplete, hinner⟩ := hsound.of_finish hreads.openNodes
  obtain ⟨read, htokens, hleaves⟩ := hreads.consumed
  have hsize : before.builder.mark = before.builder.trees.toList.length :=
    Array.length_toList.symm
  have hkept := hreads.kept
  rw [show opened.builder.trees.toList = before.builder.trees.toList from rfl,
    hsize, List.take_length] at hkept
  have hchildren :
      Tree.leavesAll ((body.run opened).2.builder.trees.toList.drop
        before.builder.mark) =
      read.map Token.leaf := by
    rw [Builder.leaves,
      ← List.take_append_drop before.builder.mark
        (body.run opened).2.builder.trees.toList,
      Tree.leavesAll_append, hsize, hkept] at hleaves
    exact List.append_cancel_left hleaves
  have htree : (Tree.node kind ((body.run opened).2.builder.trees.toList.drop
      before.builder.mark)).Everywhere Node.Complete :=
    .node hcomplete fun tree htree =>
      hinner.complete tree (List.mem_of_mem_drop htree)
  have hbalanced := Tree.countAll_leftParen_le htree rfl
  rw [Tree.countAll, Tree.countAll, hchildren, List.countP_map, List.countP_map]
    at hbalanced
  refine ⟨state.tokens.takeWhile Token.isTrivia ++ read, ?_, ?_⟩
  · rw [List.append_assoc]
    have hskipped : before.tokens = state.tokens.dropWhile Token.isTrivia :=
      tokens_skipTrivia state
    have hread : state.tokens.dropWhile Token.isTrivia =
        read ++ (body.run opened).2.tokens :=
      hskipped.symm.trans htokens
    exact (List.takeWhile_append_dropWhile.symm.trans (congrArg _ hread))
  · have htrivia : ∀ kind : Token.Kind, kind.isTrivia = false →
        (state.tokens.takeWhile Token.isTrivia).countP (·.kind = kind) = 0 := by
      intro kind hkind
      refine List.countP_eq_zero.mpr fun token htoken hsame => ?_
      have htrivia := List.all_eq_true.mp List.all_takeWhile token htoken
      rw [Token.isTrivia, of_decide_eq_true hsame, hkind] at htrivia
      cases htrivia
    rw [List.countP_append, List.countP_append, htrivia _ rfl, htrivia _ rfl,
      Nat.zero_add, Nat.zero_add]
    exact hbalanced

/-- Where a parenthesis is open, or the next token opens one, and all of them
are closed, the search for the arrow of a function literal comes to an end, and
what it finds then is on the same line. -/
theorem functionAhead_followed {depth limit : Nat} {read after : List Token}
    (hopen : 0 < depth ∨ (nth? 0 read).map Token.kind = some .leftParen)
    (hcloses : depth + read.countP (·.kind = .leftParen) ≤
      read.countP (·.kind = .rightParen)) :
    functionAhead depth limit (read ++ after ++ rest) =
      functionAhead depth limit (read ++ after) := by
  induction read generalizing depth limit with
  | nil => exact absurd (hopen.resolve_right nofun) (Nat.not_lt_of_le hcloses)
  | cons token read ih =>
      simp only [List.cons_append, functionAhead]
      rw [nth?] at hopen
      cases htrivia : token.isTrivia with
      | true =>
          rw [htrivia, if_pos rfl] at hopen
          have hother : ∀ kind : Token.Kind,
              kind.isTrivia = false → token.kind ≠ kind := by
            rintro kind hkind rfl
            exact Bool.false_ne_true (hkind.symm.trans htrivia)
          rw [List.countP_cons_of_neg (by simpa using hother .leftParen rfl),
            List.countP_cons_of_neg (by simpa using hother .rightParen rfl)]
            at hcloses
          exact ih hopen hcloses
      | false =>
          rw [htrivia, if_neg Bool.false_ne_true] at hopen
          have hdepth : token.kind ≠ .leftParen → 0 < depth := fun hother =>
            hopen.resolve_right fun hfirst => hother (Option.some.inj hfirst)
          rw [if_neg Bool.false_ne_true, if_neg Bool.false_ne_true]
          cases limit with
          | zero => rfl
          | succ limit =>
              dsimp only
              split
              case h_1 hkind =>
                  rw [List.countP_cons_of_pos (by simpa using hkind),
                    List.countP_cons_of_neg (by simp [hkind])] at hcloses
                  exact ih (.inl (Nat.succ_pos depth)) (by omega)
              case h_2 hkind =>
                  rw [List.countP_cons_of_neg (by simp [hkind]),
                    List.countP_cons_of_pos (by simpa using hkind)] at hcloses
                  split
                  case isTrue =>
                      have harrow :=
                        test_followed hrest
                          (fun kind? => kind?.any (· = .arrow)) (by decide)
                        (State.ofTokens (read ++ after) 0)
                      rw [State.peek?, State.peek?, Option.any_map,
                        Option.any_map] at harrow
                      exact harrow
                  case isFalse hmore => exact ih (.inl (by omega)) (by omega)
              case h_3 | h_4 | h_5 => rfl
              case h_6 hleft hright _ _ _ =>
                  rw [List.countP_cons_of_neg (by simpa using hleft),
                    List.countP_cons_of_neg (by simpa using hright)] at hcloses
                  exact ih (.inl (hdepth hleft)) hcloses

theorem functionAhead_of_sound {kind : Node.Kind} {body : Parser Unit}
    (hbody : ∀ inner, Stays rest (first [.leftParen]) 0 always inner body)
    {state : State} (haccepts : state.builder.accepts start = true)
    (hsees : first [.leftParen] state.peek?) (hends : state.Ends)
    (hsound : ((built kind body).run state).2.Sound) (limit : Nat) :
    functionAhead 0 limit (state.tokens ++ rest) =
      functionAhead 0 limit state.tokens := by
  have hstays : Stays rest (first [.leftParen]) 0 always start
      (built kind body) :=
    stays_built (fun _ => something_of_first) hbody
  have hspent :=
    (hstays.same state haccepts hsees hends hsound (Nat.zero_le _)).2 trivial
  obtain ⟨read, htokens, hcloses⟩ :=
    exists_read_of_sound (fun inner => (hbody inner).keeps) hsound
  have hcount :
      state.count =
        (Token.significant read).length +
          ((built kind body).run state).2.count := by
    rw [State.count, htokens, Token.significant, List.filter_append,
      List.length_append]
    rfl
  have hfirst : (nth? 0 read).map Token.kind = some .leftParen := by
    obtain ⟨kind, hkind, hpeek⟩ := hsees
    rw [List.mem_singleton.mp hkind, State.peek?, Token.nth?_eq, htokens,
      Token.significant, List.filter_append, List.getElem?_append_left] at hpeek
    · rw [Token.nth?_eq]
      exact hpeek
    · rw [hcount] at hspent
      exact Nat.pos_of_lt_add_left hspent
  rw [htokens]
  exact functionAhead_followed hrest (.inr hfirst) (by rwa [Nat.zero_add])

theorem stays_parenthesis (hcall : call.Stays rest) :
    Stays rest (first [.leftParen]) least always start (do
      if ← atFunctionLiteral? then
        built .functionLiteral (functionLiteral call)
      else
        built .parenthesizedExpr (parenthesizedExpr call)) := by
  have hfunction : ∀ inner,
      Stays rest (first [.leftParen]) 0 always inner (functionLiteral call) :=
    fun _ => stays_functionLiteral hrest hcall
  have hparenthesized : ∀ inner,
      Stays rest (first [.leftParen]) 0 always inner (parenthesizedExpr call) :=
    fun _ => (stays_parenthesizedExpr hrest hcall).sees fun _ =>
      something_of_first
  refine stays_look_bind
    (fun state => functionAhead 0 functionLookahead state.tokens) (fun _ => rfl)
    (fun state haccepts hsees hends hsound => ?_) (fun _ => first [.leftParen])
      (fun _ hsees => hsees)
    fun found => .ite (fun _ => ?_) fun _ => ?_
  · split at hsound
    case isTrue =>
        exact functionAhead_of_sound hrest hfunction haccepts hsees hends
          hsound _
    case isFalse =>
        exact functionAhead_of_sound hrest hparenthesized haccepts hsees hends
          hsound _
  · exact stays_built (fun _ => something_of_first) hfunction
  · exact stays_built (fun _ => something_of_first) hparenthesized

omit hrest in
theorem starves_operandStart : Starves (operandStart call) :=
  starves_current?_bind ((starves_report _).bind fun _ => runs_pure none)

theorem stays_operandStart (hcall : call.Stays rest) :
    Stays rest view least always start (operandStart call) := by
  have hbuilt : ∀ {least kind other} {view : View} {body : Parser Unit},
      (∀ inner, Stays rest something 0 always inner body) →
      Stays rest (fun peek => peek 0 = some other ∧ view peek) least always
        start (built kind body) :=
    fun hbody => (stays_built (fun _ hsome => hsome) hbody).of_some
  refine stays_current?_bind ((starves_report _).bind fun _ => runs_pure none)
    fun found => ?_
  split
  case h_1 | h_2 | h_3 | h_4 | h_5 | h_6 | h_7 | h_8 =>
      exact hbuilt fun _ => stays_take
  case h_9 =>
      exact (hcall.literal start).relax.of_among (List.mem_singleton_self _)
  case h_10 | h_11 | h_12 | h_13 | h_14 =>
      exact hbuilt fun _ => stays_keywordCall hrest hcall
  case h_15 | h_16 => exact hbuilt fun _ => stays_importExpr hrest hcall
  case h_17 =>
      exact hbuilt fun _ =>
        stays_take_bind (stays_optionalArguments hrest hcall)
  case h_18 => exact hbuilt fun _ => stays_newExpr hrest hcall
  case h_19 =>
      refine stays_peek?_bind hrest
        (fun _ hsees => State.count_pos_of_peek? hsees.1) (fun kind hkind => ?_)
        fun next => ?_
      · rw [if_neg (by rintro ⟨⟩; revert hkind; decide), if_neg nofun]
      · refine .ite (fun hbracket => ?_) fun _ => ?_
        · refine (stays_built (fun _ hseen => hseen.1) fun _ =>
            stays_superSubscriptExpr hrest hcall).sees
            fun peek hsees => ?_
          exact ⟨something_of_eq hsees.2.1,
            something_of_eq (hsees.1.trans hbracket)⟩
        · exact (stays_built (fun _ hsome => hsome) fun _ =>
            stays_superAccessExpr hrest hcall).sees
            fun _ hsees => something_of_eq hsees.2.1
  case h_20 | h_21 =>
      exact hbuilt fun _ => stays_take_bind (stays_operand hcall _).forget
  case h_22 => exact hbuilt fun _ => stays_ifExpr hrest hcall
  case h_23 => exact hbuilt fun _ => stays_letExpr hrest hcall
  case h_24 =>
      exact (stays_parenthesis hrest hcall).of_among (List.mem_singleton_self _)
  case h_25 => exact stays_report_bind (keeps_pure none) (runs_pure none)

theorem stays_suffix (hcall : call.Stays rest) (operandKind : Node.Kind) :
    Stays rest view least (Option.isSome · = true) start
      (suffix call start operandKind) := by
  change Stays rest view least (Option.isSome · = true) start
    (Parser.peek? 0 >>= _)
  refine stays_peek?_bind hrest (fun _ _ => Nat.zero_le _)
    (fun kind hkind => ?_) fun found => ?_
  · cases kind <;> first | rfl | exact absurd hkind (by decide)
  · split
    case h_1 | h_2 =>
        refine Stays.of_some
          (.before (stays_nodeAt fun _ => stays_take_bind ?_) fun _ =>
            stays_done)
        exact (stays_expect _).bind fun _ => stays_optionalArguments hrest hcall
    case h_3 =>
        refine Stays.of_some
            (stays_afterBreak?_bind (fun _ hsome => hsome) fun broken =>
          .ite (fun _ => stays_pure nofun) fun _ => ?_)
        refine .before (stays_nodeAt fun _ => stays_take_bind ?_) fun _ =>
          stays_done
        exact (stays_expression hcall).bind fun _ => stays_close hrest rfl
    case h_4 =>
        exact Stays.of_some (.before (stays_nodeAt fun _ => stays_take) fun _ =>
          stays_done)
    case h_5 =>
        refine Stays.of_among (.ite (fun _ => ?_) fun _ => stays_pure nofun)
          (List.mem_singleton_self _)
        exact .before (stays_nodeAt fun _ => stays_objectBody hcall) fun _ =>
          stays_done
    case h_6 => exact stays_pure nofun

theorem operator_followed (state : State) :
    Operator.current? (state.followed rest) = Operator.current? state := by
  by_cases hpos : 0 < state.count
  · rw [Operator.current?, Operator.current?, State.peek?_followed hpos,
      State.afterBreak_followed (State.something_of_count hpos)]
  · have hzero := Nat.eq_zero_of_not_pos hpos
    obtain ⟨kind, hkind, hpeek⟩ := state.peek?_followed_end hrest
    rw [hzero] at hpeek
    rw [Operator.current?, Operator.current?, hpeek,
      State.peek?_zero_eq_none_iff.mpr hzero,
      State.afterBreak_followed_end hrest hzero]
    have hnone : ∀ kind ∈ lineStarts,
        (if kind = .minus && true then none else Operator.ofToken? kind) =
          none := by decide
    exact hnone kind hkind

theorem stays_operation (hcall : call.Stays rest) (power : Nat) :
    Stays rest view least (Option.isSome · = true) start
      (operation call start power) := by
  let seen : Parser (Option Operator) := return Operator.current? (← get)
  let next (operator? : Option Operator) : Parser (Option Node.Kind) :=
    operator?.elim (return none) fun operator =>
      if operator.left < power then
        return none
      else do
        nodeAt start operator.kind do
          take
          if operator.kind = .typeTestExpr then
            type call
          else
            operand call operator.right
        return some operator.kind
  have hnext : operation call start power = seen >>= next := by
    refine congrArg (get >>= ·) (funext fun state => ?_)
    change _ = next (Operator.current? state)
    cases Operator.current? state <;> rfl
  rw [hnext]
  refine stays_look_bind Operator.current? (fun _ => rfl)
    (fun state _ _ _ _ => operator_followed hrest state)
    (fun operator? peek => operator?.isSome = true → something peek)
      (fun state _ hsome => ?_)
    fun operator? => ?_
  · obtain ⟨operator, hoperator⟩ := Option.isSome_iff_exists.mp hsome
    obtain ⟨kind, hpeek, -⟩ := Option.bind_eq_some_iff.mp hoperator
    exact something_of_eq hpeek
  · cases operator? with
    | none => exact stays_pure Bool.false_ne_true
    | some operator =>
        refine .ite (fun _ => stays_pure Bool.false_ne_true) fun _ =>
          .before ?_ fun _ => stays_done
        refine (stays_nodeAt fun _ => stays_take_bind ?_).sees fun _ hseen =>
          hseen rfl
        exact .ite (fun _ => stays_type hcall) fun _ =>
          (stays_operand hcall _).forget

theorem stays_continuation (hcall : call.Stays rest) (power : Nat)
    (operandKind : Node.Kind) :
    Stays rest view least (Option.isSome · = true) start
      (continuation call start power operandKind) := by
  refine (stays_suffix hrest hcall operandKind).bind_of
    (fun found result => found = none ∧ result.isSome = true) (fun found => ?_)
    (fun _ _ _ _ _ => Nat.zero_le _) fun found result hresult => ?_
  · cases found with
    | none =>
        exact (stays_operation hrest hcall power).mono (fun _ hsees => hsees)
          (Nat.le_refl _)
          fun _ hlater => hlater.2
    | some kind =>
        exact stays_pure fun hlater => Option.some_ne_none kind hlater.1
  · cases found with
    | none => exact .inr ⟨rfl, hresult⟩
    | some => exact .inl rfl

theorem stays_expressionRule (hcall : call.Stays rest) (power : Nat) :
    Stays rest view least always start (expressionRule call power) := by
  have hloop : ∀ place kind, Stays rest anything least never place (do
      return some (← repeatFrom (continuation call place power) kind)) :=
        fun _ _ =>
    (stays_repeatFrom (stays_continuation hrest hcall power)).bind fun _ =>
      stays_done
  rw [expressionRule]
  refine stays_mark_bind_of_starves (fun place => ?_) fun place => ?_
  · refine starves_operandStart.bind fun found => ?_
    cases found with
    | none => exact runs_pure none
    | some kind => exact (hloop place kind).runs
  · refine (stays_operandStart hrest hcall).before fun found => ?_
    cases found with
    | none => exact stays_done
    | some kind => exact hloop place kind

end

end PklAnalysis.Grammar

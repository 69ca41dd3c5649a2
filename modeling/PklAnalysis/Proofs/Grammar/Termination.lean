import PklAnalysis.Proofs.Grammar.Unrolling

/-!
Parsing ends: every turn of a loop that asks for another one takes a token that
is no trivia, and a rule calls rules only where fewer of these tokens are left,
or a string literal where as many are.
-/

namespace PklAnalysis.Grammar

open PklAnalysis.Parser
open PklAnalysis.Parser.View

variable {like : Likeness} {ahead : View} {bound start start' : Nat}
  {call call' : Call}

theorem covers_same {size : Nat} (hbound : bound ≤ size) :
    (Likeness.same size).Covers bound :=
  .of_junk trivial hbound

theorem agree_same {size depth : Nat} (hbound : bound ≤ size + 1)
    (hdepth : 2 * bound ≤ depth) :
    Agree (.same size) bound (parseRule depth) (parseRule depth) :=
  agree_parseRule (fun _ hlt => covers_same (by omega)) hdepth

theorem run_eq_of_twin {size : Nat} {spends : α → Prop}
    {parser parser' : Parser α}
    (htwin : Twin (.same size) ahead bound spends start start parser parser')
    {state : State} (haccepts : state.builder.accepts start = true)
    (hsees : ahead state.peek?) (hcount : state.count < bound) :
    parser.run state = parser'.run state := by
  obtain ⟨hvalue, hafter, -⟩ :=
    htwin.same state state haccepts haccepts ⟨rfl, rfl, trivial⟩ hsees hcount
  exact Prod.ext hvalue hafter.2.1

theorem count_lt_of_twin {size : Nat} {spends : α → Prop}
    {parser parser' : Parser α}
    (htwin : Twin (.same size) anything bound spends start start parser parser')
    {state : State} (haccepts : state.builder.accepts start = true)
    (hcount : state.count < bound) (hspends : spends (parser.run state).1) :
    (parser.run state).2.count < state.count :=
  (htwin.same state state haccepts haccepts ⟨rfl, rfl, trivial⟩ trivial
    hcount).2.2 hspends

/-- The rules where calls may nest as deep as the tokens that are left
require. -/
def unbounded : Call :=
  fun rule => StateT.mk fun state =>
    (parseRule (2 * state.count + 2) rule).run state

def Rule.expects : Rule → View
  | .type | .expression _ => anything
  | .stringLiteral | .objectBody => known
  | .member => something

/-- String literals are what types and expressions may begin with. -/
def Rule.level : Rule → Nat
  | .stringLiteral => 0
  | _ => 1

/-- A call comes below another one if fewer tokens are left, or as many and the
level of its rule is smaller. -/
def Rule.Below (rule : Rule) (state : State) (rule' : Rule) (state' : State) :
    Prop :=
  state.count < state'.count ∨
    state.count = state'.count ∧ rule.level < rule'.level

theorem agree_of_equal {size depth : Nat} {other : Call} (hother : other.Keeps)
    (hbound : bound ≤ size + 1) (hdepth : 2 * bound ≤ depth)
    (hequal : ∀ rule start (state : State), state.builder.accepts start = true →
      rule.expects state.peek? → state.count < bound →
      (other rule).run state = (parseRule depth rule).run state) :
    Agree (.same size) bound other (parseRule depth) := by
  have hsame : Agree (.same size) bound (parseRule depth) (parseRule depth) :=
    agree_same hbound hdepth
  refine ⟨?_, ?_, ?_, ?_, ?_, ?_⟩
  · exact fun start _ => (hsame.type _ _).replace (hother _ start)
      (hequal .type start)
  · exact fun power start _ =>
      (hsame.expression power _ _).replace (hother _ start)
        (hequal (.expression power) start)
  · exact fun power start _ => (hsame.starting power _ _).replace
      (hother _ start)
      fun state haccepts _ => hequal (.expression power) start state
        haccepts trivial
  · exact fun start _ => (hsame.literal _ _).replace (hother _ start)
      (hequal .stringLiteral start)
  · exact fun start _ => (hsame.body _ _).replace (hother _ start)
      (hequal .objectBody start)
  · exact fun start _ => (hsame.member _ _).replace (hother _ start)
      (hequal .member start)

/-- Two runs from equal states that go the same way as two others do. -/
theorem twin_diagonal {size : Nat} {spends : α → Prop}
    {parser parser' : Parser α}
    (htwin : ∀ start start',
      Twin (.same size) ahead bound spends start start' parser parser')
    (start start' : Nat) :
    Twin (.same size) ahead bound spends start start' parser parser := by
  refine ⟨(htwin start start).keeps, (htwin start' start').keeps, ?_⟩
  rintro state state' haccepts - hrel hsees hcount
  obtain ⟨rfl, rfl⟩ := Likeness.rel_same.mp hrel
  obtain ⟨-, -, hspent⟩ :=
    (htwin start start).same state state haccepts haccepts
    ⟨rfl, rfl, trivial⟩ hsees hcount
  exact ⟨rfl, ⟨rfl, rfl, trivial⟩, hspent⟩

theorem run_unbounded_eq (rule : Rule) (state : State) :
    (unbounded rule).run state =
      (parseRule (2 * state.count + 2) rule).run state := by
  rw [unbounded, StateT.run_mk]

theorem keeps_unbounded : unbounded.Keeps := by
  intro rule start state haccepts
  rw [run_unbounded_eq]
  exact keeps_parseRule _ rule start state haccepts

/-- Calls that may nest as deep as there is need for do the same, whatever calls
do that are nested deeper. -/
theorem run_unbounded (rule : Rule) {stuck : Call} (hstuck : stuck.Keeps)
    {depth : Nat} {state : State}
    (haccepts : state.builder.accepts start = true)
    (hexpects : rule.expects state.peek?)
    (hdepth : 2 * state.count + 2 ≤ depth) :
    (unbounded rule).run state =
      (unroll Rule.parse stuck depth rule).run state := by
  have hcall : Agree (.same state.count) (state.count + 1)
      (unroll Rule.parse (fun _ => return none) (2 * state.count + 2))
        (unroll Rule.parse stuck depth) :=
    agree_unroll keeps_none hstuck
      (fun _ hlt => covers_same (Nat.le_of_lt_succ hlt)) (Nat.le_refl _)
      hdepth
  have hcount := Nat.lt_succ_self state.count
  rw [run_unbounded_eq, parseRule_eq_unroll]
  cases rule with
  | type =>
      exact run_eq_of_twin (hcall.type start start) haccepts hexpects hcount
  | expression power =>
      exact run_eq_of_twin (hcall.expression power start start) haccepts
        hexpects hcount
  | stringLiteral =>
      exact run_eq_of_twin (hcall.literal start start) haccepts hexpects hcount
  | objectBody =>
      exact run_eq_of_twin (hcall.body start start) haccepts hexpects hcount
  | member =>
      exact run_eq_of_twin (hcall.member start start) haccepts hexpects hcount

theorem agree_unbounded_parseRule {size depth : Nat} (hbound : bound ≤ size + 1)
    (hdepth : 2 * bound ≤ depth) :
    Agree (.same size) bound unbounded (parseRule depth) := by
  refine agree_of_equal keeps_unbounded hbound hdepth ?_
  intro rule start state haccepts hexpects hlt
  rw [parseRule_eq_unroll]
  exact run_unbounded rule keeps_none haccepts hexpects (by omega)

theorem agree_unbounded {size : Nat} (hbound : bound ≤ size + 1) :
    Agree (.same size) bound unbounded unbounded := by
  have hcall : Agree (.same size) bound unbounded (parseRule (2 * bound)) :=
    agree_unbounded_parseRule hbound (Nat.le_refl _)
  exact ⟨twin_diagonal hcall.type,
    fun power => twin_diagonal (hcall.expression power),
    fun power => twin_diagonal (hcall.starting power),
    twin_diagonal hcall.literal,
    twin_diagonal hcall.body, twin_diagonal hcall.member⟩

theorem run_parse_of_below (rule : Rule) {other : Call} (hother : other.Keeps)
    {state : State} (haccepts : state.builder.accepts start = true)
    (hexpects : rule.expects state.peek?)
    (hbelow : ∀ rule' start' (state' : State),
      state'.builder.accepts start' = true → rule'.expects state'.peek? →
        rule'.Below state' rule state →
          (other rule').run state' = (unbounded rule').run state') :
    (Rule.parse other rule).run state = (unbounded rule).run state := by
  have hcovers : (Likeness.same state.count).Covers state.count :=
    covers_same (Nat.le_refl _)
  let depth := 2 * state.count + 2
  have hcall : Agree (.same state.count) state.count other
      (parseRule depth) := by
    refine agree_of_equal hother (Nat.le_succ _) (by omega) ?_
    intro rule' start' state' haccepts' hexpects' hlt
    rw [hbelow rule' start' state' haccepts' hexpects' (.inl hlt),
      parseRule_eq_unroll]
    exact run_unbounded rule' keeps_none haccepts' hexpects' (by omega)
  have hliteral : 0 < rule.level →
      AgreeLiteral (.same state.count) state.count other
      (parseRule depth) := by
    intro hlevel start start'
    have hsame : Agree (.same state.count) (state.count + 1) (parseRule depth)
        (parseRule depth) :=
      agree_same (Nat.le_refl _) (by omega)
    refine (hsame.literal start start').replace (hother _ start) ?_
    intro state' haccepts' hexpects' hlt
    have hlower : Rule.stringLiteral.Below state' rule state := by
      rcases Nat.lt_succ_iff_lt_or_eq.mp hlt with hlt | heq
      · exact .inl hlt
      · exact .inr ⟨heq, hlevel⟩
    rw [hbelow .stringLiteral start state' haccepts' hexpects' hlower,
      parseRule_eq_unroll]
    exact run_unbounded .stringLiteral keeps_none haccepts' hexpects' (by omega)
  have hrun : (unbounded rule).run state =
      (parseRule (depth + 1) rule).run state := by
    rw [parseRule_eq_unroll]
    exact run_unbounded rule keeps_none haccepts hexpects (by omega)
  have hcount := Nat.lt_succ_self state.count
  rw [hrun]
  cases rule with
  | type =>
      exact run_eq_of_twin
        ((hcall.parse hcovers (hliteral Nat.one_pos)).type start start) haccepts
        trivial hcount
  | expression power =>
      exact run_eq_of_twin
        ((hcall.parse hcovers (hliteral Nat.one_pos)).expression power
          start start)
        haccepts trivial hcount
  | stringLiteral =>
      exact run_eq_of_twin (hcall.parseLiteral hcovers start start) haccepts
        hexpects hcount
  | objectBody =>
      exact run_eq_of_twin
        ((hcall.parse hcovers (hliteral Nat.one_pos)).body start start) haccepts
        hexpects hcount
  | member =>
      exact run_eq_of_twin
        ((hcall.parse hcovers (hliteral Nat.one_pos)).member start start)
          haccepts
        hexpects hcount

theorem twin_nextArgument
    (hbreak : ∀ start start' state state', like.rel start start' state state' →
      state.afterBreak = state'.afterBreak)
    (hcall : Agree like bound call call') :
    Twin like ahead bound (· = true) start start' (nextArgument call)
      (nextArgument call') := by
  refine twin_atAny?_bind ((twin_expression_starting hcall).before fun _ => ?_)
    (twin_pure (by decide))
  refine (twin_accept rfl).forget.bind fun found => ?_
  exact twin_of_view (fun _ => rfl) (fun _ => rfl)
      fun state state' hrel _ _ => by
    rw [hbreak _ _ _ _ hrel]

theorem twin_step {size : Nat} (hbound : bound < size)
    (hcall : Agree (.same size) (bound + 1) call call') (loop : Loop) :
    Twin (.same size) anything (bound + 1) (· = true) start start'
      (loop.step call start)
      (loop.step call' start') := by
  have hlike : (Likeness.same size).Covers bound :=
    covers_same (Nat.le_of_lt hbound)
  have hlike' : (Likeness.same size).Covers (bound + 1) := covers_same hbound
  cases loop with
  | strays kinds => exact twin_nextStray trivial hbound kinds
  | nameParts => exact twin_nextNamePart
  | types => exact twin_nextType hcall
  | questions => exact twin_nextQuestion
  | alternatives => exact twin_nextAlternative hlike hcall.lower hcall.literal
  | parameters => exact twin_nextParameter hcall
  | typeParameters => exact twin_nextTypeParameter
  | annotations => exact twin_nextAnnotated hcall.lower
  | modifiers => exact twin_nextModifier
  | bodies => exact twin_nextBody hcall
  | classMembers => exact twin_nextClassMember hcall
  | literalParts => exact twin_nextLiteralPart hlike' hcall
  | arguments =>
      exact twin_nextArgument
        (fun _ _ _ _ hrel => by rw [(Likeness.rel_same.mp hrel).2]) hcall
  | continuations power operandKind =>
      exact (twin_continuation hlike' hcall power operandKind).map
        fun _ hvalue => hvalue
  | bodyParameters => exact twin_nextBodyParameter hcall
  | objectMembers => exact twin_nextObjectMember hlike' hcall
  | imports => exact twin_nextImport hcall
  | members => exact twin_nextMember hcall

theorem twin_step_unbounded (loop : Loop) :
    Twin (.same (bound + 1)) anything (bound + 1) (· = true) start start'
      (loop.step unbounded start) (loop.step unbounded start') :=
  twin_step (Nat.lt_succ_self bound) (agree_unbounded (Nat.le_succ _)) loop

theorem count_lt_of_step (loop : Loop) {state : State}
    (haccepts : state.builder.accepts start = true)
    (hmore : ((loop.step unbounded start).run state).1 = true) :
    ((loop.step unbounded start).run state).2.count < state.count :=
  count_lt_of_twin (twin_step_unbounded loop) haccepts
    (Nat.lt_succ_self _) hmore

theorem iterate_eq_repeatFrom {size : Nat} {step : α → Parser (Option α)}
    (hstep : ∀ value,
      Twin (.same size) anything bound (·.isSome = true) start start
        (step value) (step value))
    {limit : Nat} (value : α) {state : State}
    (haccepts : state.builder.accepts start = true)
    (hcount : state.count < bound) (hlimit : state.count < limit) :
    (iterate step limit value).run state =
      (repeatFrom step value).run state := by
  obtain ⟨hvalue, hafter⟩ :=
    twin_iterate hstep value haccepts haccepts ⟨rfl, rfl, trivial⟩ hcount
    hlimit (Nat.lt_succ_of_le state.count_le_length)
  exact Prod.ext hvalue hafter.2.1

/-- How deep calls may nest does not matter, nor what calls do that are nested
deeper, as long as they may nest as deep as there is need for. -/
theorem run_moduleRule_eq {tokens : List Token} {stuck : Call}
    (hstuck : stuck.Keeps) {depth : Nat} (hdepth : callDepth tokens ≤ depth)
    (stop : Nat) :
    ((moduleRule (unroll Rule.parse stuck depth)).run
      (.ofTokens tokens stop)).2 = finalState tokens stop := by
  have hneed : 2 * ((State.ofTokens tokens stop).count + 1) ≤
      callDepth tokens := le_callDepth _
  let like := Likeness.same (State.ofTokens tokens stop).count
  have hrel : like.rel 0 0 _ _ :=
    rel_moduleRule (fun _ hle => covers_same hle) hstuck
    keeps_none (Nat.le_trans hneed hdepth) hneed rfl rfl ⟨rfl, rfl, trivial⟩
      (Nat.le_refl _)
  rw [finalState_eq_unroll]
  exact hrel.2.1

theorem run_moduleRule_unbounded (tokens : List Token) (stop : Nat) :
    ((moduleRule unbounded).run (.ofTokens tokens stop)).2 =
      finalState tokens stop := by
  have hcall : Agree (.same (State.ofTokens tokens stop).count)
      ((State.ofTokens tokens stop).count + 1) unbounded
        (parseRule (callDepth tokens)) :=
    agree_unbounded_parseRule (Nat.le_refl _)
      (le_callDepth (.ofTokens tokens stop))
  have htwin : Twin (.same (State.ofTokens tokens stop).count) anything
      ((State.ofTokens tokens stop).count + 1) never 0 0 _ _ :=
    twin_moduleAt (covers_same (Nat.le_refl _)) hcall
  rw [finalState, moduleRule_run_eq rfl, moduleRule_run_eq rfl,
    run_eq_of_twin htwin rfl trivial (Nat.lt_succ_self _)]

/-- Parsing ends, and it ends with all tokens consumed. Every turn of a loop
that asks for another one takes a token that is no trivia, so bounds on the
number of turns never show. What a rule does depends only on calls where fewer
of these tokens are left, and on string literals where as many are, so the rules
are defined without a bound on how deep calls nest; with one that is large
enough a text is parsed as without any, whatever a call does that is nested
deeper. -/
theorem parse_terminates :
    (∀ (loop : Loop) (start : Nat) (state : State),
      state.builder.accepts start = true →
      (((loop.step unbounded start).run state).1 = true →
        ((loop.step unbounded start).run state).2.count < state.count) ∧
      ∀ limit, state.count < limit →
        (iterate (once (loop.step unbounded start)) limit ()).run state =
          (repeatWhile (loop.step unbounded start)).run state ∧
        ∀ power operandKind,
          (iterate (continuation unbounded start power) limit operandKind).run
            state =
          (repeatFrom (continuation unbounded start power) operandKind).run
            state) ∧
    (∀ (rule : Rule) (start : Nat) (state : State) (other : Call), other.Keeps →
      state.builder.accepts start = true → rule.expects state.peek? →
      (∀ rule' start' (state' : State), state'.builder.accepts start' = true →
        rule'.expects state'.peek? → rule'.Below state' rule state →
        (other rule').run state' = (unbounded rule').run state') →
      (Rule.parse other rule).run state = (unbounded rule).run state) ∧
    ∀ (tokens : List Token) (stop : Nat), (finalState tokens stop).tokens = [] ∧
      ((moduleRule unbounded).run (.ofTokens tokens stop)).2 =
        finalState tokens stop ∧
      ∀ (stuck : Call) (depth : Nat), stuck.Keeps → callDepth tokens ≤ depth →
        ((moduleRule (unroll Rule.parse stuck depth)).run
          (.ofTokens tokens stop)).2 = finalState tokens stop := by
  refine ⟨fun loop start state haccepts => ⟨?_, fun limit hlimit => ⟨?_, ?_⟩⟩,
    ?_, ?_⟩
  · exact count_lt_of_step loop haccepts
  · exact iterate_eq_repeatFrom (twin_once (twin_step_unbounded loop)) ()
      haccepts
      (Nat.lt_succ_self _) hlimit
  · intro power operandKind
    have hcall : Agree (.same (state.count + 1)) (state.count + 1) unbounded
        unbounded :=
      agree_unbounded (Nat.le_succ _)
    exact iterate_eq_repeatFrom
      (twin_continuation (covers_same (Nat.le_refl _)) hcall power)
      operandKind haccepts (Nat.lt_succ_self _) hlimit
  · exact fun rule start state other hother haccepts hexpects hbelow =>
      run_parse_of_below rule hother haccepts hexpects hbelow
  · exact fun tokens stop => ⟨(finalState_built tokens stop).1,
      run_moduleRule_unbounded tokens stop,
      fun stuck depth hstuck hdepth => run_moduleRule_eq hstuck hdepth stop⟩

/-- A turn of the loop over the types of a list, a type that is read with the
rules themselves, and a module of the same tokens where calls nested too deep
would take tokens. -/
theorem parse_terminates_list :
    let tokens : List Token := [⟨.comma, ",", 0⟩, ⟨.identifier, "a", 1⟩]
    let state : State := .ofTokens tokens 2
    let stuck : Call := fun _ => do take; return none
    let turn : Parser Bool := Loop.types.step unbounded 0
    state.builder.accepts 0 = true ∧ (turn.run state).1 = true ∧
      (turn.run state).2.count < state.count ∧ state.count < 3 ∧
      (iterate (once turn) 3 ()).run state = (repeatWhile turn).run state ∧
      (Rule.parse unbounded .type).run state = (unbounded .type).run state ∧
      stuck.Keeps ∧ callDepth tokens ≤ 6 ∧
      ((moduleRule (unroll Rule.parse stuck 6)).run state).2 =
        finalState tokens 2 := by
  intro tokens state stuck turn
  have haccepts : state.builder.accepts 0 = true := rfl
  have hmore : (turn.run state).1 = true := by decide +kernel
  have hlimit : state.count < 3 := by decide
  have hstuck : stuck.Keeps :=
    fun _ _ => keeps_take.bind fun _ => keeps_pure none
  have hneed : callDepth tokens ≤ 6 := by decide
  obtain ⟨hloops, hcalls, htexts⟩ := parse_terminates
  obtain ⟨hspent, hturns⟩ := hloops .types 0 state haccepts
  exact ⟨haccepts, hmore, hspent hmore, hlimit, (hturns 3 hlimit).1,
    hcalls .type 0 state unbounded keeps_unbounded haccepts trivial
      fun _ _ _ _ _ _ => rfl,
    hstuck, hneed, (htexts tokens 2).2.2 stuck 6 hstuck hneed⟩

end PklAnalysis.Grammar

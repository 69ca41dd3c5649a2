import PklAnalysis.Proofs.Grammar.Productions

/-!
Parsers that take a token whenever there is one, and the loops over them: such a
loop ends because its step says so, never because of the bound on the number of
steps.
-/

namespace PklAnalysis

namespace Parser

variable {start : Nat}

theorem nth?_zero (tokens : List Token) :
    nth? 0 tokens = (tokens.dropWhile Token.isTrivia).head? := by
  induction tokens with
  | nil => rfl
  | cons token rest ih =>
      cases htrivia : token.isTrivia with
      | true =>
          simp only [nth?, htrivia, if_true, ih, List.dropWhile_cons_of_pos]
      | false => simp [nth?, htrivia]

theorem State.tokens_advance (state : State) :
    state.advance.tokens = state.tokens.tail := by
  cases htokens : state.tokens <;> simp [advance, htokens]

theorem State.tokens_advanceBy (state : State) (count : Nat) :
    (state.advanceBy count).tokens = state.tokens.drop count := by
  induction count generalizing state with
  | zero => rfl
  | succ count ih =>
      rw [advanceBy, ih, tokens_advance, List.drop_tail]

theorem tokens_skipTrivia (state : State) :
    (skipTrivia.run state).2.tokens =
      state.tokens.dropWhile Token.isTrivia := by
  let trivia := state.tokens.takeWhile Token.isTrivia
  let rest := state.tokens.dropWhile Token.isTrivia
  calc
    (skipTrivia.run state).2.tokens
    _ = state.tokens.drop trivia.length := state.tokens_advanceBy _
    _ = (trivia ++ rest).drop trivia.length := by
      rw [List.takeWhile_append_dropWhile]
    _ = rest := List.drop_left

theorem tokens_take (state : State) :
    (take.run state).2.tokens =
      (state.tokens.dropWhile Token.isTrivia).tail := by
  rw [← tokens_skipTrivia]
  exact State.tokens_advance _

/-- Whenever there is a token that is no trivia, the parser takes one. -/
def Advances (start : Nat) (parser : Parser α) : Prop :=
  ∀ state : State, state.builder.accepts start = true →
    state.current?.isSome = true →
    (parser.run state).2.tokens.length < state.tokens.length

theorem advances_take : Advances start take := by
  intro state _ hcurrent
  rw [State.current?, nth?_zero, List.isSome_head?] at hcurrent
  have hpositive := List.length_pos_iff.mpr hcurrent
  have hsuffix :=
    (List.dropWhile_suffix Token.isTrivia (l := state.tokens)).length_le
  rw [tokens_take, List.length_tail]
  omega

theorem Advances.bind {first : Parser α} {next : α → Parser β}
    (hfirst : Advances start first) (hkeeps : Keeps start first)
    (hnext : ∀ value, Keeps start (next value)) :
    Advances start (first >>= next) := by
  intro state haccepts hcurrent
  have hreads := hkeeps state haccepts
  have hafter :=
    hnext (first.run state).1 (first.run state).2 (hreads.accepts haccepts)
  exact Nat.lt_of_le_of_lt hafter.length_le (hfirst state haccepts hcurrent)

theorem Advances.after {first : Parser α} {next : α → Parser β}
    (hfirst : Keeps start first) (hkeeps : ∀ value, Keeps start (next value))
    (hnext : ∀ value, Advances start (next value)) :
    Advances start (first >>= next) := by
  intro state haccepts hcurrent
  have hreads := hfirst state haccepts
  have haccepts' := hreads.accepts haccepts
  have hafter := hkeeps (first.run state).1 (first.run state).2 haccepts'
  obtain ⟨read, htokens, -⟩ := hreads.consumed
  cases read with
  | nil =>
      have hcurrent' : (first.run state).2.current?.isSome = true := by
        rw [State.current?] at hcurrent ⊢
        rwa [htokens] at hcurrent
      have hlt := hnext (first.run state).1 _ haccepts' hcurrent'
      rw [htokens]
      exact hlt
  | cons token read =>
      refine Nat.lt_of_le_of_lt hafter.length_le ?_
      simp only [htokens, List.cons_append, List.length_cons,
        List.length_append]
      omega

/-- A parser that looks at the next token has to take one only if there is
one. -/
theorem advances_current?_bind {next : Option Token.Kind → Parser α}
    (hnext : ∀ kind, Advances start (next (some kind))) :
    Advances start (current? >>= next) := by
  intro state haccepts hcurrent
  obtain ⟨token, htoken⟩ := Option.isSome_iff_exists.mp hcurrent
  have hpeek : state.peek? 0 = some token.kind :=
    congrArg (Option.map Token.kind) htoken
  have hrun : (current? >>= next).run state =
      (next (state.peek? 0)).run state := rfl
  rw [hrun, hpeek]
  exact hnext token.kind state haccepts hcurrent

theorem advances_mark_bind {next : Nat → Parser α}
    (hkeeps : ∀ place, Keeps place (next place))
    (hnext : ∀ place, Advances place (next place)) :
    Advances start (mark >>= next) := by
  change Advances start (skipTrivia >>= fun _ => get >>= fun state =>
    next state.builder.mark)
  refine .after keeps_skipTrivia (fun _ state haccepts => ?_)
    fun _ state haccepts hcurrent => ?_
  · exact (hkeeps _ state (Builder.accepts_mark haccepts)).mono
      (Builder.accepts_iff.mp haccepts).2
  · exact hnext _ state (Builder.accepts_mark haccepts) hcurrent

theorem advances_nodeAt {kind : Node.Kind} {body : Parser α}
    (hbody : ∀ inner, Advances inner body) :
    Advances start (nodeAt start kind body) := by
  intro state haccepts hcurrent
  exact hbody start { state with builder := state.builder.startAt start kind }
    (Builder.accepts_iff.mpr ⟨Nat.le_refl start,
      (Builder.accepts_iff.mp haccepts).2⟩) hcurrent

theorem advances_enclose {kind : Node.Kind} {body : Parser α}
    (hbody : ∀ inner, Advances inner body) :
    Advances start (enclose kind body) := by
  intro state _ hcurrent
  exact hbody state.builder.mark { state with
    builder := state.builder.start kind }
    (Builder.accepts_iff.mpr ⟨Nat.le_refl _, Nat.le_refl _⟩) hcurrent

theorem advances_node {kind : Node.Kind} {body : Parser α}
    (hkeeps : ∀ inner, Keeps inner body)
    (hbody : ∀ inner, Advances inner body) : Advances start (node kind body) :=
  .after keeps_skipTrivia (fun _ => keeps_enclose hkeeps) fun _ =>
    advances_enclose hbody

theorem advances_recover (cause : SyntaxError.Cause) (kinds : List Token.Kind) :
    Advances start (recover cause kinds) := by
  intro state haccepts hcurrent
  have hnode : Advances start (node .error do take; takeUntil kinds) :=
    advances_node (fun _ => .bind keeps_take fun _ => keeps_takeUntil kinds)
        fun _ =>
      advances_take.bind keeps_take fun _ => keeps_takeUntil kinds
  have hsome : (state.peek? 0).isNone = false := by
    simpa [State.peek?, State.current?, Option.isNone_eq_false_iff]
      using hcurrent
  rw [run_recover, hsome]
  exact hnode ((report cause).run state).2 haccepts hcurrent

/-- A loop whose every repeated step takes a token ends because its step says
so, and what holds before each turn holds before the last. -/
theorem repeatFrom_ends {step : α → Parser (Option α)}
    {holds : α → State → Prop}
    (hstep : ∀ value next (state : State),
      holds value state → ((step value).run state).1 = some next →
        holds next ((step value).run state).2 ∧
          ((step value).run state).2.tokens.length < state.tokens.length)
    (value : α) {state : State} (hholds : holds value state) :
    ∃ last final, holds last final ∧ ((step last).run final).1 = none ∧
      (repeatFrom step value).run state =
        (last, ((step last).run final).2) := by
  have hloop : ∀ limit value (state : State),
      holds value state → state.tokens.length < limit →
      ∃ last final, holds last final ∧ ((step last).run final).1 = none ∧
        (iterate step limit value).run state =
          (last, ((step last).run final).2) := by
    intro limit
    induction limit with
    | zero =>
        intro value state _ hlimit
        exact absurd hlimit (Nat.not_lt_zero _)
    | succ limit ih =>
        intro value state hholds hlimit
        cases hnext : ((step value).run state).1 with
        | none =>
            refine ⟨value, state, hholds, hnext, ?_⟩
            rw [iterate, run_bind, hnext]
            rfl
        | some next =>
            obtain ⟨hagain, hlt⟩ := hstep value next state hholds hnext
            obtain ⟨last, final, hlast, hstop, hend⟩ :=
              ih next _ hagain (by omega)
            refine ⟨last, final, hlast, hstop, ?_⟩
            rw [iterate, run_bind, hnext]
            exact hend
  exact hloop (state.tokens.length + 1) value state hholds (Nat.lt_succ_self _)

theorem repeatWhile_ends {step : Parser Bool} (hkeeps : Keeps start step)
    (hshorter : ∀ state : State, state.builder.accepts start = true →
      (step.run state).1 = true →
        (step.run state).2.tokens.length < state.tokens.length)
    {state : State} (haccepts : state.builder.accepts start = true) :
    ∃ last, state.Reads start last ∧ (step.run last).1 = false ∧
      ((repeatWhile step).run state).2 = (step.run last).2 := by
  have hmore : ∀ state : State, ((once step ()).run state).1 = some () ↔
      (step.run state).1 = true := by
    intro state
    cases hstep : (step.run state).1 <;> simp [run_once, hstep]
  have hstep : ∀ value next (last : State), state.Reads start last →
      ((once step value).run last).1 = some next →
        state.Reads start ((once step value).run last).2 ∧
        ((once step value).run last).2.tokens.length < last.tokens.length :=
        fun _ _ last hlast hnext =>
    have haccepts := hlast.accepts haccepts
    ⟨hlast.trans (hkeeps last haccepts),
      hshorter last haccepts ((hmore last).mp hnext)⟩
  obtain ⟨value, last, hlast, hstop, hend⟩ := repeatFrom_ends hstep ()
    (.of_unchanged (Builder.accepts_iff.mp haccepts).2 rfl rfl)
  refine ⟨last, hlast, ?_, congrArg Prod.snd hend⟩
  rw [← Bool.not_eq_true, ← hmore]
  simp [hstop]

end Parser

namespace Grammar

open PklAnalysis.Parser

variable {call : Call} {start : Nat}

theorem advances_property (hcall : call.Keeps) (kind : Node.Kind) :
    Advances start (property call start kind) := by
  refine advances_nodeAt fun _ => advances_take.bind keeps_take fun _ => ?_
  grind

theorem advances_method (hcall : call.Keeps) (kind : Node.Kind) :
    Advances start (method call start kind) := by
  refine advances_nodeAt fun _ => advances_take.bind keeps_take fun _ => ?_
  refine .bind (keeps_expect _) fun _ => .bind keeps_optionalTypeParameters
    fun _ => ?_
  grind

theorem advances_typeAlias (hcall : call.Keeps) :
    Advances start (typeAlias call start) := by
  refine advances_nodeAt fun _ => advances_take.bind keeps_take fun _ => ?_
  grind

theorem advances_classDecl (hcall : call.Keeps) :
    Advances start (classDecl call start) := by
  refine advances_nodeAt fun _ => advances_take.bind keeps_take fun _ => ?_
  grind

theorem advances_memberRest (hcall : call.Keeps) :
    Advances start (memberRest call start) := by
  refine advances_current?_bind fun kind => ?_
  split
  case h_1 hnone => cases hnone
  case h_2 => exact advances_classDecl hcall
  case h_3 => exact advances_typeAlias hcall
  case h_4 => exact advances_method hcall _
  case h_5 => exact advances_property hcall _
  case h_6 => exact advances_recover _ _

theorem advances_memberRule (hcall : call.Keeps) :
    Advances start (memberRule call) := by
  refine advances_mark_bind (fun _ => ?_) fun _ =>
    .after (keeps_annotations hcall) ?_ fun _ => ?_
  · grind
  · grind
  · exact .after keeps_modifiers (fun _ => keeps_memberRest hcall) fun _ =>
      advances_memberRest hcall

theorem advances_objectBodyRule (hcall : call.Keeps) :
    Advances start (objectBodyRule call) :=
  advances_node (fun _ => .bind keeps_take fun _ => keeps_objectBodyRest hcall)
      fun _ =>
    advances_take.bind keeps_take fun _ => keeps_objectBodyRest hcall

end Grammar

end PklAnalysis

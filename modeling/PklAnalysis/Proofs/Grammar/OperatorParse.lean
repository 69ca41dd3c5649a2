import Mathlib.Logic.Relation
import PklAnalysis.Proofs.Grammar.OperatorTree
import PklAnalysis.Proofs.Grammar.TriviaIndependence

/-!
Expressions of identifiers, literals and operators are read back as they were
written. The proof follows the parser on tokens without trivia; that trivia
within a line do not matter is known.
-/

namespace PklAnalysis

namespace Parser

variable {state after : State} {token : Token} {rest : List Token}

/-- From one state to another a parser has read tokens up to `rest` and built
`trees`, without an error. -/
structure State.Wrote (before after : State) (rest : List Token)
    (trees : List Tree) : Prop where
  tokens : after.tokens = rest
  started : after.atStart = false
  errors : after.errors = before.errors
  built : after.builder.trees.toList = before.builder.trees.toList ++ trees
  openNodes : after.builder.openNodes = before.builder.openNodes

theorem State.Wrote.trans {before middle after : State}
    {rest rest' : List Token} {trees trees' : List Tree}
    (hfirst : before.Wrote middle rest trees)
    (hsecond : middle.Wrote after rest' trees') :
    before.Wrote after rest' (trees ++ trees') where
  tokens := hsecond.tokens
  started := hsecond.started
  errors := hsecond.errors.trans hfirst.errors
  built := by rw [hsecond.built, hfirst.built, List.append_assoc]
  openNodes := hsecond.openNodes.trans hfirst.openNodes

/-! Looking at a token that no trivia come before. -/

theorem peek?_of_cons (htokens : state.tokens = token :: rest)
    (hplain : token.isTrivia = false) :
    state.peek? 0 = some token.kind := by
  simp [State.peek?, htokens, nth?, hplain]

theorem skipTrivia_of_cons (htokens : state.tokens = token :: rest)
    (hplain : token.isTrivia = false) : skipTrivia.run state = ((), state) := by
  have hnone : state.tokens.takeWhile Token.isTrivia = [] := by
    rw [htokens,
      List.takeWhile_cons_of_neg (by rw [hplain]; exact Bool.false_ne_true)]
  rw [run_skipTrivia, hnone]
  rfl

theorem afterBreak_of_cons (htokens : state.tokens = token :: rest)
    (hplain : token.isTrivia = false) (hstarted : state.atStart = false) :
    state.afterBreak = false := by
  have hnone : state.tokens.takeWhile Token.isTrivia = [] := by
    rw [htokens,
      List.takeWhile_cons_of_neg (by rw [hplain]; exact Bool.false_ne_true)]
  rw [State.afterBreak, hstarted, hnone]
  rfl

theorem take_run (htokens : state.tokens = token :: rest)
    (hplain : token.isTrivia = false) :
    ∃ after, take.run state = ((), after) ∧
      state.Wrote after rest [.token token.kind token.text] := by
  refine ⟨state.advance, ?_, ?_⟩
  · rw [run_take, skipTrivia_of_cons htokens hplain]
  · rw [State.advance_of_cons htokens]
    exact ⟨rfl, rfl, rfl, Array.toList_push, rfl⟩

theorem accept_run (htokens : state.tokens = token :: rest)
    (hplain : token.isTrivia = false) :
    ∃ after, (accept token.kind).run state = (true, after) ∧
      state.Wrote after rest [.token token.kind token.text] := by
  obtain ⟨after, htake, hwrote⟩ := take_run htokens hplain
  refine ⟨after, ?_, hwrote⟩
  rw [run_accept, if_pos (peek?_of_cons htokens hplain), htake]

theorem expect_run (htokens : state.tokens = token :: rest)
    (hplain : token.isTrivia = false) :
    ∃ after, (expect token.kind).run state = (true, after) ∧
      state.Wrote after rest [.token token.kind token.text] := by
  obtain ⟨after, haccept, hwrote⟩ := accept_run htokens hplain
  refine ⟨after, ?_, hwrote⟩
  rw [expect, run_bind, haccept]
  rfl

theorem close_run (htokens : state.tokens = token :: rest)
    (hplain : token.isTrivia = false) :
    ∃ after, (close token.kind).run state = ((), after) ∧
      state.Wrote after rest [.token token.kind token.text] := by
  obtain ⟨after, haccept, hwrote⟩ := accept_run htokens hplain
  refine ⟨after, ?_, hwrote⟩
  have hstopped : stopped (token.kind :: closers) state = true := by
    simp [stopped, peek?_of_cons htokens hplain]
  rw [run_close, hstopped, closeUnless, if_pos rfl, run_bind, haccept]
  rfl

theorem Wrote.finish {kind : Node.Kind} {before opened inner : State}
    {first : List Tree} {remaining : List Token} {trees : List Tree}
    (hwrote : opened.Wrote inner remaining trees)
    (hbuilt : opened.builder.trees.toList =
      before.builder.trees.toList ++ first)
    (hopen : opened.builder.openNodes =
      (kind, before.builder.mark) :: before.builder.openNodes)
    (herrors : opened.errors = before.errors) :
    before.Wrote { inner with builder := inner.builder.finish } remaining
      [.node kind (first ++ trees)] where
  tokens := hwrote.tokens
  started := hwrote.started
  errors := hwrote.errors.trans herrors
  built := by
    have hlength :
        before.builder.mark = before.builder.trees.toList.length := by
      rw [Builder.mark, Array.length_toList]
    rw [Builder.toList_trees_finish (hwrote.openNodes.trans hopen),
      hwrote.built, hbuilt, hlength, List.append_assoc, List.take_left,
      List.drop_left]
  openNodes := Builder.openNodes_finish (hwrote.openNodes.trans hopen)

theorem node_run {kind : Node.Kind} {body : Parser α} {value : α}
    {inner : State} {remaining : List Token} {trees : List Tree}
    (htokens : state.tokens = token :: rest) (hplain : token.isTrivia = false)
    (hbody : body.run { state with builder := state.builder.start kind } =
      (value, inner))
    (hwrote : State.Wrote { state with builder := state.builder.start kind }
      inner remaining trees) :
    ∃ after, (node kind body).run state = (value, after) ∧
      state.Wrote after remaining [.node kind trees] := by
  have hfinished : state.Wrote { inner with builder := inner.builder.finish }
      remaining
      [.node kind ([] ++ trees)] :=
    Wrote.finish hwrote (List.append_nil state.builder.trees.toList).symm rfl
      rfl
  refine ⟨_, ?_, hfinished⟩
  rw [node, run_bind, skipTrivia_of_cons htokens hplain, run_enclose, hbody]

theorem nodeAt_run {kind : Node.Kind} {body : Parser α} {value : α}
    {before inner : State} {remaining remaining' : List Token} {first : Tree}
    {trees : List Tree} (hfirst : before.Wrote state remaining [first])
    (hbody :
    body.run
      { state with builder := state.builder.startAt before.builder.mark kind } =
        (value, inner))
    (hwrote : State.Wrote
      { state with builder := state.builder.startAt before.builder.mark kind }
        inner remaining' trees) :
    ∃ after, (nodeAt before.builder.mark kind body).run state = (value, after) ∧
      before.Wrote after remaining' [.node kind (first :: trees)] := by
  refine ⟨_, ?_, Wrote.finish hwrote hfirst.built ?_ hfirst.errors⟩
  · rw [run_nodeAt, hbody]
  · rw [Builder.startAt, hfirst.openNodes]

end Parser

namespace Grammar

open PklAnalysis.Parser
open Expression

def nextKind (tokens : List Token) : Option Token.Kind :=
  tokens.head?.map Token.kind

variable {state : State} {rest : List Token} {depth power : Nat} {call : Call}

/-- A step of the loop after an operand: a suffix or an operator with its right
operand. -/
def Step (call : Call) (start power : Nat) (before after : Node.Kind × State) :
    Prop :=
  (continuation call start power before.1).run before.2 = (some after.1,
    after.2) ∧ after.2.tokens.length < before.2.tokens.length

theorem iterate_steps {start : Nat} {first last : Node.Kind × State}
    (hsteps : Relation.ReflTransGen (Step call start power) first last)
    (hlast : (continuation call start power last.1).run last.2 = (none, last.2))
    {limit : Nat} (hlimit : first.2.tokens.length < limit) :
    (iterate (continuation call start power) limit first.1).run first.2 =
      last := by
  induction hsteps using Relation.ReflTransGen.head_induction_on
    generalizing limit with
  | refl =>
      obtain ⟨limit, rfl⟩ :=
        Nat.exists_eq_add_of_le' (Nat.succ_le_of_lt (Nat.zero_lt_of_lt hlimit))
      rw [iterate, run_bind, hlast]
      rfl
  | head hstep _ ih =>
      obtain ⟨hrun, hlt⟩ := hstep
      obtain ⟨limit, rfl⟩ :=
        Nat.exists_eq_add_of_le' (Nat.succ_le_of_lt (Nat.zero_lt_of_lt hlimit))
      rw [iterate, run_bind, hrun]
      exact ih (by omega)

/-- The parser reads an expression: its first operand, and then by steps the
rest of it. -/
def ReadBy (call : Call) (power : Nat) (state : State) (expression : Expression)
    (rest : List Token) : Prop :=
  ∃ kind first last, (operandStart call).run state = (some kind, first) ∧
    Relation.ReflTransGen (Step call state.builder.mark power) (kind,
      first) (expression.kind, last) ∧
    state.Wrote last rest [expression.tree]

theorem peek?_eq_nextKind (htokens : state.tokens = rest)
    (hplain : ∀ token ∈ rest, Plain token.kind) :
    state.peek? 0 = nextKind rest := by
  subst htokens
  cases htokens : state.tokens with
  | nil => simp [State.peek?, htokens, nth?, nextKind]
  | cons token rest =>
      rw [htokens] at hplain
      exact peek?_of_cons htokens (hplain token List.mem_cons_self).1

theorem current?_run (state : State) :
    current?.run state = (state.peek? 0, state) :=
  rfl

theorem suffix_none {start : Nat} {operandKind : Node.Kind}
    (hnext : ∀ kind, state.peek? 0 = some kind → kind ∉ suffixes) :
    (suffix call start operandKind).run state = (none, state) := by
  rw [suffix, run_bind, current?_run]
  dsimp only
  split
  case h_1 hpeek => exact absurd (by decide) (hnext _ hpeek)
  case h_2 hpeek => exact absurd (by decide) (hnext _ hpeek)
  case h_3 hpeek => exact absurd (by decide) (hnext _ hpeek)
  case h_4 hpeek => exact absurd (by decide) (hnext _ hpeek)
  case h_5 hpeek => exact absurd (by decide) (hnext _ hpeek)
  case h_6 => rfl

theorem operation_none {start : Nat}
    (hnext : ∀ operator, Operator.current? state = some operator →
      operator.left < power) :
    (operation call start power).run state = (none, state) := by
  have hget : (get : Parser State).run state = (state, state) := rfl
  rw [operation, run_bind, hget]
  dsimp only
  split
  case h_1 => rfl
  case h_2 operator hcurrent =>
      rw [if_pos (hnext operator hcurrent)]
      rfl

theorem operation_some {start : Nat} {operator : Operator}
    (hcurrent : Operator.current? state = some operator)
    (hpower : power ≤ operator.left) (hbinary : operator.kind ≠ .typeTestExpr) :
    (operation call start power).run state =
      (do
        nodeAt start operator.kind do
          take
          operand call operator.right
        return some operator.kind : Parser (Option Node.Kind)).run state := by
  have hget : (get : Parser State).run state = (state, state) := rfl
  rw [operation, run_bind, hget]
  dsimp only
  rw [hcurrent]
  dsimp only
  rw [if_neg (Nat.not_lt_of_le hpower), if_neg hbinary]

theorem continuation_none {start : Nat} {operandKind : Node.Kind}
    (htokens : state.tokens = rest) (hplain : ∀ token ∈ rest, Plain token.kind)
    (hends : Ends power (nextKind rest)) :
    (continuation call start power operandKind).run state = (none, state) := by
  have hpeek := peek?_eq_nextKind htokens hplain
  rw [continuation, run_bind,
    suffix_none fun kind hkind => hends.not_suffix kind (hpeek ▸ hkind)]
  refine operation_none fun operator hcurrent => ?_
  rw [Operator.current?, hpeek] at hcurrent
  cases hnext : nextKind rest with
  | none =>
      rw [hnext] at hcurrent
      cases hcurrent
  | some kind =>
      rw [hnext] at hcurrent
      refine hends.left_lt kind operator hnext ?_
      simp only [Option.bind_eq_bind, Option.bind_some] at hcurrent
      split at hcurrent
      case isTrue => cases hcurrent
      case isFalse => exact hcurrent

theorem mark_run {token : Token} (htokens : state.tokens = token :: rest)
    (hplain : token.isTrivia = false) :
    mark.run state = (state.builder.mark, state) := by
  rw [mark, run_bind, skipTrivia_of_cons htokens hplain]
  rfl

theorem tokens_eq_cons (expression : Expression) :
    ∃ token rest,
      expression.tokens = token :: rest ∧ token.isTrivia = false := by
  obtain ⟨token, rest, htokens⟩ : ∃ token rest,
    expression.tokens = token :: rest := by
    refine List.exists_cons_of_ne_nil ?_
    cases expression <;> simp
  have hplain :=
    plain_tokens expression token (by rw [htokens]; exact List.mem_cons_self)
  exact ⟨token, rest, htokens, hplain.1⟩

theorem ReadBy.run {expression : Expression}
    (hread : ReadBy (parseRule depth) power state expression rest)
    (htokens : state.tokens = expression.tokens ++ rest)
    (hplain : ∀ token ∈ rest, Plain token.kind)
    (hends : Ends power (nextKind rest)) :
    ∃ after,
      (parseRule (depth + 1) (.expression power)).run state =
        (some expression.kind, after) ∧
      state.Wrote after rest [expression.tree] := by
  obtain ⟨kind, first, last, hstart, hsteps, hwrote⟩ := hread
  obtain ⟨token, others, hcons, htrivia⟩ := tokens_eq_cons expression
  rw [hcons, List.cons_append] at htokens
  have hlast :
      (continuation (parseRule depth) state.builder.mark power
        expression.kind).run last =
      (none, last) := continuation_none hwrote.tokens hplain hends
  have hloop :
      (repeatFrom (continuation (parseRule depth) state.builder.mark power)
        kind).run first =
      (expression.kind, last) := iterate_steps hsteps hlast (Nat.lt_succ_self _)
  refine ⟨last, ?_, hwrote⟩
  rw [parseRule, Rule.parse, expressionRule, run_bind, mark_run htokens htrivia]
  dsimp only
  rw [run_bind, hstart]
  dsimp only
  rw [run_bind, hloop]
  rfl

/-! Operands without an operator between two operands. -/

theorem built_run {kind : Node.Kind} {body : Parser Unit} {inner : State}
    {token : Token} {others remaining : List Token} {trees : List Tree}
    (htokens : state.tokens = token :: others) (hplain : token.isTrivia = false)
    (hbody : body.run { state with builder := state.builder.start kind } =
      ((), inner))
    (hwrote : State.Wrote { state with builder := state.builder.start kind }
      inner remaining trees) :
    ∃ after, (built kind body).run state = (some kind, after) ∧
      state.Wrote after remaining [.node kind trees] := by
  obtain ⟨after, hrun, hafter⟩ := node_run htokens hplain hbody hwrote
  refine ⟨after, ?_, hafter⟩
  rw [built, run_bind, hrun]
  rfl

theorem ReadBy.of_operand {expression : Expression} {after : State}
    (hrun : (operandStart call).run state = (some expression.kind, after))
    (hwrote : state.Wrote after rest [expression.tree]) :
    ReadBy call power state expression rest :=
  ⟨_, _, _, hrun, .refl, hwrote⟩

theorem run_optionalArguments_of_ne (hparen : state.peek? 0 ≠ some .leftParen) :
    (optionalArguments call).run state = ((), state) := by
  rw [optionalArguments, run_bind, run_at?, decide_eq_false hparen]
  rfl

theorem optionalArguments_run (htokens : state.tokens = rest)
    (hplain : ∀ token ∈ rest, Plain token.kind)
    (hparen : nextKind rest ≠ some .leftParen) :
    (optionalArguments call).run state = ((), state) := by
  rw [← peek?_eq_nextKind htokens hplain] at hparen
  exact run_optionalArguments_of_ne hparen

theorem readBy_identifier {text : String}
    (htokens : state.tokens = (identifier text).tokens ++ rest)
    (hplain : ∀ token ∈ rest, Plain token.kind)
    (hclosed : (identifier text).Closed (nextKind rest)) :
    ReadBy call power state (identifier text) rest := by
  rw [tokens_identifier, List.singleton_append] at htokens
  let opened : State :=
    { state with builder := state.builder.start .unqualifiedAccessExpr }
  have hopened : opened.tokens = bareToken (.identifier, text) :: rest :=
    htokens
  obtain ⟨taken, htake, hwrote⟩ := take_run hopened rfl
  have hbody : (take >>= fun _ => optionalArguments call).run opened =
      ((), taken) := by
    rw [run_bind, htake]
    exact optionalArguments_run hwrote.tokens hplain hclosed
  obtain ⟨after, hrun, hafter⟩ := built_run htokens rfl hbody hwrote
  refine .of_operand ?_ hafter
  rw [operandStart, run_bind, current?_run, peek?_of_cons htokens rfl]
  exact hrun

theorem readBy_literal {value : Literal} {text : String}
    (htokens : state.tokens = (literal value text).tokens ++ rest) :
    ReadBy call power state (literal value text) rest := by
  have hplain : (bareToken (value.token, text)).isTrivia = false := by
    cases value <;> rfl
  rw [tokens_literal, List.singleton_append] at htokens
  let opened : State := { state with builder := state.builder.start value.kind }
  have hopened : opened.tokens = bareToken (value.token, text) :: rest :=
    htokens
  obtain ⟨taken, htake, hwrote⟩ := take_run hopened hplain
  obtain ⟨after, hrun, hafter⟩ := built_run htokens hplain htake hwrote
  refine .of_operand ?_ hafter
  rw [operandStart, run_bind, current?_run, peek?_of_cons htokens hplain]
  cases value <;> exact hrun

section

variable {step : Parser Bool} {kind : Token.Kind} {texts : List String}
  {last : Token} (hmore : ∀ {state : State} {text : String} {rest : List Token},
    state.tokens = bareToken (kind, text) :: rest → ∃ after,
      step.run state = (true, after) ∧
      state.Wrote after rest [.token kind text])
  (hlast : ∀ state : State, state.tokens = last :: rest →
    step.run state = (false, state))
  (htokens : state.tokens = texts.map (fun text => bareToken (kind, text)) ++
    last :: rest)
  (hstarted : state.atStart = false)
include hmore hlast htokens hstarted

/-- By induction on the texts, each of which is one turn of the loop. -/
theorem iterate_takes {limit : Nat} (hlimit : texts.length ≤ limit) :
    ∃ after, (iterate (once step) limit ()).run state = ((), after) ∧
      state.Wrote after (last :: rest) (texts.map (.token kind)) := by
  induction texts generalizing limit state with
  | nil =>
      exact ⟨state, run_iterate_of_unchanged limit (hlast state htokens),
        htokens, hstarted, rfl, (List.append_nil _).symm, rfl⟩
  | cons text texts ih =>
      obtain ⟨limit, rfl⟩ :=
        Nat.exists_eq_add_of_le'
          (Nat.le_trans (Nat.succ_pos texts.length) hlimit)
      obtain ⟨taken, hrun, hwrote⟩ := hmore htokens
      obtain ⟨after, hrest, hafter⟩ :=
        ih hwrote.tokens hwrote.started (Nat.le_of_succ_le_succ hlimit)
      exact ⟨after, (run_iterate_of_true limit hrun).trans hrest,
        hwrote.trans hafter⟩

theorem repeatWhile_takes :
    ∃ after, (repeatWhile step).run state = ((), after) ∧
      state.Wrote after (last :: rest) (texts.map (.token kind)) := by
  refine iterate_takes hmore hlast htokens hstarted ?_
  rw [htokens, List.length_append, List.length_map]
  omega

end

theorem repeatWhile_takes_bind {step : Parser Bool} {next : Unit → Parser Unit}
    {kind : Token.Kind} {texts : List String} {last : Token}
    {remaining : List Token} {trees : List Tree}
    (htokens : state.tokens = texts.map (fun text => bareToken (kind, text)) ++
      last :: rest)
    (hstarted : state.atStart = false)
    (hmore : ∀ {state : State} {text : String} {rest : List Token},
      state.tokens = bareToken (kind, text) :: rest → ∃ after,
        step.run state = (true, after) ∧
          state.Wrote after rest [.token kind text])
    (hlast : ∀ state : State, state.tokens = last :: rest →
      step.run state = (false, state))
    (hnext : ∀ taken : State, taken.tokens = last :: rest → ∃ after,
      (next ()).run taken = ((), after) ∧ taken.Wrote after remaining trees) :
    ∃ after, (repeatWhile step >>= next).run state = ((), after) ∧
      state.Wrote after remaining (texts.map (.token kind) ++ trees) := by
  obtain ⟨taken, hloop, hwrote⟩ :=
    repeatWhile_takes hmore hlast htokens hstarted
  obtain ⟨after, hrun, hafter⟩ := hnext taken hwrote.tokens
  refine ⟨after, ?_, hwrote.trans hafter⟩
  rw [run_bind, hloop]
  exact hrun

theorem literalRest_run {runs : List String} {closing : String}
    (htokens : state.tokens =
      runs.map (fun run => bareToken (.stringChars, run)) ++
        bareToken (.stringEnd, closing) :: rest)
    (hstarted : state.atStart = false) :
    ∃ after, (literalRest call).run state = ((), after) ∧
      state.Wrote after rest
        (runs.map (.token .stringChars) ++ [.token .stringEnd closing]) := by
  refine repeatWhile_takes_bind htokens hstarted
    (fun {state text rest} htokens => ?_)
    (fun state htokens => ?_) fun taken htokens => ?_
  · obtain ⟨taken, htake, hwrote⟩ := take_run htokens rfl
    refine ⟨taken, ?_, hwrote⟩
    rw [run_bind, current?_run, peek?_of_cons htokens rfl]
    dsimp only [bareToken]
    rw [run_bind, htake]
    rfl
  · rw [run_bind, current?_run, peek?_of_cons htokens rfl]
    rfl
  · obtain ⟨after, haccept, hwrote⟩ := accept_run htokens rfl
    refine ⟨after, ?_, hwrote⟩
    have haccept : (accept .stringEnd).run taken = (true, after) := haccept
    rw [run_bind, haccept]
    rfl

theorem readBy_string {opening closing : String} {runs : List String}
    (htokens : state.tokens = (string opening runs closing).tokens ++ rest) :
    ReadBy (parseRule (depth + 1)) power state (string opening runs closing)
      rest := by
  rw [tokens_string, List.append_assoc, List.cons_append] at htokens
  let opened : State :=
    { state with builder := state.builder.start (literalKind opening) }
  have hopened : opened.tokens = _ := htokens
  obtain ⟨taken, htake, hwrote⟩ := take_run hopened rfl
  obtain ⟨inner, hrest, hinner⟩ : ∃ after,
      (literalRest (parseRule depth)).run taken = ((), after) ∧
      taken.Wrote after rest _ := literalRest_run hwrote.tokens hwrote.started
  have hbody : (take >>= fun _ => literalRest (parseRule depth)).run opened =
      ((), inner) := by
    rw [run_bind, htake]
    exact hrest
  obtain ⟨after, hrun, hafter⟩ :=
    node_run htokens rfl hbody (hwrote.trans hinner)
  refine .of_operand ?_ hafter
  have htext : (state.current?.map Token.text).getD "" = opening := by
    simp [State.current?, htokens, nth?, bareToken, Token.isTrivia,
      Token.Kind.isTrivia]
  have hget : (get : Parser State).run state = (state, state) := rfl
  rw [operandStart, run_bind, current?_run, peek?_of_cons htokens rfl]
  dsimp only [bareToken]
  rw [parseRule, Rule.parse, stringLiteralRule, run_bind, hget]
  dsimp only
  rw [htext, run_bind, hrun]
  rfl

def Readable (expression : Expression) : Prop :=
  ∀ {depth power state rest}, expression.tokens.length ≤ depth →
    state.tokens = expression.tokens ++ rest →
    (∀ token ∈ rest, Plain token.kind) →
    expression.Closed (nextKind rest) → power ≤ expression.power →
    ReadBy (parseRule depth) power state expression rest

theorem Readable.run {expression : Expression} (hreadable : Readable expression)
    (hdepth : expression.tokens.length < depth)
    (htokens : state.tokens = expression.tokens ++ rest)
    (hplain : ∀ token ∈ rest, Plain token.kind)
    (hclosed : expression.Closed (nextKind rest))
    (hpower : power ≤ expression.power) (hends : Ends power (nextKind rest)) :
    ∃ after,
      (parseRule depth (.expression power)).run state =
        (some expression.kind, after) ∧
      state.Wrote after rest [expression.tree] := by
  obtain ⟨depth, rfl⟩ := Nat.exists_eq_add_of_le' (Nat.zero_lt_of_lt hdepth)
  exact (hreadable (Nat.le_of_lt_succ hdepth) htokens hplain hclosed hpower).run
    htokens hplain hends

theorem Readable.run_closed {expression : Expression} {receiver : Nat}
    {closer : Token} (hreadable : Readable expression)
    (hgrouped : expression.Grouped receiver)
    (hdepth : expression.tokens.length < depth)
    (htokens : state.tokens = expression.tokens ++ closer :: rest)
    (hplain : ∀ token ∈ rest, Plain token.kind)
    (hcloser : closer.kind = .rightParen ∨ closer.kind = .rightBracket) :
    ∃ after,
      (do Grammar.expression (parseRule depth); close closer.kind).run state =
        ((), after) ∧
      state.Wrote after rest
        [expression.tree, .token closer.kind closer.text] := by
  have hkind : Plain closer.kind ∧ closer.kind ∉ suffixes ∧
      closer.kind ≠ .leftParen ∧ Operator.ofToken? closer.kind = none := by
    rcases hcloser with hkind | hkind <;> rw [hkind] <;>
      exact ⟨⟨rfl, nofun⟩, by decide, nofun, rfl⟩
  obtain ⟨hcloserPlain, hsuffix, hparen, hoperator⟩ := hkind
  have hends : Ends 0 (some closer.kind) := by
    refine ⟨fun kind hkind => Option.some.inj hkind ▸ hsuffix,
      fun kind operator hkind hread => ?_⟩
    rw [← Option.some.inj hkind, hoperator] at hread
    cases hread
  have hclosed : expression.Closed (some closer.kind) := by
    refine closed_of_leftSlot hgrouped hends.not_suffix
      (fun hkind => hparen (Option.some.inj hkind))
      fun kind operator hkind hread => ?_
    rw [← Option.some.inj hkind, hoperator] at hread
    cases hread
  obtain ⟨read, hrun, hread⟩ := hreadable.run hdepth htokens
    (List.forall_mem_cons.mpr ⟨hcloserPlain, hplain⟩) hclosed
      (Nat.zero_le _) hends
  obtain ⟨after, hclose, hafter⟩ := close_run hread.tokens hcloserPlain.1
  have hexpression : (Grammar.expression (parseRule depth)).run state =
      ((), ((parseRule depth (.expression 0)).run state).2) := rfl
  refine ⟨after, ?_, hread.trans hafter⟩
  rw [run_bind, hexpression, hrun]
  exact hclose

theorem functionAhead_of_plain {tokens : List Token}
    (hplain : ∀ token ∈ tokens, Plain token.kind) (depth limit : Nat) :
    functionAhead depth limit tokens = false := by
  induction tokens generalizing depth limit with
  | nil => rfl
  | cons token rest ih =>
      rw [List.forall_mem_cons] at hplain
      have htrivia : token.isTrivia = false := hplain.1.1
      have hnext : ((nth? 0 rest).any fun next => next.kind = .arrow) =
          false := by
        cases hnext : nth? 0 rest with
        | none => rfl
        | some next =>
            rw [nth?_zero] at hnext
            have hmem :=
              (List.dropWhile_suffix _).subset (List.mem_of_head? hnext)
            exact decide_eq_false (hplain.2 next hmem).2
      cases limit with
      | zero => simp [functionAhead, htrivia]
      | succ limit =>
          simp only [functionAhead, htrivia, Bool.false_eq_true, if_false,
            ih hplain.2, hnext]
          split <;> simp

theorem plain_append {expression : Expression}
    (hplain : ∀ token ∈ rest, Plain token.kind) :
    ∀ token ∈ expression.tokens ++ rest, Plain token.kind :=
  List.forall_mem_append.mpr ⟨plain_tokens expression, hplain⟩

theorem readBy_parenthesized {inner : Expression} {receiver : Nat}
    (hreadable : Readable inner) (hgrouped : inner.Grouped receiver)
    (hdepth : (parenthesized inner).tokens.length ≤ depth)
    (htokens : state.tokens = (parenthesized inner).tokens ++ rest)
    (hplain : ∀ token ∈ rest, Plain token.kind) :
    ReadBy (parseRule depth) power state (parenthesized inner) rest := by
  have hall : ∀ token ∈ (parenthesized inner).tokens ++ rest,
      Plain token.kind := plain_append hplain
  rw [← htokens] at hall
  rw [tokens_parenthesized, List.append_assoc, List.cons_append] at htokens
  let opened : State :=
    { state with builder := state.builder.start .parenthesizedExpr }
  have hopened : opened.tokens = _ := htokens
  obtain ⟨taken, htake, hwrote⟩ := take_run hopened rfl
  have hshorter : inner.tokens.length < depth := by
    simp only [tokens_parenthesized, List.length_append, List.length_cons]
      at hdepth
    omega
  obtain ⟨closed, hrest, hclosed⟩ :=
    hreadable.run_closed hgrouped hshorter hwrote.tokens hplain (.inl rfl)
  have hbody : (parenthesizedExpr (parseRule depth)).run opened =
      ((), closed) := by
    rw [parenthesizedExpr, run_bind, htake]
    exact hrest
  obtain ⟨after, hrun, hafter⟩ :=
    built_run htokens rfl hbody (hwrote.trans hclosed)
  refine .of_operand ?_ hafter
  have hahead : atFunctionLiteral?.run state = (false, state) :=
    congrArg (·, state) (functionAhead_of_plain hall _ _)
  rw [operandStart, run_bind, current?_run, peek?_of_cons htokens rfl]
  dsimp only [bareToken, spelledToken]
  rw [run_bind, hahead]
  exact hrun

theorem readBy_signed {sign : Sign} {operand : Expression}
    (hreadable : Readable operand) (hpower : unaryPower ≤ operand.power)
    (hdepth : (signed sign operand).tokens.length ≤ depth)
    (htokens : state.tokens = (signed sign operand).tokens ++ rest)
    (hplain : ∀ token ∈ rest, Plain token.kind)
    (hclosed : (signed sign operand).Closed (nextKind rest)) :
    ReadBy (parseRule depth) power state (signed sign operand) rest := by
  have hsign : (spelledToken sign.token).isTrivia = false := by
    cases sign <;> rfl
  rw [tokens_signed, List.cons_append] at htokens
  let opened : State := { state with builder := state.builder.start sign.kind }
  have hopened : opened.tokens = _ := htokens
  obtain ⟨taken, htake, hwrote⟩ := take_run hopened hsign
  have hshorter : operand.tokens.length < depth := by
    rwa [tokens_signed, List.length_cons, Nat.succ_le_iff] at hdepth
  obtain ⟨read, hcall, hread⟩ :=
    hreadable.run hshorter hwrote.tokens hplain hclosed.2 hpower hclosed.1
  have hbody :
      (take >>= fun _ => Grammar.operand (parseRule depth)
        unaryPower).run opened =
      ((), read) := by
    rw [run_bind, htake]
    dsimp only
    rw [Grammar.operand, run_bind, hcall]
    rfl
  obtain ⟨after, hrun, hafter⟩ :=
    built_run htokens hsign hbody (hwrote.trans hread)
  refine .of_operand ?_ hafter
  rw [operandStart, run_bind, current?_run, peek?_of_cons htokens hsign]
  cases sign <;> exact hrun

theorem ReadBy.step {expression whole : Expression} {remaining : List Token}
    (hread : ReadBy call power state expression remaining)
    (hstep : ∀ middle : State, state.Wrote middle remaining [expression.tree] →
      ∃ last,
        Step call state.builder.mark power (expression.kind,
          middle) (whole.kind, last) ∧ state.Wrote last rest [whole.tree]) :
    ReadBy call power state whole rest := by
  obtain ⟨kind, first, middle, hstart, hsteps, hwrote⟩ := hread
  obtain ⟨last, hlast, hwhole⟩ := hstep middle hwrote
  exact ⟨kind, first, last, hstart, hsteps.tail hlast, hwhole⟩

theorem step_of_suffix {start : Nat} {operandKind kind : Node.Kind}
    {middle last : State}
    (hrun : (suffix call start operandKind).run middle = (some kind, last))
    (hlength : last.tokens.length < middle.tokens.length) :
    Step call start power (operandKind, middle) (kind, last) := by
  refine ⟨?_, hlength⟩
  rw [continuation, run_bind, hrun]
  rfl

theorem readBy_nonNull {receiver : Expression}
    (hread : ReadBy call power state receiver
      (spelledToken .bangBang :: rest)) :
    ReadBy call power state (nonNull receiver) rest := by
  refine hread.step fun middle hwrote => ?_
  let opened : State :=
    { middle with
      builder := middle.builder.startAt state.builder.mark .nonNullExpr }
  have hopened : opened.tokens = spelledToken .bangBang :: rest := hwrote.tokens
  obtain ⟨taken, htake, htaken⟩ := take_run hopened rfl
  obtain ⟨after, hrun, hafter⟩ := nodeAt_run hwrote htake htaken
  refine ⟨after, step_of_suffix ?_ ?_, hafter⟩
  · rw [suffix, run_bind, current?_run, peek?_of_cons hwrote.tokens rfl]
    dsimp only [spelledToken, bareToken]
    rw [run_bind, hrun]
    rfl
  · rw [hafter.tokens, hwrote.tokens]
    exact Nat.lt_succ_self _

theorem readBy_member {nullSafe : Bool} {receiver : Expression} {name : String}
    (hread : ReadBy call power state receiver
      (spelledToken (dot nullSafe) :: bareToken (.identifier, name) :: rest))
    (hplain : ∀ token ∈ rest, Plain token.kind)
    (hclosed : (Expression.member nullSafe receiver name).Closed
      (nextKind rest)) :
    ReadBy call power state (.member nullSafe receiver name) rest := by
  have hdot : (spelledToken (dot nullSafe)).isTrivia = false := by
    cases nullSafe <;> rfl
  refine hread.step fun middle hwrote => ?_
  let opened : State :=
    { middle with
      builder := middle.builder.startAt state.builder.mark .qualifiedAccessExpr }
  have hopened : opened.tokens = _ := hwrote.tokens
  obtain ⟨taken, htake, htaken⟩ := take_run hopened hdot
  obtain ⟨named, hexpect, hnamed⟩ := expect_run htaken.tokens rfl
  have hexpect : (expect .identifier).run taken = (true, named) := hexpect
  have hbody :
      (do take; let _ ← expect .identifier; optionalArguments call).run opened =
      ((), named) := by
    rw [run_bind, htake]
    dsimp only
    rw [run_bind, hexpect]
    exact optionalArguments_run hnamed.tokens hplain hclosed
  obtain ⟨after, hrun, hafter⟩ := nodeAt_run hwrote hbody (htaken.trans hnamed)
  have hsuffix : (suffix call state.builder.mark receiver.kind).run middle =
      (do
        nodeAt state.builder.mark .qualifiedAccessExpr do
          take
          let _ ← expect .identifier
          optionalArguments call
        return some .qualifiedAccessExpr : Parser (Option Node.Kind)).run
          middle := by
    rw [suffix, run_bind, current?_run, peek?_of_cons hwrote.tokens hdot]
    cases nullSafe <;> rfl
  refine ⟨after, step_of_suffix ?_ ?_, hafter⟩
  · rw [hsuffix, run_bind, hrun]
    rfl
  · rw [hafter.tokens, hwrote.tokens, List.length_cons, List.length_cons]
    omega

theorem readBy_subscript {receiver index : Expression} {least : Nat}
    (hread : ReadBy (parseRule depth) power state receiver
      (spelledToken .leftBracket :: index.tokens ++
        spelledToken .rightBracket :: rest))
    (hreadable : Readable index) (hgrouped : index.Grouped least)
    (hdepth : index.tokens.length < depth)
    (hplain : ∀ token ∈ rest, Plain token.kind) :
    ReadBy (parseRule depth) power state (subscript receiver index) rest := by
  refine hread.step fun middle hwrote => ?_
  have hmiddle := hwrote.tokens
  rw [List.cons_append] at hmiddle
  let opened : State :=
    { middle with
      builder := middle.builder.startAt state.builder.mark .subscriptExpr }
  have hopened : opened.tokens = _ := hmiddle
  obtain ⟨taken, htake, htaken⟩ := take_run hopened rfl
  obtain ⟨closed, hrest, hclosed⟩ :=
    hreadable.run_closed hgrouped hdepth htaken.tokens hplain (.inr rfl)
  have hbody : (do
      take
      Grammar.expression (parseRule depth)
      close .rightBracket : Parser Unit).run opened = ((), closed) := by
    rw [run_bind, htake]
    exact hrest
  obtain ⟨after, hrun, hafter⟩ := nodeAt_run hwrote hbody (htaken.trans hclosed)
  refine ⟨after, step_of_suffix ?_ ?_, hafter⟩
  · have hbreak : afterBreak?.run middle = (false, middle) :=
      congrArg (·, middle) (afterBreak_of_cons hmiddle rfl hwrote.started)
    rw [suffix, run_bind, current?_run, peek?_of_cons hmiddle rfl]
    dsimp only [spelledToken, bareToken]
    rw [run_bind, hbreak]
    dsimp only
    rw [if_neg Bool.false_ne_true, run_bind, hrun]
    rfl
  · rw [hafter.tokens, hmiddle, List.length_cons, List.length_append,
      List.length_cons]
    omega

theorem readBy_binary {operator : Infix} {left right : Expression}
    (hread : ReadBy (parseRule depth) power state left
      (spelledToken operator.token :: right.tokens ++ rest))
    (hreadable : Readable right) (hdepth : right.tokens.length < depth)
    (hplain : ∀ token ∈ rest, Plain token.kind)
    (hpower : power ≤ operator.operator.left)
    (hright : operator.operator.right ≤ right.power)
    (hclosed : (binary operator left right).Closed (nextKind rest)) :
    ReadBy (parseRule depth) power state (binary operator left right) rest := by
  have hoperator := plain_operator operator
  refine hread.step fun middle hwrote => ?_
  have hmiddle := hwrote.tokens
  rw [List.cons_append] at hmiddle
  let opened : State :=
    { middle with
      builder := middle.builder.startAt state.builder.mark operator.operator.kind }
  have hopened : opened.tokens = _ := hmiddle
  obtain ⟨taken, htake, htaken⟩ := take_run hopened hoperator.1
  obtain ⟨read, hcall, hafterRight⟩ :=
    hreadable.run hdepth htaken.tokens hplain hclosed.2 hright hclosed.1
  have hbody :
      (take >>= fun _ =>
        operand (parseRule depth) operator.operator.right).run opened =
      ((), read) := by
    rw [run_bind, htake]
    dsimp only
    rw [operand, run_bind, hcall]
    rfl
  obtain ⟨after, hrun, hafter⟩ :=
    nodeAt_run hwrote hbody (htaken.trans hafterRight)
  have hpeek : middle.peek? 0 = some operator.token :=
    peek?_of_cons hmiddle hoperator.1
  have hcurrent : Operator.current? middle = some operator.operator := by
    rw [Operator.current?, hpeek,
      afterBreak_of_cons hmiddle hoperator.1 hwrote.started]
    simp [operator.read]
  have hkind : operator.operator.kind ≠ .typeTestExpr := by
    intro hkind
    have hbinary := operator.binary
    rw [hkind] at hbinary
    cases hbinary
  have hsuffix : ∀ kind, middle.peek? 0 = some kind → kind ∉ suffixes := by
    intro kind hkind
    obtain rfl := Option.some.inj (hpeek.symm.trans hkind)
    exact (not_suffix_of_read operator.read).1
  refine ⟨after, ⟨?_, ?_⟩, hafter⟩
  · rw [continuation, run_bind, suffix_none hsuffix]
    dsimp only
    rw [operation_some hcurrent hpower hkind, run_bind, hrun]
    rfl
  · rw [hafter.tokens, hmiddle, List.length_cons, List.length_append]
    omega

theorem closed_before_operator (operator : Infix) (others : List Token)
    {left : Expression} {receiver : Nat} (hgrouped : left.Grouped receiver)
    (hleft : operator.operator.leftSlot ≤ left.power) :
    left.Closed (nextKind (spelledToken operator.token :: others)) := by
  obtain ⟨hsuffix, hparen⟩ := not_suffix_of_read operator.read
  refine closed_of_leftSlot hgrouped (fun kind hkind => ?_)
    (fun hkind => hparen (Option.some.inj hkind)) fun kind other hkind hread =>
      ?_
  · exact Option.some.inj hkind ▸ hsuffix
  · rw [← Option.some.inj hkind] at hread
    obtain rfl := Option.some.inj (operator.read.symm.trans hread)
    exact hleft

/-- Where parentheses stand wherever they are needed, an expression is read as
it was written. -/
theorem readable {expression : Expression}
    (hgrouped : expression.Grouped (unaryPower + 1)) :
    Readable expression := by
  have hreceiver :
      ∀ {receiver : Expression} {kind : Token.Kind} {others : List Token},
      unaryPower + 1 ≤ receiver.power → kind ≠ .leftParen →
      receiver.Closed (nextKind (spelledToken kind :: others)) := by
    intro receiver kind others hpower hparen
    exact closed_of_power hpower fun hkind => hparen (Option.some.inj hkind)
  induction expression with
  | identifier text =>
      intro depth power state rest _ htokens hplain hclosed _
      exact readBy_identifier htokens hplain hclosed
  | literal value text =>
      intro depth power state rest _ htokens _ _ _
      exact readBy_literal htokens
  | string opening runs closing =>
      intro depth power state rest hdepth htokens _ _ _
      have hpos : 0 < depth := by
        rw [tokens_string, List.length_append] at hdepth
        exact Nat.lt_of_lt_of_le (Nat.succ_pos _) hdepth
      obtain ⟨depth, rfl⟩ := Nat.exists_eq_add_of_le' hpos
      exact readBy_string htokens
  | parenthesized inner ih =>
      intro depth power state rest hdepth htokens hplain _ _
      exact readBy_parenthesized (ih hgrouped) hgrouped hdepth htokens hplain
  | signed sign operand ih =>
      intro depth power state rest hdepth htokens hplain hclosed _
      exact readBy_signed (ih hgrouped.2) hgrouped.1 hdepth htokens
        hplain hclosed
  | nonNull receiver ih =>
      intro depth power state rest hdepth htokens hplain _ hpower
      rw [tokens_nonNull, List.append_assoc] at htokens
      rw [tokens_nonNull, List.length_append] at hdepth
      have hread := ih hgrouped.2 (Nat.le_of_add_right_le hdepth) htokens
        (List.forall_mem_cons.mpr ⟨⟨rfl, nofun⟩, hplain⟩)
          (hreceiver hgrouped.1 nofun)
        (Nat.le_trans hpower hgrouped.1)
      exact readBy_nonNull hread
  | member nullSafe receiver name ih =>
      intro depth power state rest hdepth htokens hplain hclosed hpower
      rw [tokens_member, List.append_assoc] at htokens
      rw [tokens_member, List.length_append] at hdepth
      have hdot : Plain (dot nullSafe) ∧ dot nullSafe ≠ .leftParen := by
        cases nullSafe <;> exact ⟨⟨rfl, nofun⟩, nofun⟩
      have hothers :
          ∀ token ∈ spelledToken (dot nullSafe) :: bareToken (.identifier,
            name) :: rest,
          Plain token.kind :=
        List.forall_mem_cons.mpr ⟨hdot.1,
          List.forall_mem_cons.mpr ⟨⟨rfl, nofun⟩, hplain⟩⟩
      have hread :=
        ih hgrouped.2 (Nat.le_of_add_right_le hdepth) htokens hothers
        (hreceiver hgrouped.1 hdot.2) (Nat.le_trans hpower hgrouped.1)
      exact readBy_member hread hplain hclosed
  | subscript receiver index ihReceiver ihIndex =>
      intro depth power state rest hdepth htokens hplain _ hpower
      obtain ⟨hpowerReceiver, hgroupedReceiver, hgroupedIndex⟩ := hgrouped
      simp only [tokens_subscript, List.append_assoc, List.cons_append,
        List.nil_append] at htokens
      simp only [tokens_subscript, List.length_append, List.length_cons]
        at hdepth
      have hothers : ∀ token ∈ spelledToken .leftBracket ::
          (index.tokens ++ spelledToken .rightBracket :: rest),
          Plain token.kind := by
        refine List.forall_mem_cons.mpr ⟨⟨rfl, nofun⟩, plain_append ?_⟩
        exact List.forall_mem_cons.mpr ⟨⟨rfl, nofun⟩, hplain⟩
      have hreceiverDepth : receiver.tokens.length ≤ depth := by omega
      have hread := ihReceiver hgroupedReceiver hreceiverDepth htokens hothers
        (hreceiver hpowerReceiver nofun) (Nat.le_trans hpower hpowerReceiver)
      exact readBy_subscript hread (ihIndex hgroupedIndex) hgroupedIndex
        (by omega) hplain
  | binary operator left right ihLeft ihRight =>
      intro depth power state rest hdepth htokens hplain hclosed hpower
      obtain ⟨hleft, hright, hgroupedLeft, hgroupedRight⟩ := hgrouped
      simp only [tokens_binary, List.append_assoc, List.cons_append] at htokens
      simp only [tokens_binary, List.length_append, List.length_cons] at hdepth
      have hmem := Operator.mem_all operator.read
      have hothers :
          ∀ token ∈ spelledToken operator.token :: (right.tokens ++ rest),
          Plain token.kind :=
        List.forall_mem_cons.mpr ⟨plain_operator operator, plain_append hplain⟩
      have hclosedLeft :=
        closed_before_operator operator (right.tokens ++ rest)
          hgroupedLeft hleft
      have hpowerLeft : power ≤ left.power :=
        Nat.le_trans hpower (Nat.le_trans (Operator.left_le_leftSlot _) hleft)
      have hleftDepth : left.tokens.length ≤ depth := by omega
      have hread :=
        ihLeft hgroupedLeft hleftDepth htokens hothers hclosedLeft hpowerLeft
      exact readBy_binary hread (ihRight hgroupedRight) (by omega) hplain hpower
        (Nat.le_trans (Operator.right_le_rightSlot hmem) hright) hclosed

/-- Tokens with which an expression is written on one line, with blanks and
comments anywhere. -/
structure Expression.PrintsAs (expression : Expression) (tokens : List Token) :
    Prop where
  leaves : (Token.significant tokens).map Token.leaf = expression.tree.leaves
  unbroken : ∀ token ∈ tokens, token.isTrivia = true → token.breaksLine = false

/-- The expression rule reads `tokens` as this expression and as nothing else,
without an error. The text of the tokens ends at `stop`. -/
def Expression.ReadsFrom (expression : Expression) (tokens : List Token)
    (stop depth : Nat) : Prop :=
  ∃ final,
    (parseRule depth (.expression 0)).run (.ofTokens tokens stop) =
      (some expression.kind, final) ∧
    final.errors = [] ∧ Token.significant final.tokens = [] ∧
    Tree.bareAll final.builder.trees.toList = [expression.tree]

theorem Expression.significant_tokens (expression : Expression) :
    Token.significant expression.tokens = expression.tokens := by
  refine List.filter_eq_self.mpr fun token htoken => ?_
  rw [Bool.not_eq_true']
  exact (plain_tokens expression token htoken).1

theorem Expression.PrintsAs.outline_eq {expression : Expression}
    {tokens : List Token} (hprints : expression.PrintsAs tokens)
    (broken : Bool) :
    Token.outline broken tokens = Token.outline broken expression.tokens := by
  rw [Token.outline_of_unbroken broken hprints.unbroken]
  refine Token.outline_congr broken ?_
  rw [hprints.leaves, Expression.tokens, List.map_map]
  exact (List.map_id _).symm

theorem Readable.run_all {expression : Expression} {least : Nat}
    (hreadable : Readable expression) (hgrouped : expression.Grouped least)
    (hdepth : expression.tokens.length < depth) (stop : Nat) :
    ∃ after,
      (parseRule depth (.expression 0)).run (.ofTokens expression.tokens stop) =
        (some expression.kind, after) ∧
      State.Wrote (.ofTokens expression.tokens stop) after []
      [expression.tree] := by
  have htokens : (State.ofTokens expression.tokens stop).tokens =
      expression.tokens ++ [] :=
    (List.append_nil _).symm
  have hends : Ends 0 none := ⟨nofun, fun _ _ hnext => nomatch hnext⟩
  have hclosed : expression.Closed none :=
    closed_of_leftSlot hgrouped hends.not_suffix nofun fun _ _ hnext =>
      nomatch hnext
  exact hreadable.run hdepth htokens nofun hclosed (Nat.zero_le _) hends

/-- Where parentheses stand wherever an operand binds looser than its place
requires, and around signed receivers, an expression is read from the tokens
with which it is printed. -/
theorem parse_printed {expression : Expression}
    (hgrouped : expression.Grouped (unaryPower + 1)) {tokens : List Token}
    (hprints : expression.PrintsAs tokens) (stop : Nat) {depth : Nat}
    (hdepth : callDepth tokens ≤ depth) :
    expression.ReadsFrom tokens stop depth := by
  let inputs : Inputs := ⟨⟨tokens, stop⟩, ⟨expression.tokens, stop⟩⟩
  have hsimilar : Similar inputs 0 0 (.ofTokens tokens stop)
      (.ofTokens expression.tokens stop) :=
    similar_ofTokens stop stop (hprints.outline_eq true)
  have hcount : (Token.significant tokens).length =
      (Token.significant expression.tokens).length :=
    hsimilar.count_eq
  rw [expression.significant_tokens] at hcount
  have hsize : (Token.significant tokens).length ≤ tokens.length :=
    List.length_filter_le _ _
  rw [callDepth] at hdepth
  have hread : Readable expression := readable hgrouped
  have hdeep : expression.tokens.length < depth := by omega
  obtain ⟨bare, hrun, hwrote⟩ := hread.run_all hgrouped hdeep stop
  have hcall : Agree (.upToTrivia inputs) (inputs.left.size + 1)
      (parseRule depth)
      (parseRule depth) := by
    have hinput : inputs.left.size = (Token.significant tokens).length := rfl
    have hlike : (Likeness.upToTrivia inputs).size = inputs.left.size := rfl
    exact agree_parseRule
      (fun _ hlt => .of_junk trivial (Nat.le_of_lt_succ hlt)) (by omega)
  obtain ⟨hvalue, hfinal, -⟩ :=
    (hcall.expression 0 0 0).same _ _ rfl rfl hsimilar trivial
    (Nat.lt_succ_self _)
  rw [hrun] at hvalue hfinal
  have hvalue :
      ((parseRule depth (.expression 0)).run (.ofTokens tokens stop)).1 =
      some expression.kind := hvalue
  refine ⟨_, Prod.ext hvalue rfl, ?_, ?_, ?_⟩
  · have herrors := hfinal.errors
    rw [hwrote.errors] at herrors
    exact List.forall₂_nil_right_iff.mp herrors
  · have hleaves := hfinal.leaves_eq
    rw [hwrote.tokens] at hleaves
    exact List.map_eq_nil_iff.mp hleaves
  · have htrees := hfinal.trees
    rw [hwrote.built] at htrees
    rw [List.drop_zero, List.drop_zero] at htrees
    rw [htrees]
    exact expression.bareAll_tree

/-- `-a/**/ ?? b.c`. -/
theorem parse_printed_coalesced :
    let coalesce :
    Infix := ⟨.questionQuestion, ⟨.nullCoalesceExpr, 3, 2⟩, rfl, rfl⟩
    let expression : Expression :=
      .binary coalesce (.signed .minus (.identifier "a"))
        (.member false (.identifier "b") "c")
    let tokens : List Token :=
      [⟨.minus, "-", 0⟩, ⟨.identifier, "a", 1⟩, ⟨.blockComment, "/**/", 2⟩,
       ⟨.whitespace, " ", 6⟩, ⟨.questionQuestion, "??", 7⟩,
       ⟨.whitespace, " ", 9⟩, ⟨.identifier, "b", 10⟩, ⟨.dot, ".", 11⟩,
       ⟨.identifier, "c", 12⟩]
    expression.Grouped (unaryPower + 1) ∧ expression.PrintsAs tokens ∧
      callDepth tokens ≤ 20 ∧ expression.ReadsFrom tokens 13 20 := by
  intro coalesce expression tokens
  have hgrouped : expression.Grouped (unaryPower + 1) :=
    ⟨by decide, by decide, ⟨by decide, trivial⟩, by decide, trivial⟩
  have hprints : expression.PrintsAs tokens := ⟨rfl, by decide⟩
  have hdepth : callDepth tokens ≤ 20 := by decide
  exact ⟨hgrouped, hprints, hdepth, parse_printed hgrouped hprints 13 hdepth⟩

/-- A signed receiver is not enough: in `-a.b` the member is taken of `a`. -/
theorem signed_receiver_not_read :
    ¬ ∀ expression : Expression, expression.Grouped unaryPower →
      ∀ tokens : List Token, expression.PrintsAs tokens → ∀ stop depth : Nat,
        callDepth tokens ≤ depth → expression.ReadsFrom tokens stop depth := by
  intro hall
  let expression : Expression :=
    .member false (.signed .minus (.identifier "a")) "b"
  let tokens : List Token :=
    [⟨.minus, "-", 0⟩, ⟨.identifier, "a", 1⟩, ⟨.dot, ".", 2⟩,
     ⟨.identifier, "b", 3⟩]
  have hgrouped : expression.Grouped unaryPower :=
    ⟨by decide, by decide, trivial⟩
  have hprints : expression.PrintsAs tokens := ⟨rfl, by decide⟩
  obtain ⟨final, hrun, -⟩ :=
    hall expression hgrouped tokens hprints 4 10 (by decide)
  have hsigned : ((parseRule 10 (.expression 0)).run (.ofTokens tokens 4)).1 =
      some .unaryMinusExpr := by
    decide +kernel
  rw [hrun] at hsigned
  cases hsigned

end Grammar

end PklAnalysis

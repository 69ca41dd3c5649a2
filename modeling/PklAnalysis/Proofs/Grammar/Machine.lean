import PklAnalysis.Proofs.Grammar.Unrolling
import PklAnalysis.Proofs.Token.ByteLexer
import PklAnalysis.Proofs.Token.Exposure

/-!
Parsing with every access checked. A machine is at a place among all tokens. It
looks a token up by its index, and line breaks in the tokens from its place on;
it starts nodes at marks, finishes them, and counts parentheses. An index or a
place beyond the tokens, a mark that is not valid, a node that was not started
and a count below zero are failures. A parser is a machine as it is seen from
its place, and a parse is a run of a machine without failures.
-/

namespace PklAnalysis

namespace Parser

structure Machine where
  tokens : List Token
  position : Nat
  builder : Builder
  errors : List SyntaxError
  stop : Nat

/-- What a parser does, beside looking at tokens. A node may be started at the
mark of the present place. -/
inductive Move
  | take
  | report (cause : SyntaxError.Cause)
  | startAt (mark : Nat) (kind : Node.Kind)
  | finish

def Move.apply : Move → State → State
  | .take, state => state.advance
  | .report cause, state => ((Parser.report cause).run state).2
  | .startAt mark kind, state =>
      { state with builder := state.builder.startAt mark kind }
  | .finish, state => { state with builder := state.builder.finish }

def Move.applyAll (moves : List Move) (state : State) : State :=
  moves.foldl (fun state move => move.apply state) state

namespace Machine

def ofTokens (tokens : List Token) (stop : Nat) : Machine :=
  { tokens, position := 0, builder := .empty, errors := [], stop }

def state (machine : Machine) : State :=
  { tokens := machine.tokens.drop machine.position
    atStart := machine.position = 0
    builder := machine.builder
    errors := machine.errors
    stop := machine.stop }

def index? (machine : Machine) (n : Nat) : Option Nat :=
  ((machine.tokens.zipIdx.drop machine.position).filter fun entry =>
    !entry.1.isTrivia)[n]?.map
    Prod.snd

def look? (machine : Machine) (n : Nat) : Option (Option Token) :=
  match machine.index? n with
  | some index => machine.tokens[index]?.map some
  | none => some none

def breaks? (machine : Machine) : Option Bool :=
  if machine.position ≤ machine.tokens.length then
    let ahead := machine.tokens.drop machine.position
    some
      (machine.position = 0 ||
        (ahead.takeWhile Token.isTrivia).any Token.breaksLine)
  else
    none

def move? (machine : Machine) : Move → Option Machine
  | .take =>
      match machine.tokens[machine.position]? with
      | some token =>
          some { machine with
            position := machine.position + 1
            builder := machine.builder.token token.kind token.text }
      | none => some machine
  | .report cause => do
      let next ← machine.look? 0
      let range := (next.map Token.range).getD (.ofSize machine.stop 0)
      return { machine with errors := { cause, range } :: machine.errors }
  | .startAt mark kind =>
      if machine.builder.accepts mark then
        some { machine with builder := machine.builder.startAt mark kind }
      else
        none
  | .finish =>
      match machine.builder.openNodes with
      | (_, first) :: _ =>
          if first ≤ machine.builder.trees.size then
            some { machine with builder := machine.builder.finish }
          else
            none
      | [] => none

def run? (machine : Machine) (moves : List Move) : Option Machine :=
  moves.foldlM move? machine

theorem map_filter_drop_zipIdx (tokens : List Token) (place : Nat) :
    ((tokens.zipIdx.drop place).filter fun entry => !entry.1.isTrivia).map
      Prod.fst = Token.significant (tokens.drop place) := by
  have hfirst : tokens.zipIdx.map Prod.fst = tokens :=
    List.zipIdx_map_fst 0 tokens
  have hfilter :=
    List.filter_map (f := Prod.fst) (p := fun token : Token => !token.isTrivia)
    (l := tokens.zipIdx.drop place)
  rw [List.map_drop, hfirst] at hfilter
  exact hfilter.symm

theorem look?_eq (machine : Machine) (n : Nat) :
    machine.look? n = some (nth? n machine.state.tokens) := by
  have htokens : nth? n machine.state.tokens =
      ((machine.tokens.zipIdx.drop machine.position).filter fun entry =>
        !entry.1.isTrivia)[n]?.map Prod.fst := by
    rw [Token.nth?_eq, ← List.getElem?_map, map_filter_drop_zipIdx]
    rfl
  rw [htokens, look?, index?]
  cases hentry :
      ((machine.tokens.zipIdx.drop machine.position).filter fun entry =>
      !entry.1.isTrivia)[n]? with
  | none => rfl
  | some entry =>
      have hmem : entry ∈ machine.tokens.zipIdx :=
        List.mem_of_mem_drop
          (List.mem_filter.mp (List.mem_of_getElem? hentry)).1
      have hindex := List.mem_zipIdx_iff_getElem?.mp hmem
      simp only [Option.map_some, hindex]

theorem breaks?_eq {machine : Machine}
    (hplace : machine.position ≤ machine.tokens.length) :
    machine.breaks? = some machine.state.afterBreak :=
  if_pos hplace

theorem errorRange_state (machine : Machine) : machine.state.errorRange =
    ((nth? 0 machine.state.tokens).map Token.range).getD
      (.ofSize machine.stop 0) := by
  rw [State.errorRange, State.current?]
  cases nth? 0 machine.state.tokens <;> rfl

/-- A machine goes on as the parser does, and does not leave its tokens. -/
structure Follows (machine : Machine) (parser : State → State)
    (next : Machine) : Prop where
  state : next.state = parser machine.state
  tokens : next.tokens = machine.tokens
  position : machine.position ≤ machine.tokens.length →
    next.position ≤ next.tokens.length

theorem follows_take {machine next : Machine}
    (hmove : machine.move? .take = some next) :
    machine.Follows Move.take.apply next := by
  rw [move?] at hmove
  split at hmove
  case h_1 token htoken =>
      cases hmove
      obtain ⟨hplace, rfl⟩ := List.getElem?_eq_some_iff.mp htoken
      have hahead : machine.state.tokens = _ := List.drop_eq_getElem_cons hplace
      refine ⟨?_, rfl, fun _ => hplace⟩
      rw [Move.apply, State.advance_of_cons hahead]
      rfl
  case h_2 hnone =>
      cases hmove
      have hahead : machine.state.tokens = [] :=
        List.drop_eq_nil_of_le (List.getElem?_eq_none_iff.mp hnone)
      exact ⟨by simp only [Move.apply, State.advance, hahead], rfl, id⟩

theorem follows_report {machine next : Machine} {cause : SyntaxError.Cause}
    (hmove : machine.move? (.report cause) = some next) :
    machine.Follows (Move.report cause).apply next := by
  obtain ⟨found, hfound, hnext⟩ := Option.bind_eq_some_iff.mp hmove
  rw [look?_eq] at hfound
  cases hfound
  cases hnext
  refine ⟨?_, rfl, id⟩
  rw [← errorRange_state]
  rfl

theorem follows_of_move? {machine next : Machine} {move : Move}
    (hmove : machine.move? move = some next) :
    machine.Follows move.apply next := by
  cases move with
  | take => exact follows_take hmove
  | report cause => exact follows_report hmove
  | startAt mark kind =>
      rw [move?] at hmove
      split at hmove
      case isTrue =>
          cases hmove
          exact ⟨rfl, rfl, id⟩
      case isFalse => cases hmove
  | finish =>
      rw [move?] at hmove
      split at hmove
      case h_1 =>
          split at hmove
          case isTrue =>
              cases hmove
              exact ⟨rfl, rfl, id⟩
          case isFalse => cases hmove
      case h_2 => cases hmove

theorem Follows.trans {first second third : Machine}
    {parser parser' : State → State} (hfirst : first.Follows parser second)
    (hsecond : second.Follows parser' third) :
    first.Follows (parser' ∘ parser) third where
  state := by rw [hsecond.state, hfirst.state, Function.comp_apply]
  tokens := hsecond.tokens.trans hfirst.tokens
  position hplace := hsecond.position (hfirst.position hplace)

theorem follows_of_run? {machine next : Machine} {moves : List Move}
    (hrun : machine.run? moves = some next) :
    machine.Follows (Move.applyAll moves) next := by
  induction moves generalizing machine with
  | nil =>
      cases hrun
      exact ⟨rfl, rfl, id⟩
  | cons move rest ih =>
      obtain ⟨second, hmove, hrest⟩ := Option.bind_eq_some_iff.mp hrun
      exact (follows_of_move? hmove).trans (ih hrest)

theorem run?_concat (machine : Machine) (moves : List Move) (move : Move) :
    machine.run? (moves ++ [move]) =
      (machine.run? moves).bind (move? · move) := by
  rw [run?, List.foldlM_append]
  exact Option.bind_congr fun next _ => bind_pure (next.move? move)

/-- A run without failures comes to a state, if the tree there has been built in
order. -/
def Reaches (machine : Machine) (state : State) : Prop :=
  state.builder.inOrder = true → ∃ moves next,
    machine.run? moves = some next ∧ next.state = state

theorem Reaches.move {machine : Machine} {state : State}
    (hreaches : machine.Reaches state) (move : Move)
    (horder : (move.apply state).builder.inOrder = true →
      state.builder.inOrder = true)
    (hmove : ∀ next : Machine,
      next.state = state → (move.apply state).builder.inOrder = true →
        (next.move? move).isSome = true) :
    machine.Reaches (move.apply state) := by
  intro hinOrder
  obtain ⟨moves, next, hrun, hstate⟩ := hreaches (horder hinOrder)
  obtain ⟨last, hlast⟩ :=
    Option.isSome_iff_exists.mp (hmove next hstate hinOrder)
  refine ⟨moves ++ [move], last, ?_, ?_⟩
  · rw [run?_concat, hrun, Option.bind_some, hlast]
  · rw [(follows_of_move? hlast).state, hstate]

theorem lasting_reaches (machine : Machine) : Lasting True machine.Reaches where
  advance {state token rest} hreaches htokens _ := by
    refine hreaches.move .take ?_ fun next _ _ => ?_
    · rw [Move.apply, State.advance_of_cons htokens]
      exact id
    · rw [move?]
      split <;> rfl
  report {state} hreaches cause :=
    hreaches.move (.report cause) id fun next _ _ => by
      rw [move?, look?_eq]
      rfl
  startAt {state} hreaches start kind _ := by
    refine hreaches.move (.startAt start kind) (fun hinOrder => ?_)
      fun next hstate hinOrder => ?_
    · exact (Bool.and_eq_true_iff.mp hinOrder).1
    · have haccepts : next.builder.accepts start = true := by
        have hbuilder : next.builder = state.builder :=
          congrArg State.builder hstate
        rw [hbuilder]
        exact (Bool.and_eq_true_iff.mp hinOrder).2
      rw [move?, if_pos haccepts]
      rfl
  finish {state kind start outer} hreaches _ hopen hle := by
    refine hreaches.move .finish (fun hinOrder => ?_) fun next hstate _ => ?_
    · exact (Builder.inOrder_finish hopen) ▸ hinOrder
    · have hbuilder : next.builder = state.builder :=
        congrArg State.builder hstate
      rw [move?, hbuilder, hopen]
      dsimp only
      rw [if_pos hle]
      rfl

end Machine

end Parser

namespace Grammar

open PklAnalysis.Parser

/-- The search for the arrow of a function literal from token number `n` on,
where `depth` parentheses are open and no more than `limit` tokens are looked
at. -/
def literalFrom? (peek? : Nat → Option Token.Kind) :
    Nat → Nat → Nat → Option Bool
  | 0, _, _ => some false
  | limit + 1, depth, n =>
      match peek? n with
      | none => literalFrom? peek? limit depth (n + 1)
      | some kind =>
          match kind with
          | .rightParen => do
              let outer ← Token.Bytewise.minus? depth 1
              if outer = 0 then return peek? (n + 1) = some .arrow
              else literalFrom? peek? limit outer (n + 1)
          | .leftParen => literalFrom? peek? limit (depth + 1) (n + 1)
          | .leftBrace | .rightBrace | .equal => some false
          | _ => literalFrom? peek? limit depth (n + 1)

theorem literalFrom?_of_none {peek? : Nat → Option Token.Kind} {n : Nat}
    (hnone : ∀ k, peek? (n + k) = none) (limit depth : Nat) :
    literalFrom? peek? limit depth n = some false := by
  induction limit generalizing n with
  | zero => rfl
  | succ limit ih =>
      have hhere : peek? n = none := hnone 0
      rw [literalFrom?, hhere]
      exact ih fun k => by rw [Nat.add_assoc]; exact hnone (1 + k)

/-- From an opening parenthesis on, the count never runs below zero. -/
theorem literalFrom?_eq {peek? : Nat → Option Token.Kind} {depth limit n : Nat}
    {tokens : List Token}
    (hpeek : ∀ k, peek? (n + k) = (nth? k tokens).map Token.kind)
    (hopen : depth = 0 → peek? n = some .leftParen) :
    literalFrom? peek? limit depth n =
      some (functionAhead depth limit tokens) := by
  induction tokens generalizing depth limit n with
  | nil => exact literalFrom?_of_none (fun k => by rw [hpeek]; rfl) limit depth
  | cons token rest ih =>
      cases htrivia : token.isTrivia with
      | true =>
          simp only [nth?, functionAhead, htrivia, if_true] at hpeek ⊢
          exact ih hpeek hopen
      | false =>
          have hhere : peek? n = some token.kind := by
            simpa [nth?, htrivia] using hpeek 0
          have hnext : ∀ k, peek? (n + 1 + k) = (nth? k rest).map Token.kind :=
            fun k => by
            rw [Nat.add_assoc, Nat.add_comm 1 k, hpeek]
            simp [nth?, htrivia]
          rw [hhere, Option.some.injEq] at hopen
          cases limit with
          | zero => simp [literalFrom?, functionAhead, htrivia]
          | succ limit =>
              simp only [literalFrom?, functionAhead, htrivia, hhere,
                Bool.false_eq_true, if_false]
              split
              case h_1 hkind =>
                  have hpositive : depth ≠ 0 := fun hzero => by
                    cases hkind.symm.trans (hopen hzero)
                  simp only [hkind, Token.Bytewise.minus?,
                    if_pos (Nat.one_le_iff_ne_zero.mpr hpositive),
                    Option.bind_eq_bind, Option.bind_some]
                  by_cases hlast : depth ≤ 1
                  · have harrow :
                        peek? (n + 1) = (nth? 0 rest).map Token.kind := hnext 0
                    rw [if_pos (Nat.sub_eq_zero_of_le hlast), if_pos hlast,
                      harrow]
                    cases nth? 0 rest <;> simp
                  · have houter : depth - 1 ≠ 0 := by omega
                    rw [if_neg houter, if_neg hlast]
                    exact ih hnext fun hzero => absurd hzero houter
              case h_2 hkind =>
                  simp only [hkind]
                  exact ih hnext fun hzero =>
                    absurd hzero (Nat.succ_ne_zero depth)
              case h_3 hkind | h_4 hkind | h_5 hkind => simp only [hkind]
              case h_6 _ hother _ _ _ =>
                  split
                  case h_6 =>
                      exact ih hnext fun hzero => absurd (hopen hzero) hother
                  all_goals contradiction

variable (call : Call)

def operandStartOr (failed : Parser (Option Node.Kind)) :
    Parser (Option Node.Kind) := do
  if ← at? .leftParen then
    match literalFrom? (← get).peek? functionLookahead 0 0 with
    | some true => built .functionLiteral (functionLiteral call)
    | some false => built .parenthesizedExpr (parenthesizedExpr call)
    | none => failed
  else
    operandStart call

/-- Parentheses are counted only from an opening one on, so the count does not
fail. -/
theorem operandStart_eq (failed : Parser (Option Node.Kind)) :
    operandStart call = operandStartOr call failed := by
  funext state
  have hrun : (operandStartOr call failed).run state =
      (if state.peek? 0 = some .leftParen then
        match literalFrom? state.peek? functionLookahead 0 0 with
        | some true => built .functionLiteral (functionLiteral call)
        | some false => built .parenthesizedExpr (parenthesizedExpr call)
        | none => failed
      else operandStart call).run state := by
    change (if decide (state.peek? 0 = some .leftParen) then _ else
      _ : Parser _).run state = _
    simp only [decide_eq_true_eq]
    split <;> rfl
  refine Eq.trans ?_ hrun.symm
  split
  case isTrue hparen =>
      have hpeek : ∀ k,
          state.peek? (0 + k) = (nth? k state.tokens).map Token.kind :=
        fun k => by
        rw [Nat.zero_add]
        rfl
      have hahead : atFunctionLiteral?.run state =
          (functionAhead 0 functionLookahead state.tokens, state) := rfl
      have hcurrent : current?.run state = (some .leftParen, state) := by
        rw [← hparen]; rfl
      change (operandStart call).run state = _
      rw [literalFrom?_eq hpeek fun _ => hparen, operandStart, run_bind,
        hcurrent]
      dsimp only
      rw [run_bind, hahead]
      cases functionAhead 0 functionLookahead state.tokens <;> rfl
  case isFalse => rfl

theorem reaches_finalState (tokens : List Token) (stop : Nat) :
    (Machine.ofTokens tokens stop).Reaches (finalState tokens stop) :=
  finalState_of_lasting (Machine.lasting_reaches _) fun _ => ⟨[], _, rfl, rfl⟩

/-- A parse is a run without failures, and the tree is what the run has
built. -/
theorem exists_run (tokens : List Token) (stop : Nat) : ∃ moves machine,
    (Machine.ofTokens tokens stop).run? moves = some machine ∧
      machine.state = finalState tokens stop ∧
      machine.builder.result? = some (parseTokens tokens stop).tree := by
  obtain ⟨-, hinOrder, hopen, children, htrees, -⟩ :=
    finalState_built tokens stop
  obtain ⟨moves, machine, hrun, hstate⟩ :=
    reaches_finalState tokens stop hinOrder
  have hbuilder : machine.builder = (finalState tokens stop).builder :=
    congrArg State.builder hstate
  refine ⟨moves, machine, hrun, hstate, ?_⟩
  rw [hbuilder, tree_parseTokens hinOrder hopen htrees]
  exact Builder.result?_eq_some hinOrder hopen htrees

end Grammar

end PklAnalysis

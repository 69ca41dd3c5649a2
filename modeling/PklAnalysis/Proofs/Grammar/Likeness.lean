import PklAnalysis.Proofs.Grammar.Similar

/-!
Relations between the states of two runs that outlast what parsers do with
states: a clause for each step that parsers are put together from. States that
agree but for trivia are alike, and so are equal states, also if they have a
property that every step preserves.
-/

namespace PklAnalysis.Parser

open Token (significant)

def State.Ready (state : State) : Prop :=
  ∀ token ∈ state.tokens.head?, token.isTrivia = false

theorem ready_skipTrivia (state : State) : (skipTrivia.run state).2.Ready := by
  intro token htoken
  rw [tokens_skipTrivia] at htoken
  obtain ⟨rest, hrest⟩ := List.head?_eq_some_iff.mp htoken
  exact Token.isTrivia_of_dropWhile hrest

/-- How the states of two runs are alike. Each run has a place, valid for
starting a node. -/
structure Likeness where
  rel : Nat → Nat → State → State → Prop
  /-- As long as fewer tokens are left, both runs see the same line breaks. -/
  size : Nat
  /-- Whether states stay alike when a token of no known kind is taken, or an
  error node is made. -/
  junk : Prop
  leaves_eq : ∀ {start start' state state'}, rel start start' state state' →
    (significant state.tokens).map Token.leaf =
      (significant state'.tokens).map Token.leaf
  afterBreak_eq : ∀ {start start' state state'}, rel start start' state state' →
    0 < state.count → state.count < size → state.afterBreak = state'.afterBreak
  skipTrivia : ∀ {start start'} {state state' : State},
    rel start start' state state' →
    state.builder.accepts start = true → state'.builder.accepts start' = true →
    rel start start' (skipTrivia.run state).2 (skipTrivia.run state').2
  advance : ∀ {start start'} {state state' : State} {token token' rest rest'},
    rel start start' state state' → state.builder.accepts start = true →
    state'.builder.accepts start' = true → state.tokens = token :: rest →
    state'.tokens = token' :: rest' → token.isTrivia = false →
    token'.isTrivia = false →
    (token.kind = .error → junk) → rel start start' state.advance state'.advance
  report : ∀ {start start' state state'}, rel start start' state state' →
    ∀ cause,
    rel start start' ((report cause).run state).2 ((report cause).run state').2
  startAt : ∀ {start start'} {state state' : State},
    rel start start' state state' →
    ∀ {kind : Node.Kind}, (kind = .error → junk) →
    rel start start' { state with builder := state.builder.startAt start kind }
      { state' with builder := state'.builder.startAt start' kind }
  finish : ∀ {start start'} {state state' : State} {kind outer outer'},
    rel start start' state state' → (kind = .error → junk) →
    state.builder.openNodes = (kind, start) :: outer →
    state'.builder.openNodes = (kind, start') :: outer' →
    start ≤ state.builder.trees.size → start' ≤ state'.builder.trees.size →
    rel start start' { state with builder := state.builder.finish }
      { state' with builder := state'.builder.finish }
  /-- Where the trivia before the next token have been taken, a node may be
  started. -/
  narrow : ∀ {start start'} {state state' : State},
    rel start start' state state' →
    state.Ready → state'.Ready →
    rel state.builder.mark state'.builder.mark state state'
  widen : ∀ {start start' place place'} {state state' inner inner' : State},
    rel start start' state state' → rel place place' inner inner' →
    start ≤ place →
    start' ≤ place' → place = state.builder.trees.size →
    place' = state'.builder.trees.size →
    state.Reads place inner → state'.Reads place' inner' →
    rel start start' inner inner'

namespace Likeness

variable {like : Likeness} {start start' : Nat} {state state' : State}

theorem count_eq (hlike : like.rel start start' state state') :
    state.count = state'.count :=
  State.count_eq_of_leaves (like.leaves_eq hlike)

theorem nth?_eq (hlike : like.rel start start' state state') (n : Nat) :
    (nth? n state.tokens).map Token.leaf =
      (nth? n state'.tokens).map Token.leaf := by
  rw [Token.nth?_eq, Token.nth?_eq, ← List.getElem?_map, ← List.getElem?_map,
    like.leaves_eq hlike]

theorem peek?_eq (hlike : like.rel start start' state state') :
    state.peek? = state'.peek? := by
  funext n
  have hkind := congrArg (Option.map Prod.fst) (nth?_eq hlike n)
  rwa [Option.map_map, Option.map_map] at hkind

theorem text_eq (hlike : like.rel start start' state state') :
    state.current?.map Token.text = state'.current?.map Token.text := by
  have htext := congrArg (Option.map Prod.snd) (nth?_eq hlike 0)
  rwa [Option.map_map, Option.map_map] at htext

def upToTrivia (inputs : Inputs) : Likeness where
  rel := Similar inputs
  size := inputs.left.size
  junk := True
  leaves_eq hsimilar := hsimilar.leaves_eq
  afterBreak_eq hsimilar := hsimilar.afterBreak_eq
  skipTrivia hsimilar := hsimilar.skipTrivia
  advance hsimilar haccepts haccepts' htokens htokens' htrivia htrivia' _ :=
    hsimilar.advance haccepts haccepts' htokens htokens' htrivia htrivia'
  report hsimilar := hsimilar.report
  startAt hsimilar kind _ := hsimilar.startAt kind
  finish hsimilar _ := hsimilar.finish
  narrow hsimilar _ _ := hsimilar.narrow
  widen hsimilar := hsimilar.widen

end Likeness

/-- A property of states that lasts whatever parsers do with states. -/
structure Lasting (junk : Prop) (holds : State → Prop) : Prop where
  advance : ∀ {state token rest}, holds state → state.tokens = token :: rest →
    (token.kind = .error → junk) → holds state.advance
  report : ∀ {state}, holds state → ∀ cause, holds ((report cause).run state).2
  startAt : ∀ {state : State}, holds state → ∀ {start} {kind : Node.Kind},
    (kind = .error → junk) →
    holds { state with builder := state.builder.startAt start kind }
  finish : ∀ {state : State} {kind start outer},
    holds state → (kind = .error → junk) →
    state.builder.openNodes = (kind, start) :: outer →
    start ≤ state.builder.trees.size →
    holds { state with builder := state.builder.finish }

theorem Lasting.of_true {junk : Prop} : Lasting junk fun _ => True :=
  ⟨fun _ _ _ => trivial, fun _ _ => trivial, fun _ _ _ _ => trivial,
    fun _ _ _ _ => trivial⟩

theorem Lasting.advanceBy {junk : Prop} {holds : State → Prop}
    (hlasting : Lasting junk holds) {state : State} {count : Nat}
    (hstate : holds state)
    (hplain : ∀ token ∈ state.tokens.take count, token.kind = .error → junk) :
    holds (state.advanceBy count) := by
  induction count generalizing state with
  | zero => exact hstate
  | succ count ih =>
      rw [State.advanceBy]
      cases htokens : state.tokens with
      | nil =>
          have hsame : state.advance = state := by
            simp only [State.advance, htokens]
          rw [hsame]
          exact ih hstate (by simp [htokens])
      | cons token rest =>
          rw [htokens, List.take_succ_cons, List.forall_mem_cons] at hplain
          refine ih (hlasting.advance hstate htokens hplain.1) ?_
          rw [(State.advance_eq htokens).1]
          exact hplain.2

theorem Lasting.skipTrivia {junk : Prop} {holds : State → Prop}
    (hlasting : Lasting junk holds) {state : State} (hstate : holds state) :
    holds (skipTrivia.run state).2 := by
  refine hlasting.advanceBy hstate fun token htoken herror => ?_
  rw [← List.prefix_iff_eq_take.mp (List.takeWhile_prefix _)] at htoken
  have htrivia := List.all_eq_true.mp List.all_takeWhile token htoken
  rw [Token.isTrivia, herror] at htrivia
  exact nomatch htrivia

namespace Likeness

def keeping (holds : State → Prop) (junk : Prop) (size : Nat)
    (hlasting : Lasting junk holds) :
    Likeness where
  rel start start' state state' := start = start' ∧ state = state' ∧ holds state
  size := size
  junk := junk
  leaves_eq := fun ⟨_, heq, _⟩ => by rw [heq]
  afterBreak_eq := fun ⟨_, heq, _⟩ _ _ => by rw [heq]
  skipTrivia :=
    fun ⟨hstart, heq, hstate⟩ _ _ =>
      ⟨hstart, by rw [heq], hlasting.skipTrivia hstate⟩
  advance := fun ⟨hstart, heq, hstate⟩ _ _ htokens _ _ _ hplain =>
    ⟨hstart, by rw [heq], hlasting.advance hstate htokens hplain⟩
  report :=
    fun ⟨hstart, heq, hstate⟩ cause =>
      ⟨hstart, by rw [heq], hlasting.report hstate cause⟩
  startAt := fun ⟨hstart, heq, hstate⟩ _ hplain =>
    ⟨hstart, by rw [heq, hstart], hlasting.startAt hstate hplain⟩
  finish := fun ⟨hstart, heq, hstate⟩ hplain hopen _ hle _ =>
    ⟨hstart, by rw [heq], hlasting.finish hstate hplain hopen hle⟩
  narrow := fun ⟨_, heq, hstate⟩ _ _ => ⟨by rw [heq], heq, hstate⟩
  widen :=
    fun ⟨hstart, _, _⟩ ⟨_, heq, hinner⟩ _ _ _ _ _ _ => ⟨hstart, heq, hinner⟩

def same (size : Nat) : Likeness :=
  keeping (fun _ => True) True size .of_true

theorem rel_same {size : Nat} : (same size).rel start start' state state' ↔
    start = start' ∧ state = state' :=
  ⟨fun ⟨hstart, heq, _⟩ => ⟨hstart, heq⟩,
    fun ⟨hstart, heq⟩ => ⟨hstart, heq, trivial⟩⟩

end Likeness

end PklAnalysis.Parser

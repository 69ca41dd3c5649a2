import Mathlib.Data.List.Forall2
import PklAnalysis.Proofs.Grammar.Trivia

/-!
The states of two runs of a parser over tokens that differ in trivia only.
-/

namespace PklAnalysis

theorem Builder.drop_mark (builder : Builder) :
    builder.trees.toList.drop builder.mark = [] :=
  List.drop_of_length_le (Nat.le_of_eq Array.length_toList)

namespace Parser

open Token (significant outline)

structure Input where
  tokens : List Token
  stop : Nat

namespace Input

def size (input : Input) : Nat :=
  (significant input.tokens).length

/-- The range of a token, numbered among those that are no trivia, or the end of
the text. -/
def rangeAt (input : Input) (place : Nat) : Range :=
  match (significant input.tokens)[place]? with
  | some token => token.range
  | none => .ofSize input.stop 0

end Input

def State.count (state : State) : Nat :=
  (significant state.tokens).length

structure State.Within (input : Input) (place : Nat) (state : State) :
    Prop where
  rest : significant state.tokens = (significant input.tokens).drop place
  stop : state.stop = input.stop
  started : 0 < place → state.atStart = false

namespace State

theorem count_eq_of_leaves {state state' : State}
    (hleaves : (significant state.tokens).map Token.leaf =
      (significant state'.tokens).map Token.leaf) :
    state.count = state'.count := by
  have hlength := congrArg List.length hleaves
  rwa [List.length_map, List.length_map] at hlength

theorem current?_eq_none_iff {state : State} :
    state.current? = none ↔ state.count = 0 := by
  rw [current?, Token.nth?_eq, List.getElem?_eq_none_iff, count]
  omega

theorem peek?_zero_eq_none_iff {state : State} :
    state.peek? 0 = none ↔ state.count = 0 := by
  rw [peek?, Option.map_eq_none_iff]
  exact current?_eq_none_iff

theorem count_pos_of_peek? {state : State} {kind : Token.Kind}
    (hpeek : state.peek? 0 = some kind) :
    0 < state.count := by
  refine Nat.pos_of_ne_zero fun hzero => ?_
  rw [peek?_zero_eq_none_iff.mpr hzero] at hpeek
  cases hpeek

theorem Within.errorRange {input : Input} {place : Nat} {state : State}
    (hwithin : state.Within input place) :
    state.errorRange = input.rangeAt place := by
  rw [State.errorRange, current?, Token.nth?_eq, hwithin.rest, hwithin.stop,
    List.getElem?_drop, Nat.add_zero]
  rfl

theorem Within.count_eq {input : Input} {place : Nat} {state : State}
    (hwithin : state.Within input place) :
    state.count = input.size - place := by
  rw [count, hwithin.rest, List.length_drop, Input.size]

theorem Reads.count_le {start : Nat} {before after : State}
    (hreads : before.Reads start after) :
    after.count ≤ before.count := by
  obtain ⟨read, htokens, -⟩ := hreads.consumed
  rw [count, count, htokens, significant, significant, List.filter_append,
    List.length_append]
  exact Nat.le_add_left _ _

/-! The parts of a state after tokens have moved. -/

theorem stop_advance (state : State) : state.advance.stop = state.stop := by
  cases htokens : state.tokens <;> simp [advance, htokens]

theorem errors_advance (state : State) :
    state.advance.errors = state.errors := by
  cases htokens : state.tokens <;> simp [advance, htokens]

theorem atStart_advance {state : State} (hstarted : state.atStart = false) :
    state.advance.atStart = false := by
  cases htokens : state.tokens <;> simp [advance, htokens, hstarted]

theorem advance_of_cons {state : State} {token : Token} {rest : List Token}
    (htokens : state.tokens = token :: rest) :
    state.advance =
      { state with
        tokens := rest
        atStart := false
        builder := state.builder.token token.kind token.text } := by
  simp only [advance, htokens]

theorem advance_eq {state : State} {token : Token} {rest : List Token}
    (htokens : state.tokens = token :: rest) :
    state.advance.tokens = rest ∧ state.advance.atStart = false ∧
      state.advance.builder.trees.toList =
        state.builder.trees.toList ++ [.token token.kind token.text] := by
  rw [advance_of_cons htokens]
  exact ⟨rfl, rfl, Array.toList_push⟩

theorem count_advance {state : State} {token : Token} {rest : List Token}
    (htokens : state.tokens = token :: rest)
    (htrivia : token.isTrivia = false) :
    state.advance.count + 1 = state.count := by
  rw [count, count, (advance_eq htokens).1, htokens,
    Token.significant_cons _ htrivia, List.length_cons]

theorem Within.of_tokens {input : Input} {place : Nat} {state after : State}
    (hwithin : state.Within input place) (htokens : after.tokens = state.tokens)
    (hstop : after.stop = state.stop)
    (hstarted : after.atStart = state.atStart) :
    after.Within input place :=
  ⟨htokens ▸ hwithin.rest, hstop ▸ hwithin.stop, hstarted ▸ hwithin.started⟩

theorem Within.advance {input : Input} {place : Nat} {state : State}
    {token : Token} {rest : List Token} (hwithin : state.Within input place)
    (htokens : state.tokens = token :: rest)
    (htrivia : token.isTrivia = false) :
    state.advance.Within input (place + 1) := by
  obtain ⟨hafter, hstarted, -⟩ := advance_eq htokens
  refine ⟨?_, (stop_advance state).trans hwithin.stop, fun _ => hstarted⟩
  have hrest := hwithin.rest
  rw [htokens, Token.significant_cons _ htrivia] at hrest
  rw [hafter, ← List.tail_drop, ← hrest, List.tail_cons]

theorem advanceBy_induction {motive : State → State → Prop}
    (hrefl : ∀ state, motive state state)
    (hstep : ∀ first last, motive first.advance last → motive first last)
    (state : State) (count : Nat) : motive state (state.advanceBy count) := by
  induction count generalizing state with
  | zero => exact hrefl state
  | succ count ih => exact hstep _ _ (ih state.advance)

end State

theorem stop_skipTrivia (state : State) :
    (skipTrivia.run state).2.stop = state.stop :=
  State.advanceBy_induction (motive := fun first last => last.stop = first.stop)
    (fun _ => rfl)
    (fun _ _ hstop => hstop.trans (State.stop_advance _)) state _

theorem errors_skipTrivia (state : State) :
    (skipTrivia.run state).2.errors = state.errors :=
  State.advanceBy_induction
    (motive := fun first last => last.errors = first.errors) (fun _ => rfl)
    (fun _ _ herrors => herrors.trans (State.errors_advance _)) state _

theorem atStart_skipTrivia {state : State} (hstarted : state.atStart = false) :
    (skipTrivia.run state).2.atStart = false :=
  State.advanceBy_induction
    (motive := fun first last => first.atStart = false → last.atStart = false)
      (fun _ hfirst => hfirst)
    (fun _ _ hlast hfirst => hlast (State.atStart_advance hfirst)) state _
      hstarted

theorem State.Reads.drop_eq {start place : Nat} {before after : State}
    (hreads : before.Reads place after) (hle : start ≤ place)
    (hplace : place = before.builder.trees.size) :
    after.builder.trees.toList.drop start =
      before.builder.trees.toList.drop start ++
        after.builder.trees.toList.drop place := by
  have hkept : after.builder.trees.toList.take place =
      before.builder.trees.toList := by
    rw [hreads.kept, hplace]
    exact List.take_of_length_le (by simp)
  have hlength : start ≤ before.builder.trees.toList.length := by
    rw [Array.length_toList]
    omega
  have hwhole := List.take_append_drop place after.builder.trees.toList
  rw [hkept] at hwhole
  rw [← List.drop_append_of_le_length hlength, hwhole]

theorem bareAll_advanceBy {start : Nat} {state : State}
    (hstart : start ≤ state.builder.trees.size) {count : Nat}
    (htrivia : ∀ token ∈ state.tokens.take count, token.isTrivia = true) :
    Tree.bareAll ((state.advanceBy count).builder.trees.toList.drop start) =
      Tree.bareAll (state.builder.trees.toList.drop start) := by
  induction count generalizing state with
  | zero => rfl
  | succ count ih =>
      rw [State.advanceBy]
      cases htokens : state.tokens with
      | nil =>
          have hsame : state.advance = state := by
            simp only [State.advance, htokens]
          rw [hsame]
          exact ih hstart (by simp [htokens])
      | cons token rest =>
          rw [htokens, List.take_succ_cons, List.forall_mem_cons] at htrivia
          rw [State.advance_of_cons htokens, ih]
          · have htree : (Tree.token token.kind token.text).isTrivia = true :=
              htrivia.1
            rw [Builder.token, Array.toList_push,
              List.drop_append_of_le_length (by simpa using hstart),
              Tree.bareAll_append, Tree.bareAll_of_isTrivia htree,
              List.append_nil]
          · rw [Builder.token, Array.size_push]
            exact Nat.le_succ_of_le hstart
          · exact htrivia.2

theorem bareAll_skipTrivia {start : Nat} {state : State}
    (hstart : start ≤ state.builder.trees.size) :
    Tree.bareAll ((skipTrivia.run state).2.builder.trees.toList.drop start) =
      Tree.bareAll (state.builder.trees.toList.drop start) := by
  refine bareAll_advanceBy hstart fun token htoken => ?_
  rw [← List.prefix_iff_eq_take.mp (List.takeWhile_prefix _)] at htoken
  exact List.all_eq_true.mp List.all_takeWhile token htoken

structure Inputs where
  left : Input
  right : Input

/-- The same cause at the same token, trivia not counted. -/
def Inputs.SameError (inputs : Inputs) (error error' : SyntaxError) : Prop :=
  error.cause = error'.cause ∧ ∃ place,
    error.range = inputs.left.rangeAt place ∧
      error'.range = inputs.right.rangeAt place

def Inputs.atStart (inputs : Inputs) (state : State) : Bool :=
  decide (inputs.left.size ≤ state.count)

/-- The states of two runs agree but for trivia. Of what has been built, this
compares the trees after the places `start` and `start'`. As long as no token
has been consumed, the next one starts a line in either run. -/
structure Similar (inputs : Inputs) (start start' : Nat)
    (state state' : State) : Prop where
  place : ∃ place,
    state.Within inputs.left place ∧ state'.Within inputs.right place
  outline : outline (inputs.atStart state) state.tokens =
    outline (inputs.atStart state) state'.tokens
  trees : Tree.bareAll (state.builder.trees.toList.drop start) =
    Tree.bareAll (state'.builder.trees.toList.drop start')
  errors : List.Forall₂ inputs.SameError state.errors state'.errors

namespace Similar

variable {inputs : Inputs} {start start' : Nat} {state state' : State}

theorem leaves_eq (hsimilar : Similar inputs start start' state state') :
    (significant state.tokens).map Token.leaf =
      (significant state'.tokens).map Token.leaf := by
  rw [← Token.map_snd_outline (inputs.atStart state), hsimilar.outline,
    Token.map_snd_outline]

theorem count_eq (hsimilar : Similar inputs start start' state state') :
    state.count = state'.count :=
  State.count_eq_of_leaves hsimilar.leaves_eq

/-- Once a token has been consumed, and as long as there is one left, the same
tokens start a line. -/
theorem afterBreak_eq (hsimilar : Similar inputs start start' state state')
    (hpos : 0 < state.count) (hlt : state.count < inputs.left.size) :
    state.afterBreak = state'.afterBreak := by
  obtain ⟨place, hwithin, hwithin'⟩ := hsimilar.place
  have hplace : 0 < place := by
    rw [hwithin.count_eq] at hlt
    omega
  rw [State.afterBreak, State.afterBreak, hwithin.started hplace,
    hwithin'.started hplace]
  have hpos' : 0 < state'.count := hsimilar.count_eq ▸ hpos
  obtain ⟨token, rest, hrest⟩ : ∃ token rest,
      state.tokens.dropWhile Token.isTrivia = token :: rest := by
    refine List.exists_cons_of_ne_nil fun hnil => ?_
    simp [State.count, Token.significant_eq_nil_iff.mpr hnil] at hpos
  obtain ⟨token', rest', hrest'⟩ : ∃ token rest,
      state'.tokens.dropWhile Token.isTrivia = token :: rest := by
    refine List.exists_cons_of_ne_nil fun hnil => ?_
    simp [State.count, Token.significant_eq_nil_iff.mpr hnil] at hpos'
  have houtline := hsimilar.outline
  rw [Inputs.atStart, decide_eq_false (Nat.not_le_of_lt hlt),
    Token.outline_of_dropWhile_cons false hrest,
    Token.outline_of_dropWhile_cons false hrest']
    at houtline
  exact (Prod.mk.inj (List.cons.inj houtline).1).1

theorem skipTrivia (hsimilar : Similar inputs start start' state state')
    (haccepts : state.builder.accepts start = true)
    (haccepts' : state'.builder.accepts start' = true) :
    Similar inputs start start' (skipTrivia.run state).2
      (skipTrivia.run state').2 := by
  obtain ⟨place, hwithin, hwithin'⟩ := hsimilar.place
  have hskip : ∀ {input : Input} {state : State}, state.Within input place →
      (Parser.skipTrivia.run state).2.Within input place := by
    intro input state hwithin
    refine ⟨?_, ?_, fun hplace => atStart_skipTrivia (hwithin.started hplace)⟩
    · rw [tokens_skipTrivia, Token.significant_dropWhile, hwithin.rest]
    · rw [stop_skipTrivia, hwithin.stop]
  refine ⟨⟨place, hskip hwithin, hskip hwithin'⟩, ?_, ?_, ?_⟩
  · rw [tokens_skipTrivia, tokens_skipTrivia]
    exact Token.outline_dropWhile hsimilar.outline _
  · rw [bareAll_skipTrivia (Builder.accepts_iff.mp haccepts).2,
      bareAll_skipTrivia (Builder.accepts_iff.mp haccepts').2, hsimilar.trees]
  · rw [errors_skipTrivia, errors_skipTrivia]
    exact hsimilar.errors

theorem advance (hsimilar : Similar inputs start start' state state')
    (haccepts : state.builder.accepts start = true)
    (haccepts' : state'.builder.accepts start' = true) {token token' : Token}
    {rest rest' : List Token} (htokens : state.tokens = token :: rest)
    (htokens' : state'.tokens = token' :: rest')
    (htrivia : token.isTrivia = false) (htrivia' : token'.isTrivia = false) :
    Similar inputs start start' state.advance state'.advance := by
  have hle := (Builder.accepts_iff.mp haccepts).2
  have hle' := (Builder.accepts_iff.mp haccepts').2
  have houtline := hsimilar.outline
  obtain ⟨place, hwithin, hwithin'⟩ := hsimilar.place
  obtain ⟨hrest, hstarted, hadded⟩ := State.advance_eq htokens
  obtain ⟨hrest', hstarted', hadded'⟩ := State.advance_eq htokens'
  simp only [htokens, htokens', Token.outline, htrivia, htrivia',
    Bool.false_eq_true, if_false, List.cons.injEq, Prod.mk.injEq, true_and]
    at houtline
  obtain ⟨hleaf, houtline⟩ := houtline
  have hspent := State.count_advance htokens htrivia
  have hlater : inputs.atStart state.advance = false := by
    have hcount := hwithin.count_eq
    exact decide_eq_false (by omega)
  refine ⟨⟨place + 1, ?_, ?_⟩, ?_, ?_, ?_⟩
  · exact hwithin.advance htokens htrivia
  · exact hwithin'.advance htokens' htrivia'
  · rw [hlater, hrest, hrest', houtline]
  · have hsame : Tree.token token.kind token.text =
        .token token'.kind token'.text :=
      congrArg (fun leaf : Token.Kind × String => Tree.token leaf.1 leaf.2)
        hleaf
    rw [hadded, hadded', List.drop_append_of_le_length (by simpa using hle),
      List.drop_append_of_le_length (by simpa using hle'), Tree.bareAll_append,
      Tree.bareAll_append, hsimilar.trees, hsame]
  · rw [State.errors_advance, State.errors_advance]
    exact hsimilar.errors

theorem report (hsimilar : Similar inputs start start' state state')
    (cause : SyntaxError.Cause) :
    Similar inputs start start' ((report cause).run state).2
      ((report cause).run state').2 := by
  obtain ⟨place, hwithin, hwithin'⟩ := hsimilar.place
  refine ⟨⟨place, hwithin.of_tokens rfl rfl rfl,
    hwithin'.of_tokens rfl rfl rfl⟩, hsimilar.outline, hsimilar.trees, ?_⟩
  exact .cons ⟨rfl, place, hwithin.errorRange, hwithin'.errorRange⟩
    hsimilar.errors

theorem startAt (hsimilar : Similar inputs start start' state state')
    (kind : Node.Kind) :
    Similar inputs start start'
      { state with builder := state.builder.startAt start kind }
      { state' with builder := state'.builder.startAt start' kind } := by
  obtain ⟨place, hwithin, hwithin'⟩ := hsimilar.place
  exact ⟨⟨place, hwithin.of_tokens rfl rfl rfl, hwithin'.of_tokens rfl rfl rfl⟩,
    hsimilar.outline, hsimilar.trees, hsimilar.errors⟩

theorem finish {kind : Node.Kind} {outer outer' : List (Node.Kind × Nat)}
    (hsimilar : Similar inputs start start' state state')
    (hopen : state.builder.openNodes = (kind, start) :: outer)
    (hopen' : state'.builder.openNodes = (kind, start') :: outer')
    (hstart : start ≤ state.builder.trees.size)
    (hstart' : start' ≤ state'.builder.trees.size) :
    Similar inputs start start' { state with builder := state.builder.finish }
      { state' with builder := state'.builder.finish } := by
  obtain ⟨place, hwithin, hwithin'⟩ := hsimilar.place
  refine ⟨⟨place, hwithin.of_tokens rfl rfl rfl,
    hwithin'.of_tokens rfl rfl rfl⟩, hsimilar.outline, ?_, hsimilar.errors⟩
  rw [Builder.drop_trees_finish hopen hstart,
    Builder.drop_trees_finish hopen' hstart', Tree.bareAll_node,
    Tree.bareAll_node, hsimilar.trees]

theorem narrow (hsimilar : Similar inputs start start' state state') :
    Similar inputs state.builder.mark state'.builder.mark state state' := by
  refine ⟨hsimilar.place, hsimilar.outline, ?_, hsimilar.errors⟩
  rw [Builder.drop_mark, Builder.drop_mark]

/-- What is built after a later place may differ in trivia, and what was built
before it may not have changed. -/
theorem widen {place place' : Nat} {inner inner' : State}
    (hsimilar : Similar inputs start start' state state')
    (hinner : Similar inputs place place' inner inner') (hle : start ≤ place)
    (hle' : start' ≤ place') (hplace : place = state.builder.trees.size)
    (hplace' : place' = state'.builder.trees.size)
    (hreads : state.Reads place inner) (hreads' : state'.Reads place' inner') :
    Similar inputs start start' inner inner' := by
  refine ⟨hinner.place, hinner.outline, ?_, hinner.errors⟩
  rw [hreads.drop_eq hle hplace, hreads'.drop_eq hle' hplace',
    Tree.bareAll_append, Tree.bareAll_append, hsimilar.trees, hinner.trees]

end Similar

end Parser

end PklAnalysis

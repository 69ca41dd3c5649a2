import PklAnalysis.Proofs.Grammar.Tidy
import PklAnalysis.Proofs.Grammar.Unrolling

/-!
Error nodes: recovery sets tokens aside and nothing else, it sets aside what an
error has been reported for, and no token that the lexer does not know gets into
the tree in any other way.
-/

namespace PklAnalysis

namespace Parser

def Reported (tokens : List Token) (errors : List SyntaxError) (place : Nat) :
    Prop :=
  ∃ error ∈ errors, ∃ token,
    tokens[place]? = some token ∧ error.range = token.range

/-- The tree under construction holds the tokens read so far, and is tidy. -/
structure State.Tidy (tokens : List Token) (state : State) : Prop where
  read : ∃ read,
    tokens = read ++ state.tokens ∧ state.builder.leaves = read.map Token.leaf
  trees : Tree.TidyAll (Reported tokens state.errors) 0
    state.builder.trees.toList

variable {tokens : List Token} {start : Nat}

theorem lasting_tidy : Lasting False (State.Tidy tokens) where
  advance {state token rest} htidy htokens hknown := by
    obtain ⟨⟨read, hread, hleaves⟩, htrees⟩ := htidy
    rw [State.advance_of_cons htokens]
    refine ⟨⟨read ++ [token], ?_, ?_⟩, ?_⟩
    · rw [hread, htokens, List.append_assoc, List.singleton_append]
    · rw [Builder.leaves_token, hleaves, List.map_append, List.map_singleton,
        Token.leaf]
    · simp only [Builder.token, Array.toList_push]
      exact Tree.tidyAll_append.mpr ⟨htrees,
        Tree.tidyAll_singleton.mpr (.token hknown)⟩
  report {state} htidy cause := by
    refine ⟨htidy.read, htidy.trees.mono ?_⟩
    rintro place ⟨error, herror, hat⟩
    exact ⟨error, List.mem_cons_of_mem _ herror, hat⟩
  startAt htidy _ _ _ := ⟨htidy.read, htidy.trees⟩
  finish {state kind start outer} htidy hkind hopen _ := by
    obtain ⟨⟨read, hread, hleaves⟩, htrees⟩ := htidy
    refine ⟨⟨read, hread, (Builder.leaves_finish hopen).trans hleaves⟩, ?_⟩
    rw [← List.take_append_drop start state.builder.trees.toList,
      Tree.tidyAll_append] at htrees
    rw [Builder.toList_trees_finish hopen, Tree.tidyAll_append,
      Tree.tidyAll_singleton]
    exact ⟨htrees.1, .node hkind htrees.2⟩

/-- The second state is reached from the first by moving tokens into the tree as
they are. -/
structure State.Copies (before after : State) : Prop where
  copied : ∃ read, before.tokens = read ++ after.tokens ∧
    after.builder.trees.toList =
    before.builder.trees.toList ++ read.map fun token =>
      .token token.kind token.text
  openNodes : after.builder.openNodes = before.builder.openNodes
  errors : after.errors = before.errors

namespace State.Copies

theorem refl (state : State) : state.Copies state :=
  ⟨⟨[], rfl, (List.append_nil _).symm⟩, rfl, rfl⟩

theorem trans {first second third : State} (hleft : first.Copies second)
    (hright : second.Copies third) : first.Copies third := by
  obtain ⟨⟨left, htokens, htrees⟩, hopen, herrors⟩ := hleft
  obtain ⟨⟨right, htokens', htrees'⟩, hopen', herrors'⟩ := hright
  refine ⟨⟨left ++ right, ?_, ?_⟩, hopen'.trans hopen, herrors'.trans herrors⟩
  · rw [htokens, htokens', List.append_assoc]
  · rw [htrees', htrees, List.map_append, List.append_assoc]

theorem advance (state : State) : state.Copies state.advance := by
  cases htokens : state.tokens with
  | nil =>
      have hsame : state.advance = state := by
        simp only [State.advance, htokens]
      rw [hsame]
      exact refl state
  | cons token rest =>
      refine ⟨⟨[token], ?_, (State.advance_eq htokens).2.2⟩, ?_,
        State.errors_advance state⟩
      · rw [htokens, (State.advance_eq htokens).1, List.singleton_append]
      · rw [State.advance_of_cons htokens]
        rfl

theorem skipTrivia (state : State) : state.Copies (skipTrivia.run state).2 :=
  State.advanceBy_induction (motive := State.Copies) refl
    (fun first _ hlast => (advance first).trans hlast) state _

theorem take (state : State) : state.Copies (take.run state).2 :=
  (skipTrivia state).trans (advance _)

end State.Copies

theorem nextStray_run (kinds : List Token.Kind) (state : State) :
    (nextStray kinds).run state =
      if stopped kinds state then (false, state) else
        (true, (take.run state).2) := by
  have hrun : (nextStray kinds).run state =
      (if stopped kinds state then pure false else do take; return true).run
        state := rfl
  rw [hrun]
  split <;> rfl

theorem copies_iterate (kinds : List Token.Kind) (limit : Nat) (state : State) :
    state.Copies ((iterate (once (nextStray kinds)) limit ()).run state).2 := by
  induction limit generalizing state with
  | zero => exact .refl state
  | succ limit ih =>
      rw [iterate, run_bind, run_once, nextStray_run]
      cases stopped kinds state with
      | true => exact .refl state
      | false => exact (State.Copies.take state).trans (ih _)

theorem takeUntil_run {kinds : List Token.Kind} {state : State}
    (hstopped : stopped kinds state = false) : (takeUntil kinds).run state =
      (iterate (once (nextStray kinds)) state.tokens.length ()).run
        (take.run state).2 := by
  have hturn : (nextStray kinds).run state = (true, (take.run state).2) := by
    rw [nextStray_run, hstopped]
    rfl
  exact run_repeatWhile_of_true hturn

theorem tidy_aside {state inner : State} {token : Token} {rest : List Token}
    (htidy : state.Tidy tokens) (htokens : state.tokens = token :: rest)
    (htrivia : token.isTrivia = false)
    (hreported : ∃ error ∈ state.errors, error.range = token.range)
    (hcopies : State.Copies { state with builder := state.builder.start .error }
      inner)
    (hshorter : inner.tokens.length < state.tokens.length) :
    State.Tidy tokens { inner with builder := inner.builder.finish } := by
  obtain ⟨⟨before, hbefore, hleaves⟩, htrees⟩ := htidy
  obtain ⟨⟨read, hread, hadded⟩, hopen, herrors⟩ := hcopies
  have hread : state.tokens = read ++ inner.tokens := hread
  have hadded : inner.builder.trees.toList = state.builder.trees.toList ++
      read.map fun token => .token token.kind token.text := hadded
  have hopen : inner.builder.openNodes =
      (.error, state.builder.trees.size) :: state.builder.openNodes := hopen
  have herrors : inner.errors = state.errors := herrors
  obtain ⟨others, rfl⟩ : ∃ others, read = token :: others := by
    cases read with
    | nil =>
        rw [hread, List.nil_append] at hshorter
        exact absurd hshorter (Nat.lt_irrefl _)
    | cons head others =>
        rw [htokens, List.cons_append] at hread
        exact ⟨others, congrArg (· :: others) (List.cons.inj hread).1.symm⟩
  have hsize : state.builder.trees.size = state.builder.trees.toList.length :=
    Array.length_toList.symm
  have hfinished : inner.builder.finish.trees.toList =
      state.builder.trees.toList ++
      [.node .error ((token :: others).map fun token =>
        .token token.kind token.text)] := by
    rw [Builder.toList_trees_finish hopen, hadded, hsize, List.take_left,
      List.drop_left]
  refine ⟨⟨before ++ token :: others, ?_, ?_⟩, ?_⟩
  · rw [hbefore, hread, List.append_assoc]
  · rw [Builder.leaves_finish hopen, Builder.leaves, hadded,
      Tree.leavesAll_append, Tree.leavesAll_map_token, List.map_append,
      ← hleaves]
    rfl
  · have hplace : (Tree.leavesAll state.builder.trees.toList).length =
        before.length := by
      rw [← Builder.leaves, hleaves, List.length_map]
    rw [hfinished, herrors]
    refine Tree.tidyAll_append.mpr ⟨htrees, Tree.tidyAll_singleton.mpr ?_⟩
    rw [Nat.zero_add, hplace]
    obtain ⟨error, herror, hrange⟩ := hreported
    refine .stray ⟨error, herror, token, ?_, hrange⟩ ⟨?_, ?_⟩
    · rw [hbefore, htokens, List.getElem?_append_right (Nat.le_refl _),
        Nat.sub_self]
      rfl
    · intro child hchild
      obtain ⟨token, -, rfl⟩ := List.mem_map.mp hchild
      exact ⟨token.kind, token.text, rfl⟩
    · exact ⟨token.kind, token.text, _, rfl, htrivia⟩

def State.aside (cause : SyntaxError.Cause) (state : State) : State :=
  let skipped := (skipTrivia.run ((report cause).run state).2).2
  { skipped with builder := skipped.builder.start .error }

theorem State.tokens_aside (cause : SyntaxError.Cause) (state : State) :
    (state.aside cause).tokens = state.tokens.dropWhile Token.isTrivia :=
  tokens_skipTrivia ((report cause).run state).2

theorem stopped_aside {kinds : List Token.Kind} {state : State}
    (cause : SyntaxError.Cause) (hstopped : stopped kinds state = false) :
    stopped kinds (state.aside cause) = false := by
  have hskipped : stopped kinds (state.aside cause) =
      stopped kinds (skipTrivia.run ((report cause).run state).2).2 := rfl
  obtain ⟨hpeek, hbreak⟩ := Bool.or_eq_false_iff.mp hstopped
  obtain ⟨hstarted, -⟩ := Bool.or_eq_false_iff.mp hbreak
  have hreported : ((report cause).run state).2.atStart = false := hstarted
  rw [hskipped, stopped, State.afterBreak, peek?_skipTrivia,
    Grammar.takeWhile_skipTrivia, atStart_skipTrivia hreported]
  exact Bool.or_eq_false_iff.mpr ⟨hpeek, rfl⟩

theorem tidy_node_error {cause : SyntaxError.Cause} {body : Parser Unit}
    {state : State} (htidy : state.Tidy tokens)
    (hsome : View.something state.peek?)
    (hcopies : (state.aside cause).Copies (body.run (state.aside cause)).2)
    (hshorter : (body.run (state.aside cause)).2.tokens.length <
      (state.aside cause).tokens.length) :
    State.Tidy tokens
      ((node .error body).run ((report cause).run state).2).2 := by
  obtain ⟨token, rest, hrest⟩ := exists_cons_of_something hsome
  have htokens := State.tokens_aside cause state
  have hskipped :
      State.Tidy tokens (skipTrivia.run ((report cause).run state).2).2 :=
    lasting_tidy.skipTrivia (lasting_tidy.report htidy cause)
  have hreported :
      ∃ error ∈ (skipTrivia.run ((report cause).run state).2).2.errors,
      error.range = token.range := by
    rw [errors_skipTrivia]
    refine ⟨_, List.mem_cons_self, ?_⟩
    rw [State.errorRange, State.current?, nth?_zero, hrest]
    rfl
  exact tidy_aside hskipped (htokens.trans hrest)
    (Token.isTrivia_of_dropWhile hrest) hreported hcopies
    hshorter

theorem length_take_lt {state : State} {token : Token} {rest : List Token}
    (htokens : state.tokens = token :: rest) :
    (take.run state).2.tokens.length < state.tokens.length := by
  have hsuffix :=
    (List.dropWhile_suffix Token.isTrivia (l := state.tokens)).length_le
  rw [tokens_take, List.length_tail]
  rw [htokens, List.length_cons] at hsuffix ⊢
  omega

theorem State.Copies.length_le {before after : State}
    (hcopies : before.Copies after) :
    after.tokens.length ≤ before.tokens.length := by
  obtain ⟨⟨read, htokens, -⟩, -, -⟩ := hcopies
  rw [htokens, List.length_append]
  exact Nat.le_add_left _ _

theorem tidy_recover {state : State} (htidy : state.Tidy tokens)
    (cause : SyntaxError.Cause) (kinds : List Token.Kind) :
    State.Tidy tokens ((recover cause kinds).run state).2 := by
  rw [run_recover]
  cases hpeek : state.peek? 0 with
  | none => exact lasting_tidy.report htidy cause
  | some kind =>
      have hsome : View.something state.peek? := View.something_of_eq hpeek
      obtain ⟨token, rest, hrest⟩ := exists_cons_of_something hsome
      have hlater := copies_iterate kinds
        ((take.run (state.aside cause)).2.tokens.length + 1)
          (take.run (state.aside cause)).2
      refine tidy_node_error htidy hsome ((State.Copies.take _).trans hlater) ?_
      exact Nat.lt_of_le_of_lt hlater.length_le
        (length_take_lt ((State.tokens_aside cause state).trans hrest))

theorem tidy_strays {state : State} (htidy : state.Tidy tokens)
    (cause : SyntaxError.Cause) {kinds : List Token.Kind}
    (hstopped : stopped kinds state = false) :
    State.Tidy tokens
      ((node .error (takeUntil kinds)).run ((report cause).run state).2).2 := by
  have hsome := something_of_not_stopped hstopped
  obtain ⟨token, rest, hrest⟩ := exists_cons_of_something hsome
  have hrun := takeUntil_run (stopped_aside cause hstopped)
  have hlater := copies_iterate kinds (state.aside cause).tokens.length
    (take.run (state.aside cause)).2
  refine tidy_node_error htidy hsome ?_ ?_
  · rw [hrun]
    exact (State.Copies.take _).trans hlater
  · rw [hrun]
    exact Nat.lt_of_le_of_lt hlater.length_le
      (length_take_lt ((State.tokens_aside cause state).trans hrest))

/-! Runs that keep the tree tidy. -/

/-- What goes the same way from equal states, from tidy ones if it keeps them
so. -/
theorem twin_keeping {holds : State → Prop} {junk : Prop} {size bound : Nat}
    {hlasting : Lasting junk holds} {ahead : View} {spends : α → Prop}
    {start' : Nat} {parser : Parser α}
    (htwin : Twin (.same size) ahead bound spends start start' parser parser)
    (hholds : ∀ state, holds state → holds (parser.run state).2) :
    Twin (.keeping holds junk size hlasting) ahead bound spends start start'
      parser parser := by
  refine ⟨htwin.keeps, htwin.keeps', ?_⟩
  rintro state state' haccepts haccepts' ⟨hstart, hstate, hheld⟩ hsees hcount
  obtain ⟨hvalue, ⟨-, hafter, -⟩, hspent⟩ :=
    htwin.same state state' haccepts haccepts' ⟨hstart, hstate, trivial⟩
      hsees hcount
  exact ⟨hvalue, ⟨hstart, hafter, hholds state hheld⟩, hspent⟩

theorem tidy_accept {kind : Token.Kind} (hknown : kind ≠ .error) {state : State}
    (htidy : state.Tidy tokens) :
    State.Tidy tokens ((accept kind).run state).2 := by
  rw [run_accept]
  split
  case isTrue hpeek =>
      obtain ⟨token, rest, hrest⟩ :=
        exists_cons_of_something (View.something_of_eq hpeek)
      have hkind : token.kind = kind := by
        rw [State.peek?, nth?_zero, hrest] at hpeek
        exact Option.some.inj hpeek
      rw [← tokens_skipTrivia] at hrest
      exact lasting_tidy.advance (lasting_tidy.skipTrivia htidy) hrest
          fun herror =>
        absurd (hkind ▸ herror) hknown
  case isFalse => exact htidy

theorem tidy_close {closer : Token.Kind} (hknown : closer ≠ .error)
    {state : State} (htidy : state.Tidy tokens) :
    State.Tidy tokens ((close closer).run state).2 := by
  rw [run_close]
  cases hstopped : stopped (closer :: closers) state with
  | true => exact tidy_accept hknown htidy
  | false =>
      exact tidy_accept hknown (tidy_strays htidy .unexpectedToken hstopped)

def Likeness.tidy (tokens : List Token) (size : Nat) : Likeness :=
  .keeping (State.Tidy tokens) False size lasting_tidy

theorem covers_tidy {size bound : Nat} (hbound : bound ≤ size) :
    (Likeness.tidy tokens size).Covers bound where
  le := hbound
  recover cause kinds :=
    twin_keeping (twin_recover_of_junk trivial hbound cause kinds)
    fun _ htidy => tidy_recover htidy cause kinds
  close closer hknown :=
    twin_keeping (twin_close_of_junk trivial hbound closer hknown)
    fun _ htidy => tidy_close hknown htidy

end Parser

namespace Grammar

open PklAnalysis.Parser

theorem tidy_finalState (tokens : List Token) (stop : Nat) :
    (finalState tokens stop).Tidy tokens := by
  let like := Likeness.tidy tokens (State.ofTokens tokens stop).count
  have hstart : (State.ofTokens tokens stop).Tidy tokens :=
    ⟨⟨[], rfl, rfl⟩, .nil⟩
  have hrel : like.rel 0 0 (finalState tokens stop) (finalState tokens stop) :=
    rel_finalState (fun _ hle => covers_tidy hle) rfl ⟨rfl, rfl, hstart⟩
  exact hrel.2.2

theorem tidy_parseTokens (tokens : List Token) (stop : Nat) :
    (parseTokens tokens stop).tree.Tidy
      (Reported tokens (parseTokens tokens stop).errors) 0 := by
  obtain ⟨-, hinOrder, hopen, children, htrees, -⟩ :=
    finalState_built tokens stop
  obtain ⟨-, htidy⟩ := tidy_finalState tokens stop
  rw [htrees, Tree.tidyAll_singleton] at htidy
  rw [tree_parseTokens hinOrder hopen htrees, errors_parseTokens]
  refine htidy.mono ?_
  exact fun place ⟨error, herror, hat⟩ =>
    ⟨error, List.mem_reverse.mpr herror, hat⟩

/-- A listed tree, if it is an error node, holds stray tokens only and starts
where one of the errors does, and if it is another node, no token of no known
kind is among its children. -/
def Accounted (errors : List SyntaxError) (row : Tree.Row) : Prop :=
  ∀ kind children, row.tree = .node kind children →
    if kind = .error then
      Tree.Stray children ∧ ∃ error ∈ errors, error.range.start = row.offset
    else
      ∀ text, Tree.token .error text ∉ children

theorem leaves_parseTokens (tokens : List Token) (stop : Nat) :
    (parseTokens tokens stop).tree.leaves = tokens.map Token.leaf := by
  obtain ⟨-, hinOrder, hopen, children, htrees, hleaves⟩ :=
    finalState_built tokens stop
  rw [tree_parseTokens hinOrder hopen htrees, Tree.leaves, hleaves]

theorem keeps_rows {tokens : List Token} {stop : Nat} {row : Tree.Row}
    (hrow : row ∈ (parseTokens tokens stop).tree.rows 0 0) :
    row.Keeps (Reported tokens (parseTokens tokens stop).errors)
      (tokens.map Token.leaf) := by
  have hkeeps := (tidy_parseTokens tokens stop).rows [] [] rfl row hrow
  rwa [List.nil_append, List.append_nil, leaves_parseTokens] at hkeeps

theorem accounted_rows {tokens : List Token} {stop : Nat}
    (hcontiguous : Token.Contiguous 0 tokens) {row : Tree.Row}
    (hrow : row ∈ (parseTokens tokens stop).tree.rows 0 0) :
    Accounted (parseTokens tokens stop).errors row := by
  intro kind children hnode
  rcases keeps_rows hrow with ⟨place, htidy, hoffset⟩ | ⟨-, kind', text, htoken⟩
  · rw [hnode] at htidy
    cases htidy with
    | stray hreported hstray =>
        rw [if_pos rfl]
        obtain ⟨error, herror, token, htoken, hrange⟩ := hreported
        refine ⟨hstray, error, herror, ?_⟩
        rw [hrange, hoffset]
        exact (hcontiguous.offset_eq htoken).trans (Nat.zero_add _)
    | node hkind hchildren =>
        rw [if_neg hkind]
        intro text hmem
        obtain ⟨_, htidy⟩ := hchildren.exists_of_mem hmem
        cases htidy with
        | token hknown => exact hknown rfl
  · rw [htoken] at hnode
    cases hnode

theorem clean_rows {tokens : List Token} {stop : Nat}
    (herrors : (parseTokens tokens stop).errors = []) {row : Tree.Row}
    (hrow : row ∈ (parseTokens tokens stop).tree.rows 0 0) :
    row.tree.isError = false ∧ ∀ text, row.tree ≠ .token .error text := by
  have hnone : ∀ place,
      ¬Reported tokens (parseTokens tokens stop).errors place := by
    rintro place ⟨error, herror, -⟩
    rw [herrors] at herror
    exact nomatch herror
  rcases keeps_rows hrow with ⟨place, htidy, -⟩ | ⟨⟨place, hreported⟩, -⟩
  · cases htree : row.tree with
    | token kind text =>
        rw [htree] at htidy
        cases htidy with
        | token hknown =>
            exact ⟨rfl, fun text herror => hknown (Tree.token.inj herror).1⟩
    | node kind children =>
        rw [htree] at htidy
        cases htidy with
        | stray hreported => exact absurd hreported (hnone _)
        | node hkind =>
            refine ⟨?_, fun _ herror => nomatch herror⟩
            cases kind <;> first | rfl | exact absurd rfl hkind
  · exact absurd hreported (hnone _)

end Grammar

end PklAnalysis

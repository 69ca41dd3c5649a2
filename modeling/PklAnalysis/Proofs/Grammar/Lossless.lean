import PklAnalysis.Proofs.Grammar.Progress
import PklAnalysis.Proofs.Token.Lossless

/-!
Parsing loses nothing: the leaves of the tree are the tokens, all of them and in
order, whatever the tokens are.
-/

namespace PklAnalysis.Grammar

open PklAnalysis.Parser

variable {call : Call} {start : Nat}

theorem advances_member (depth : Nat) :
    Advances start (member (parseRule (depth + 1))) :=
  fun state haccepts hcurrent =>
    advances_memberRule (keeps_parseRule depth) state haccepts hcurrent

theorem keeps_nextMember (hcall : call.Keeps) :
    Keeps start (nextMember call) := by
  refine .bind keeps_atEnd? fun ended => ?_
  grind

theorem run_nextMember (state : State) : (nextMember call).run state =
    (if (state.peek? 0).isNone then pure false
      else do member call; return true).run state :=
  rfl

theorem nextMember_run_of_none {state : State} (hnone : state.current? = none) :
    (nextMember call).run state = (false, state) := by
  have hended : (state.peek? 0).isNone = true := by
    simpa [State.peek?, State.current?] using hnone
  rw [run_nextMember, hended]
  rfl

theorem nextMember_run_of_some {state : State}
    (hsome : state.current?.isSome = true) :
    (nextMember call).run state = (true, ((member call).run state).2) := by
  have hended : (state.peek? 0).isNone = false := by
    simpa [State.peek?, State.current?, Option.isNone_eq_false_iff] using hsome
  rw [run_nextMember, hended]
  rfl

theorem current?_members (depth : Nat) {state : State}
    (haccepts : state.builder.accepts start = true) :
    ((repeatWhile (nextMember (parseRule (depth + 1)))).run state).2.current? =
      none := by
  have hshorter : ∀ state : State, state.builder.accepts start = true →
      ((nextMember (parseRule (depth + 1))).run state).1 = true →
      ((nextMember (parseRule (depth + 1))).run state).2.tokens.length <
        state.tokens.length := by
    intro state haccepts hmore
    cases hcurrent : state.current? with
    | none =>
        rw [nextMember_run_of_none hcurrent] at hmore
        cases hmore
    | some token =>
        have hsome : state.current?.isSome = true := by rw [hcurrent]; rfl
        rw [nextMember_run_of_some hsome]
        exact advances_member depth state haccepts hsome
  obtain ⟨last, -, hstop, hend⟩ :=
    repeatWhile_ends (keeps_nextMember (keeps_parseRule _)) hshorter haccepts
  rw [hend]
  cases hcurrent : last.current? with
  | none => rw [nextMember_run_of_none hcurrent, hcurrent]
  | some token =>
      rw [nextMember_run_of_some (by rw [hcurrent]; rfl)] at hstop
      cases hstop

theorem keeps_moduleContents (hcall : call.Keeps) :
    Keeps start (moduleContents call) :=
  .bind (keeps_moduleHeader hcall) fun _ =>
    .bind (keeps_imports hcall) fun _ =>
      keeps_repeatWhile (keeps_nextMember hcall)

theorem current?_moduleContents (depth : Nat) {state : State}
    (haccepts : state.builder.accepts start = true) :
    ((moduleContents (parseRule (depth + 1))).run state).2.current? = none := by
  have hcall := keeps_parseRule (depth + 1)
  have hheader := (keeps_moduleHeader hcall state haccepts).accepts haccepts
  have himports := (keeps_imports hcall _ hheader).accepts hheader
  rw [moduleContents, run_bind, run_bind]
  exact current?_members depth himports

theorem tokens_skipTrivia_of_none {state : State}
    (hnone : state.current? = none) :
    (skipTrivia.run state).2.tokens = [] := by
  rw [State.current?, nth?_zero, List.head?_eq_none_iff] at hnone
  rw [tokens_skipTrivia, hnone]

/-- A node at the top, started before the first token and finished after the
last one, is the whole tree, and it holds the tokens. -/
theorem Builder.built_of_reads {kind : Node.Kind} {tokens : List Token}
    {opened inner : State} (hreads : opened.Reads 0 inner)
    (hopened : opened.builder = Builder.empty.start kind)
    (htokens : opened.tokens = tokens) (hend : inner.tokens = []) :
    ∃ children,
      inner.builder.finish.inOrder = true ∧
      inner.builder.finish.openNodes = [] ∧
      inner.builder.finish.trees.toList = [.node kind children] ∧
      Tree.leavesAll children = tokens.map Token.leaf := by
  have hopen : inner.builder.openNodes = [(kind, 0)] := by
    rw [hreads.openNodes, hopened]
    rfl
  have hinOrder : inner.builder.inOrder = true := by
    rw [hreads.inOrder, hopened]
    rfl
  obtain ⟨read, hread, hleaves⟩ := hreads.consumed
  have hempty : opened.builder.leaves = [] := by
    rw [hopened]
    simp [Builder.leaves, Builder.start, Builder.empty, Tree.leavesAll]
  rw [hend, htokens, List.append_nil] at hread
  rw [hempty, List.nil_append, ← hread] at hleaves
  refine ⟨inner.builder.trees.toList, ?_, Builder.openNodes_finish hopen, ?_,
    hleaves⟩
  · rw [Builder.inOrder_finish hopen, hinOrder]
  · rw [Builder.toList_trees_finish hopen, List.take_zero, List.nil_append,
      List.drop_zero]

theorem finalState_built (tokens : List Token) (stop : Nat) :
    let final := finalState tokens stop
    final.tokens = [] ∧ final.builder.inOrder = true ∧
      final.builder.openNodes = [] ∧
      ∃ children, final.builder.trees.toList = [.node .root children] ∧
        Tree.leavesAll children = tokens.map Token.leaf := by
  obtain ⟨depth, hdepth⟩ : ∃ depth, callDepth tokens = depth + 1 :=
    ⟨2 * tokens.length + 1, rfl⟩
  rw [finalState, hdepth, moduleRule, run_enclose, run_bind]
  generalize hopened : { State.ofTokens tokens stop with
    builder := (State.ofTokens tokens stop).builder.start .root } = opened
  have hbuilder : opened.builder = Builder.empty.start .root := by
    rw [← hopened]; rfl
  have htokens : opened.tokens = tokens := by rw [← hopened]; rfl
  have haccepts : opened.builder.accepts 0 = true := by rw [hbuilder]; rfl
  have hcontents :=
    keeps_moduleContents (keeps_parseRule (depth + 1)) opened haccepts
  have hreads :=
    hcontents.trans (keeps_skipTrivia _ (hcontents.accepts haccepts))
  have hend :=
    tokens_skipTrivia_of_none (current?_moduleContents depth haccepts)
  generalize (skipTrivia.run
    ((moduleContents (parseRule (depth + 1))).run opened).2).2 = inner
    at hreads hend ⊢
  obtain ⟨children, hinOrder, hopen, htrees, hleaves⟩ :=
    Builder.built_of_reads hreads hbuilder htokens hend
  exact ⟨hend, hinOrder, hopen, children, htrees, hleaves⟩

theorem tree_parseTokens {tokens : List Token} {stop : Nat}
    {children : List Tree}
    (hinOrder : (finalState tokens stop).builder.inOrder = true)
    (hopen : (finalState tokens stop).builder.openNodes = [])
    (htrees : (finalState tokens stop).builder.trees.toList =
      [.node .root children]) :
    (parseTokens tokens stop).tree = .node .root children := by
  rw [parseTokens, Builder.result?_eq_some hinOrder hopen htrees,
    Option.getD_some]

theorem parse_of_tokenize {text : String} {tokens : List Token}
    (htokens : Token.tokenize text = .ok tokens) :
    parse text = .ok (parseTokens tokens text.utf8ByteSize) := by
  rw [parse, htokens]
  rfl

theorem text_of_leaves {tree : Tree} {tokens : List Token}
    (hleaves : tree.leaves = tokens.map Token.leaf) :
    tree.text = String.join (tokens.map Token.text) := by
  rw [Tree.text, hleaves, List.map_map]
  rfl

/-- Whatever the tokens are, all of them are read, every node that is started is
finished, every mark at which a node is started is valid, and the tree is a root
whose leaves are the tokens. So the tree of a text that can be lexed holds the
text. -/
theorem parse_lossless :
    (∀ tokens stop, (finalState tokens stop).tokens = [] ∧
      (finalState tokens stop).builder.inOrder = true ∧
      (finalState tokens stop).builder.openNodes = [] ∧
      ∃ children,
        (finalState tokens stop).builder.trees.toList = [.node .root children] ∧
        (parseTokens tokens stop).tree = .node .root children ∧
        (parseTokens tokens stop).tree.leaves = tokens.map Token.leaf) ∧
    ∀ text tokens, Token.tokenize text = .ok tokens →
      ∃ result, parse text = .ok result ∧ result.tree.text = text := by
  have htree : ∀ tokens stop, (finalState tokens stop).tokens = [] ∧
      (finalState tokens stop).builder.inOrder = true ∧
      (finalState tokens stop).builder.openNodes = [] ∧
      ∃ children,
        (finalState tokens stop).builder.trees.toList = [.node .root children] ∧
        (parseTokens tokens stop).tree = .node .root children ∧
        (parseTokens tokens stop).tree.leaves = tokens.map Token.leaf := by
    intro tokens stop
    obtain ⟨hend, hinOrder, hopen, children, htrees, hleaves⟩ :=
      finalState_built tokens stop
    have hparsed := tree_parseTokens hinOrder hopen htrees
    refine ⟨hend, hinOrder, hopen, children, htrees, hparsed, ?_⟩
    rw [hparsed, Tree.leaves, hleaves]
  refine ⟨htree, fun text tokens htokens => ?_⟩
  refine ⟨parseTokens tokens text.utf8ByteSize, parse_of_tokenize htokens, ?_⟩
  obtain ⟨-, -, -, children, -, -, hleaves⟩ := htree tokens text.utf8ByteSize
  rw [text_of_leaves hleaves,
    Token.join_text_of_covers (Token.tokenize_covers htokens)]

/-- A text with an open class, a stray bracket, and an open literal. -/
theorem parse_lossless_malformed :
    let tokens : List Token :=
      [⟨.classKw, "class", 0⟩, ⟨.leftBrace, "\x7b", 5⟩, ⟨.rightBracket, "]", 6⟩,
       ⟨.whitespace, "\n", 7⟩, ⟨.stringStart, "\"", 8⟩,
       ⟨.interpolationStart, "\\(", 9⟩]
    Token.tokenize "class\x7b]\n\"\\(" = .ok tokens ∧
      ∃ result, parse "class\x7b]\n\"\\(" = .ok result ∧
        result.tree.text = "class\x7b]\n\"\\(" := by
  intro tokens
  have htokens : Token.tokenize "class\x7b]\n\"\\(" = .ok tokens :=
    Token.ok_of_toOption (by decide +kernel)
  exact ⟨htokens, parse_lossless.2 _ _ htokens⟩

end PklAnalysis.Grammar

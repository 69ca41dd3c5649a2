import PklAnalysis.Proofs.Grammar.Nesting
import PklAnalysis.Proofs.Grammar.Tidy
import PklAnalysis.Proofs.Grammar.Unrolling

/-!
Where nodes begin. Before a node is started, or a place is marked to start one
at later, the blanks and comments before the next token are taken, so they stay
outside: below the root a node begins with a token that is no trivia, or it has
no tokens.
-/

namespace PklAnalysis

namespace Tree

/-- A node has no tokens, or the first of them is no trivia. -/
def Leading (_ : Node.Kind) (children : List Tree) : Prop :=
  ∀ leaf ∈ (leavesAll children).head?, leaf.1.isTrivia = false

theorem Leading.cases {kind : Node.Kind} {children : List Tree}
    (hleading : Leading kind children) :
    leavesAll children = [] ∨
      ∃ leaf rest,
        leavesAll children = leaf :: rest ∧ leaf.1.isTrivia = false := by
  rw [Leading] at hleading
  cases hleaves : leavesAll children with
  | nil => exact .inl rfl
  | cons leaf rest =>
      exact .inr ⟨leaf, rest, rfl, hleading leaf (by rw [hleaves]; rfl)⟩

/-- The tokens of a listed tree stand among the given ones, where its offset
says, and what is asked of nodes holds everywhere in it. -/
structure Row.Within (holds : Node.Kind → List Tree → Prop) (offset : Nat)
    (leaves : List (Token.Kind × String)) (row : Row) : Prop where
  everywhere : row.tree.Everywhere holds
  stands : ∃ before after, leaves = before ++ (row.tree.leaves ++ after) ∧
    row.offset = offset + byteSize before

variable {holds : Node.Kind → List Tree → Prop}

theorem Row.within_self {depth offset : Nat} {tree : Tree}
    (heverywhere : tree.Everywhere holds) :
    Row.Within holds offset tree.leaves ⟨depth, offset, tree⟩ :=
  ⟨heverywhere, [], [], by rw [List.nil_append, List.append_nil], rfl⟩

mutual
theorem within_of_mem_rows {depth offset : Nat} :
    (tree : Tree) → tree.Everywhere holds →
    ∀ row ∈ tree.rows depth offset, row.Within holds offset tree.leaves
  | .token kind text, heverywhere => by
      rw [rows, List.forall_mem_singleton]
      exact Row.within_self heverywhere
  | .node kind children, heverywhere => by
      rw [rows, List.forall_mem_cons, leaves]
      exact ⟨Row.within_self heverywhere,
        within_of_mem_rowsAll children (everywhere_node.mp heverywhere).2⟩

theorem within_of_mem_rowsAll {depth offset : Nat} : (trees : List Tree) →
    (∀ tree ∈ trees, tree.Everywhere holds) →
    ∀ row ∈ rowsAll depth offset trees,
      row.Within holds offset (leavesAll trees)
  | [], _ => fun _ hrow => nomatch hrow
  | tree :: rest, heverywhere => by
      obtain ⟨htree, hrest⟩ := List.forall_mem_cons.mp heverywhere
      rw [rowsAll, List.forall_mem_append, leavesAll]
      constructor
      · intro row hrow
        obtain ⟨hholds, before, after, hleaves, hoffset⟩ :=
          within_of_mem_rows tree htree row hrow
        refine ⟨hholds, before, after ++ leavesAll rest, ?_, hoffset⟩
        rw [hleaves, List.append_assoc, List.append_assoc]
      · intro row hrow
        obtain ⟨hholds, before, after, hleaves, hoffset⟩ :=
          within_of_mem_rowsAll rest hrest row hrow
        refine ⟨hholds, tree.leaves ++ before, after, ?_, ?_⟩
        · rw [hleaves, List.append_assoc]
        · rw [hoffset, byteSize_append, size_eq_byteSize, Nat.add_assoc]
end

end Tree

namespace Parser

variable {start : Nat} {state : State}

/-- The tokens from a place on: those built since and those that are left. -/
def State.leavesFrom (start : Nat) (state : State) :
    List (Token.Kind × String) :=
  Tree.leavesAll (state.builder.trees.toList.drop start) ++
    state.tokens.map Token.leaf

theorem State.Reads.leavesFrom_eq {before after : State}
    (hreads : before.Reads start after) :
    after.leavesFrom start = before.leavesFrom start := by
  obtain ⟨read, htokens, hleaves⟩ := hreads.consumed
  have hsplit : ∀ builder : Builder, builder.leaves =
      Tree.leavesAll (builder.trees.toList.take start) ++
        Tree.leavesAll (builder.trees.toList.drop start) := by
    intro builder
    rw [← Tree.leavesAll_append, List.take_append_drop, Builder.leaves]
  rw [hsplit, hsplit, hreads.kept, List.append_assoc] at hleaves
  have hbuilt := List.append_cancel_left hleaves
  rw [leavesFrom, leavesFrom, hbuilt, htokens, List.map_append,
    List.append_assoc]

/-- All nodes that have been built begin with a token that is no trivia, and so
would one started at the place. -/
structure State.Leads (start : Nat) (state : State) : Prop where
  trees : ∀ tree ∈ state.builder.trees.toList, tree.Everywhere Tree.Leading
  front : ∀ leaf ∈ (state.leavesFrom start).head?, leaf.1.isTrivia = false

namespace State.Leads

theorem advanceBy (hleads : state.Leads start)
    (hle : start ≤ state.builder.trees.size) (count : Nat) :
    (state.advanceBy count).Leads start := by
  obtain ⟨tokens, htokens, hbuilt⟩ := state.exists_toList_advanceBy count
  refine ⟨?_, ?_⟩
  · rw [hbuilt, List.forall_mem_append]
    exact ⟨hleads.trees,
      fun tree htree => Tree.everywhere_of_isToken (htokens tree htree)⟩
  · rw [(reads_advanceBy hle count).leavesFrom_eq]
    exact hleads.front

theorem finish {kind : Node.Kind} {outer : List (Node.Kind × Nat)}
    (hleads : state.Leads start)
    (hopen : state.builder.openNodes = (kind, start) :: outer)
    (hle : start ≤ state.builder.trees.size) :
    State.Leads start { state with builder := state.builder.finish } := by
  have hhere : Tree.Leading kind (state.builder.trees.toList.drop start) := by
    intro leaf hleaf
    refine hleads.front leaf ?_
    rw [State.leavesFrom, List.head?_append, Option.mem_def.mp hleaf]
    rfl
  refine ⟨?_, ?_⟩
  · rw [Builder.toList_trees_finish hopen, List.forall_mem_append,
      List.forall_mem_singleton]
    refine ⟨fun tree htree => hleads.trees tree (List.mem_of_mem_take htree),
      ?_⟩
    exact Tree.everywhere_node.mpr
      ⟨hhere, fun tree htree => hleads.trees tree (List.mem_of_mem_drop htree)⟩
  · rw [State.leavesFrom, Builder.drop_trees_finish hopen hle,
      Tree.leavesAll_node]
    exact hleads.front

theorem of_ready
    (htrees : ∀ tree ∈ state.builder.trees.toList, tree.Everywhere Tree.Leading)
    (hready : state.Ready) : state.Leads state.builder.mark := by
  refine ⟨htrees, ?_⟩
  rw [State.leavesFrom, Builder.drop_mark, Tree.leavesAll, List.nil_append,
    List.head?_map]
  intro leaf hleaf
  obtain ⟨token, htoken, rfl⟩ := Option.map_eq_some_iff.mp hleaf
  exact hready token htoken

theorem widen {place : Nat} {inner : State} (hleads : state.Leads start)
    (hinner : inner.Leads place) (hle : start ≤ place)
    (hreads : state.Reads place inner) : inner.Leads start := by
  refine ⟨hinner.trees, ?_⟩
  rw [(hreads.mono hle).leavesFrom_eq]
  exact hleads.front

end State.Leads

def Likeness.leading (size : Nat) : Likeness where
  rel start start' state state' :=
    start = start' ∧ state = state' ∧ state.Leads start
  size := size
  junk := True
  leaves_eq := fun ⟨_, heq, _⟩ => by rw [heq]
  afterBreak_eq := fun ⟨_, heq, _⟩ _ _ => by rw [heq]
  skipTrivia := fun ⟨hstart, heq, hleads⟩ haccepts _ =>
    ⟨hstart, by rw [heq],
      hleads.advanceBy (Builder.accepts_iff.mp haccepts).2 _⟩
  advance := fun ⟨hstart, heq, hleads⟩ haccepts _ _ _ _ _ _ =>
    ⟨hstart, by rw [heq],
      hleads.advanceBy (Builder.accepts_iff.mp haccepts).2 1⟩
  report :=
    fun ⟨hstart, heq, hleads⟩ _ =>
      ⟨hstart, by rw [heq], hleads.trees, hleads.front⟩
  startAt := fun ⟨hstart, heq, hleads⟩ _ _ =>
    ⟨hstart, by rw [heq, hstart], hleads.trees, hleads.front⟩
  finish := fun ⟨hstart, heq, hleads⟩ _ hopen _ hle _ =>
    ⟨hstart, by rw [heq], hleads.finish hopen hle⟩
  narrow :=
    fun ⟨_, heq, hleads⟩ hready _ =>
      ⟨by rw [heq], heq, .of_ready hleads.trees hready⟩
  widen := fun ⟨hstart, _, hleads⟩ ⟨_, heq, hinner⟩ hle _ _ _ hreads _ =>
    ⟨hstart, heq, hleads.widen hinner hle hreads⟩

end Parser

namespace Grammar

open PklAnalysis.Parser
open PklAnalysis.Parser.View

theorem moduleContents_run_skipTrivia (call : Call) (state : State) :
    (moduleContents call).run (skipTrivia.run state).2 =
      (moduleContents call).run state := by
  have hmark : ∀ state, mark.run state =
      ((skipTrivia.run state).2.builder.mark, (skipTrivia.run state).2) :=
      fun _ => rfl
  simp only [moduleContents, moduleHeader_eq, run_bind, hmark,
    skipTrivia_run_skipTrivia]

theorem everywhere_leading_contents {call : Call} {state : State}
    (hcall : Agree (.leading state.count) (state.count + 1) call call)
    (haccepts : state.builder.accepts 0 = true)
    (hempty : state.builder.trees = #[]) :
    ∀ tree ∈
      ((moduleContents call >>= fun _ => skipTrivia).run
        state).2.builder.trees.toList,
      tree.Everywhere Tree.Leading := by
  have hready := ready_skipTrivia state
  have hcount := count_skipTrivia state
  have hvalid :=
    Builder.accepts_mark ((keeps_skipTrivia state haccepts).accepts haccepts)
  obtain ⟨tokens, htokens, hbuilt⟩ :=
    state.exists_toList_advanceBy (state.tokens.takeWhile Token.isTrivia).length
  have htrees : (skipTrivia.run state).2.builder.trees.toList = tokens := by
    rw [hempty] at hbuilt
    exact hbuilt
  rw [run_bind, ← moduleContents_run_skipTrivia]
  generalize (skipTrivia.run state).2 = placed at hready hcount hvalid htrees ⊢
  have hleads : placed.Leads placed.builder.mark := by
    refine .of_ready ?_ hready
    rw [htrees]
    exact fun tree htree => Tree.everywhere_of_isToken (htokens tree htree)
  have htwin : Twin (.leading state.count) anything (state.count + 1) never
      placed.builder.mark
      placed.builder.mark (moduleContents call >>= fun _ => skipTrivia)
      (moduleContents call >>= fun _ => skipTrivia) :=
    (twin_moduleContents (.of_junk trivial (Nat.le_refl _)) hcall).bind fun _ =>
      twin_skipTrivia
  obtain ⟨-, ⟨-, -, hafter⟩, -⟩ :=
    htwin.same placed placed hvalid hvalid ⟨rfl, rfl, hleads⟩ trivial
    (Nat.lt_succ_of_le (Nat.le_of_eq hcount))
  rw [run_bind] at hafter
  exact hafter.trees

theorem everywhere_leading {tokens : List Token} {stop : Nat}
    {children : List Tree}
    (htrees : (finalState tokens stop).builder.trees.toList =
      [.node .root children]) :
    ∀ tree ∈ children, tree.Everywhere Tree.Leading := by
  rw [finalState_eq_unroll, moduleRule, run_enclose] at htrees
  generalize hopened : { State.ofTokens tokens stop with
    builder := (State.ofTokens tokens stop).builder.start .root } =
      opened at htrees
  have htokens : opened.tokens = tokens := by rw [← hopened]; rfl
  have hopen : opened.builder.openNodes = [(.root, 0)] := by rw [← hopened]; rfl
  have haccepts : opened.builder.accepts 0 = true := by rw [← hopened]; rfl
  have hempty : opened.builder.trees = #[] := by rw [← hopened]; rfl
  have hdepth : 2 * (opened.count + 1) ≤ callDepth tokens :=
    htokens ▸ le_callDepth opened
  have hcall : Agree (.leading opened.count) (opened.count + 1)
      (unroll Rule.parse _ (callDepth tokens))
      (unroll Rule.parse _ (callDepth tokens)) :=
    agree_unroll keeps_none keeps_none
      (fun _ hlt => .of_junk trivial (Nat.le_of_lt_succ hlt)) hdepth
      hdepth
  have hkeeps :
      Keeps 0 (moduleContents (unroll Rule.parse _ (callDepth tokens)) >>=
        fun _ => skipTrivia) :=
    (keeps_moduleContents (keeps_unroll keeps_none _)).bind fun _ =>
      keeps_skipTrivia
  have hleading := everywhere_leading_contents hcall haccepts hempty
  have hbuilt :=
    Builder.toList_trees_finish ((hkeeps opened haccepts).openNodes.trans hopen)
  rw [List.take_zero, List.nil_append, List.drop_zero] at hbuilt
  dsimp only at htrees
  rw [hbuilt] at htrees
  obtain ⟨-, hchildren⟩ := Tree.node.inj (List.singleton_inj.mp htrees)
  rwa [hchildren] at hleading

/-- Whatever the tokens are, they all stand in the root, and every node below it
is empty or begins with a token that is no trivia. Since the tokens of a node
are those of the text from the offset of its row on, the blanks and comments
right before them are outside of the node, and in one around it. -/
theorem nodes_begin_with_tokens (tokens : List Token) (stop : Nat) :
    ∃ children, (parseTokens tokens stop).tree = .node .root children ∧
      Tree.leavesAll children = tokens.map Token.leaf ∧
      ∀ row ∈ (parseTokens tokens stop).tree.rows 0 0, 0 < row.depth →
        ∀ kind parts, row.tree = .node kind parts →
          (Tree.leavesAll parts = [] ∨
            ∃ leaf rest,
              Tree.leavesAll parts = leaf :: rest ∧ leaf.1.isTrivia = false) ∧
          ∃ before after,
            tokens.map Token.leaf = before ++ (Tree.leavesAll parts ++ after) ∧
            row.offset = Tree.byteSize before := by
  obtain ⟨-, hinOrder, hopen, children, htrees, hleaves⟩ :=
    finalState_built tokens stop
  have hparsed := tree_parseTokens hinOrder hopen htrees
  refine ⟨children, hparsed, hleaves,
    fun row hrow hbelow kind parts hnode => ?_⟩
  rw [hparsed, Tree.rows, List.mem_cons] at hrow
  have hinside := hrow.resolve_left fun hroot => by
    rw [hroot] at hbelow
    exact Nat.lt_irrefl 0 hbelow
  obtain ⟨heverywhere, before, after, hstands, hoffset⟩ :=
    Tree.within_of_mem_rowsAll children (everywhere_leading htrees) row hinside
  rw [hnode] at heverywhere hstands
  rw [← hleaves]
  exact ⟨(Tree.everywhere_node.mp heverywhere).1.cases, before, after, hstands,
    hoffset.trans (Nat.zero_add _)⟩

/-- A comment before a property, and one before the sum in it. -/
theorem nodes_begin_with_tokens_comments :
    let tokens : List Token :=
      [⟨.docComment, "///", 0⟩, ⟨.whitespace, "\n", 3⟩, ⟨.identifier, "a", 4⟩,
       ⟨.equal, "=", 5⟩, ⟨.blockComment, "/**/", 6⟩, ⟨.intNumber, "1", 10⟩,
       ⟨.plus, "+", 11⟩, ⟨.intNumber, "2", 12⟩]
    (((parseTokens tokens 13).tree.rows 0 0).filter fun row =>
        !row.tree.isToken).map
        (fun row => row.tree.labelAt row.offset) =
      ["MODULE@0..13", "CLASS_PROPERTY@4..13", "ADDITIVE_EXPR@10..13",
        "INT_LITERAL@10..11",
       "INT_LITERAL@12..13"] ∧
      ∃ children, (parseTokens tokens 13).tree = .node .root children ∧
        Tree.leavesAll children = tokens.map Token.leaf ∧
        ∀ row ∈ (parseTokens tokens 13).tree.rows 0 0, 0 < row.depth →
          ∀ kind parts, row.tree = .node kind parts →
            (Tree.leavesAll parts = [] ∨
              ∃ leaf rest, Tree.leavesAll parts = leaf :: rest ∧
                leaf.1.isTrivia = false) ∧
            ∃ before after,
              tokens.map Token.leaf = before ++ (Tree.leavesAll parts ++
                after) ∧
              row.offset = Tree.byteSize before :=
  ⟨by decide +kernel, nodes_begin_with_tokens _ 13⟩

end Grammar

end PklAnalysis

import PklAnalysis.Proofs.Document.Parents

/-!
Ranges of nodes. The nodes directly under a node lie in its range, one after the
other, and a node with a token has some text.
-/

namespace PklAnalysis

namespace Tree

theorem le_of_mem_place {offset : Nat} {trees : List Tree} {placed : Nat × Tree}
    (hplaced : placed ∈ place offset trees) :
    offset ≤ placed.1 ∧ placed.1 + placed.2.size ≤ offset + sizeAll trees := by
  induction trees generalizing offset with
  | nil => cases hplaced
  | cons tree rest ih =>
      rw [sizeAll]
      rcases List.mem_cons.mp hplaced with rfl | hrest
      · dsimp only
        omega
      · have hlater := ih hrest
        omega

theorem pairwise_place (offset : Nat) (trees : List Tree) :
    (place offset trees).Pairwise fun left right => left.1 + left.2.size ≤
      right.1 := by
  induction trees generalizing offset with
  | nil => exact .nil
  | cons tree rest ih =>
      exact .cons (fun _ hlater => (le_of_mem_place hlater).1) (ih _)

/-- No token directly under a node is empty. -/
def HasText (_ : Node.Kind) (trees : List Tree) : Prop :=
  ∀ kind text, token kind text ∈ trees → text ≠ ""

theorem mem_leavesAll {leaf : Token.Kind × String} {trees : List Tree} :
    leaf ∈ leavesAll trees ↔ ∃ tree ∈ trees, leaf ∈ tree.leaves := by
  induction trees with
  | nil =>
      exact iff_of_false List.not_mem_nil fun ⟨_, hmem, _⟩ =>
        List.not_mem_nil hmem
  | cons tree rest ih =>
      rw [leavesAll, List.mem_append, ih, List.exists_mem_cons_iff]

mutual

theorem everywhere_hasText :
    (tree : Tree) → (∀ leaf ∈ tree.leaves, leaf.2 ≠ "") →
    tree.Everywhere HasText
  | .token _ _, _ => .token
  | .node _ children, hleaves => by
      refine .node (fun kind text htoken => ?_)
        (everywhere_hasTextAll children hleaves)
      exact hleaves (kind, text)
        (mem_leavesAll.mpr ⟨_, htoken, List.mem_cons_self⟩)

theorem everywhere_hasTextAll :
    (trees : List Tree) → (∀ leaf ∈ leavesAll trees, leaf.2 ≠ "") →
    ∀ tree ∈ trees, tree.Everywhere HasText
  | [], _ => nofun
  | tree :: rest, hleaves => by
      rw [leavesAll, List.forall_mem_append] at hleaves
      exact List.forall_mem_cons.mpr
        ⟨everywhere_hasText tree hleaves.1,
          everywhere_hasTextAll rest hleaves.2⟩

end

end Tree

theorem Document.everywhere_hasText (document : Document) :
    document.parse.tree.Everywhere Tree.HasText := by
  obtain ⟨tokens, htokens, hparse⟩ := document.exists_tokens
  obtain ⟨-, hinOrder, hopen, children, htrees, hleaves⟩ :=
    Grammar.finalState_built tokens document.source.text.utf8ByteSize
  rw [hparse, Grammar.tree_parseTokens hinOrder hopen htrees]
  refine Tree.everywhere_hasText _ fun leaf hleaf => ?_
  rw [Tree.leaves, hleaves] at hleaf
  obtain ⟨token, htoken, rfl⟩ := List.mem_map.mp hleaf
  exact (Token.tokenize_covers htokens).nonempty token htoken

namespace Node

variable {node child above : Node}

namespace Stands

variable {offset : Nat} {kind : Kind} {trees : List Tree}

theorem map_range_children (hstands : node.Stands offset (.node kind trees)) :
    node.children.map range = (Tree.numbered offset trees).map fun placed =>
      placed.2.rangeAt placed.1 := by
  have hchildren := hstands.children
  generalize node.children = nodes,
    Tree.numbered offset trees = placed at hchildren ⊢
  induction hchildren with
  | nil => rfl
  | cons hchild _ ih => rw [List.map_cons, List.map_cons, hchild.range_eq, ih]

end Stands

theorem exists_stands (hsome : node.children ≠ [] ∨ node.terminals ≠ []) :
    ∃ offset kind trees, node.Stands offset (.node kind trees) ∧
      Tree.HasText kind trees := by
  by_cases hlt : node.index < node.document.arena.size
  case neg =>
      have habsent := slot_of_not_lt_size hlt
      rcases hsome with hchildren | hterminals
      · refine absurd ?_ hchildren
        change (node.slot.children?.getD []).map _ = []
        rw [habsent]
        rfl
      · exact absurd (congrArg Slot.terminals habsent) hterminals
  case pos =>
      obtain ⟨offset, tree, hstands, hwithin⟩ := stands_of_lt_size hlt
      cases tree with
      | token kind text => cases hstands
      | node kind trees =>
          exact ⟨offset, kind, trees, hstands,
            (Tree.everywhere_node.mp
              (hwithin _ node.document.everywhere_hasText)).1⟩

theorem pairwise_children (node : Node) :
    node.children.Pairwise fun left right => left.range.stop ≤
      right.range.start := by
  by_cases hchildren : node.children = []
  case pos =>
      rw [hchildren]
      exact .nil
  case neg =>
      obtain ⟨offset, kind, trees, hstands, -⟩ := exists_stands (.inl hchildren)
      have hranges : (node.children.map range).Pairwise fun left right =>
          left.stop ≤ right.start := by
        rw [hstands.map_range_children, List.pairwise_map]
        exact (Tree.pairwise_place offset trees).sublist List.filter_sublist
      exact List.pairwise_map.mp hranges

theorem apart_of_mem_children {left right : Node} (hleft : left ∈ node.children)
    (hright : right ∈ node.children) (hne : left ≠ right) :
    left.range.stop ≤ right.range.start ∨
      right.range.stop ≤ left.range.start := by
  let Apart (left right : Node) : Prop :=
    left.range.stop ≤ right.range.start ∨ right.range.stop ≤ left.range.start
  have hsymm : Std.Symm Apart := ⟨fun _ _ => Or.symm⟩
  have hapart : node.children.Pairwise Apart :=
    node.pairwise_children.imp Or.inl
  exact hapart.forall hleft hright hne

theorem covers_of_mem_children (hchild : child ∈ node.children) :
    node.range.start ≤ child.range.start ∧
      child.range.stop ≤ node.range.stop := by
  obtain ⟨offset, kind, trees, hstands, -⟩ :=
    exists_stands (.inl (List.ne_nil_of_mem hchild))
  have hrange := List.mem_map_of_mem (f := range) hchild
  rw [hstands.map_range_children] at hrange
  obtain ⟨placed, hplaced, hsame⟩ := List.mem_map.mp hrange
  have hbounds := Tree.le_of_mem_place (List.mem_filter.mp hplaced).1
  rw [hstands.range_eq, ← hsame]
  exact hbounds

@[elab_as_elim]
theorem inductionAbove {motive : Node → Prop}
    (top : ∀ node : Node, node.parent? = none → motive node)
    (below : ∀ node parent : Node, node.parent? = some parent → motive parent →
      motive node)
    (node : Node) : motive node := by
  induction hindex : node.index using Nat.strongRecOn generalizing node with
  | ind index ih =>
      cases hparent : node.parent? with
      | none => exact top node hparent
      | some parent =>
          have hlt : parent.index < index := hindex ▸ index_parent?_lt hparent
          exact below node parent hparent (ih parent.index hlt parent rfl)

@[elab_as_elim]
theorem ancestorsInduction {motive : Node → Prop} {node : Node}
    (habove : above ∈ node.ancestors)
    (child : ∀ node : Node, node.parent? = some above → motive node)
    (below : ∀ node parent : Node, node.parent? = some parent →
      above ∈ parent.ancestors → motive parent → motive node) :
    motive node := by
  induction node using inductionAbove with
  | top node hnone =>
      rw [ancestors_of_parent?_none hnone] at habove
      cases habove
  | below node parent hparent ih =>
      rw [ancestors_of_parent? hparent] at habove
      rcases List.mem_cons.mp habove with rfl | habove
      · exact child node hparent
      · exact below node parent hparent habove (ih habove)

theorem index_lt_of_mem_ancestors (habove : above ∈ node.ancestors) :
    above.index < node.index := by
  refine ancestorsInduction habove
    (fun node hparent => index_parent?_lt hparent)
    fun node parent hparent _ hlt => ?_
  exact Nat.lt_trans hlt (index_parent?_lt hparent)

theorem covers_of_mem_ancestors (habove : above ∈ node.ancestors) :
    above.range.start ≤ node.range.start ∧
      node.range.stop ≤ above.range.stop := by
  have hchild : ∀ {node parent : Node}, node.parent? = some parent →
      parent.range.start ≤ node.range.start ∧
        node.range.stop ≤ parent.range.stop :=
    fun hparent => covers_of_mem_children (mem_children_of_parent? hparent)
  refine ancestorsInduction habove (fun node => hchild)
    fun node parent hparent _ hcovers => ?_
  have hbounds := hchild hparent
  exact ⟨hcovers.1.trans hbounds.1, hbounds.2.trans hcovers.2⟩

theorem start_lt_stop_of_terminal {terminal : Terminal}
    (hterminal : terminal ∈ node.terminals) :
    node.range.start < node.range.stop := by
  obtain ⟨offset, kind, trees, hstands, htext⟩ :=
    exists_stands (.inr (List.ne_nil_of_mem hterminal))
  rw [hstands.terminals_eq, Slot.terminalsOf, List.mem_filterMap] at hterminal
  obtain ⟨⟨start, tree⟩, hplaced, hterminal⟩ := hterminal
  cases tree with
  | node kind trees => cases hterminal
  | token kind text =>
      have hmem : Tree.token kind text ∈ trees := by
        rw [← Tree.map_snd_place offset trees]
        exact List.mem_map_of_mem hplaced
      have hpositive : 0 < text.utf8ByteSize :=
        Nat.pos_of_ne_zero
          (String.utf8ByteSize_eq_zero_iff.not.mpr (htext kind text hmem))
      have hbounds := Tree.le_of_mem_place hplaced
      rw [hstands.range_eq]
      change offset < offset + Tree.sizeAll trees
      rw [Tree.size] at hbounds
      omega

end Node

end PklAnalysis

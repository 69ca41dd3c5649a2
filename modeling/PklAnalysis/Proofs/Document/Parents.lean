import PklAnalysis.Proofs.Grammar.Nesting
import PklAnalysis.Proofs.Node.Contents

/-!
The node above a node is the one whose child it is. Only the root of a document
has the kind of a root, and nothing is above it.
-/

namespace PklAnalysis

namespace Arena

structure Linked (arena : Arena) : Prop where
  parent_of_child : ∀ (id : Nat) (slot : Slot) (ids : List Nat),
    arena.slots[id]? = some slot →
    slot.children? = some ids → ∀ child ∈ ids, ∃ under,
      arena.slots[child]? = some under ∧ under.parent? = some id
  child_of_parent : ∀ (id : Nat) (slot : Slot) (parent : Nat),
    arena.slots[id]? = some slot →
    slot.parent? = some parent → ∃ above ids,
      arena.slots[parent]? = some above ∧ above.children? = some ids ∧ id ∈ ids

theorem linked_ofRoot (children : List Tree) : (ofRoot children).Linked := by
  refine ⟨fun id slot ids hslot hids => ?_,
    fun id slot parent hslot hparent => ?_⟩
  · rw [(eq_of_slot_ofRoot hslot).2] at hids
    cases hids
  · rw [(eq_of_slot_ofRoot hslot).2] at hparent
    cases hparent

section

variable {arena : Arena} {id : Nat} {node : Slot}
  (hnode : arena.slots[id]? = some node)
include hnode

theorem expand_of_opened {ids : List Nat}
    (hopened : node.children? = some ids) :
    arena.expand id = arena := by
  rw [expand, hnode]
  simp only [hopened]

variable (hunopened : node.children? = none)
include hunopened

theorem getElem?_expand (i : Nat) : (arena.expand id).slots[i]? =
    if i < arena.size then
      if i = id then
        some
          { node with
            children? := some (List.range' arena.size (node.under id).length) }
      else arena.slots[i]?
    else (node.under id)[i - arena.size]? := by
  have hlt : id < arena.slots.size := (Array.getElem?_eq_some_iff.mp hnode).1
  have hfresh : (node.under id).toArray[i - arena.slots.size]? =
      (node.under id)[i - arena.slots.size]? := List.getElem?_toArray
  rw [slots_expand hnode hunopened, Array.getElem?_append,
    Array.size_setIfInBounds, Array.getElem?_setIfInBounds, if_pos hlt, hfresh,
    size]
  simp only [eq_comm]

theorem slot_expand_cases {i : Nat} {slot : Slot}
    (hslot : (arena.expand id).slots[i]? = some slot) :
    (i ≠ id ∧ arena.slots[i]? = some slot) ∨
      (i = id ∧ slot =
        { node with
          children? := some (List.range' arena.size (node.under id).length) }) ∨
      ∃ place,
        i = arena.size + place ∧ (node.under id)[place]? = some slot := by
  rw [getElem?_expand hnode hunopened] at hslot
  split at hslot
  case isTrue hold =>
      split at hslot
      case isTrue hsame =>
          exact .inr (.inl ⟨hsame, (Option.some.inj hslot).symm⟩)
      case isFalse hne => exact .inl ⟨hne, hslot⟩
  case isFalse hnew =>
      exact .inr (.inr ⟨i - arena.size,
        (Nat.add_sub_of_le (Nat.le_of_not_lt hnew)).symm, hslot⟩)

theorem exists_slot_expand {i : Nat} {old : Slot}
    (hold : arena.slots[i]? = some old) :
    ∃ slot, (arena.expand id).slots[i]? = some slot ∧
      slot.parent? = old.parent? ∧
      ∀ ids, old.children? = some ids → slot.children? = some ids := by
  have hlt : i < arena.size := (Array.getElem?_eq_some_iff.mp hold).1
  rw [getElem?_expand hnode hunopened, if_pos hlt]
  by_cases hsame : i = id
  case neg =>
      rw [if_neg hsame, hold]
      exact ⟨old, rfl, rfl, fun _ hids => hids⟩
  case pos =>
      subst hsame
      obtain rfl : node = old := Option.some.inj (hnode.symm.trans hold)
      rw [if_pos rfl]
      refine ⟨_, rfl, rfl, fun ids hids => ?_⟩
      rw [hunopened] at hids
      cases hids

theorem Linked.expand_of_unopened (hlinked : arena.Linked) :
    (arena.expand id).Linked := by
  have hget := getElem?_expand hnode hunopened
  refine ⟨fun i slot ids hslot hids child hchild => ?_,
    fun i slot parent hslot hparent => ?_⟩
  · rcases slot_expand_cases hnode hunopened hslot with
      ⟨-, hold⟩ | ⟨rfl, rfl⟩ | ⟨place, -, hnew⟩
    · obtain ⟨under, hunder, hparent⟩ :=
        hlinked.parent_of_child i slot ids hold hids child hchild
      obtain ⟨after, hafter, hsame, -⟩ :=
        exists_slot_expand hnode hunopened hunder
      exact ⟨after, hafter, hsame.trans hparent⟩
    · cases hids
      obtain ⟨hle, hlt⟩ := List.mem_range'_1.mp hchild
      have hfresh : child - arena.size < (node.under i).length := by omega
      refine ⟨(node.under i)[child - arena.size], ?_, ?_⟩
      · rw [hget, if_neg (Nat.not_lt_of_le hle),
          List.getElem?_eq_getElem hfresh]
      · exact (fresh_of_mem_under (List.getElem_mem hfresh)).1
    · rw [(fresh_of_mem_under (List.mem_of_getElem? hnew)).2] at hids
      cases hids
  · have hkeep : ∀ old, arena.slots[i]? = some old → old.parent? = some parent →
        ∃ above ids, (arena.expand id).slots[parent]? = some above ∧
          above.children? = some ids ∧ i ∈ ids := by
      intro old hold hparent
      obtain ⟨above, ids, habove, hids, hmem⟩ :=
        hlinked.child_of_parent i old parent hold hparent
      obtain ⟨after, hafter, -, hkept⟩ :=
        exists_slot_expand hnode hunopened habove
      exact ⟨after, ids, hafter, hkept ids hids, hmem⟩
    rcases slot_expand_cases hnode hunopened hslot with
      ⟨-, hold⟩ | ⟨rfl, rfl⟩ | ⟨place, rfl, hnew⟩
    · exact hkeep slot hold hparent
    · exact hkeep node hnode hparent
    · have hfresh := (fresh_of_mem_under (List.mem_of_getElem? hnew)).1
      obtain rfl : id = parent := Option.some.inj (hfresh.symm.trans hparent)
      have hlt : id < arena.size := (Array.getElem?_eq_some_iff.mp hnode).1
      have hbound := (List.getElem?_eq_some_iff.mp hnew).1
      refine ⟨_, _, by rw [hget, if_pos hlt, if_pos rfl], rfl,
        List.mem_range'_1.mpr ?_⟩
      omega

end

theorem Linked.expand {arena : Arena} (hlinked : arena.Linked) (id : Nat) :
    (arena.expand id).Linked := by
  cases hnode : arena.slots[id]? with
  | none =>
      rw [Arena.expand, hnode]
      exact hlinked
  | some node =>
      cases hchildren : node.children? with
      | some ids =>
          rw [expand_of_opened hnode hchildren]
          exact hlinked
      | none => exact hlinked.expand_of_unopened hnode hchildren

theorem linked_ofTree (tree : Tree) : (ofTree tree).Linked :=
  expandAll_induction (fun _ id hlinked => hlinked.expand id)
    (linked_ofRoot tree.children) 0 tree

end Arena

theorem Document.arena_linked (document : Document) :
    document.arena.Linked := by
  rw [document.arena_eq]
  exact Arena.linked_ofTree _

theorem Tree.symbol_ne_root {tree : Tree} (htree : tree.Everywhere IsInner) :
    tree.symbol ≠ .node .root := by
  cases htree with
  | token => exact fun hsymbol => nomatch hsymbol
  | node hinner _ => exact fun hsymbol => hinner.1 (Symbol.node.inj hsymbol)

theorem Tree.Everywhere.mono {holds implied : Node.Kind → List Tree → Prop}
    {tree : Tree} (htree : tree.Everywhere holds)
    (himplies : ∀ kind children,
      holds kind children → (∀ child ∈ children, child.Everywhere holds) →
        implied kind children) :
    tree.Everywhere implied := by
  induction htree with
  | token => exact .token
  | node hhere hbelow ih => exact .node (himplies _ _ hhere hbelow) ih

theorem Document.inner_children (document : Document) : ∃ children,
    document.parse.tree = .node .root children ∧ ∀ child ∈ children,
      child.Everywhere Tree.IsInner := by
  obtain ⟨tokens, stop, hparse⟩ := document.parse_eq_parseTokens
  obtain ⟨children, htree⟩ := document.tree_eq_node
  have hchildren := Grammar.inner_parseTokens tokens stop
  rw [← hparse, htree] at hchildren
  exact ⟨children, htree, hchildren⟩

theorem Document.children_unrooted (document : Document) :
    document.parse.tree.Everywhere fun _ trees => ∀ child ∈ trees,
      child.symbol ≠ .node .root := by
  obtain ⟨children, htree, hchildren⟩ := document.inner_children
  rw [htree]
  refine .node
    (fun child hchild => Tree.symbol_ne_root (hchildren child hchild))
    fun child hchild => (hchildren child hchild).mono fun kind trees _ hbelow =>
      ?_
  exact fun below hmem => Tree.symbol_ne_root (hbelow below hmem)

/-- Wherever recovery made a node, it has tokens only. -/
def Tree.ErrorsFlat : Tree → Prop :=
  Everywhere fun kind children => kind = .error → ∀ child ∈ children,
    child.isToken = true

theorem Document.errorsFlat (document : Document) :
    document.parse.tree.ErrorsFlat := by
  obtain ⟨children, htree, hchildren⟩ := document.inner_children
  rw [htree]
  exact .node (fun hkind => nomatch hkind)
    fun child hchild => (hchildren child hchild).mono fun _ _ hinner _ =>
      hinner.2

namespace Node

variable {node child parent : Node}

theorem parent?_of_mem_children (hchild : child ∈ node.children) :
    child.parent? = some node := by
  obtain ⟨ids, hslot, hids, index, hindex, rfl⟩ :=
    exists_ids_of_mem_children hchild
  obtain ⟨under, hunder, hparent⟩ :=
    node.document.arena_linked.parent_of_child _ _ ids hslot hids index hindex
  rw [parent?, Node.slot, Arena.slot, Array.getD_eq_getD_getElem?, hunder,
    Option.getD_some, hparent]
  rfl

theorem mem_children_of_parent? (hparent : node.parent? = some parent) :
    node ∈ parent.children := by
  obtain ⟨index, hindex, rfl⟩ := Option.map_eq_some_iff.mp hparent
  rcases slot_cases (rfl : node.slot = _) with hslot | habsent
  · obtain ⟨above, ids, habove, hids, hmem⟩ :=
      node.document.arena_linked.child_of_parent _ _ index hslot hindex
    rw [children, Arena.childIds_of_slot habove hids]
    exact List.mem_map_of_mem (f := fun index => { node with index }) hmem
  · rw [habsent] at hindex
    cases hindex

theorem ancestors_of_parent? (hparent : node.parent? = some parent) :
    node.ancestors = parent :: parent.ancestors := by
  have hlt := index_parent?_lt hparent
  have hnode :=
    endsWithin_ancestors node (node.index + 1) (Nat.le_refl _) fun _ => []
  have habove := endsWithin_ancestors parent node.index hlt fun _ => []
  rw [← hnode, unroll, ancestorsStep, hparent, ← habove]

theorem ancestors_of_parent?_none (hparent : node.parent? = none) :
    node.ancestors = [] := by
  have hnode :=
    endsWithin_ancestors node (node.index + 1) (Nat.le_refl _) fun _ => []
  rw [← hnode, unroll, ancestorsStep, hparent]

theorem ancestors_of_mem_children (hchild : child ∈ node.children) :
    child.ancestors = node :: node.ancestors :=
  ancestors_of_parent? (parent?_of_mem_children hchild)

theorem kind_ne_root_of_mem_children (hchild : child ∈ node.children) :
    child.kind ≠ .root := by
  obtain ⟨offset, tree, hstands, hwithin⟩ :=
    stands_of_lt_size (Nat.lt_trans (index_lt_of_mem_children hchild).1
      (index_lt_of_mem_children hchild).2)
  have hbelow := hwithin _ node.document.children_unrooted
  cases tree with
  | token kind text => cases hstands
  | node kind trees =>
      obtain ⟨placed, hplaced, hunder⟩ :=
        exists_right_of_forall₂ hstands.children hchild
      have hne :=
        (Tree.everywhere_node.mp hbelow).1 _ (Tree.mem_of_mem_numbered hplaced)
      rw [hunder.symbol_eq] at hne
      exact fun hkind => hne (congrArg Symbol.node hkind)

theorem ancestors_of_kind_root (hkind : node.kind = .root) :
    node.ancestors = [] := by
  cases hparent : node.parent? with
  | none => exact ancestors_of_parent?_none hparent
  | some parent =>
      exact absurd hkind
        (kind_ne_root_of_mem_children (mem_children_of_parent? hparent))

end Node

end PklAnalysis

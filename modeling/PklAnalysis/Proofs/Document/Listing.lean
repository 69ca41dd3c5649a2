import PklAnalysis.Proofs.Document.Integrity

/-!
The arena that a document carries is what listing everything makes of one
with a number for the root only. Whatever is asked of it, it stays as it is,
and the answers are what its nodes say.
-/

namespace PklAnalysis.Arena

mutual

theorem walk_expandAll :
    (tree : Tree) → {arena : Arena} → {id offset : Nat} →
      {parent? : Option Nat} →
    tree.isNumbered = true →
    arena.slots[id]? = some (.ofTree parent? offset tree) →
    (more : Nat) → (rest : List Nat) →
    (walk (tree.nodeCount + more) (id :: rest) arena).1 =
      (walk more rest (arena.expandAll id tree)).1
  | .token _ _, _, _, _, _, hnumbered, _, _, _ => nomatch hnumbered
  | .node kind children, arena, id, offset, parent?, hnumbered, hslot, more,
      rest => by
      obtain ⟨-, hid, hids⟩ := expand_ofNode hslot
      have hbelow := walk_expandEach children hids List.nodup_range' more rest
      rw [Tree.nodeCount_of_isNumbered hnumbered, Nat.add_right_comm, walk,
        expandAll, childIds_of_slot hid rfl]
      exact hbelow

theorem walk_expandEach :
    (trees : List Tree) → {arena : Arena} → {ids : List Nat} →
    {offset : Nat} → {parent? : Option Nat} →
    List.Forall₂
      (fun id placed => arena.slots[id]? =
        some (.ofTree parent? placed.1 placed.2)) ids
      (Tree.numbered offset trees) → ids.Nodup → (more : Nat) →
      (rest : List Nat) →
    (walk (Tree.nodeCountAll trees + more) (ids ++ rest) arena).1 =
      (walk more rest (arena.expandEach ids trees)).1
  | [], arena, ids, offset, parent?, hslots, _, more, rest => by
      obtain rfl := List.forall₂_nil_right_iff.mp hslots
      rw [expandEach, Tree.nodeCountAll, Nat.zero_add, List.nil_append]
  | tree :: trees, arena, ids, offset, parent?, hslots, hnodup, more, rest => by
      cases hnumbered : tree.isNumbered with
      | false =>
          rw [Tree.numbered_cons_of_not offset trees hnumbered] at hslots
          rw [expandEach_of_not hnumbered, Tree.nodeCountAll,
            Tree.nodeCount_of_not hnumbered, Nat.zero_add]
          exact walk_expandEach trees hslots hnodup more rest
      | true =>
          rw [Tree.numbered_cons_of_numbered offset trees hnumbered] at hslots
          obtain _ | ⟨hslot, hslots⟩ := hslots
          rename_i id ids
          obtain ⟨hfresh, hnodup⟩ := List.nodup_cons.mp hnodup
          have hothers :=
            (opens_expandAll tree hnumbered hslot).others hfresh hslots
          rw [expandEach_of_numbered hnumbered, Tree.nodeCountAll,
            Nat.add_assoc, List.cons_append,
            walk_expandAll tree hnumbered hslot]
          exact walk_expandEach trees hothers hnodup more rest

end

end PklAnalysis.Arena

namespace PklAnalysis.Document

open Arena

theorem ask_fresh (document : Document) :
    (document.fresh.ask (.descendants 0)).1 = document.arena := by
  obtain ⟨children, htree⟩ := document.tree_eq_node
  have hslot : document.fresh.slots[0]? =
      some (.ofTree none 0 document.parse.tree) := by
    rw [fresh, htree]
    rfl
  have hnumbered : document.parse.tree.isNumbered = true := by
    rw [htree]
    rfl
  have hwalk := walk_expandAll document.parse.tree hnumbered hslot 0 []
  rw [ask, limit_of_expands .refl, document.arena_eq]
  exact hwalk

theorem expands_arena (document : Document) :
    document.fresh.Expands document.arena := by
  rw [← document.ask_fresh]
  exact document.fresh.expands_ask _

theorem limit_arena (document : Document) :
    document.arena.limit = document.arena.size := by
  rw [limit_of_expands document.expands_arena, Node.size_arena]

theorem expand_arena (document : Document) (id : Nat) :
    document.arena.expand id = document.arena := by
  by_cases hlt : id < document.arena.size
  case pos =>
      let node : Node := ⟨document, id⟩
      obtain ⟨offset, tree, hstands, -⟩ : ∃ offset tree,
        node.Stands offset tree ∧ _ :=
        Node.stands_of_lt_size hlt
      cases hstands with
      | node slot => exact expand_of_opened slot rfl
  case neg =>
      rw [expand, Array.getElem?_eq_none (Nat.le_of_not_lt hlt)]

end PklAnalysis.Document

namespace PklAnalysis.Node

open Arena

theorem map_index_children (node : Node) :
    node.children.map Node.index = node.document.arena.childIds node.index := by
  rw [children, List.map_map]
  exact List.map_id _

theorem walk_arena {document : Document} (limit : Nat) {nodes : List Node}
    (hnodes : ∀ node ∈ nodes, node.document = document) :
    Arena.walk limit (nodes.map Node.index) document.arena =
      (document.arena, (preorder limit nodes).map Node.index) := by
  induction limit generalizing nodes with
  | zero => rfl
  | succ limit ih =>
      cases nodes with
      | nil => rfl
      | cons node rest =>
          obtain ⟨rfl, hrest⟩ := List.forall_mem_cons.mp hnodes
          have hnext := ih (List.forall_mem_append.mpr
            ⟨fun child (hchild : child ∈ node.children) =>
              document_of_mem_children hchild, hrest⟩)
          rw [List.map_append, map_index_children] at hnext
          rw [List.map_cons, Arena.walk, Document.expand_arena, hnext]
          rfl

theorem descend_arena (offset limit : Nat) (node : Node) :
    Arena.descend offset limit node.index node.document.arena =
      (node.document.arena, (descend offset limit node).index) := by
  induction limit generalizing node with
  | zero => rfl
  | succ limit ih =>
      have hfind : ((node.document.arena.childIds node.index).find? fun child =>
            (node.document.arena.slot child).range.touches offset) =
          (node.children.find? fun child => child.range.touches offset).map
            Node.index := by
        rw [children, List.find?_map, Option.map_map]
        exact (congrFun Option.map_id _).symm
      rw [Arena.descend, Document.expand_arena, hfind, descend]
      cases hchild : node.children.find? fun child =>
        child.range.touches offset with
      | none => rfl
      | some child =>
          have hdocument :=
            document_of_mem_children (List.mem_of_find?_eq_some hchild)
          have hbelow := ih child
          rw [hdocument] at hbelow
          exact hbelow

/-- What can be asked about a node is answered by the numbers of the nodes that
are its relatives, and the arena of the document stays as it is. -/
def AnswersRequests (node : Node) (offset : Nat) : Prop :=
  let arena := node.document.arena
  arena.ask (.children node.index) = (arena, node.children.map Node.index) ∧
    arena.ask (.descendants node.index) =
      (arena, node.descendants.map Node.index) ∧
    arena.ask (.touching node.index offset) =
      (arena, (node.at? offset).toList.map Node.index)

theorem answersRequests (node : Node) (offset : Nat) :
    node.AnswersRequests offset := by
  refine ⟨?_, ?_, ?_⟩
  · rw [ask, Document.expand_arena, map_index_children]
  · rw [ask, Document.limit_arena, descendants]
    exact walk_arena _ (List.forall_mem_singleton.mpr rfl)
  · rw [ask, Document.limit_arena, descend_arena, at?]
    change (if node.range.touches offset = true then _ else _) = _
    split <;> rfl

end PklAnalysis.Node

namespace PklAnalysis.Document

open Arena
open PklAnalysis.Tree (Spot)

/-- Whatever is asked about the nodes of a document, in whichever order and
however often, leaves the arena intact: every node but the root is once among
the children of one node, the numbers of these follow each other and are
larger, no two numbers are for the same node of the tree, and a request that is
made again gets the same answer without a new node. Listing everything lists
the nodes of the tree in its order, and then the arena has no others; the one
of the document is made so, and answers what its nodes say. -/
theorem integrity_run (document : Document) (requests : List Request) :
    let arena := document.fresh.run requests
    let listing := arena.ask (.descendants 0)
    (∀ id, id < arena.size → id ≠ 0 → ∃ parent,
      (arena.slot id).parent? = some parent ∧
      ∀ other, (arena.childIds other).count id = if other = parent then 1
        else 0) ∧
    (∀ id, ∃ first, id < first ∧
      arena.childIds id = List.range' first (arena.childIds id).length) ∧
    (∀ more, arena.Grows (arena.run more)) ∧
    (∀ request more, request.id < arena.size →
      ((arena.ask request).1.run more).ask request =
        ((arena.ask request).1.run more, (arena.ask request).2)) ∧
    ((document.fresh.ask (.descendants 0)).1 = document.arena ∧
      ∀ id offset, Node.AnswersRequests ⟨document, id⟩ offset) ∧
    ∃ spots, arena.Wraps spots ∧ (spots.map Spot.path).Nodup ∧
      spots ⊆ document.parse.tree.spots [] 0 ∧
      ∃ later, spots <+: later ∧ listing.1.Wraps later ∧
        later.Perm (document.parse.tree.spots [] 0) ∧
        listing.2.map (later[·]?) =
          (document.parse.tree.spots [] 0).map some := by
  intro arena listing
  have hexpands : document.fresh.Expands arena :=
    document.fresh.expands_run requests
  obtain ⟨spots, -, hintact⟩ := hexpands.intact document.intact_fresh
  refine ⟨fun id => hintact.exists_parent, hintact.childIds_eq_range',
    fun more => (arena.expands_run more).grows, fun request more hid => ?_,
    ⟨document.ask_fresh, fun id => Node.answersRequests ⟨document, id⟩⟩, spots,
      hintact.wraps, hintact.nodup, hintact.within,
        exists_listing hexpands hintact⟩
  exact ask_again hintact.toOrdered hid ((arena.ask request).1.expands_run more)

def strayModule : Document :=
  .ofTokens "file:///m" "x = 1 )\ny = 2\n"
    [⟨.identifier, "x", 0⟩, ⟨.whitespace, " ", 1⟩, ⟨.equal, "=", 2⟩,
     ⟨.whitespace, " ", 3⟩, ⟨.intNumber, "1", 4⟩, ⟨.whitespace, " ", 5⟩,
     ⟨.rightParen, ")", 6⟩, ⟨.whitespace, "\n", 7⟩, ⟨.identifier, "y", 8⟩,
     ⟨.whitespace, " ", 9⟩, ⟨.equal, "=", 10⟩, ⟨.whitespace, " ", 11⟩,
     ⟨.intNumber, "2", 12⟩, ⟨.whitespace, "\n", 13⟩]
    (Token.ok_of_toOption (by decide +kernel))

theorem integrity_run_strayModule :
    let arena := strayModule.fresh.run [.touching 0 9, .children 1, .children 0]
    (4 < arena.size ∧ ∃ parent, (arena.slot 4).parent? = some parent ∧
      ∀ other, (arena.childIds other).count 4 = if other = parent then 1
        else 0) ∧
    ((arena.ask (.touching 0 4)).1.run [.descendants 0]).ask (.touching 0 4) =
      ((arena.ask (.touching 0 4)).1.run [.descendants 0],
        (arena.ask (.touching 0 4)).2) :=
  let integrity :=
    integrity_run strayModule [.touching 0 9, .children 1, .children 0]
  ⟨⟨by decide +kernel, integrity.1 4 (by decide +kernel) (by decide)⟩,
    integrity.2.2.2.1 (.touching 0 4) [.descendants 0] (by decide +kernel)⟩

end PklAnalysis.Document

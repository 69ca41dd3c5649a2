import PklAnalysis.Proofs.Node.Relatives
import PklAnalysis.Proofs.Node.Walk

/-!
Numbers grow downwards: a node has a larger number than the node above it and a
smaller one than each node below it. So what goes up or down a tree ends.
-/

namespace PklAnalysis

namespace Arena

structure Ordered (arena : Arena) : Prop where
  parent_lt : ∀ (id : Nat) (slot : Slot) (parent : Nat),
    arena.slots[id]? = some slot → slot.parent? = some parent → parent < id
  child_gt : ∀ (id : Nat) (slot : Slot) (ids : List Nat),
    arena.slots[id]? = some slot →
    slot.children? = some ids → ∀ child ∈ ids, id < child ∧ child < arena.size

theorem eq_of_slot_ofRoot {children : List Tree} {id : Nat} {slot : Slot}
    (hslot : (ofRoot children).slots[id]? = some slot) :
    id = 0 ∧ slot = .ofNode none 0 .root children := by
  simp only [ofRoot, List.getElem?_toArray, List.getElem?_singleton] at hslot
  split at hslot
  case isTrue hzero => exact ⟨hzero, (Option.some.inj hslot).symm⟩
  case isFalse => cases hslot

theorem ordered_ofRoot (children : List Tree) : (ofRoot children).Ordered := by
  refine ⟨fun id slot parent hslot hparent => ?_,
    fun id slot ids hslot hids => ?_⟩
  · rw [(eq_of_slot_ofRoot hslot).2] at hparent
    cases hparent
  · rw [(eq_of_slot_ofRoot hslot).2] at hids
    cases hids

theorem fresh_of_mem_under {id : Nat} {slot fresh : Slot}
    (hfresh : fresh ∈ slot.under id) :
    fresh.parent? = some id ∧ fresh.children? = none := by
  obtain ⟨⟨offset, tree⟩, -, hmember⟩ := List.mem_filterMap.mp hfresh
  simp only at hmember
  split at hmember
  case h_1 => cases hmember
  case h_2 => cases hmember
  case h_3 =>
      cases hmember
      exact ⟨rfl, rfl⟩

theorem expand_cases (arena : Arena) (id : Nat) :
    arena.expand id = arena ∨ ∃ slot, arena.slots[id]? = some slot ∧
      (arena.expand id).slots =
        arena.slots.setIfInBounds id
            { slot with
              children? := some (List.range' arena.size (slot.under id).length) }
              ++
          (slot.under id).toArray := by
  rw [expand]
  split
  case h_1 => exact .inl rfl
  case h_2 slot hslot =>
      split
      case h_1 => exact .inl rfl
      case h_2 => exact .inr ⟨slot, hslot, rfl⟩

theorem size_le_expand (arena : Arena) (id : Nat) :
    arena.size ≤ (arena.expand id).size := by
  rcases arena.expand_cases id with hsame | ⟨slot, -, hslots⟩
  · exact Nat.le_of_eq (congrArg size hsame).symm
  · rw [size, size, hslots, Array.size_append, Array.size_setIfInBounds]
    exact Nat.le_add_right _ _

theorem slot_expand {arena : Arena} {id i : Nat} {slot : Slot}
    (hslot : (arena.expand id).slots[i]? = some slot) :
    arena.slots[i]? = some slot ∨
      (∃ old, arena.slots[i]? = some old ∧ slot.parent? = old.parent? ∧
        ∃ count, slot.children? = some (List.range' arena.size count) ∧
          (arena.expand id).size = arena.size + count) ∨
      arena.size ≤ i ∧ id < arena.size ∧ slot.parent? = some id ∧
        slot.children? = none := by
  rcases arena.expand_cases id with hsame | ⟨expanded, hexpanded, hslots⟩
  · rw [hsame] at hslot
    exact .inl hslot
  · have hsize : (arena.expand id).size =
        arena.size + (expanded.under id).length := by
      simp [size, hslots]
    rw [hslots, Array.getElem?_append, Array.size_setIfInBounds] at hslot
    split at hslot
    case isTrue hold =>
        rw [Array.getElem?_setIfInBounds] at hslot
        split at hslot
        case isTrue hid =>
            subst hid
            rw [if_pos hold] at hslot
            cases hslot
            exact .inr (.inl ⟨expanded, hexpanded, rfl, _, rfl, hsize⟩)
        case isFalse => exact .inl hslot
    case isFalse hnew =>
        rw [List.getElem?_toArray] at hslot
        obtain ⟨hparent, hchildren⟩ :=
          fresh_of_mem_under (List.mem_of_getElem? hslot)
        have hid := (Array.getElem?_eq_some_iff.mp hexpanded).1
        exact .inr (.inr ⟨Nat.le_of_not_lt hnew, hid, hparent, hchildren⟩)

theorem Ordered.expand {arena : Arena} (hordered : arena.Ordered) (id : Nat) :
    (arena.expand id).Ordered := by
  have hsize := size_le_expand arena id
  refine ⟨fun i slot parent hslot hparent => ?_,
    fun i slot ids hslot hids child hchild => ?_⟩
  · rcases slot_expand hslot with
      hold | ⟨old, hold, hsame, -⟩ | ⟨hle, hlt, hnew, -⟩
    · exact hordered.parent_lt i slot parent hold hparent
    · exact hordered.parent_lt i old parent hold (hsame ▸ hparent)
    · obtain rfl : id = parent := Option.some.inj (hnew.symm.trans hparent)
      exact Nat.lt_of_lt_of_le hlt hle
  · rcases slot_expand hslot with
      hold | ⟨old, hold, -, count, hcount, hnext⟩ | ⟨-, -, -, hnew⟩
    · obtain ⟨hlt, hbound⟩ :=
        hordered.child_gt i slot ids hold hids child hchild
      exact ⟨hlt, Nat.lt_of_lt_of_le hbound hsize⟩
    · obtain rfl : _ = ids := Option.some.inj (hcount.symm.trans hids)
      have hid : i < arena.size := (Array.getElem?_eq_some_iff.mp hold).1
      have hrange := List.mem_range'_1.mp hchild
      omega
    · rw [hnew] at hids
      cases hids

mutual

theorem expandAll_induction {holds : Arena → Prop}
    (hexpand : ∀ arena id, holds arena → holds (arena.expand id))
    {arena : Arena} (harena : holds arena) (id : Nat) :
    ∀ tree, holds (arena.expandAll id tree)
  | .token _ _ => by
      rw [Arena.expandAll]
      exact harena
  | .node _ children => by
      rw [Arena.expandAll]
      exact expandEach_induction hexpand (hexpand arena id harena) _ children

theorem expandEach_induction {holds : Arena → Prop}
    (hexpand : ∀ arena id, holds arena → holds (arena.expand id))
    {arena : Arena} (harena : holds arena) :
    ∀ (ids : List Nat) (trees : List Tree),
      holds (arena.expandEach ids trees)
  | ids, [] => by
      rw [Arena.expandEach]
      exact harena
  | ids, .token _ _ :: rest => by
      rw [Arena.expandEach]
      exact expandEach_induction hexpand harena ids rest
  | ids, .node kind children :: rest => by
      rw [Arena.expandEach.eq_def]
      dsimp only
      split
      case isTrue => exact expandEach_induction hexpand harena ids rest
      case isFalse =>
          cases ids with
          | nil => exact harena
          | cons id ids =>
              have hfirst :=
                expandAll_induction hexpand harena id (.node kind children)
              exact expandEach_induction hexpand hfirst ids rest

end

theorem ordered_ofTree (tree : Tree) : (ofTree tree).Ordered :=
  expandAll_induction (fun _ id hordered => hordered.expand id)
    (ordered_ofRoot tree.children) 0 tree

end Arena

theorem Document.arena_ordered (document : Document) :
    document.arena.Ordered := by
  rw [document.arena_eq]
  exact Arena.ordered_ofTree _

namespace Node

theorem slot_cases {node : Node} {slot : Slot} (hslot : node.slot = slot) :
    node.document.arena.slots[node.index]? = some slot ∨ slot = .absent := by
  rw [Node.slot, Arena.slot, Array.getD_eq_getD_getElem?] at hslot
  cases hfound : node.document.arena.slots[node.index]? with
  | none =>
      rw [hfound] at hslot
      exact .inr hslot.symm
  | some found =>
      rw [hfound] at hslot
      exact .inl (congrArg some hslot)

theorem index_parent?_lt {node parent : Node}
    (hparent : node.parent? = some parent) :
    parent.index < node.index := by
  obtain ⟨index, hindex, rfl⟩ := Option.map_eq_some_iff.mp hparent
  rcases slot_cases (rfl : node.slot = _) with hslot | habsent
  · exact node.document.arena_ordered.parent_lt _ _ _ hslot hindex
  · rw [habsent] at hindex
    cases hindex

theorem exists_ids_of_mem_children {node child : Node}
    (hchild : child ∈ node.children) :
    ∃ ids, node.document.arena.slots[node.index]? = some node.slot ∧
      node.slot.children? = some ids ∧
      ∃ index ∈ ids, { node with index } = child := by
  obtain ⟨index, hindex, hsame⟩ := List.mem_map.mp hchild
  change index ∈ node.slot.children?.getD [] at hindex
  cases hids : node.slot.children? with
  | none =>
      rw [hids] at hindex
      cases hindex
  | some ids =>
      rw [hids] at hindex
      rcases slot_cases (rfl : node.slot = _) with hslot | habsent
      · exact ⟨ids, hslot, rfl, index, hindex, hsame⟩
      · rw [habsent] at hids
        cases hids

theorem index_lt_of_mem_children {node child : Node}
    (hchild : child ∈ node.children) :
    node.index < child.index ∧ child.index < node.document.arena.size := by
  obtain ⟨ids, hslot, hids, index, hindex, rfl⟩ :=
    exists_ids_of_mem_children hchild
  exact node.document.arena_ordered.child_gt _ _ ids hslot hids index hindex

def ancestorsStep (rest : Node → List Node) (node : Node) : List Node :=
  match node.parent? with
  | none => []
  | some parent => parent :: rest parent

theorem unroll_ancestorsStep {fuel limit : Nat} {node : Node}
    (hfuel : node.index < fuel) (hlimit : node.index ≤ limit)
    (stuck : Node → List Node) :
    unroll ancestorsStep stuck fuel node = ancestorsUpTo limit node := by
  induction fuel generalizing limit node with
  | zero => exact absurd hfuel (Nat.not_lt_zero _)
  | succ fuel ih =>
      rw [unroll, ancestorsStep]
      cases hparent : node.parent? with
      | none => cases limit <;> simp [ancestorsUpTo, hparent]
      | some parent =>
          have hlt := index_parent?_lt hparent
          cases limit with
          | zero => omega
          | succ limit =>
              have hparentFuel : parent.index < fuel := by omega
              have hparentLimit : parent.index ≤ limit := by omega
              rw [ancestorsUpTo, hparent]
              exact congrArg (parent :: ·) (ih hparentFuel hparentLimit)

theorem endsWithin_ancestors (node : Node) :
    EndsWithin ancestorsStep (node.index + 1) node node.ancestors :=
  fun _ hfuel stuck => unroll_ancestorsStep hfuel (Nat.le_refl _) stuck

def alternativesStep (rest : Node → List Node) (node : Node) : List Node :=
  node.types.flatMap fun member => if member.kind = .unionType then rest member
    else [member]

theorem unroll_alternativesStep {fuel limit : Nat} {node : Node}
    (hpos : 0 < fuel) (hfuel : node.document.arena.size < node.index + fuel)
    (hlimit : node.document.arena.size ≤ node.index + limit)
    (stuck : Node → List Node) :
    unroll alternativesStep stuck fuel node = alternativesUpTo limit node := by
  induction fuel generalizing limit node with
  | zero => exact absurd hpos (Nat.lt_irrefl 0)
  | succ fuel ih =>
      have hbelow : ∀ member ∈ node.types,
          node.index < member.index ∧ member.index < node.document.arena.size :=
        fun member hmember =>
          index_lt_of_mem_children (List.mem_filter.mp hmember).1
      rw [unroll, alternativesStep]
      cases limit with
      | zero =>
          -- the node has the last number, so nothing is below it
          have hnone : node.types = [] := by
            refine List.eq_nil_iff_forall_not_mem.mpr fun member hmember => ?_
            have hbounds := hbelow member hmember
            omega
          rw [hnone, alternativesUpTo, List.flatMap_nil]
      | succ limit =>
          rw [alternativesUpTo]
          refine List.flatMap_congr fun member hmember => ?_
          have hbounds := hbelow member hmember
          have hdocument : member.document = node.document :=
            document_of_mem_types hmember
          split
          case isTrue =>
              refine ih (by omega) ?_ ?_
              · rw [hdocument]
                omega
              · rw [hdocument]
                omega
          case isFalse => rfl

theorem endsWithin_alternatives (node : Node) :
    EndsWithin alternativesStep (node.document.arena.size + 1) node
      node.alternatives := by
  intro fuel hfuel stuck
  have hpos : 0 < fuel := Nat.lt_of_lt_of_le (Nat.succ_pos _) hfuel
  have hsize : node.document.arena.size < node.index + fuel :=
    Nat.lt_of_lt_of_le hfuel (Nat.le_add_left _ _)
  exact unroll_alternativesStep hpos hsize (Nat.le_add_left _ _) stuck

end Node

end PklAnalysis

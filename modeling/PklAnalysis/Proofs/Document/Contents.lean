import PklAnalysis.Proofs.Document.Arena
import PklAnalysis.Proofs.Grammar.Shape

/-!
An arena holds the nodes of its tree: every node but those of recovery has a
slot, and the slots of the nodes directly under it come in the order in which
these stand in the tree.
-/

namespace PklAnalysis

theorem exists_right_of_forall₂ {R : α → β → Prop} {left : List α}
    {right : List β} (hall : List.Forall₂ R left right) {a : α}
    (ha : a ∈ left) : ∃ b ∈ right, R a b := by
  induction hall with
  | nil => cases ha
  | cons hhead _ ih =>
      cases List.mem_cons.mp ha with
      | inl hfirst => exact ⟨_, List.mem_cons_self, hfirst ▸ hhead⟩
      | inr hrest =>
          obtain ⟨b, hb, hR⟩ := ih hrest
          exact ⟨b, List.mem_cons_of_mem _ hb, hR⟩

theorem exists_left_of_forall₂ {R : α → β → Prop} {left : List α}
    {right : List β} (hall : List.Forall₂ R left right) {b : β}
    (hb : b ∈ right) : ∃ a ∈ left, R a b :=
  exists_right_of_forall₂ (List.Forall₂.flip hall) hb

namespace Tree

def isNumbered : Tree → Bool
  | .token _ _ => false
  | .node kind _ => kind ≠ .error

def numbered (offset : Nat) (trees : List Tree) : List (Nat × Tree) :=
  (place offset trees).filter fun placed => placed.2.isNumbered

theorem numbered_cons_of_numbered (offset : Nat) {tree : Tree}
    (rest : List Tree) (hnumbered : tree.isNumbered = true) :
    numbered offset (tree :: rest) =
      (offset, tree) :: numbered (offset + tree.size) rest := by
  rw [numbered, place, List.filter_cons_of_pos (by exact hnumbered), numbered]

theorem numbered_cons_of_not (offset : Nat) {tree : Tree} (rest : List Tree)
    (hnumbered : tree.isNumbered = false) :
    numbered offset (tree :: rest) = numbered (offset + tree.size) rest := by
  rw [numbered, place, List.filter_cons_of_neg (by simp [hnumbered]), numbered]

theorem map_snd_place (offset : Nat) (trees : List Tree) :
    (place offset trees).map Prod.snd = trees := by
  induction trees generalizing offset with
  | nil => rfl
  | cons tree rest ih => rw [place, List.map_cons, ih]

theorem sizeAll_append (left right : List Tree) :
    sizeAll (left ++ right) = sizeAll left + sizeAll right := by
  induction left with
  | nil => rw [List.nil_append, sizeAll, Nat.zero_add]
  | cons tree rest ih =>
      rw [List.cons_append, sizeAll, sizeAll, ih, Nat.add_assoc]

theorem place_append (offset : Nat) (left right : List Tree) :
    place offset (left ++ right) =
      place offset left ++ place (offset + sizeAll left) right := by
  induction left generalizing offset with
  | nil => rfl
  | cons tree rest ih =>
      rw [List.cons_append, place, place, sizeAll, ih, List.cons_append,
        Nat.add_assoc]

theorem numbered_append (offset : Nat) (left right : List Tree) :
    numbered offset (left ++ right) =
      numbered offset left ++ numbered (offset + sizeAll left) right := by
  rw [numbered, place_append, List.filter_append, numbered, numbered]

theorem mem_of_mem_numbered {offset : Nat} {trees : List Tree}
    {placed : Nat × Tree} (hplaced : placed ∈ numbered offset trees) :
    placed.2 ∈ trees := by
  rw [← map_snd_place offset trees]
  exact List.mem_map_of_mem (List.mem_filter.mp hplaced).1

mutual
/-- The number of nodes in a tree, those of recovery and in them not counted. -/
def nodeCount : Tree → Nat
  | .token _ _ => 0
  | .node kind children =>
      if kind = .error then 0 else nodeCountAll children + 1

def nodeCountAll : List Tree → Nat
  | [] => 0
  | tree :: rest => tree.nodeCount + nodeCountAll rest
end

theorem nodeCount_of_not {tree : Tree} (hnumbered : tree.isNumbered = false) :
    tree.nodeCount = 0 := by
  cases tree with
  | token kind text => rfl
  | node kind children =>
      rw [isNumbered, decide_eq_false_iff_not, not_not] at hnumbered
      rw [nodeCount, if_pos hnumbered]

theorem nodeCount_node {kind : Node.Kind} (children : List Tree)
    (hkind : kind ≠ .error) :
    (node kind children).nodeCount = nodeCountAll children + 1 := by
  rw [nodeCount, if_neg hkind]

theorem sum_nodeCount_numbered (offset : Nat) (trees : List Tree) :
    ((numbered offset trees).map fun placed => placed.2.nodeCount).sum =
      nodeCountAll trees := by
  induction trees generalizing offset with
  | nil => rfl
  | cons tree rest ih =>
      cases hnumbered : tree.isNumbered with
      | true =>
          rw [numbered_cons_of_numbered offset rest hnumbered, List.map_cons,
            List.sum_cons, ih, nodeCountAll]
      | false =>
          rw [numbered_cons_of_not offset rest hnumbered, ih, nodeCountAll,
            nodeCount_of_not hnumbered, Nat.zero_add]

theorem exists_mem_numbered {offset : Nat} {trees : List Tree}
    {kind : Node.Kind} {children : List Tree} (hkind : kind ≠ .error)
    (hmem : node kind children ∈ trees) :
    ∃ start, (start, node kind children) ∈ numbered offset trees := by
  rw [← map_snd_place offset trees] at hmem
  obtain ⟨⟨start, tree⟩, hplaced, rfl⟩ := List.mem_map.mp hmem
  exact ⟨start, List.mem_filter.mpr ⟨hplaced, decide_eq_true hkind⟩⟩

end Tree

def Slot.ofTree (parent? : Option Nat) (offset : Nat) (tree : Tree) : Slot :=
  match tree with
  | .token _ _ => .absent
  | .node kind children => .ofNode parent? offset kind children

theorem Slot.terminalsOf_append (offset : Nat) (left right : List Tree) :
    terminalsOf offset (left ++ right) =
      terminalsOf offset left ++
        terminalsOf (offset + Tree.sizeAll left) right := by
  rw [terminalsOf, Tree.place_append, List.filterMap_append, terminalsOf,
    terminalsOf]

theorem Slot.under_ofNode (id : Nat) (parent? : Option Nat) (offset : Nat)
    (kind : Node.Kind) (children : List Tree) :
    (Slot.ofNode parent? offset kind children).under id =
        (Tree.numbered offset children).map fun placed =>
          .ofTree (some id) placed.1 placed.2 := by
  rw [Slot.under, Tree.numbered, ← List.filterMap_eq_map, List.filterMap_filter]
  refine List.filterMap_congr fun placed _ => ?_
  obtain ⟨offset, tree⟩ := placed
  cases tree with
  | token kind text => rfl
  | node kind children => cases kind <;> rfl

namespace Arena

/-- The slot of an expanded node that stands at an offset, where the nodes under
it have slots as well. -/
inductive Holds (arena : Arena) : Nat → Nat × Tree → Prop
  | node {id offset : Nat} {parent? : Option Nat} {kind : Node.Kind}
  {children : List Tree}
      {ids : List Nat}
      (slot : arena.slots[id]? =
        some { Slot.ofNode parent? offset kind children with
          children? := some ids })
      (length : ids.length = (Tree.numbered offset children).length)
      (below : ∀ {child placed},
        (child, placed) ∈ ids.zip (Tree.numbered offset children) →
        Holds arena child placed) : Holds arena id (offset, .node kind children)

def Extends (before after : Arena) : Prop :=
  ∀ (id : Nat) (slot : Slot), before.slots[id]? = some slot →
    slot.children?.isSome = true → after.slots[id]? = some slot

theorem Holds.extend {before after : Arena} {id : Nat} {placed : Nat × Tree}
    (hholds : before.Holds id placed) (hextends : before.Extends after) :
    after.Holds id placed := by
  induction hholds with
  | node slot length _ ih =>
      exact .node (hextends _ _ slot rfl) length fun hmem => ih hmem

/-- From one arena to another the nodes with some numbers are expanded, and all
that is under them. Slots of other nodes stay as they are. -/
structure Opens (ids : List Nat) (placed : List (Nat × Tree)) (count : Nat)
    (before after : Arena) :
    Prop where
  holds : List.Forall₂ after.Holds ids placed
  extend : before.Extends after
  size_eq : after.size + ids.length = before.size + count
  slot_eq : ∀ id, id < before.size → id ∉ ids →
    after.slots[id]? = before.slots[id]?
  cover : ∀ id, before.size ≤ id → id < after.size → ∃ spot,
    after.Holds id spot ∧
    ∃ outer ∈ placed, ∀ holds, outer.2.Everywhere holds →
    spot.2.Everywhere holds

theorem slots_expand {arena : Arena} {id : Nat} {slot : Slot}
    (hslot : arena.slots[id]? = some slot) (hunopened : slot.children? = none) :
    (arena.expand id).slots =
        arena.slots.setIfInBounds id
            { slot with
              children? := some (List.range' arena.size (slot.under id).length) }
              ++
        (slot.under id).toArray := by
  rw [expand, hslot]
  simp only [hunopened]

theorem slot_expand_of_ne {arena : Arena} {id other : Nat}
    (hlt : other < arena.size) (hne : other ≠ id) :
    (arena.expand id).slots[other]? = arena.slots[other]? := by
  rcases arena.expand_cases id with hsame | ⟨slot, -, hslots⟩
  · rw [hsame]
  · have hold : other < arena.slots.size := hlt
    rw [hslots, Array.getElem?_append, Array.size_setIfInBounds, if_pos hold,
      Array.getElem?_setIfInBounds, if_neg (Ne.symm hne)]

theorem extends_expand {arena : Arena} {id : Nat} {slot : Slot}
    (hslot : arena.slots[id]? = some slot) (hunopened : slot.children? = none) :
    arena.Extends (arena.expand id) := by
  intro other found hfound hopened
  have hlt : other < arena.size := (Array.getElem?_eq_some_iff.mp hfound).1
  have hne : other ≠ id := by
    rintro rfl
    obtain rfl : slot = found := Option.some.inj (hslot.symm.trans hfound)
    rw [hunopened] at hopened
    cases hopened
  rw [slot_expand_of_ne hlt hne, hfound]

theorem Extends.trans {first second third : Arena}
    (hfirst : first.Extends second) (hsecond : second.Extends third) :
    first.Extends third :=
  fun id slot hslot hopened =>
    hsecond id slot (hfirst id slot hslot hopened) hopened

theorem expand_ofNode {arena : Arena} {id offset : Nat} {parent? : Option Nat}
    {kind : Node.Kind} {children : List Tree}
    (hslot : arena.slots[id]? = some (.ofNode parent? offset kind children)) :
    let ids := List.range' arena.size (Tree.numbered offset children).length
    (arena.expand id).size = arena.size + ids.length ∧
      (arena.expand id).slots[id]? =
        some { Slot.ofNode parent? offset kind children with
          children? := some ids } ∧
      List.Forall₂ (fun child placed =>
          (arena.expand id).slots[child]? =
            some (.ofTree (some id) placed.1 placed.2))
        ids (Tree.numbered offset children) := by
  intro ids
  have hslots := slots_expand hslot rfl
  rw [Slot.under_ofNode, List.length_map] at hslots
  have hlt : id < arena.slots.size := (Array.getElem?_eq_some_iff.mp hslot).1
  have hlength : ids.length = (Tree.numbered offset children).length :=
    List.length_range'
  refine ⟨?_, ?_, List.forall₂_iff_get.mpr ⟨hlength, fun i hi hi' => ?_⟩⟩
  · simp [size, hslots, hlength]
  · rw [hslots, Array.getElem?_append, Array.size_setIfInBounds, if_pos hlt,
      Array.getElem?_setIfInBounds, if_pos rfl, if_pos hlt]
  · have hget : ids.get ⟨i, hi⟩ = arena.slots.size + i := by
      simp [ids, size]
    rw [hget, hslots, Array.getElem?_append_right (by simp),
      Array.size_setIfInBounds, Nat.add_sub_cancel_left, List.getElem?_toArray,
      List.getElem?_map, List.getElem?_eq_getElem hi']
    rfl

theorem childIds_of_slot {arena : Arena} {id : Nat} {slot : Slot}
    {ids : List Nat} (hslot : arena.slots[id]? = some slot)
    (hids : slot.children? = some ids) :
    arena.childIds id = ids := by
  rw [childIds, Arena.slot, Array.getD_eq_getD_getElem?, hslot,
    Option.getD_some, hids, Option.getD_some]

theorem expandEach_of_not {tree : Tree} (hnumbered : tree.isNumbered = false)
    (arena : Arena) (ids : List Nat) (rest : List Tree) :
    arena.expandEach ids (tree :: rest) = arena.expandEach ids rest := by
  cases tree with
  | token kind text => rw [expandEach]
  | node kind children =>
      rw [Tree.isNumbered, decide_eq_false_iff_not, not_not] at hnumbered
      rw [expandEach.eq_def]
      exact if_pos hnumbered

theorem expandEach_of_numbered {tree : Tree}
    (hnumbered : tree.isNumbered = true) (arena : Arena) (id : Nat)
    (ids : List Nat) (rest : List Tree) :
    arena.expandEach (id :: ids) (tree :: rest) =
      (arena.expandAll id tree).expandEach ids rest := by
  cases tree with
  | token kind text => cases hnumbered
  | node kind children =>
      rw [expandEach.eq_def]
      exact if_neg (of_decide_eq_true hnumbered)

theorem Opens.others {before after : Arena} {id count : Nat} {spot : Nat × Tree}
    (hopens : Opens [id] [spot] count before after) {parent? : Option Nat}
    {ids : List Nat} {placed : List (Nat × Tree)} (hfresh : id ∉ ids)
    (hslots : List.Forall₂
      (fun other placed => before.slots[other]? =
        some (.ofTree parent? placed.1 placed.2)) ids placed) :
    List.Forall₂ (fun other placed =>
      after.slots[other]? = some (.ofTree parent? placed.1 placed.2)) ids
        placed := by
  refine List.forall₂_iff_zip.mpr ⟨hslots.length_eq,
    fun {other placed} hmem => ?_⟩
  have hother := (List.forall₂_iff_zip.mp hslots).2 hmem
  have hne : other ≠ id :=
    fun hsame => hfresh (hsame ▸ (List.of_mem_zip hmem).1)
  rw [hopens.slot_eq other (Array.getElem?_eq_some_iff.mp hother).1
    (List.mem_singleton.not.mpr hne), hother]

theorem Opens.cons {before middle after : Arena} {id count counts : Nat}
    {spot : Nat × Tree} {ids : List Nat} {spots : List (Nat × Tree)}
    (hfirst : Opens [id] [spot] count before middle)
    (hrest : Opens ids spots counts middle after) :
    Opens (id :: ids) (spot :: spots) (count + counts) before after := by
  refine ⟨.cons ((List.forall₂_cons.mp hfirst.holds).1.extend hrest.extend)
    hrest.holds,
    hfirst.extend.trans hrest.extend, ?_, fun other hother hne => ?_,
      fun other hnew hother => ?_⟩
  · have hsizeFirst := hfirst.size_eq
    have hsizeRest := hrest.size_eq
    rw [List.length_singleton] at hsizeFirst
    rw [List.length_cons]
    omega
  · obtain ⟨hne, hnot⟩ := not_or.mp (List.mem_cons.not.mp hne)
    have hsame := hfirst.slot_eq other hother (List.mem_singleton.not.mpr hne)
    have hstill : other < middle.size :=
      (Array.getElem?_eq_some_iff.mp
        (hsame.trans (Array.getElem?_eq_getElem hother))).1
    rw [hrest.slot_eq other hstill hnot, hsame]
  · by_cases hearly : other < middle.size
    case pos =>
        obtain ⟨spot, hholds, outer, houter, hwithin⟩ :=
          hfirst.cover other hnew hearly
        rw [List.mem_singleton.mp houter] at hwithin
        exact ⟨spot, hholds.extend hrest.extend, _, List.mem_cons_self, hwithin⟩
    case neg =>
        obtain ⟨spot, hholds, outer, houter, hwithin⟩ :=
          hrest.cover other (Nat.le_of_not_lt hearly) hother
        exact ⟨spot, hholds, outer, List.mem_cons_of_mem _ houter, hwithin⟩

mutual

theorem opens_expandAll :
    (tree : Tree) → {arena : Arena} → {id offset : Nat} →
      {parent? : Option Nat} →
    tree.isNumbered = true →
    arena.slots[id]? = some (.ofTree parent? offset tree) →
    Opens [id] [(offset, tree)] tree.nodeCount arena (arena.expandAll id tree)
  | .token _ _, _, _, _, _, hnumbered, _ => nomatch hnumbered
  | .node kind children, arena, id, offset, parent?, hnumbered, hslot => by
      obtain ⟨hsize, hid, hids⟩ := expand_ofNode hslot
      have hkind : kind ≠ .error := of_decide_eq_true hnumbered
      have hlt : id < arena.size := (Array.getElem?_eq_some_iff.mp hslot).1
      have hopens := opens_expandEach children hids List.nodup_range'
      rw [expandAll, childIds_of_slot hid rfl]
      have hnode := hopens.extend id _ hid rfl
      refine ⟨.cons (.node hnode hids.length_eq fun hmem => ?_) .nil,
        (extends_expand hslot rfl).trans hopens.extend, ?_,
        fun other hother hne => ?_, fun other hnew hother => ?_⟩
      · exact (List.forall₂_iff_zip.mp hopens.holds).2 hmem
      · have hgrown := hopens.size_eq
        rw [hsize] at hgrown
        rw [Tree.nodeCount_node children hkind, List.length_singleton]
        omega
      · have hne : other ≠ id :=
          fun hsame => hne (hsame ▸ List.mem_singleton_self other)
        have hfresh :
            other ∉
              List.range' arena.size (Tree.numbered offset children).length :=
          fun hmem => absurd (List.mem_range'_1.mp hmem).1
            (Nat.not_le_of_lt hother)
        rw [hopens.slot_eq other
            (Nat.lt_of_lt_of_le hother (size_le_expand arena id)) hfresh,
          slot_expand_of_ne hother hne]
      · obtain ⟨spot, hholds, outer, houter, hwithin⟩ :
            ∃ spot,
              (((arena.expand id).expandEach _ children).Holds other spot) ∧
              ∃ outer ∈ Tree.numbered offset children,
                ∀ holds, outer.2.Everywhere holds →
                spot.2.Everywhere holds := by
          by_cases hchild : other < (arena.expand id).size
          case pos =>
              rw [hsize, List.length_range'] at hchild
              obtain ⟨spot, hspot, hholds⟩ :=
                exists_right_of_forall₂ hopens.holds
                  (List.mem_range'_1.mpr ⟨hnew, hchild⟩)
              exact ⟨spot, hholds, spot, hspot, fun _ hspot => hspot⟩
          case neg => exact hopens.cover other (Nat.le_of_not_lt hchild) hother
        refine ⟨spot, hholds, _, List.mem_singleton_self _,
          fun holds hnode => ?_⟩
        exact hwithin holds
          ((Tree.everywhere_node.mp hnode).2 _
            (Tree.mem_of_mem_numbered houter))

theorem opens_expandEach :
    (trees : List Tree) → {arena : Arena} → {ids : List Nat} → {offset : Nat} →
    {parent? : Option Nat} →
    List.Forall₂
      (fun id placed => arena.slots[id]? =
        some (.ofTree parent? placed.1 placed.2)) ids
      (Tree.numbered offset trees) → ids.Nodup →
    Opens ids (Tree.numbered offset trees) (Tree.nodeCountAll trees) arena
      (arena.expandEach ids trees)
  | [], arena, ids, offset, parent?, hslots, hnodup => by
      obtain rfl := List.forall₂_nil_right_iff.mp hslots
      rw [expandEach]
      exact ⟨.nil, fun _ _ hslot _ => hslot, rfl, fun _ _ _ => rfl,
        fun _ hnew hold => absurd hold (Nat.not_lt_of_le hnew)⟩
  | tree :: rest, arena, ids, offset, parent?, hslots, hnodup => by
      cases hnumbered : tree.isNumbered with
      | false =>
          rw [Tree.numbered_cons_of_not offset rest hnumbered] at hslots ⊢
          rw [expandEach_of_not hnumbered, Tree.nodeCountAll,
            Tree.nodeCount_of_not hnumbered, Nat.zero_add]
          exact opens_expandEach rest hslots hnodup
      | true =>
          rw [Tree.numbered_cons_of_numbered offset rest hnumbered] at hslots ⊢
          obtain _ | ⟨hslot, hslots⟩ := hslots
          rename_i id ids
          obtain ⟨hfresh, hnodup⟩ := List.nodup_cons.mp hnodup
          have hfirst := opens_expandAll tree hnumbered hslot
          have hrest :=
            opens_expandEach rest (hfirst.others hfresh hslots) hnodup
          rw [expandEach_of_numbered hnumbered, Tree.nodeCountAll]
          exact hfirst.cons hrest

end

variable (children : List Tree)

theorem opens_ofTree :
    Opens [0] [(0, .node .root children)] (Tree.nodeCountAll children + 1)
      (ofRoot children) (ofTree (.node .root children)) :=
  opens_expandAll (.node .root children) rfl rfl

theorem size_ofTree :
    (ofTree (.node .root children)).size = Tree.nodeCountAll children + 1 := by
  have hsize := (opens_ofTree children).size_eq
  rw [List.length_singleton] at hsize
  have hone : (ofRoot children).size = 1 := rfl
  omega

theorem holds_ofTree :
    (ofTree (.node .root children)).Holds 0 (0, .node .root children) :=
  (List.forall₂_cons.mp (opens_ofTree children).holds).1

theorem holds_of_lt_size {id : Nat}
    (hlt : id < (ofTree (.node .root children)).size) :
    ∃ spot, (ofTree (.node .root children)).Holds id spot ∧
      ∀ holds, (Tree.node .root children).Everywhere holds →
      spot.2.Everywhere holds := by
  cases id with
  | zero => exact ⟨_, holds_ofTree children, fun _ hroot => hroot⟩
  | succ id =>
      obtain ⟨spot, hholds, outer, houter, hwithin⟩ :=
        (opens_ofTree children).cover (id + 1) (Nat.succ_pos id) hlt
      rw [List.mem_singleton.mp houter] at hwithin
      exact ⟨spot, hholds, hwithin⟩

end Arena

end PklAnalysis

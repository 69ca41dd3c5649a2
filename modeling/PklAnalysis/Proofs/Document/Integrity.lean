import PklAnalysis.Proofs.Document.Expansion

/-!
An arena that gives numbers on demand has one slot for each node it has met.
When everything is listed it has met them all, and they are listed in the order
of the tree.
-/

open PklAnalysis.Tree (Spot)

namespace PklAnalysis

/-- The slot is for the node at a spot, expanded or not. -/
def Slot.IsOf (slot : Slot) (spot : Spot) : Prop :=
  spot.tree.isNumbered = true ∧
    slot = { Slot.ofTree slot.parent? spot.offset spot.tree with
      children? := slot.children? }

theorem Slot.IsOf.under_eq {slot : Slot} {spot : Spot} (hof : slot.IsOf spot)
    (id : Nat) :
    slot.under id = spot.under.map fun below => .ofTree (some id) below.offset
      below.tree := by
  obtain ⟨path, offset, tree⟩ := spot
  obtain ⟨hnumbered, hslot⟩ := hof
  cases tree with
  | token kind text => cases hnumbered
  | node kind children =>
      rw [hslot]
      have hunder := Slot.under_ofNode id slot.parent? offset kind children
      rw [← Tree.map_placed_numberedFrom path 0, List.map_map] at hunder
      exact hunder

theorem Slot.IsOf.withChildren {slot : Slot} {spot : Spot}
    (hof : slot.IsOf spot) (children? : Option (List Nat)) :
    { slot with children? }.IsOf spot :=
  ⟨hof.1, congrArg (fun slot : Slot => { slot with children? }) hof.2⟩

theorem Slot.isOf_ofTree {spot : Spot} (parent? : Option Nat)
    (hnumbered : spot.tree.isNumbered = true) :
    (Slot.ofTree parent? spot.offset spot.tree).IsOf spot ∧
      (Slot.ofTree parent? spot.offset spot.tree).parent? = parent? ∧
      (Slot.ofTree parent? spot.offset spot.tree).children? = none := by
  obtain ⟨path, offset, tree⟩ := spot
  cases tree with
  | token kind text => cases hnumbered
  | node kind children => exact ⟨⟨hnumbered, rfl⟩, rfl, rfl⟩

namespace Arena

/-- The slots are those of different nodes of a tree, and what they say about
the nodes above and below is right. The spots tell which nodes these are. -/
structure Intact (tree : Tree) (arena : Arena) (spots : List Spot) : Prop
    extends Ordered arena, Linked arena where
  length_eq : spots.length = arena.size
  root : spots[0]? = some ⟨[], 0, tree⟩
  nodup : (spots.map Spot.path).Nodup
  within : spots ⊆ tree.spots [] 0
  slot_of : ∀ (id : Nat) (slot : Slot), arena.slots[id]? = some slot →
    ∃ spot, spots[id]? = some spot ∧ slot.IsOf spot
  parent : ∀ (id : Nat) (slot : Slot), arena.slots[id]? = some slot → 0 < id →
    ∃ parent, slot.parent? = some parent
  below : ∀ (id : Nat) (slot : Slot) (ids : List Nat),
    arena.slots[id]? = some slot →
    slot.children? = some ids → (∃ first, ids = List.range' first ids.length) ∧
      ∃ spot : Spot,
      spots[id]? = some spot ∧ ids.map (spots[·]?) = spot.under.map some

theorem intact_ofRoot (children : List Tree) :
    (ofRoot children).Intact (.node .root children)
    [⟨[], 0, .node .root children⟩] := by
  refine { ordered_ofRoot children, linked_ofRoot children with
    length_eq := rfl
    root := rfl
    nodup := List.nodup_singleton _
    within := ?within
    slot_of := ?slot_of
    parent := ?parent
    below := ?below }
  case within =>
      exact List.cons_subset.mpr ⟨Tree.head_spots rfl [] 0, List.nil_subset _⟩
  case slot_of =>
      intro id slot hslot
      obtain ⟨rfl, rfl⟩ := eq_of_slot_ofRoot hslot
      exact ⟨_, rfl, rfl, rfl⟩
  case parent =>
      intro id slot hslot hpos
      exact absurd (eq_of_slot_ofRoot hslot).1 (Nat.ne_of_gt hpos)
  case below =>
      intro id slot ids hslot hids
      rw [(eq_of_slot_ofRoot hslot).2] at hids
      cases hids

theorem getElem?_of_starts {spots later : List Spot} (hstarts : spots <+: later)
    {id : Nat} {spot : Spot} (hspot : spots[id]? = some spot) :
    later[id]? = some spot := by
  obtain ⟨more, rfl⟩ := hstarts
  rw [List.getElem?_append_left (List.getElem?_eq_some_iff.mp hspot).1, hspot]

theorem map_getElem?_of_starts {spots later : List Spot}
    (hstarts : spots <+: later) {ids : List Nat} {found : List Spot}
    (hfound : ids.map (spots[·]?) = found.map some) :
    ids.map (later[·]?) = found.map some := by
  induction ids generalizing found with
  | nil => exact hfound
  | cons id rest ih =>
      cases found with
      | nil => cases hfound
      | cons spot found =>
          obtain ⟨hspot, hrest⟩ := List.cons.inj hfound
          rw [List.map_cons, List.map_cons, ih hrest,
            getElem?_of_starts hstarts hspot]

theorem map_getElem?_range' (spots more : List Spot) :
    (List.range' spots.length more.length).map ((spots ++ more)[·]?) =
      more.map some := by
  refine List.ext_getElem (by simp) fun i hi hi' => ?_
  rw [List.length_map] at hi'
  simp [hi']

section

variable {tree : Tree} {arena : Arena} {spots : List Spot}
  (hintact : arena.Intact tree spots)
include hintact

theorem Intact.eq_of_path {id other : Nat} {spot found : Spot}
    (hspot : spots[id]? = some spot) (hfound : spots[other]? = some found)
    (hpath : found.path = spot.path) : other = id := by
  refine (List.getElem?_inj ?_ hintact.nodup).mp ?_
  · rw [List.length_map]
    exact (List.getElem?_eq_some_iff.mp hfound).1
  · rw [List.getElem?_map, List.getElem?_map, hspot, hfound, Option.map_some,
      Option.map_some, hpath]

theorem Intact.mem_under {id : Nat} {spot : Spot}
    (hspot : spots[id]? = some spot) (hpos : 0 < id) :
    ∃ (parent : Nat) (above : Slot) (ids : List Nat) (outer : Spot),
      arena.slots[parent]? = some above ∧ above.children? = some ids ∧
        spots[parent]? = some outer ∧ spot ∈ outer.under := by
  have hlt : id < arena.size :=
    hintact.length_eq ▸ (List.getElem?_eq_some_iff.mp hspot).1
  obtain ⟨parent, hparent⟩ := hintact.parent id _ (slots_of_lt hlt) hpos
  obtain ⟨above, ids, habove, hids, hmem⟩ :=
    hintact.child_of_parent id _ parent (slots_of_lt hlt) hparent
  obtain ⟨-, outer, houter, hbelow⟩ :=
    hintact.below parent above ids habove hids
  have hmap := List.mem_map_of_mem (f := (spots[·]?)) hmem
  rw [hbelow, hspot] at hmap
  obtain ⟨found, hfound, hsame⟩ := List.mem_map.mp hmap
  exact ⟨parent, above, ids, outer, habove, hids, houter,
    Option.some.inj hsame ▸ hfound⟩

variable {id : Nat} {node : Slot} {spot : Spot}
  (hnode : arena.slots[id]? = some node) (hspot : spots[id]? = some spot)
include hnode hspot

theorem Intact.isOf : node.IsOf spot := by
  obtain ⟨found, hfound, hof⟩ := hintact.slot_of id node hnode
  rwa [Option.some.inj (hspot.symm.trans hfound)]

variable (hunopened : node.children? = none)
include hunopened

/-- The nodes under a node that has not been expanded have no slots yet. -/
theorem Intact.nodup_append : ((spots ++ spot.under).map Spot.path).Nodup := by
  have hunder : (spot.under.map Spot.path).Nodup :=
    (Tree.nodup_paths_spots spot.path spot.offset spot.tree).sublist
      ((Spot.under_sublist_all spot).map Spot.path)
  rw [List.map_append]
  refine hintact.nodup.append hunder fun path hold hnew => ?_
  obtain ⟨below, hbelow, rfl⟩ := List.mem_map.mp hnew
  obtain ⟨step, hpath⟩ := Spot.exists_path_eq_of_mem_under hbelow
  obtain ⟨old, hmem, hsame⟩ := List.mem_map.mp hold
  obtain ⟨other, hother⟩ := List.mem_iff_getElem?.mp hmem
  cases other with
  | zero =>
      obtain rfl := Option.some.inj (hother.symm.trans hintact.root)
      rw [hpath] at hsame
      exact absurd hsame.symm
        (List.append_ne_nil_of_right_ne_nil _ (List.cons_ne_nil _ _))
  | succ other =>
      obtain ⟨parent, above, ids, outer, habove, hids, houter, hunder⟩ :=
        hintact.mem_under hother (Nat.succ_pos other)
      obtain ⟨last, hlast⟩ := Spot.exists_path_eq_of_mem_under hunder
      have hpaths : outer.path ++ [last] = spot.path ++ [step] := by
        rw [← hlast, hsame, hpath]
      obtain rfl :=
        hintact.eq_of_path hspot houter (List.append_inj_left' hpaths rfl)
      obtain rfl := Option.some.inj (habove.symm.trans hnode)
      rw [hunopened] at hids
      cases hids

theorem Intact.slots_expand_cases {i : Nat} {slot : Slot}
    (hslot : (arena.expand id).slots[i]? = some slot) :
    (arena.slots[i]? = some slot ∧ i ≠ id) ∨
      (i = id ∧
        slot =
          { node with
            children? := some (List.range' spots.length spot.under.length) }) ∨
      ∃ below, (spots ++ spot.under)[i]? = some below ∧ below ∈ spot.under ∧
        slot = .ofTree (some id) below.offset below.tree := by
  have hunder := (hintact.isOf hnode hspot).under_eq id
  rcases slot_expand_cases hnode hunopened hslot with
    ⟨hne, hold⟩ | ⟨hsame, hopened⟩ | ⟨place, rfl, hnew⟩
  · exact .inl ⟨hold, hne⟩
  · rw [hunder, List.length_map, ← hintact.length_eq] at hopened
    exact .inr (.inl ⟨hsame, hopened⟩)
  · rw [hunder, List.getElem?_map] at hnew
    obtain ⟨below, hbelow, rfl⟩ := Option.map_eq_some_iff.mp hnew
    refine .inr (.inr ⟨below, ?_, List.mem_of_getElem? hbelow, rfl⟩)
    rw [← hintact.length_eq, List.getElem?_append_right (Nat.le_add_right _ _),
      Nat.add_sub_cancel_left, hbelow]

theorem Intact.expand_of_unopened :
    (arena.expand id).Intact tree (spots ++ spot.under) := by
  have hof := hintact.isOf hnode hspot
  have hunder := hof.under_eq id
  have hstarts := List.prefix_append spots spot.under
  refine { hintact.toOrdered.expand id, hintact.toLinked.expand id with
    length_eq := ?length_eq
    root := getElem?_of_starts hstarts hintact.root
    nodup := hintact.nodup_append hnode hspot hunopened
    within := ?within
    slot_of := ?slot_of
    parent := ?parent
    below := ?below }
  case length_eq =>
      rw [size, slots_expand hnode hunopened, Array.size_append,
        Array.size_setIfInBounds, hunder, List.length_append, hintact.length_eq]
      simp [size]
  case within =>
      refine List.append_subset.mpr ⟨hintact.within,
        List.Subset.trans ?_ (Tree.all_subset_spots _ _ _
        (hintact.within (List.mem_of_getElem? hspot)))⟩
      exact (Spot.under_sublist_all spot).subset
  case slot_of =>
      intro i slot hslot
      rcases hintact.slots_expand_cases hnode hspot hunopened hslot with
        ⟨hold, -⟩ | ⟨rfl, rfl⟩ | ⟨below, hbelow, hmem, rfl⟩
      · obtain ⟨found, hfound, hof⟩ := hintact.slot_of i slot hold
        exact ⟨found, getElem?_of_starts hstarts hfound, hof⟩
      · exact ⟨spot, getElem?_of_starts hstarts hspot, hof.withChildren _⟩
      · exact ⟨below, hbelow,
          (Slot.isOf_ofTree _ (Tree.isNumbered_of_mem_numberedFrom hmem)).1⟩
  case parent =>
      intro i slot hslot hpos
      rcases hintact.slots_expand_cases hnode hspot hunopened hslot with
        ⟨hold, -⟩ | ⟨rfl, rfl⟩ | ⟨below, hbelow, hmem, rfl⟩
      · exact hintact.parent i slot hold hpos
      · exact hintact.parent i node hnode hpos
      · exact ⟨id,
          (Slot.isOf_ofTree _ (Tree.isNumbered_of_mem_numberedFrom hmem)).2.1⟩
  case below =>
      intro i slot ids hslot hids
      rcases hintact.slots_expand_cases hnode hspot hunopened hslot with
        ⟨hold, -⟩ | ⟨rfl, rfl⟩ | ⟨below, hbelow, hmem, rfl⟩
      · obtain ⟨hrange, found, hfound, hbelow⟩ :=
          hintact.below i slot ids hold hids
        exact ⟨hrange, found, getElem?_of_starts hstarts hfound,
          map_getElem?_of_starts hstarts hbelow⟩
      · cases hids
        refine ⟨⟨spots.length, by rw [List.length_range']⟩, spot,
          getElem?_of_starts hstarts hspot, ?_⟩
        exact map_getElem?_range' spots spot.under
      · rw
          [(Slot.isOf_ofTree _
            (Tree.isNumbered_of_mem_numberedFrom hmem)).2.2] at hids
        cases hids

end

theorem Intact.expand {tree : Tree} {arena : Arena} {spots : List Spot}
    (hintact : arena.Intact tree spots) (id : Nat) :
    ∃ later, spots <+: later ∧ (arena.expand id).Intact tree later := by
  cases hnode : arena.slots[id]? with
  | none =>
      rw [Arena.expand, hnode]
      exact ⟨spots, List.prefix_refl spots, hintact⟩
  | some node =>
      cases hchildren : node.children? with
      | some ids =>
          rw [expand_of_opened hnode hchildren]
          exact ⟨spots, List.prefix_refl spots, hintact⟩
      | none =>
          obtain ⟨spot, hspot, -⟩ := hintact.slot_of id node hnode
          exact ⟨_, List.prefix_append spots _,
            hintact.expand_of_unopened hnode hspot hchildren⟩

theorem Expands.intact {before after : Arena} {tree : Tree} {spots : List Spot}
    (hexpands : before.Expands after) (hintact : before.Intact tree spots) :
    ∃ later, spots <+: later ∧ after.Intact tree later := by
  induction hexpands with
  | refl => exact ⟨spots, List.prefix_refl spots, hintact⟩
  | tail _ hstep ih =>
      obtain ⟨id, rfl⟩ := hstep
      obtain ⟨grown, hgrown, hstill⟩ := ih
      obtain ⟨later, hlater, hafter⟩ := hstill.expand id
      exact ⟨later, hgrown.trans hlater, hafter⟩

theorem Intact.childIds_expand {tree : Tree} {arena : Arena} {spots : List Spot}
    {id : Nat} {spot : Spot} (hintact : (arena.expand id).Intact tree spots)
    (hlt : id < arena.size) (hspot : spots[id]? = some spot) :
    ((arena.expand id).childIds id).map (spots[·]?) = spot.under.map some := by
  obtain ⟨slot, ids, hslot, hids⟩ := opened_expand hlt
  obtain ⟨-, found, hfound, hbelow⟩ := hintact.below id slot ids hslot hids
  obtain rfl := Option.some.inj (hspot.symm.trans hfound)
  rw [childIds_of_slot hslot hids, hbelow]

/-- With room for all of them, some nodes and the nodes below them are listed in
the order of the tree. -/
theorem Intact.walk {tree : Tree} {limit : Nat} {ids : List Nat} {arena : Arena}
    {spots stack : List Spot} (hintact : arena.Intact tree spots)
    (hids : ids.map (spots[·]?) = stack.map some)
    (hstack : ∀ spot ∈ stack,
      spot.tree.isNumbered = true ∧ spot.tree.ErrorsFlat)
    (hlimit : (stack.map fun spot => spot.tree.nodeCount).sum ≤ limit) :
    ∃ later, spots <+: later ∧ (walk limit ids arena).1.Intact tree later ∧
      (walk limit ids arena).2.map (later[·]?) =
        (stack.flatMap Spot.all).map some := by
  induction limit generalizing ids arena spots stack with
  | zero =>
      cases stack with
      | nil => exact ⟨spots, List.prefix_refl spots, hintact, rfl⟩
      | cons spot stack =>
          have hnumbered := (hstack spot List.mem_cons_self).1
          rw [List.map_cons, List.sum_cons,
            Tree.nodeCount_of_isNumbered hnumbered] at hlimit
          omega
  | succ limit ih =>
      cases stack with
      | nil =>
          obtain rfl := List.map_eq_nil_iff.mp hids
          exact ⟨spots, List.prefix_refl spots, hintact, rfl⟩
      | cons spot stack =>
          cases ids with
          | nil => cases hids
          | cons id rest =>
              obtain ⟨hspot, hrest⟩ := List.cons.inj hids
              obtain ⟨⟨hnumbered, hflat⟩, hothers⟩ :=
                List.forall_mem_cons.mp hstack
              obtain ⟨grown, hgrown, hexpanded⟩ := hintact.expand id
              have hlt : id < arena.size :=
                hintact.length_eq ▸ (List.getElem?_eq_some_iff.mp hspot).1
              have hchildren :=
                hexpanded.childIds_expand hlt (getElem?_of_starts hgrown hspot)
              have hnext :
                  ((arena.expand id).childIds id ++ rest).map (grown[·]?) =
                  (spot.under ++ stack).map some := by
                rw [List.map_append, List.map_append, hchildren,
                  map_getElem?_of_starts hgrown hrest]
              have hbelow : ∀ below ∈ spot.under,
                  below.tree.isNumbered = true ∧ below.tree.ErrorsFlat :=
                  fun below hmem =>
                ⟨Tree.isNumbered_of_mem_numberedFrom hmem,
                  hflat.of_mem_children (Tree.tree_mem_of_mem_under hmem)⟩
              have hroom :
                  ((spot.under ++ stack).map fun spot =>
                    spot.tree.nodeCount).sum ≤ limit := by
                rw [List.map_cons, List.sum_cons,
                  Tree.nodeCount_of_isNumbered hnumbered] at hlimit
                rw [List.map_append, List.sum_append, Spot.sum_nodeCount_under]
                omega
              obtain ⟨later, hlater, hafter, hlisted⟩ :=
                ih hexpanded hnext
                  (List.forall_mem_append.mpr ⟨hbelow, hothers⟩) hroom
              refine ⟨later, hgrown.trans hlater, hafter, ?_⟩
              rw [List.flatMap_append] at hlisted
              rw [Arena.walk, List.map_cons, hlisted, List.flatMap_cons,
                Spot.all_eq_cons hflat hnumbered, List.cons_append,
                List.map_cons, getElem?_of_starts (hgrown.trans hlater) hspot]

def Wraps (arena : Arena) (spots : List Spot) : Prop :=
  List.Forall₂ Slot.IsOf arena.slots.toList spots

section

variable {tree : Tree} {arena : Arena} {spots : List Spot}
  (hintact : arena.Intact tree spots)
include hintact

theorem Intact.wraps : arena.Wraps spots := by
  refine List.forall₂_iff_get.mpr
    ⟨by rw [hintact.length_eq]; rfl, fun id hslot hspot => ?_⟩
  have hget : arena.slots[id]? = some (arena.slots.toList.get ⟨id, hslot⟩) := by
    rw [← Array.getElem?_toList, List.getElem?_eq_getElem hslot]
    rfl
  exact hintact.isOf hget (List.getElem?_eq_getElem hspot)

theorem Intact.exists_parent {id : Nat} (hlt : id < arena.size) (hne : id ≠ 0) :
    ∃ parent, (arena.slot id).parent? = some parent ∧
      ∀ other, (arena.childIds other).count id = if other = parent then 1
        else 0 := by
  have hslot := slots_of_lt hlt
  obtain ⟨parent, hparent⟩ := hintact.parent id _ hslot (Nat.pos_of_ne_zero hne)
  refine ⟨parent, hparent, fun other => ?_⟩
  split
  case isTrue hsame =>
      subst hsame
      obtain ⟨above, ids, habove, hids, hmem⟩ :=
        hintact.child_of_parent id _ other hslot hparent
      obtain ⟨⟨first, hrange⟩, -⟩ := hintact.below other above ids habove hids
      rw [childIds_of_slot habove hids]
      exact List.count_eq_one_of_mem (hrange ▸ List.nodup_range') hmem
  case isFalse hother =>
      refine List.count_eq_zero.mpr fun hmem => hother ?_
      obtain ⟨above, ids, habove, hids⟩ := exists_slot_of_mem_childIds hmem
      rw [childIds_of_slot habove hids] at hmem
      obtain ⟨slot, hfound, hup⟩ :=
        hintact.parent_of_child other above ids habove hids id hmem
      obtain rfl := Option.some.inj (hslot.symm.trans hfound)
      exact Option.some.inj (hup.symm.trans hparent)

theorem Intact.childIds_eq_range' (id : Nat) : ∃ first, id < first ∧
    arena.childIds id = List.range' first (arena.childIds id).length := by
  cases hchildren : arena.childIds id with
  | nil => exact ⟨id + 1, Nat.lt_succ_self id, rfl⟩
  | cons child rest =>
      have hmem : child ∈ arena.childIds id := hchildren ▸ List.mem_cons_self
      obtain ⟨above, ids, habove, hids⟩ := exists_slot_of_mem_childIds hmem
      obtain ⟨⟨first, hrange⟩, -⟩ := hintact.below id above ids habove hids
      rw [← childIds_of_slot habove hids, hchildren, List.length_cons,
        List.range'_succ] at hrange
      obtain ⟨rfl, hrest⟩ := List.cons.inj hrange
      refine ⟨child, (hintact.toOrdered.lt_of_mem_childIds hmem).1, ?_⟩
      rw [List.length_cons, List.range'_succ, ← hrest]

end

end Arena

namespace Document

open Arena

def fresh (document : Document) : Arena :=
  .ofRoot document.parse.tree.children

theorem intact_fresh (document : Document) :
    document.fresh.Intact document.parse.tree
      [⟨[], 0, document.parse.tree⟩] := by
  obtain ⟨children, htree⟩ := document.tree_eq_node
  rw [fresh, htree]
  exact intact_ofRoot children

theorem limit_of_expands {document : Document} {arena : Arena}
    (hexpands : document.fresh.Expands arena) :
    arena.limit = document.parse.tree.nodeCount := by
  obtain ⟨children, htree⟩ := document.tree_eq_node
  have hroot : document.fresh.limit = document.parse.tree.nodeCount := by
    rw [htree, fresh, htree]
    rfl
  have hpos : 0 < document.fresh.size := Nat.one_pos
  rw [hexpands.grows.limit_eq hpos, hroot]

/-- Whatever has been asked before, listing everything lists the nodes of the
tree in its order, and then the arena has a slot for each of them and no other
slots. -/
theorem exists_listing {document : Document} {arena : Arena} {spots : List Spot}
    (hexpands : document.fresh.Expands arena)
    (hintact : arena.Intact document.parse.tree spots) :
    let listing := arena.ask (.descendants 0)
    ∃ later, spots <+: later ∧ listing.1.Wraps later ∧
      later.Perm (document.parse.tree.spots [] 0) ∧
      listing.2.map (later[·]?) =
        (document.parse.tree.spots [] 0).map some := by
  obtain ⟨children, htree⟩ := document.tree_eq_node
  have hnumbered : document.parse.tree.isNumbered = true := by
    rw [htree]
    rfl
  have hstart :
      [0].map (spots[·]?) =
        [(⟨[], 0, document.parse.tree⟩ : Spot)].map some := by
    rw [List.map_singleton, hintact.root, List.map_singleton]
  have hroom :
      ([(⟨[], 0, document.parse.tree⟩ : Spot)].map fun spot =>
        spot.tree.nodeCount).sum ≤
      arena.limit := by
    rw [limit_of_expands hexpands, List.map_singleton, List.sum_singleton]
  obtain ⟨later, hlater, hafter, hlisted⟩ := hintact.walk hstart
    (List.forall_mem_singleton.mpr ⟨hnumbered, document.errorsFlat⟩) hroom
  rw [List.flatMap_singleton, Spot.all] at hlisted
  refine ⟨later, hlater, hafter.wraps, ?_, hlisted⟩
  refine (List.perm_ext_iff_of_nodup hafter.nodup.of_map
    (Tree.nodup_paths_spots [] 0 document.parse.tree).of_map).mpr fun spot => ?_
  refine ⟨fun hspot => hafter.within hspot, fun hspot => ?_⟩
  have hmem := List.mem_map_of_mem (f := some) hspot
  rw [← hlisted] at hmem
  obtain ⟨id, -, hid⟩ := List.mem_map.mp hmem
  exact List.mem_of_getElem? hid

end Document

end PklAnalysis

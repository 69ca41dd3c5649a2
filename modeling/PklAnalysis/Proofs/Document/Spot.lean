import PklAnalysis.Proofs.Document.Parents

/-!
The nodes of a tree by the way that leads down to them. Nodes may look alike and
even start at the same offset, if there is nothing in them; the ways to them
differ.
-/

namespace PklAnalysis.Tree

/-- A tree in a tree: which child to go to at each step on the way down, where
it starts, and what it is. -/
structure Spot where
  path : List Nat
  offset : Nat
  tree : Tree

mutual
/-- The nodes in a tree that recovery did not make, each before those under
it. -/
def spots (path : List Nat) (offset : Nat) : Tree → List Spot
  | .token _ _ => []
  | .node kind children =>
      let below := spotsFrom path 0 offset children
      if kind = .error then below
        else ⟨path, offset, .node kind children⟩ :: below

def spotsFrom (path : List Nat) (index offset : Nat) : List Tree → List Spot
  | [] => []
  | tree :: rest =>
      tree.spots (path ++ [index]) offset ++
        spotsFrom path (index + 1) (offset + tree.size) rest
end

def numberedFrom (path : List Nat) (index offset : Nat) : List Tree → List Spot
  | [] => []
  | tree :: rest =>
      let others := numberedFrom path (index + 1) (offset + tree.size) rest
      if tree.isNumbered then ⟨path ++ [index], offset, tree⟩ :: others else
        others

namespace Spot

def all (spot : Spot) : List Spot :=
  spot.tree.spots spot.path spot.offset

def under (spot : Spot) : List Spot :=
  numberedFrom spot.path 0 spot.offset spot.tree.children

def placed (spot : Spot) : Nat × Tree :=
  (spot.offset, spot.tree)

end Spot

theorem map_placed_numberedFrom (path : List Nat) (index offset : Nat)
    (trees : List Tree) :
    (numberedFrom path index offset trees).map Spot.placed =
      numbered offset trees := by
  induction trees generalizing index offset with
  | nil => rfl
  | cons tree rest ih =>
      rw [numberedFrom]
      cases hnumbered : tree.isNumbered with
      | true =>
          rw [numbered_cons_of_numbered offset rest hnumbered, if_pos rfl,
            List.map_cons, ih]
          rfl
      | false =>
          rw [numbered_cons_of_not offset rest hnumbered,
            if_neg Bool.false_ne_true, ih]

theorem spots_node {kind : Node.Kind} (hkind : kind ≠ .error) (path : List Nat)
    (offset : Nat) (children : List Tree) :
    spots path offset (.node kind children) =
        ⟨path, offset, .node kind children⟩ ::
          spotsFrom path 0 offset children := by
  rw [spots, if_neg hkind]

theorem head_spots {tree : Tree} (hnumbered : tree.isNumbered = true)
    (path : List Nat) (offset : Nat) :
    ⟨path, offset, tree⟩ ∈ tree.spots path offset := by
  cases tree with
  | token kind text => cases hnumbered
  | node kind children =>
      rw [spots_node (of_decide_eq_true hnumbered)]
      exact List.mem_cons_self

theorem spotsFrom_sublist_spots (path : List Nat) (offset : Nat)
    (kind : Node.Kind) (children : List Tree) :
    (spotsFrom path 0 offset children).Sublist
      (spots path offset (.node kind children)) := by
  rw [spots]
  split
  · exact List.Sublist.refl _
  · exact List.sublist_cons_self _ _

theorem numberedFrom_sublist (path : List Nat) (index offset : Nat)
    (trees : List Tree) :
    (numberedFrom path index offset trees).Sublist
      (spotsFrom path index offset trees) := by
  induction trees generalizing index offset with
  | nil => exact List.Sublist.refl _
  | cons tree rest ih =>
      rw [numberedFrom, spotsFrom]
      split
      case isTrue hnumbered =>
          have hfirst :=
            List.singleton_sublist.mpr
              (head_spots hnumbered (path ++ [index]) offset)
          exact hfirst.append (ih _ _)
      case isFalse => exact (ih _ _).trans (List.sublist_append_right _ _)

theorem Spot.under_sublist_all (spot : Spot) : spot.under.Sublist spot.all := by
  obtain ⟨path, offset, tree⟩ := spot
  cases tree with
  | token kind text => exact List.Sublist.refl _
  | node kind children =>
      exact (numberedFrom_sublist path 0 offset children).trans
        (spotsFrom_sublist_spots path offset kind children)

mutual

theorem all_subset_spots {spot : Spot} :
    (path : List Nat) → (offset : Nat) → (tree : Tree) →
    spot ∈ tree.spots path offset → spot.all ⊆ tree.spots path offset
  | path, offset, .token kind text, hspot => nomatch hspot
  | path, offset, .node kind children, hspot => by
      have hbelow := (spotsFrom_sublist_spots path offset kind children).subset
      by_cases hkind : kind = .error
      case pos =>
          rw [spots, if_pos hkind] at hspot ⊢
          exact all_subset_spotsFrom path 0 offset children hspot
      case neg =>
          rw [spots_node hkind] at hspot
          cases List.mem_cons.mp hspot with
          | inl hsame =>
              subst hsame
              exact fun _ hinner => hinner
          | inr hrest =>
              exact List.Subset.trans
                (all_subset_spotsFrom path 0 offset children hrest) hbelow

theorem all_subset_spotsFrom {spot : Spot} :
    (path : List Nat) → (index offset : Nat) →
    (trees : List Tree) → spot ∈ spotsFrom path index offset trees →
    spot.all ⊆ spotsFrom path index offset trees
  | path, index, offset, [], hspot => nomatch hspot
  | path, index, offset, tree :: rest, hspot => by
      rw [spotsFrom] at hspot ⊢
      cases List.mem_append.mp hspot with
      | inl hfirst =>
          exact List.Subset.trans (all_subset_spots _ offset tree hfirst)
            (List.subset_append_left _ _)
      | inr hrest =>
          exact List.Subset.trans (all_subset_spotsFrom path _ _ rest hrest)
            (List.subset_append_right _ _)

end

mutual

theorem prefix_path_of_mem_spots {spot : Spot} :
    (path : List Nat) → (offset : Nat) → (tree : Tree) →
    spot ∈ tree.spots path offset → path <+: spot.path
  | path, offset, .token kind text, hspot => nomatch hspot
  | path, offset, .node kind children, hspot => by
      have hbelow : spot ∈ spotsFrom path 0 offset children →
          path <+: spot.path := fun hrest =>
        let ⟨index, _, hlonger⟩ :=
          prefix_path_of_mem_spotsFrom path 0 offset children hrest
        (List.prefix_append path [index]).trans hlonger
      by_cases hkind : kind = .error
      case pos =>
          rw [spots, if_pos hkind] at hspot
          exact hbelow hspot
      case neg =>
          rw [spots_node hkind] at hspot
          cases List.mem_cons.mp hspot with
          | inl hsame =>
              subst hsame
              exact List.prefix_refl path
          | inr hrest => exact hbelow hrest

theorem prefix_path_of_mem_spotsFrom {spot : Spot} :
    (path : List Nat) → (index offset : Nat) →
    (trees : List Tree) → spot ∈ spotsFrom path index offset trees →
    ∃ step, index ≤ step ∧ path ++ [step] <+: spot.path
  | path, index, offset, [], hspot => nomatch hspot
  | path, index, offset, tree :: rest, hspot => by
      rw [spotsFrom] at hspot
      cases List.mem_append.mp hspot with
      | inl hfirst =>
          exact ⟨index, Nat.le_refl index,
            prefix_path_of_mem_spots _ offset tree hfirst⟩
      | inr hrest =>
          obtain ⟨step, hle, hlonger⟩ :=
            prefix_path_of_mem_spotsFrom path _ _ rest hrest
          exact ⟨step, Nat.le_of_succ_le hle, hlonger⟩

end

theorem step_eq_of_prefix {path longer : List Nat} {step other : Nat}
    (hstep : path ++ [step] <+: longer) (hother : path ++ [other] <+: longer) :
    step = other := by
  have hsame :=
    (List.prefix_of_prefix_length_le hstep hother (by simp)).eq_of_length
      (by simp)
  simpa using hsame

mutual

theorem nodup_paths_spots : (path : List Nat) → (offset : Nat) → (tree : Tree) →
    ((tree.spots path offset).map Spot.path).Nodup
  | path, offset, .token kind text => List.nodup_nil
  | path, offset, .node kind children => by
      have hbelow := nodup_paths_spotsFrom path 0 offset children
      by_cases hkind : kind = .error
      case pos => rwa [spots, if_pos hkind]
      case neg =>
          rw [spots_node hkind, List.map_cons]
          refine List.nodup_cons.mpr ⟨fun hmem => ?_, hbelow⟩
          obtain ⟨spot, hspot, hpath⟩ := List.mem_map.mp hmem
          obtain ⟨step, -, hlonger⟩ :=
            prefix_path_of_mem_spotsFrom path 0 offset children hspot
          have hlength := hlonger.length_le
          rw [hpath, List.length_append, List.length_singleton] at hlength
          exact absurd hlength (Nat.not_succ_le_self _)

theorem nodup_paths_spotsFrom :
    (path : List Nat) → (index offset : Nat) → (trees : List Tree) →
    ((spotsFrom path index offset trees).map Spot.path).Nodup
  | path, index, offset, [] => List.nodup_nil
  | path, index, offset, tree :: rest => by
      rw [spotsFrom, List.map_append]
      refine List.Nodup.append (nodup_paths_spots _ offset tree)
        (nodup_paths_spotsFrom path _ _ rest) fun longer hfirst hrest => ?_
      obtain ⟨spot, hspot, rfl⟩ := List.mem_map.mp hfirst
      obtain ⟨other, hother, hpath⟩ := List.mem_map.mp hrest
      have hstep := prefix_path_of_mem_spots _ offset tree hspot
      obtain ⟨step, hle, hlonger⟩ :=
        prefix_path_of_mem_spotsFrom path _ _ rest hother
      have hsame := step_eq_of_prefix hstep (hpath ▸ hlonger)
      omega

end

theorem Spot.exists_path_eq_of_mem_under {spot below : Spot}
    (hbelow : below ∈ spot.under) :
    ∃ step, below.path = spot.path ++ [step] := by
  suffices hsteps : ∀ (trees : List Tree) (index offset : Nat),
      below ∈ numberedFrom spot.path index offset trees → ∃ step,
      below.path = spot.path ++ [step] from
    hsteps _ _ _ hbelow
  intro trees
  induction trees with
  | nil => exact fun index offset hmem => nomatch hmem
  | cons tree rest ih =>
      intro index offset hmem
      rw [numberedFrom] at hmem
      split at hmem
      case isFalse => exact ih _ _ hmem
      case isTrue =>
          cases List.mem_cons.mp hmem with
          | inl hsame => exact ⟨index, hsame ▸ rfl⟩
          | inr hrest => exact ih _ _ hrest

theorem isNumbered_of_mem_numberedFrom {spot : Spot} {path : List Nat}
    {index offset : Nat} {trees : List Tree}
    (hspot : spot ∈ numberedFrom path index offset trees) :
    spot.tree.isNumbered = true := by
  have hplaced := List.mem_map_of_mem (f := Spot.placed) hspot
  rw [map_placed_numberedFrom] at hplaced
  exact (List.mem_filter.mp hplaced).2

theorem tree_mem_of_mem_under {spot below : Spot}
    (hbelow : below ∈ spot.under) :
    below.tree ∈ spot.tree.children := by
  have hplaced := List.mem_map_of_mem (f := Spot.placed) hbelow
  rw [Spot.under, map_placed_numberedFrom] at hplaced
  exact mem_of_mem_numbered hplaced

/-! Where recovery made nodes of tokens only, every other node is reached
through the nodes that are not its own. -/

theorem ErrorsFlat.of_mem_children {tree child : Tree} (hflat : tree.ErrorsFlat)
    (hchild : child ∈ tree.children) : child.ErrorsFlat := by
  cases tree with
  | token kind text => cases hchild
  | node kind children => exact (everywhere_node.mp hflat).2 child hchild

theorem nodeCount_of_isNumbered {tree : Tree}
    (hnumbered : tree.isNumbered = true) :
    tree.nodeCount = nodeCountAll tree.children + 1 := by
  cases tree with
  | token kind text => cases hnumbered
  | node kind children =>
      exact nodeCount_node children (of_decide_eq_true hnumbered)

theorem spotsFrom_of_isToken {trees : List Tree}
    (htokens : ∀ tree ∈ trees, tree.isToken = true) (path : List Nat)
    (index offset : Nat) : spotsFrom path index offset trees = [] := by
  induction trees generalizing index offset with
  | nil => rfl
  | cons tree rest ih =>
      obtain ⟨htoken, hrest⟩ := List.forall_mem_cons.mp htokens
      cases tree with
      | node kind children => cases htoken
      | token kind text => rw [spotsFrom, ih hrest, spots, List.append_nil]

theorem spots_of_not_isNumbered {tree : Tree} (hflat : tree.ErrorsFlat)
    (hnumbered : tree.isNumbered = false) (path : List Nat) (offset : Nat) :
    tree.spots path offset = [] := by
  cases tree with
  | token kind text => rfl
  | node kind children =>
      rw [isNumbered, decide_eq_false_iff_not, not_not] at hnumbered
      rw [spots, if_pos hnumbered]
      exact spotsFrom_of_isToken ((everywhere_node.mp hflat).1 hnumbered) path
        0 offset

theorem spotsFrom_eq_flatMap {trees : List Tree}
    (hflat : ∀ tree ∈ trees, tree.ErrorsFlat) (path : List Nat)
    (index offset : Nat) : spotsFrom path index offset trees =
      (numberedFrom path index offset trees).flatMap Spot.all := by
  induction trees generalizing index offset with
  | nil => rfl
  | cons tree rest ih =>
      obtain ⟨hfirst, hrest⟩ := List.forall_mem_cons.mp hflat
      rw [spotsFrom, numberedFrom, ih hrest]
      cases hnumbered : tree.isNumbered with
      | true =>
          rw [if_pos rfl, List.flatMap_cons]
          rfl
      | false =>
          rw [if_neg Bool.false_ne_true,
            spots_of_not_isNumbered hfirst hnumbered, List.nil_append]

theorem Spot.all_eq_cons {spot : Spot} (hflat : spot.tree.ErrorsFlat)
    (hnumbered : spot.tree.isNumbered = true) :
    spot.all = spot :: spot.under.flatMap Spot.all := by
  obtain ⟨path, offset, tree⟩ := spot
  cases tree with
  | token kind text => cases hnumbered
  | node kind children =>
      rw [all, spots_node (of_decide_eq_true hnumbered),
        spotsFrom_eq_flatMap (everywhere_node.mp hflat).2]
      rfl

theorem Spot.sum_nodeCount_under (spot : Spot) :
    (spot.under.map fun below => below.tree.nodeCount).sum =
      nodeCountAll spot.tree.children := by
  rw [← sum_nodeCount_numbered spot.offset,
    ← map_placed_numberedFrom spot.path 0, List.map_map]
  rfl

end PklAnalysis.Tree

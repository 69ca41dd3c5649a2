import PklAnalysis.Proofs.Document.Listing
import PklAnalysis.Proofs.Node.Range

/-!
The order in which walks come to nodes: each node before those below it, and
none below a node where the walk does not go on. A walk that keeps a list of the
nodes it has still to look at comes to the nodes in this order.
-/

namespace PklAnalysis.Node

variable {node child parent root : Node}

def IsUnder (root node : Node) : Prop :=
  node = root ∨ root ∈ node.ancestors

theorem isUnder_of_parent? (hparent : node.parent? = some parent) :
    IsUnder root node ↔ node = root ∨ IsUnder root parent := by
  rw [IsUnder, IsUnder, ancestors_of_parent? hparent, List.mem_cons,
    eq_comm (a := root)]

theorem IsUnder.index_le (hunder : IsUnder root node) :
    root.index ≤ node.index := by
  rcases hunder with rfl | habove
  · exact Nat.le_refl _
  · exact Nat.le_of_lt (index_lt_of_mem_ancestors habove)

theorem not_isUnder_of_mem_ancestors (habove : parent ∈ node.ancestors) :
    ¬IsUnder node parent :=
  fun hunder =>
    absurd hunder.index_le (Nat.not_le_of_lt (index_lt_of_mem_ancestors habove))

theorem IsUnder.of_mem_ancestors {above : Node} (hunder : IsUnder root above)
    (habove : above ∈ node.ancestors) : IsUnder root node :=
  ancestorsInduction habove
    (fun _ hparent => (isUnder_of_parent? hparent).mpr (.inr hunder))
    fun _ _ hparent _ hunder => (isUnder_of_parent? hparent).mpr (.inr hunder)

/-- The trees under two nodes with the same node above them have no node in
common. -/
theorem eq_of_isUnder {other : Node} (hchild : child ∈ root.children)
    (hother : other ∈ root.children) (hunder : IsUnder child node)
    (hunder' : IsUnder other node) : child = other := by
  have hfar : ∀ {child other : Node},
      child ∈ root.children → other ∈ root.children →
      other ∉ child.ancestors := by
    intro child other hchild hother habove
    have hlt := (index_lt_of_mem_children hother).1
    rw [ancestors_of_mem_children hchild] at habove
    rcases List.mem_cons.mp habove with rfl | habove
    · exact Nat.lt_irrefl _ hlt
    · exact Nat.lt_asymm hlt (index_lt_of_mem_ancestors habove)
  induction node using inductionAbove with
  | top node hnone =>
      rw [IsUnder, ancestors_of_parent?_none hnone] at hunder hunder'
      exact (hunder.resolve_right List.not_mem_nil).symm.trans
        (hunder'.resolve_right List.not_mem_nil)
  | below node parent hparent ih =>
      rcases hunder with rfl | habove <;> rcases hunder' with rfl | habove'
      · rfl
      · exact absurd habove' (hfar hchild hother)
      · exact absurd habove (hfar hother hchild)
      · rw [ancestors_of_parent? hparent] at habove habove'
        exact ih ((List.mem_cons.mp habove).imp_left Eq.symm)
          ((List.mem_cons.mp habove').imp_left Eq.symm)

theorem nodup_children (node : Node) : node.children.Nodup := by
  obtain ⟨spots, -, hintact⟩ :=
    node.document.expands_arena.intact node.document.intact_fresh
  obtain ⟨first, -, hids⟩ := hintact.childIds_eq_range' node.index
  rw [children, hids]
  exact (List.nodup_range' 1 Nat.one_pos).map fun _ _ hsame =>
    congrArg index hsame

/-- The nodes that a walk comes to under a node, if it goes on below the nodes
that `enters` tells. -/
def reached (enters : Node → Bool) (node : Node) : List Node :=
  node :: if enters node then node.children.attach.flatMap fun child =>
    reached enters child.1 else []
termination_by node.document.arena.size - node.index
decreasing_by
  have hchild := child.2
  have hindex := index_lt_of_mem_children hchild
  rw [document_of_mem_children hchild]
  omega

variable {enters : Node → Bool}

theorem reached_eq (node : Node) :
    reached enters node = node :: if enters node then
      node.children.flatMap (reached enters) else [] := by
  rw [reached]
  simp only [List.flatMap_subtype, List.unattach_attach]

@[elab_as_elim]
theorem inductionBelow {motive : Node → Prop}
    (above : ∀ node : Node, (∀ child ∈ node.children, motive child) →
      motive node)
    (node : Node) :
    motive node := by
  induction hsize :
    node.document.arena.size -
      node.index using Nat.strongRecOn generalizing node with
  | ind size ih =>
      refine above node fun child hchild => ih _ ?_ child rfl
      have hindex := index_lt_of_mem_children hchild
      rw [document_of_mem_children hchild]
      omega

theorem mem_reached_iff : node ∈ reached enters root ↔
    node = root ∨ ∃ parent ∈ reached enters root,
      enters parent = true ∧ node ∈ parent.children := by
  induction root using inductionBelow with
  | above root ih =>
      constructor
      · intro hnode
        rw [reached_eq, List.mem_cons] at hnode
        refine hnode.imp_right fun hbelow => ?_
        split at hbelow
        case isFalse => cases hbelow
        case isTrue henters =>
            obtain ⟨child, hchild, hbelow⟩ := List.mem_flatMap.mp hbelow
            rcases (ih child hchild).mp hbelow with
              rfl | ⟨parent, hparent, hon, hmem⟩
            · exact ⟨root, by rw [reached_eq]; exact List.mem_cons_self,
                henters, hchild⟩
            · refine ⟨parent, ?_, hon, hmem⟩
              rw [reached_eq, if_pos henters]
              exact List.mem_cons_of_mem _
                (List.mem_flatMap.mpr ⟨child, hchild, hparent⟩)
      · rintro (rfl | ⟨parent, hparent, hon, hmem⟩)
        · rw [reached_eq]
          exact List.mem_cons_self
        · rw [reached_eq] at hparent ⊢
          refine List.mem_cons_of_mem _ ?_
          rcases List.mem_cons.mp hparent with rfl | hbelow
          · rw [if_pos hon]
            refine List.mem_flatMap.mpr ⟨node, hmem, ?_⟩
            exact (ih node hmem).mpr (.inl rfl)
          · split at hbelow
            case isFalse => cases hbelow
            case isTrue henters =>
                obtain ⟨child, hchild, hbelow⟩ := List.mem_flatMap.mp hbelow
                rw [if_pos henters]
                exact List.mem_flatMap.mpr
                  ⟨child, hchild,
                    (ih child hchild).mpr (.inr ⟨parent, hbelow, hon, hmem⟩)⟩

/-- A walk comes to the nodes of a tree that have no node above them in it where
it does not go on. -/
theorem mem_reached_iff_entered : node ∈ reached enters root ↔
    IsUnder root node ∧ ∀ above ∈ node.ancestors,
      IsUnder root above → enters above = true := by
  induction node using inductionAbove with
  | top node hnone =>
      rw [mem_reached_iff, IsUnder, ancestors_of_parent?_none hnone]
      constructor
      · rintro (rfl | ⟨parent, -, -, hmem⟩)
        · exact ⟨.inl rfl, nofun⟩
        · rw [parent?_of_mem_children hmem] at hnone
          cases hnone
      · exact fun ⟨hunder, _⟩ => .inl (hunder.resolve_right List.not_mem_nil)
  | below node parent hparent ih =>
      by_cases hroot : node = root
      case pos =>
          subst hroot
          refine iff_of_true (mem_reached_iff.mpr (.inl rfl)) ⟨.inl rfl,
            fun above habove hunder => ?_⟩
          exact absurd hunder (not_isUnder_of_mem_ancestors habove)
      case neg =>
          have hchild := mem_children_of_parent? hparent
          have hstep : node ∈ reached enters root ↔
              parent ∈ reached enters root ∧ enters parent = true := by
            rw [mem_reached_iff]
            constructor
            · rintro (hsame | ⟨other, hother, hon, hmem⟩)
              · exact absurd hsame hroot
              · obtain rfl :=
                  Option.some.inj
                    ((parent?_of_mem_children hmem).symm.trans hparent)
                exact ⟨hother, hon⟩
            · exact fun ⟨hreached, hon⟩ => .inr ⟨parent, hreached, hon, hchild⟩
          rw [hstep, ih, isUnder_of_parent? hparent,
            ancestors_of_parent? hparent, List.forall_mem_cons]
          constructor
          · rintro ⟨⟨hunder, habove⟩, hon⟩
            exact ⟨.inr hunder, fun _ => hon, habove⟩
          · rintro ⟨hunder, hon, habove⟩
            have hunder := hunder.resolve_left hroot
            exact ⟨⟨hunder, habove⟩, hon hunder⟩

theorem nodup_reached (root : Node) : (reached enters root).Nodup := by
  induction root using inductionBelow with
  | above root ih =>
      rw [reached_eq]
      split
      case isFalse => exact List.nodup_singleton root
      case isTrue =>
          refine List.nodup_cons.mpr ⟨fun hmem => ?_,
            List.nodup_flatMap.mpr ⟨ih, ?_⟩⟩
          · obtain ⟨child, hchild, hbelow⟩ := List.mem_flatMap.mp hmem
            have hle := (mem_reached_iff_entered.mp hbelow).1.index_le
            exact absurd hle
              (Nat.not_le_of_lt (index_lt_of_mem_children hchild).1)
          · refine (nodup_children root).imp_of_mem
              fun hchild hother hne node hnode hnode' => hne ?_
            exact eq_of_isUnder hchild hother
              (mem_reached_iff_entered.mp hnode).1
              (mem_reached_iff_entered.mp hnode').1

theorem document_of_isUnder (hunder : IsUnder root node) :
    node.document = root.document := by
  rcases hunder with rfl | habove
  · rfl
  · exact (document_of_mem_ancestors habove).symm

theorem index_lt_of_isUnder (hroot : root.index < root.document.arena.size)
    (hunder : IsUnder root node) :
    node.index < root.document.arena.size := by
  rcases hunder with rfl | habove
  · exact hroot
  · cases hparent : node.parent? with
    | none =>
        rw [ancestors_of_parent?_none hparent] at habove
        cases habove
    | some parent =>
        have hlt :=
          (index_lt_of_mem_children (mem_children_of_parent? hparent)).2
        rwa [document_of_parent? hparent, ← document_of_mem_ancestors habove]
          at hlt

theorem size_arena_pos (document : Document) : 0 < document.arena.size := by
  obtain ⟨children, htree⟩ := document.tree_eq_node
  rw [size_arena, htree, Tree.nodeCount_node children (by decide)]
  exact Nat.succ_pos _

theorem length_reached_le (root : Node) :
    (reached enters root).length ≤ root.document.arena.size := by
  by_cases hroot : root.index < root.document.arena.size
  case pos =>
      have hunder : ∀ node ∈ reached enters root, IsUnder root node :=
        fun node hnode =>
        (mem_reached_iff_entered.mp hnode).1
      have hindices : ((reached enters root).map index).Nodup := by
        refine (nodup_reached root).map_on fun node hnode other hother hsame =>
          ?_
        have hdocument := document_of_isUnder (hunder node hnode)
        have hdocument' := document_of_isUnder (hunder other hother)
        cases node
        cases other
        cases hsame
        cases hdocument.trans hdocument'.symm
        rfl
      have hsubset : (reached enters root).map index ⊆
          List.range root.document.arena.size := by
        intro number hnumber
        obtain ⟨node, hnode, rfl⟩ := List.mem_map.mp hnumber
        exact List.mem_range.mpr (index_lt_of_isUnder hroot (hunder node hnode))
      simpa using (hindices.subperm hsubset).length_le
  case neg =>
      have hchildren : root.children = [] :=
        List.eq_nil_iff_forall_not_mem.mpr fun child hchild =>
        hroot
          (Nat.lt_trans (index_lt_of_mem_children hchild).1
            (index_lt_of_mem_children hchild).2)
      rw [reached_eq, hchildren, List.flatMap_nil, ite_self,
        List.length_singleton]
      exact size_arena_pos root.document

def listing (enters : Node → Bool) : Nat → List Node → List Node
  | 0, _ => []
  | _ + 1, [] => []
  | limit + 1, node :: rest =>
      node :: listing enters limit (if enters node then node.children ++ rest
        else rest)

theorem listing_eq_flatMap {limit : Nat} {nodes : List Node}
    (hlimit : (nodes.flatMap (reached enters)).length ≤ limit) :
    listing enters limit nodes = nodes.flatMap (reached enters) := by
  induction limit generalizing nodes with
  | zero =>
      exact (List.eq_nil_of_length_eq_zero (Nat.eq_zero_of_le_zero hlimit)).symm
  | succ limit ih =>
      cases nodes with
      | nil => rfl
      | cons node rest =>
          have hsplit : (node :: rest).flatMap (reached enters) =
              node :: (if enters node then node.children ++ rest else
                rest).flatMap (reached enters) := by
            rw [List.flatMap_cons, reached_eq, List.cons_append]
            split
            case isTrue => rw [List.flatMap_append]
            case isFalse => rfl
          rw [hsplit, List.length_cons] at hlimit
          rw [hsplit, listing, ih (Nat.le_of_succ_le_succ hlimit)]

theorem preorder_eq_listing (limit : Nat) (nodes : List Node) :
    preorder limit nodes = listing (fun _ => true) limit nodes := by
  induction limit generalizing nodes with
  | zero => rfl
  | succ limit ih =>
      cases nodes with
      | nil => rfl
      | cons node rest => rw [preorder, listing, ih, if_pos rfl]

theorem listing_eq_reached (root : Node) :
    listing enters root.document.arena.size [root] = reached enters root := by
  have hlength : (reached enters root).length ≤ root.document.arena.size :=
    length_reached_le root
  rw [← List.flatMap_singleton (reached enters) root] at hlength ⊢
  exact listing_eq_flatMap hlength

theorem descendants_eq_reached (root : Node) :
    root.descendants = reached (fun _ => true) root := by
  rw [descendants, preorder_eq_listing, listing_eq_reached]

theorem descendants_eq (root : Node) :
    root.descendants = root :: root.children.flatMap descendants := by
  rw [descendants_eq_reached, reached_eq, if_pos rfl]
  exact congrArg (List.cons root) (List.flatMap_congr fun child _ =>
    (descendants_eq_reached child).symm)

theorem mem_descendants_iff : node ∈ root.descendants ↔ IsUnder root node := by
  rw [descendants_eq_reached, mem_reached_iff_entered]
  exact and_iff_left fun _ _ _ => rfl

theorem nodup_descendants (root : Node) : root.descendants.Nodup := by
  rw [descendants_eq_reached]
  exact nodup_reached root

theorem reached_sublist_descendants (root : Node) :
    (reached enters root).Sublist root.descendants := by
  rw [descendants_eq_reached]
  induction root using inductionBelow with
  | above root ih =>
      have hall : reached (fun _ => true) root =
          root :: root.children.flatMap (reached fun _ => true) :=
          reached_eq root
      rw [reached_eq, hall]
      refine List.Sublist.cons_cons root ?_
      split
      case isTrue => exact List.Sublist.flatMap_right _ ih
      case isFalse => exact List.nil_sublist _

theorem reached_eq_filter (root : Node) : reached enters root =
    root.descendants.filter fun node =>
      ∀ above ∈ node.ancestors, above ∈ root.descendants →
        enters above = true := by
  have hmem : ∀ node, node ∈ reached enters root ↔ node ∈ root.descendants ∧
      ∀ above ∈ node.ancestors, above ∈ root.descendants →
      enters above = true := by
    intro node
    simp only [mem_descendants_iff]
    exact mem_reached_iff_entered
  have hsublist : (reached enters root).Sublist root.descendants :=
    reached_sublist_descendants root
  have hfiltered := hsublist.filter fun node =>
    decide (∀ above ∈ node.ancestors, above ∈ root.descendants →
      enters above = true)
  rw [List.filter_eq_self.mpr fun node hnode =>
    decide_eq_true ((hmem node).mp hnode).2] at hfiltered
  refine hfiltered.eq_of_length_le
    (List.Nodup.subperm ((nodup_descendants root).filter _) ?_).length_le
  intro node hnode
  obtain ⟨hdescendant, habove⟩ := List.mem_filter.mp hnode
  exact (hmem node).mpr ⟨hdescendant, of_decide_eq_true habove⟩

end PklAnalysis.Node

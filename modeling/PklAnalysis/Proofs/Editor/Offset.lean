import PklAnalysis.Editor.Reference
import PklAnalysis.Proofs.Grammar.Parses
import PklAnalysis.Proofs.Node.Preorder

/-!
The node at an offset. The nodes directly under a node stand one after the
other, and they cover what is under them, so that from the root down there is
one way to a place inside a token, and it ends at the node that has the token.
-/

namespace PklAnalysis

namespace Tree

/-- Trees that stand side by side, with what is in the error nodes among them
instead of those. -/
def loose (offset : Nat) (trees : List Tree) : List (Nat × Tree) :=
  (place offset trees).flatMap fun (start, tree) =>
    match tree with
    | .node .error inner => place start inner
    | other => [(start, other)]

theorem mem_loose_token {offset start : Nat} {trees : List Tree}
    {kind : Token.Kind} {text : String} :
    (start, token kind text) ∈ loose offset trees ↔
      (start, token kind text) ∈ place offset trees ∨
        ∃ first inner, (first, node .error inner) ∈ place offset trees ∧
          (start, token kind text) ∈ place first inner := by
  rw [loose, List.mem_flatMap]
  constructor
  · rintro ⟨⟨first, tree⟩, hplaced, hmem⟩
    dsimp only at hmem
    split at hmem
    case h_1 inner => exact .inr ⟨first, inner, hplaced, hmem⟩
    case h_2 =>
        obtain ⟨rfl, rfl⟩ := Prod.mk.inj (List.mem_singleton.mp hmem)
        exact .inl hplaced
  · rintro (hplaced | ⟨first, inner, hplaced, hmem⟩)
    · exact ⟨_, hplaced, List.mem_singleton_self _⟩
    · exact ⟨_, hplaced, hmem⟩

theorem mem_rowsAll {depth offset : Nat} {trees : List Tree} {row : Row} :
    row ∈ rowsAll depth offset trees ↔
      ∃ placed ∈ place offset trees, row ∈ placed.2.rows depth placed.1 := by
  induction trees generalizing offset with
  | nil => simp [rowsAll, place]
  | cons tree rest ih =>
      rw [rowsAll, place, List.mem_append, ih, List.exists_mem_cons_iff]

theorem eq_of_mem_rows_token {depth offset : Nat} {kind kind' : Token.Kind}
    {text text' : String} {row : Row}
    (hrow : row ∈ (token kind' text').rows depth offset)
    (htoken : row.tree = token kind text) :
    offset = row.offset ∧ token kind' text' = token kind text := by
  rw [rows, List.mem_singleton] at hrow
  rw [hrow] at htoken ⊢
  exact ⟨rfl, htoken⟩

theorem mem_place_of_tokens {nodeKind : Node.Kind} {depth offset : Nat}
    {trees : List Tree} {kind : Token.Kind} {text : String} {row : Row}
    (htokens : ∀ tree ∈ trees, tree.isToken = true)
    (hrow : row ∈ (node nodeKind trees).rows depth offset)
    (htoken : row.tree = token kind text) :
    (row.offset, token kind text) ∈ place offset trees := by
  rw [rows, List.mem_cons] at hrow
  have hrow := hrow.resolve_left fun hsame => by
    rw [hsame] at htoken
    cases htoken
  obtain ⟨⟨start, tree⟩, hplaced, hrow⟩ := mem_rowsAll.mp hrow
  cases tree with
  | token kind' text' =>
      obtain ⟨rfl, hsame⟩ := eq_of_mem_rows_token hrow htoken
      rwa [hsame] at hplaced
  | node kind' inner =>
      have hmem : node kind' inner ∈ trees := by
        rw [← map_snd_place offset trees]
        exact List.mem_map_of_mem hplaced
      cases htokens _ hmem

theorem apart_of_mem_place {offset : Nat} {trees : List Tree}
    {left right : Nat × Tree} (hleft : left ∈ place offset trees)
    (hright : right ∈ place offset trees) (hne : left ≠ right) :
    left.1 + left.2.size ≤ right.1 ∨ right.1 + right.2.size ≤ left.1 := by
  let Apart (left right : Nat × Tree) : Prop :=
    left.1 + left.2.size ≤ right.1 ∨ right.1 + right.2.size ≤ left.1
  have hsymm : Std.Symm Apart := ⟨fun _ _ => Or.symm⟩
  have hapart : (place offset trees).Pairwise Apart :=
    (pairwise_place offset trees).imp Or.inl
  exact hapart.forall hleft hright hne

end Tree

namespace Node

variable {node child above root : Node} {start offset : Nat} {kind : Token.Kind}
  {text : String}

/-! Tokens and the nodes that have them. -/

/-- The node has a token that starts at an offset, directly or in an error node
directly under it. -/
def Owns (node : Node) (start : Nat) (kind : Token.Kind) (text : String) :
    Prop :=
  (start, Tree.token kind text) ∈
    Tree.loose node.range.start node.slot.tree.children

namespace Stands

variable {first : Nat} {nodeKind : Kind} {trees : List Tree}

theorem owns_iff (hstands : node.Stands first (.node nodeKind trees)) :
    node.Owns start kind text ↔
      (start, Tree.token kind text) ∈ Tree.loose first trees := by
  obtain ⟨parent?, ids, hslot⟩ := hstands.slot_eq
  rw [Owns, range, hslot]
  rfl

theorem exists_placed (hstands : node.Stands first (.node nodeKind trees))
    (hchild : child ∈ node.children) :
    ∃ placed ∈ Tree.numbered first trees, child.Stands placed.1 placed.2 :=
  exists_right_of_forall₂ hstands.children hchild

end Stands

theorem stands_of_isUnder {document : Document}
    (hunder : IsUnder document.root node) :
    ∃ first kind trees, node.Stands first (.node kind trees) ∧
      node.document = document := by
  have hdocument := document_of_isUnder hunder
  have hlt : node.index < node.document.arena.size := by
    rw [hdocument]
    exact index_lt_of_isUnder (size_arena_pos document) hunder
  obtain ⟨first, tree, hstands, -⟩ := stands_of_lt_size hlt
  cases tree with
  | token kind text => cases hstands
  | node kind trees => exact ⟨first, kind, trees, hstands, hdocument⟩

theorem Owns.within {first : Nat} {nodeKind : Kind} {trees : List Tree}
    (howns : node.Owns start kind text)
    (hstands : node.Stands first (.node nodeKind trees)) :
    node.range.start ≤ start ∧ start + text.utf8ByteSize ≤ node.range.stop := by
  rw [hstands.range_eq]
  change first ≤ start ∧ start + text.utf8ByteSize ≤ first + Tree.sizeAll trees
  rcases Tree.mem_loose_token.mp (hstands.owns_iff.mp howns) with
    hplaced | ⟨place, inner, hplaced, hmem⟩
  · exact Tree.le_of_mem_place hplaced
  · have houter := Tree.le_of_mem_place hplaced
    have hinner := Tree.le_of_mem_place hmem
    simp only [Tree.size] at houter hinner
    omega

theorem Owns.apart {first : Nat} {nodeKind : Kind} {trees : List Tree}
    (howns : node.Owns start kind text)
    (hstands : node.Stands first (.node nodeKind trees))
    (hchild : child ∈ node.children) :
    child.range.stop ≤ start ∨
      start + text.utf8ByteSize ≤ child.range.start := by
  obtain ⟨⟨place, tree⟩, hnumbered, hbelow⟩ := hstands.exists_placed hchild
  obtain ⟨hplaced, hisNumbered⟩ := List.mem_filter.mp hnumbered
  rw [hbelow.range_eq]
  change place + tree.size ≤ start ∨ start + text.utf8ByteSize ≤ place
  rcases Tree.mem_loose_token.mp (hstands.owns_iff.mp howns) with
    htoken | ⟨outer, inner, houter, hmem⟩
  · have hne : (place, tree) ≠ (start, Tree.token kind text) := by
      rintro ⟨⟩
      cases hisNumbered
    exact Tree.apart_of_mem_place hplaced htoken hne
  · have hne : (place, tree) ≠ (outer, Tree.node .error inner) := by
      rintro ⟨⟩
      cases hisNumbered
    have hinner := Tree.le_of_mem_place hmem
    have hapart := Tree.apart_of_mem_place hplaced houter hne
    simp only [Tree.size] at hinner hapart
    omega

/-- Every token of a tree has a node: there are only tokens in error nodes. -/
theorem exists_owner {depth first : Nat} {tree : Tree}
    (hstands : node.Stands first tree) (hflat : tree.ErrorsFlat)
    {row : Tree.Row} (hrow : row ∈ tree.rows depth first)
    (htoken : row.tree = .token kind text) :
    ∃ owner, IsUnder node owner ∧ owner.Owns row.offset kind text := by
  induction node using inductionBelow generalizing depth first tree with
  | above node ih =>
      cases tree with
      | token kind text => cases hstands
      | node nodeKind trees =>
          obtain ⟨hhere, hbelow⟩ := Tree.everywhere_node.mp hflat
          rw [Tree.rows, List.mem_cons] at hrow
          have hrow := hrow.resolve_left fun hsame => by
            rw [hsame] at htoken
            cases htoken
          obtain ⟨⟨place, tree⟩, hplaced, hrow⟩ := Tree.mem_rowsAll.mp hrow
          have hmem : tree ∈ trees := by
            rw [← Tree.map_snd_place first trees]
            exact List.mem_map_of_mem hplaced
          cases hnumbered : tree.isNumbered with
          | true =>
              have hspot : (place, tree) ∈ Tree.numbered first trees :=
                List.mem_filter.mpr ⟨hplaced, hnumbered⟩
              obtain ⟨child, hchild, hstands'⟩ :=
                exists_left_of_forall₂ hstands.children hspot
              obtain ⟨owner, hunder, howns⟩ :=
                ih child hchild hstands' (hbelow tree hmem) hrow
              refine ⟨owner, ?_, howns⟩
              have habove : node ∈ child.ancestors := by
                rw [ancestors_of_mem_children hchild]
                exact List.mem_cons_self
              rcases hunder with rfl | hunder
              · exact .inr habove
              · exact IsUnder.of_mem_ancestors (.inr habove) hunder
          | false =>
              refine ⟨node, .inl rfl,
                hstands.owns_iff.mpr (Tree.mem_loose_token.mpr ?_)⟩
              cases tree with
              | token kind' text' =>
                  obtain ⟨rfl, hsame⟩ := Tree.eq_of_mem_rows_token hrow htoken
                  rw [hsame] at hplaced
                  exact .inl hplaced
              | node nodeKind inner =>
                  obtain rfl : nodeKind = .error := by
                    simpa [Tree.isNumbered] using hnumbered
                  have htokens :=
                    (Tree.everywhere_node.mp (hbelow _ hmem)).1 rfl
                  exact .inr ⟨place, inner, hplaced,
                    Tree.mem_place_of_tokens htokens hrow htoken⟩

theorem exists_child_of_mem_ancestors (habove : above ∈ node.ancestors) :
    ∃ child ∈ above.children, IsUnder child node := by
  refine ancestorsInduction habove (fun node hparent => ?_)
    fun node parent hparent _ hbelow => ?_
  · exact ⟨node, mem_children_of_parent? hparent, .inl rfl⟩
  · obtain ⟨child, hchild, hunder⟩ := hbelow
    exact ⟨child, hchild, (isUnder_of_parent? hparent).mpr (.inr hunder)⟩

theorem IsUnder.covers (hunder : IsUnder root node) :
    root.range.start ≤ node.range.start ∧
      node.range.stop ≤ root.range.stop := by
  rcases hunder with rfl | habove
  · exact ⟨Nat.le_refl _, Nat.le_refl _⟩
  · exact covers_of_mem_ancestors habove

def Inside (range : Range) (offset : Nat) : Prop :=
  range.start < offset ∧ offset < range.stop

theorem Inside.touches {range : Range} (hinside : Inside range offset) :
    range.touches offset = true := by
  have hlt := hinside.1
  have hlt' := hinside.2
  simp only [Range.touches, Bool.and_eq_true, decide_eq_true_eq]
  omega

theorem find?_touches_of_inside (hchild : child ∈ node.children)
    (hinside : Inside child.range offset) :
    node.children.find? (fun child => child.range.touches offset) =
      some child := by
  obtain ⟨found, hfound⟩ : ∃ found,
      node.children.find? (fun child => child.range.touches offset) =
        some found :=
    Option.isSome_iff_exists.mp
      (List.find?_isSome.mpr ⟨child, hchild, hinside.touches⟩)
  have htouches := List.find?_some hfound
  rw [hfound]
  congr
  by_contra hne
  have hapart :=
    apart_of_mem_children (List.mem_of_find?_eq_some hfound) hchild hne
  have hlt := hinside.1
  have hlt' := hinside.2
  simp only [Range.touches, Bool.and_eq_true, decide_eq_true_eq] at htouches
  omega

theorem descend_of_find?_none (limit : Nat)
    (hnone : node.children.find? (fun child => child.range.touches offset) =
      none) :
    descend offset limit node = node := by
  cases limit with
  | zero => rfl
  | succ limit => rw [descend, hnone]

theorem descend_of_isUnder {limit : Nat}
    (hlimit : root.document.arena.size ≤ root.index + limit)
    (hunder : IsUnder root node) (hinside : Inside node.range offset)
    (hnone : node.children.find? (fun child => child.range.touches offset) =
      none) :
    descend offset limit root = node := by
  induction limit generalizing root with
  | zero =>
      rcases hunder with rfl | habove
      · rfl
      · obtain ⟨child, hchild, -⟩ := exists_child_of_mem_ancestors habove
        have hlt := index_lt_of_mem_children hchild
        omega
  | succ limit ih =>
      rcases hunder with rfl | habove
      · exact descend_of_find?_none _ hnone
      · obtain ⟨child, hchild, hunder⟩ := exists_child_of_mem_ancestors habove
        have hcovers := hunder.covers
        have hinside' : Inside child.range offset :=
          ⟨Nat.lt_of_le_of_lt hcovers.1 hinside.1,
            Nat.lt_of_lt_of_le hinside.2 hcovers.2⟩
        have hlt := index_lt_of_mem_children hchild
        have hdocument : child.document = root.document :=
          document_of_mem_children hchild
        rw [descend, find?_touches_of_inside hchild hinside']
        refine ih ?_ hunder
        rw [hdocument]
        omega

theorem Owns.at?_eq {document : Document} (howns : node.Owns start kind text)
    (hunder : IsUnder document.root node) (hstart : start < offset)
    (hstop : offset < start + text.utf8ByteSize) :
    document.root.at? offset = some node := by
  obtain ⟨first, nodeKind, trees, hstands, -⟩ := stands_of_isUnder hunder
  have hwithin := howns.within hstands
  have hinside : Inside node.range offset :=
    ⟨Nat.lt_of_le_of_lt hwithin.1 hstart, Nat.lt_of_lt_of_le hstop hwithin.2⟩
  have hcovers := hunder.covers
  have hroot : Inside document.root.range offset :=
    ⟨Nat.lt_of_le_of_lt hcovers.1 hinside.1,
      Nat.lt_of_lt_of_le hinside.2 hcovers.2⟩
  have hnone : node.children.find? (fun child => child.range.touches offset) =
      none := by
    apply List.find?_eq_none.mpr
    intro child hchild htouches
    have hapart := howns.apart hstands hchild
    simp only [Range.touches, Bool.and_eq_true, decide_eq_true_eq] at htouches
    omega
  rw [at?, if_pos hroot.touches]
  exact congrArg some
    (descend_of_isUnder (Nat.le_add_left _ _) hunder hinside hnone)

theorem owns_of_mem_terminals {first : Nat} {nodeKind : Kind}
    {trees : List Tree} {terminal : Terminal}
    (hstands : node.Stands first (.node nodeKind trees))
    (hterminal : terminal ∈ node.terminals) :
    node.Owns terminal.range.start terminal.kind terminal.text ∧
      terminal.range.stop =
        terminal.range.start + terminal.text.utf8ByteSize := by
  rw [hstands.terminals_eq, Slot.terminalsOf, List.mem_filterMap] at hterminal
  obtain ⟨⟨start, tree⟩, hplaced, hterminal⟩ := hterminal
  cases tree with
  | node kind trees => cases hterminal
  | token kind text =>
      dsimp only at hterminal
      split at hterminal
      case isTrue => cases hterminal
      case isFalse =>
          cases hterminal
          exact ⟨hstands.owns_iff.mpr (Tree.mem_loose_token.mpr (.inl hplaced)),
            rfl⟩

theorem mem_terminals_of_identifier {name : Terminal}
    (hname : node.identifier = .ok name) :
    name ∈ node.terminals := by
  rw [identifier] at hname
  split at hname
  case h_1 terminal hterminal =>
      cases hname
      exact List.mem_of_find?_eq_some hterminal
  case h_2 => cases hname

end Node

namespace Reference

open Node (IsUnder)

theorem ofNode?_of_isAccess {access : Node} {name : Terminal} {offset : Nat}
    (haccess : access.kind.isAccess = true)
    (hname : access.identifier = .ok name)
    (htouches : name.range.touches offset = true) :
    ofNode? offset access = some (some (.access access)) := by
  have hsome : (Lookup.accessName? access).isSome = true := by
    rw [Lookup.accessName?, if_pos haccess, Node.name, hname]
    rfl
  have hcovers : access.nameTouches offset = true := by
    rw [Node.nameTouches, hname]
    exact htouches
  rw [ofNode?, if_pos hsome, if_pos hcovers]

/-- Every token of a document has a node: the one directly above it or, if it is
in an error node, the one above that. From the root this node is found at each
place inside the token. So an access is what the cursor points at inside its
name. -/
theorem at?_inside_token (document : Document) :
    (∀ row ∈ document.parse.tree.rows 0 0, ∀ kind text,
      row.tree = .token kind text →
      ∃ node ∈ document.root.descendants, node.Owns row.offset kind text) ∧
    (∀ node ∈ document.root.descendants, ∀ start kind text,
      node.Owns start kind text →
      ∀ offset, start < offset → offset < start + text.utf8ByteSize →
        document.root.at? offset = some node) ∧
    ∀ access ∈ document.root.descendants, access.kind.isAccess = true →
      ∀ name, access.identifier = .ok name → ∀ offset,
        name.range.start < offset →
        offset < name.range.stop →
        Reference.at? document offset = some (.access access) := by
  refine ⟨fun row hrow kind text htoken => ?_,
    fun node hnode start kind text howns offset => ?_,
    fun access haccess hkind name hname offset hstart hstop => ?_⟩
  · obtain ⟨owner, hunder, howns⟩ :=
      Node.exists_owner (Node.stands_root document) document.errorsFlat
        hrow htoken
    exact ⟨owner, Node.mem_descendants_iff.mpr hunder, howns⟩
  · exact howns.at?_eq (Node.mem_descendants_iff.mp hnode)
  · have hunder : IsUnder document.root access :=
      Node.mem_descendants_iff.mp haccess
    obtain ⟨first, kind, trees, hstands, -⟩ := Node.stands_of_isUnder hunder
    obtain ⟨howns, hend⟩ :=
      Node.owns_of_mem_terminals hstands
        (Node.mem_terminals_of_identifier hname)
    have hfound : document.root.at? offset = some access :=
      howns.at?_eq hunder hstart (hend ▸ hstop)
    have htouches : name.range.touches offset = true :=
      Node.Inside.touches ⟨hstart, hstop⟩
    have hhere := ofNode?_of_isAccess hkind hname htouches
    simp [at?, hfound, hhere]

def strayCharacter : Document :=
  .ofTokens "file:///stray.pkl" "x = (abc §)"
    [⟨.identifier, "x", 0⟩, ⟨.whitespace, " ", 1⟩, ⟨.equal, "=", 2⟩,
     ⟨.whitespace, " ", 3⟩, ⟨.leftParen, "(", 4⟩, ⟨.identifier, "abc", 5⟩,
     ⟨.whitespace, " ", 8⟩, ⟨.error, "§", 9⟩, ⟨.rightParen, ")", 11⟩]
    (Token.ok_of_toOption (by decide +kernel))

/-- Inside the stray character are the parentheses, and inside the name is the
access. -/
theorem at?_inside_token_stray :
    let parentheses : Node := ⟨strayCharacter, 2⟩
    let access : Node := ⟨strayCharacter, 3⟩
    parentheses ∈ strayCharacter.root.descendants ∧
      parentheses.Owns 9 .error "§" ∧
      strayCharacter.root.at? 10 = some parentheses ∧
      access ∈ strayCharacter.root.descendants ∧ access.kind.isAccess = true ∧
      access.identifier.toOption.map Terminal.name = some "abc" ∧
      Reference.at? strayCharacter 6 = some (.access access) := by
  intro parentheses access
  have hparentheses : parentheses ∈ strayCharacter.root.descendants := by
    decide +kernel
  have hstray : parentheses.Owns 9 .error "§" := by
    unfold Node.Owns
    decide +kernel
  have haccess : access ∈ strayCharacter.root.descendants := by decide +kernel
  have hkind : access.kind.isAccess = true := by decide +kernel
  have hname : access.identifier = .ok ⟨.identifier, "abc", .ofSize 5 3⟩ :=
    toOption_eq_some.mp (by decide +kernel)
  obtain ⟨-, htokens, haccesses⟩ := at?_inside_token strayCharacter
  refine ⟨hparentheses, hstray, ?_, haccess, hkind, ?_, ?_⟩
  · exact htokens parentheses hparentheses 9 .error "§" hstray 10 (by decide)
      (by decide)
  · rw [hname]
    decide
  · exact haccesses access haccess hkind _ hname 6 (by decide) (by decide)

end Reference

end PklAnalysis

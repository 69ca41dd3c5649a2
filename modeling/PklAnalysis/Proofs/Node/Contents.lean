import PklAnalysis.Node.Parts
import PklAnalysis.Proofs.Document.Contents
import PklAnalysis.Proofs.Grammar.Conformance

/-!
What stands under a node of a document. In a document without errors it has the
shape of the node's kind.
-/

namespace PklAnalysis

/-- The document of the first file, with a text whose tokens are known. -/
def Document.ofTokens (uri text : String) (tokens : List Token)
    (htokens : Token.tokenize text = .ok tokens) : Document where
  source := { file := ⟨1⟩, revision := 0, uri, version := 1, text }
  parse := Grammar.parseTokens tokens text.utf8ByteSize
  arena := .ofTree (Grammar.parseTokens tokens text.utf8ByteSize).tree
  lines := .ofText text
  parse_eq := Grammar.parse_of_tokenize htokens
  arena_eq := rfl
  lines_eq := rfl

theorem Document.errors_ofTokens {text : String} {tokens : List Token}
    (uri : String) (htokens : Token.tokenize text = .ok tokens) :
    (ofTokens uri text tokens htokens).errors =
        (Grammar.parseTokens tokens text.utf8ByteSize).errors := by
  rw [errors, ofTokens]

theorem Document.arena_ofTokens {text : String} {tokens : List Token}
    (uri : String) (htokens : Token.tokenize text = .ok tokens) :
    (ofTokens uri text tokens htokens).arena =
        .ofTree (Grammar.parseTokens tokens text.utf8ByteSize).tree := by
  rw [ofTokens]

theorem Document.exists_tokens (document : Document) :
    ∃ tokens, Token.tokenize document.source.text = .ok tokens ∧
      document.parse =
        Grammar.parseTokens tokens document.source.text.utf8ByteSize := by
  have hparse := document.parse_eq
  cases htokens : Token.tokenize document.source.text with
  | error reason =>
      rw [Grammar.parse, htokens] at hparse
      cases hparse
  | ok tokens =>
      rw [Grammar.parse_of_tokenize htokens] at hparse
      exact ⟨tokens, rfl, (Except.ok.inj hparse).symm⟩

theorem Document.parse_eq_parseTokens (document : Document) :
    ∃ tokens stop, document.parse = Grammar.parseTokens tokens stop :=
  let ⟨tokens, _, hparse⟩ := document.exists_tokens
  ⟨tokens, _, hparse⟩

theorem Document.tree_eq_node (document : Document) :
    ∃ children, document.parse.tree = .node .root children := by
  obtain ⟨tokens, stop, hparse⟩ := document.parse_eq_parseTokens
  obtain ⟨-, hinOrder, hopen, children, htrees, -⟩ :=
    Grammar.finalState_built tokens stop
  exact ⟨children, hparse ▸ Grammar.tree_parseTokens hinOrder hopen htrees⟩

theorem Document.conforms {document : Document}
    (herrors : document.errors = []) :
    document.parse.tree.Conforms := by
  obtain ⟨tokens, stop, hparse⟩ := document.parse_eq_parseTokens
  rw [errors, hparse] at herrors
  rw [hparse]
  exact Grammar.conforms_parseTokens tokens stop herrors

namespace Node

/-- The node is that of a tree at an offset. -/
def Stands (node : Node) (offset : Nat) (tree : Tree) : Prop :=
  node.document.arena.Holds node.index (offset, tree)

theorem stands_root (document : Document) :
    document.root.Stands 0 document.parse.tree := by
  obtain ⟨children, htree⟩ := document.tree_eq_node
  rw [Stands, Document.root, document.arena_eq, htree]
  exact Arena.holds_ofTree children

theorem stands_of_lt_size {node : Node}
    (hlt : node.index < node.document.arena.size) :
    ∃ offset tree, node.Stands offset tree ∧
      ∀ holds, node.document.parse.tree.Everywhere holds →
      tree.Everywhere holds := by
  obtain ⟨children, htree⟩ := node.document.tree_eq_node
  rw [node.document.arena_eq, htree] at hlt
  obtain ⟨⟨offset, tree⟩, hholds, hwithin⟩ :=
    Arena.holds_of_lt_size children hlt
  rw [← htree, ← node.document.arena_eq] at hholds
  exact ⟨offset, tree, hholds, htree ▸ hwithin⟩

theorem slot_of_not_lt_size {node : Node}
    (hle : ¬ node.index < node.document.arena.size) :
    node.slot = .absent := by
  rw [slot, Arena.slot, Array.getD_eq_getD_getElem?,
    Array.getElem?_eq_none (Nat.le_of_not_lt hle), Option.getD_none]

namespace Stands

variable {node : Node} {offset : Nat} {kind : Kind} {trees : List Tree}

theorem slot_eq (hstands : node.Stands offset (.node kind trees)) :
    ∃ parent? ids,
      node.slot =
        { Slot.ofNode parent? offset kind trees with
          children? := some ids } := by
  cases hstands with
  | @node _ _ parent? _ _ ids slot =>
      refine ⟨parent?, ids, ?_⟩
      rw [Node.slot, Arena.slot, Array.getD_eq_getD_getElem?, slot,
        Option.getD_some]

theorem kind_eq (hstands : node.Stands offset (.node kind trees)) :
    node.kind = kind := by
  obtain ⟨parent?, ids, hslot⟩ := hstands.slot_eq
  rw [Node.kind, hslot]
  rfl

theorem range_eq {tree : Tree} (hstands : node.Stands offset tree) :
    node.range = tree.rangeAt offset := by
  cases tree with
  | token kind text => cases hstands
  | node kind trees =>
      obtain ⟨parent?, ids, hslot⟩ := hstands.slot_eq
      rw [Node.range, hslot, Tree.rangeAt, Tree.size]
      rfl

theorem terminals_eq (hstands : node.Stands offset (.node kind trees)) :
    node.terminals = Slot.terminalsOf offset trees := by
  obtain ⟨parent?, ids, hslot⟩ := hstands.slot_eq
  rw [terminals, hslot]
  rfl

theorem hasError_eq (hstands : node.Stands offset (.node kind trees)) :
    node.hasError = trees.any Tree.isError := by
  obtain ⟨parent?, ids, hslot⟩ := hstands.slot_eq
  rw [hasError, hslot]
  rfl

theorem children (hstands : node.Stands offset (.node kind trees)) :
    List.Forall₂
      (fun child (placed : Nat × Tree) => child.Stands placed.1 placed.2)
        node.children
      (Tree.numbered offset trees) := by
  cases hstands with
  | node slot length below =>
      rw [Node.children, Arena.childIds_of_slot slot rfl,
        List.forall₂_map_left_iff]
      exact List.forall₂_iff_zip.mpr ⟨length, fun hmem => below hmem⟩

end Stands

end Node

/-! What a shape says about the terminals and the children. -/

theorem Slot.map_kind_terminalsOf (offset : Nat) (trees : List Tree) :
    (terminalsOf offset trees).map Terminal.kind =
      (Tree.symbols trees).filterMap Symbol.token? := by
  induction trees generalizing offset with
  | nil => rfl
  | cons tree rest ih =>
      rw [← List.singleton_append (l := rest), terminalsOf_append,
        List.map_append, ih, Tree.symbols_append, List.filterMap_append]
      congr 1
      cases tree with
      | node kind children => rfl
      | token kind text => cases htrivia : kind.isTrivia <;>
          simp [terminalsOf, Tree.place, Tree.symbols, Tree.isTrivia, htrivia,
            Tree.symbol, Symbol.token?]

theorem Slot.find?_terminalsOf {trees : List Tree} {kind : Token.Kind}
    (offset : Nat) (hnone : .token kind ∉ Tree.symbols trees) :
    (terminalsOf offset trees).find? (fun terminal => terminal.kind = kind) =
      none := by
  refine List.find?_eq_none.mpr fun terminal hterminal hkind => hnone ?_
  have hmem := List.mem_map_of_mem (f := Terminal.kind) hterminal
  rw [map_kind_terminalsOf, of_decide_eq_true hkind] at hmem
  exact Symbol.mem_filterMap_token?.mp hmem

theorem Tree.kinds_numbered (offset : Nat) (trees : List Tree) :
    (numbered offset trees).filterMap (fun placed => placed.2.symbol.node?) =
      ((symbols trees).filterMap Symbol.node?).filter (· ≠ .error) := by
  induction trees generalizing offset with
  | nil => rfl
  | cons tree rest ih =>
      rw [← List.singleton_append (l := rest), numbered_append,
        List.filterMap_append, ih, symbols_append, List.filterMap_append,
        List.filter_append]
      congr 1
      cases tree with
      | token kind text => cases htrivia : kind.isTrivia <;>
          simp [numbered, place, symbols, isTrivia, htrivia, symbol,
            Symbol.node?, isNumbered]
      | node kind children => by_cases hkind : kind = .error <;>
          simp [numbered, place, symbols, isTrivia, symbol, Symbol.node?,
            isNumbered, hkind]

namespace Node

/-- Every node but one that its document does not have is that of a tree with
the shape of its kind. -/
theorem stands_of_errors {node : Node} (herrors : node.document.errors = [])
    (hkind : node.kind ≠ .error) :
    ∃ offset trees, node.Stands offset (.node node.kind trees) ∧
        (Tree.node node.kind trees).Conforms := by
  by_cases hlt : node.index < node.document.arena.size
  case neg => exact absurd (congrArg Slot.kind (slot_of_not_lt_size hlt)) hkind
  case pos =>
      obtain ⟨offset, tree, hstands, hwithin⟩ := stands_of_lt_size hlt
      have hconforms := hwithin _ (node.document.conforms herrors)
      cases tree with
      | token kind text => cases hstands
      | node kind trees =>
          rw [hstands.kind_eq]
          exact ⟨offset, trees, hstands, hconforms⟩

namespace Stands

variable {node : Node} {offset : Nat} {kind : Kind} {trees : List Tree}

theorem symbol_eq {tree : Tree} (hstands : node.Stands offset tree) :
    tree.symbol = .node node.kind := by
  cases tree with
  | token kind text => cases hstands
  | node kind trees => rw [hstands.kind_eq, Tree.symbol]

theorem kinds_terminals (hstands : node.Stands offset (.node kind trees)) :
    node.terminals.map Terminal.kind =
      (Tree.symbols trees).filterMap Symbol.token? := by
  rw [hstands.terminals_eq, Slot.map_kind_terminalsOf]

theorem kinds_children (hstands : node.Stands offset (.node kind trees)) :
    node.children.map Node.kind =
      ((Tree.symbols trees).filterMap Symbol.node?).filter (· ≠ .error) := by
  rw [← Tree.kinds_numbered offset]
  have hchildren := hstands.children
  generalize node.children = nodes,
    Tree.numbered offset trees = placed at hchildren ⊢
  induction hchildren with
  | nil => rfl
  | cons hchild _ ih =>
      rw [List.map_cons, ih, List.filterMap_cons, hchild.symbol_eq,
        Symbol.node?]

theorem mem_kinds_terminals (hstands : node.Stands offset (.node kind trees))
    {terminal : Token.Kind} : terminal ∈ node.terminals.map Terminal.kind ↔
      .token terminal ∈ Tree.symbols trees := by
  rw [hstands.kinds_terminals, Symbol.mem_filterMap_token?]

theorem countP_terminals (hstands : node.Stands offset (.node kind trees))
    (isKind : Token.Kind → Bool) :
    (node.terminals.countP fun terminal => isKind terminal.kind) =
        (Tree.symbols trees).countP (Symbol.isToken isKind) := by
  rw [← Symbol.countP_token?, ← hstands.kinds_terminals, List.countP_map]
  rfl

theorem length_childrenWhere (hstands : node.Stands offset (.node kind trees))
    {isKind : Kind → Bool} (herror : isKind .error = false) :
    (node.childrenWhere isKind).length =
      (Tree.symbols trees).countP (Symbol.isNode isKind) := by
  calc
    (node.childrenWhere isKind).length
    _ = (node.children.map Node.kind).countP isKind := by
        rw [childrenWhere, ← List.countP_eq_length_filter, List.countP_map]
        rfl
    _ = ((Tree.symbols trees).filterMap Symbol.node?).countP isKind := by
        rw [hstands.kinds_children, List.countP_filter]
        refine List.countP_congr fun kind _ => ?_
        have himp : isKind kind = true → kind ≠ .error := by
          rintro hkind rfl
          rw [herror] at hkind
          cases hkind
        simpa using himp
    _ = (Tree.symbols trees).countP (Symbol.isNode isKind) :=
      Symbol.countP_node? _ _

end Stands

/-! Nodes in the order of the tree. -/

theorem everywhere_of_preorder {holds : Kind → List Tree → Prop} {limit : Nat}
    {nodes : List Node} {placed : List (Nat × Tree)}
    (hstands : List.Forall₂ (fun node place => node.Stands place.1 place.2)
      nodes placed)
    (hconforms : ∀ place ∈ placed, place.2.Conforms)
    (hlimit : (placed.map fun place => place.2.nodeCount).sum ≤ limit)
    (hholds : ∀ node ∈ preorder limit nodes, ∀ offset kind trees,
      node.Stands offset (.node kind trees) → (Tree.node kind trees).Conforms →
        holds kind trees) :
    ∀ place ∈ placed, place.2.Everywhere holds := by
  induction limit generalizing nodes placed with
  | zero =>
      cases hstands with
      | nil => exact fun place hplace => nomatch hplace
      | @cons node place nodes placed hnode hrest =>
          obtain ⟨offset, tree⟩ := place
          cases tree with
          | token kind text => cases hnode
          | node kind trees =>
              have hkind := (hconforms _ List.mem_cons_self).kind_ne_error
              rw [List.map_cons, List.sum_cons, Tree.nodeCount_node trees hkind]
                at hlimit
              omega
  | succ limit ih =>
      cases hstands with
      | nil => exact fun place hplace => nomatch hplace
      | @cons node place nodes placed hnode hrest =>
      obtain ⟨offset, tree⟩ := place
      cases tree with
      | token kind text => cases hnode
      | node kind trees =>
      obtain ⟨hhere, hothers⟩ := List.forall_mem_cons.mp hconforms
      obtain ⟨hshape, hbelow⟩ := Tree.conforms_node.mp hhere
      have hsum :
          ((Tree.numbered offset trees ++ placed).map fun place =>
            place.2.nodeCount).sum ≤
          limit := by
        rw [List.map_cons, List.sum_cons,
          Tree.nodeCount_node trees hhere.kind_ne_error] at hlimit
        rw [List.map_append, List.sum_append, Tree.sum_nodeCount_numbered]
        omega
      have heverywhere := ih (List.rel_append hnode.children hrest)
        (List.forall_mem_append.mpr
          ⟨fun place hplace => hbelow _ (Tree.mem_of_mem_numbered hplace),
            hothers⟩)
        hsum (fun other hother => hholds other (List.mem_cons_of_mem _ hother))
      obtain ⟨hchildren, hrest⟩ := List.forall_mem_append.mp heverywhere
      refine List.forall_mem_cons.mpr ⟨.node ?_ fun child hchild => ?_, hrest⟩
      · exact hholds node List.mem_cons_self offset kind trees hnode hhere
      · cases child with
        | token kind text => exact .token
        | node under children =>
            obtain ⟨start, hstart⟩ :=
              Tree.exists_mem_numbered (hbelow _ hchild).kind_ne_error hchild
            exact hchildren _ hstart

theorem size_arena (document : Document) :
    document.arena.size = document.parse.tree.nodeCount := by
  obtain ⟨children, htree⟩ := document.tree_eq_node
  rw [document.arena_eq, htree, Arena.size_ofTree,
    Tree.nodeCount_node children (by decide)]

theorem root_mem_descendants (document : Document) :
    document.root ∈ document.root.descendants := by
  obtain ⟨children, htree⟩ := document.tree_eq_node
  have hsize : document.root.document.arena.size =
      Tree.nodeCountAll children + 1 := by
    rw [← Tree.nodeCount_node children (by decide : Kind.root ≠ .error),
      ← htree]
    exact size_arena document
  rw [descendants, hsize, preorder]
  exact List.mem_cons_self

theorem kind_root (document : Document) : document.root.kind = .root := by
  obtain ⟨children, htree⟩ := document.tree_eq_node
  have hroot := stands_root document
  rw [htree] at hroot
  exact hroot.kind_eq

theorem parent?_root (document : Document) : document.root.parent? = none := by
  cases hparent : document.root.parent? with
  | none => rfl
  | some parent => exact absurd (index_parent?_lt hparent) (Nat.not_lt_zero _)

theorem everywhere_of_descendants {holds : Kind → List Tree → Prop}
    {document : Document} (herrors : document.errors = [])
    (hholds : ∀ node ∈ document.root.descendants, ∀ offset kind trees,
      node.Stands offset (.node kind trees) → (Tree.node kind trees).Conforms →
        holds kind trees) :
    document.parse.tree.Everywhere holds := by
  have hstands : List.Forall₂ (fun node place => node.Stands place.1 place.2)
      [document.root]
      [(0, document.parse.tree)] := .cons (stands_root document) .nil
  have hlimit :
      ([(0, document.parse.tree)].map fun place => place.2.nodeCount).sum ≤
      document.arena.size := by simp [size_arena document]
  have hconforms : ∀ place ∈ [(0, document.parse.tree)], place.2.Conforms :=
    List.forall_mem_singleton.mpr (Document.conforms herrors)
  exact everywhere_of_preorder hstands hconforms hlimit hholds _
    (List.mem_singleton_self _)

end Node

end PklAnalysis

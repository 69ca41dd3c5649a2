import PklAnalysis.Proofs.Grammar.TypeParse
import PklAnalysis.Proofs.Node.Range
import PklAnalysis.Proofs.Node.Required

/-!
The parts of types. Where the tree of a node is that of a type, trivia aside,
the parts of the node are those of the type: alternatives in order, parameters
and the result of a function, arguments, and what is under question marks and in
parentheses.
-/

namespace PklAnalysis

open Grammar (WrittenType literalKind word tokenTree listed)

namespace Tree

theorem bareAll_eq (trees : List Tree) :
    bareAll trees = (trees.filter fun tree => !tree.isTrivia).map bare := by
  induction trees with
  | nil => rfl
  | cons tree rest ih =>
      rw [bareAll, ih]; cases htrivia : tree.isTrivia <;> simp [htrivia]

theorem split_bareAll {trees left right : List Tree}
    (hbare : bareAll trees = left ++ right) :
    ∃ before after, trees = before ++ after ∧ bareAll before = left ∧
      bareAll after = right := by
  rw [bareAll_eq] at hbare
  obtain ⟨front, back, hfilter, rfl, rfl⟩ := List.map_eq_append_iff.mp hbare
  obtain ⟨before, after, rfl, rfl, rfl⟩ := List.filter_eq_append_iff.mp hfilter
  exact ⟨before, after, rfl, bareAll_eq before, bareAll_eq after⟩

theorem split_bareAll_cons {trees rest : List Tree} {tree : Tree}
    (hbare : bareAll trees = tree :: rest) :
    ∃ before whole after,
      trees = before ++ whole :: after ∧ bareAll before = [] ∧
      whole.bare = tree ∧ bareAll after = rest := by
  rw [bareAll_eq] at hbare
  obtain ⟨whole, back, hfilter, rfl, rfl⟩ := List.map_eq_cons_iff.mp hbare
  obtain ⟨before, after, rfl, htrivia, -, rfl⟩ :=
    List.filter_eq_cons_iff.mp hfilter
  refine ⟨before, whole, after, rfl, ?_, rfl, bareAll_eq after⟩
  rw [bareAll_eq, List.filter_eq_nil_iff.mpr htrivia, List.map_nil]

theorem bare_eq_tokenTree {whole : Tree} {leaf : Token.Kind × String}
    (hbare : whole.bare = tokenTree leaf) : whole = tokenTree leaf := by
  cases whole with
  | token => exact hbare
  | node => cases hbare

def leaf? : Tree → Option (Token.Kind × String)
  | .token kind text => some (kind, text)
  | .node _ _ => none

theorem isNumbered_bare (tree : Tree) :
    tree.bare.isNumbered = tree.isNumbered := by
  cases tree <;> rfl

end Tree

namespace Node

def Bears (node : Node) (tree : Tree) : Prop :=
  ∃ offset whole, node.Stands offset whole ∧ whole.bare = tree

variable {node : Node} {kind : Kind} {trees : List Tree}

theorem Bears.exists_stands (hbears : node.Bears (.node kind trees)) :
    ∃ offset children,
      node.Stands offset (.node kind children) ∧
        Tree.bareAll children = trees := by
  obtain ⟨offset, whole, hstands, hbare⟩ := hbears
  cases whole with
  | token kind text => cases hbare
  | node kind children =>
      cases hbare
      exact ⟨offset, children, hstands, rfl⟩

theorem Bears.kind_eq (hbears : node.Bears (.node kind trees)) :
    node.kind = kind := by
  obtain ⟨offset, children, hstands, -⟩ := hbears.exists_stands
  exact hstands.kind_eq

theorem bears_of_numbered {nodes : List Node} {offset : Nat}
    {children : List Tree}
    (hstands : List.Forall₂
      (fun node (placed : Nat × Tree) => node.Stands placed.1 placed.2) nodes
        (Tree.numbered offset children)) :
    List.Forall₂ Bears nodes
      ((Tree.bareAll children).filter Tree.isNumbered) := by
  induction children generalizing offset nodes with
  | nil =>
      cases hstands
      exact .nil
  | cons tree rest ih =>
      rw [Tree.bareAll]
      cases hnumbered : tree.isNumbered with
      | false =>
          rw [Tree.numbered_cons_of_not offset rest hnumbered] at hstands
          split
          case isTrue => exact ih hstands
          case isFalse =>
              rw [List.filter_cons_of_neg]
              · exact ih hstands
              · rw [Tree.isNumbered_bare, hnumbered]
                exact Bool.false_ne_true
      | true =>
          have htrivia : tree.isTrivia = false := by
            cases tree with
            | token => cases hnumbered
            | node => rfl
          rw [Tree.numbered_cons_of_numbered offset rest hnumbered] at hstands
          obtain ⟨node, nodes, hnode, hrest, rfl⟩ :=
            List.forall₂_cons_right_iff.mp hstands
          rw [htrivia, if_neg Bool.false_ne_true,
            List.filter_cons_of_pos (by rw [Tree.isNumbered_bare, hnumbered])]
          exact .cons ⟨_, tree, hnode, rfl⟩ (ih hrest)

theorem Bears.children (hbears : node.Bears (.node kind trees)) :
    List.Forall₂ Bears node.children (trees.filter Tree.isNumbered) := by
  obtain ⟨offset, children, hstands, rfl⟩ := hbears.exists_stands
  exact bears_of_numbered hstands.children

theorem Bears.symbol_eq {tree : Tree} (hbears : node.Bears tree) :
    tree.symbol = .node node.kind := by
  obtain ⟨offset, whole, hstands, rfl⟩ := hbears
  rw [← hstands.symbol_eq]
  cases whole <;> rfl

theorem bears_filter {nodes : List Node} (isKind : Kind → Bool)
    (herror : isKind .error = false)
    (hbears : List.Forall₂ Bears nodes (trees.filter Tree.isNumbered)) :
    List.Forall₂ Bears (nodes.filter fun node => isKind node.kind)
      (trees.filter fun tree => tree.symbol.isNode isKind) := by
  have hfiltered :
      List.Forall₂ Bears (nodes.filter fun node => isKind node.kind)
      ((trees.filter Tree.isNumbered).filter fun tree =>
        tree.symbol.isNode isKind) := by
    refine List.rel_filter (fun child tree hchild => ?_) hbears
    change isKind child.kind = true ↔ tree.symbol.isNode isKind = true
    rw [hchild.symbol_eq]
    rfl
  have hnumbered : ∀ tree ∈ trees,
      (tree.symbol.isNode isKind && tree.isNumbered) =
      tree.symbol.isNode isKind := by
    intro tree _
    cases tree with
    | token => rfl
    | node kind children =>
        by_cases hkind : kind = .error
        case pos =>
            subst hkind
            change (isKind .error && false) = isKind .error
            rw [herror, Bool.and_false]
        case neg => simp [Tree.isNumbered, hkind]
  rwa [List.filter_filter, List.filter_congr hnumbered] at hfiltered

theorem Bears.childrenWhere (hbears : node.Bears (.node kind trees))
    (isKind : Kind → Bool) (herror : isKind .error = false) :
    List.Forall₂ Bears (node.childrenWhere isKind)
        (trees.filter fun tree => tree.symbol.isNode isKind) :=
  bears_filter isKind herror hbears.children

theorem Bears.types (hbears : node.Bears (.node kind trees)) :
    List.Forall₂ Bears node.types (trees.filter Tree.isType) := by
  rw [Tree.isType_eq]
  exact hbears.childrenWhere Kind.isType rfl

theorem child?_eq (node : Node) (isKind : Kind → Bool) :
    node.child? isKind = (node.childrenWhere isKind).head? :=
  (List.head?_filter ..).symm

theorem Bears.child? (hbears : node.Bears (.node kind trees))
    (isKind : Kind → Bool) (herror : isKind .error = false) {tree : Tree}
    (honly : (trees.filter fun tree => tree.symbol.isNode isKind) = [tree]) :
    ∃ child, node.child? isKind = some child ∧ child.Bears tree := by
  have hchildren := hbears.childrenWhere isKind herror
  rw [honly] at hchildren
  obtain ⟨child, rest, hchild, -, hwhere⟩ :=
    List.forall₂_cons_right_iff.mp hchildren
  exact ⟨child, by rw [child?_eq, hwhere, List.head?_cons], hchild⟩

theorem Bears.required (hbears : node.Bears (.node kind trees))
    (isKind : Kind → Bool) (slot : String) (herror : isKind .error = false)
    {tree : Tree}
    (honly : (trees.filter fun tree => tree.symbol.isNode isKind) = [tree]) :
    ∃ child, node.required isKind slot = .ok child ∧ child.Bears tree := by
  obtain ⟨child, hchild, hbears⟩ := hbears.child? isKind herror honly
  exact ⟨child, by rw [Node.required, hchild, require], hbears⟩

theorem leaves_terminalsOf (offset : Nat) (children : List Tree) :
    (Slot.terminalsOf offset children).map
      (fun terminal => (terminal.kind, terminal.text)) =
      (Tree.bareAll children).filterMap Tree.leaf? := by
  induction children generalizing offset with
  | nil => rfl
  | cons tree rest ih =>
      cases tree with
      | node kind children => exact ih (offset + (Tree.node kind children).size)
      | token kind text =>
          have hrest := ih (offset + (Tree.token kind text).size)
          rw [Slot.terminalsOf] at hrest
          cases htrivia : kind.isTrivia with
          | true =>
              simp [Slot.terminalsOf, Tree.place, Tree.bareAll, Tree.isTrivia,
                htrivia, hrest]
          | false =>
              simp [Slot.terminalsOf, Tree.place, Tree.bareAll, Tree.isTrivia,
                Tree.bare, Tree.leaf?, htrivia, hrest]

theorem Bears.terminals (hbears : node.Bears (.node kind trees)) :
    node.terminals.map (fun terminal => (terminal.kind, terminal.text)) =
      trees.filterMap Tree.leaf? := by
  obtain ⟨offset, children, hstands, rfl⟩ := hbears.exists_stands
  rw [hstands.terminals_eq, leaves_terminalsOf]

def opened (node : Node) : List Node :=
  if node.kind = .unionType then node.alternatives else [node]

theorem alternatives_eq (node : Node) :
    node.alternatives = node.types.flatMap opened := by
  have hends :=
    endsWithin_alternatives node (node.document.arena.size + 2) (Nat.le_succ _)
      fun _ => []
  rw [← hends, unroll, alternativesStep]
  refine List.flatMap_congr fun member hmember => ?_
  have hdocument : member.document = node.document :=
    document_of_mem_types hmember
  have hbelow := endsWithin_alternatives member (node.document.arena.size + 1)
    (by rw [hdocument]) fun _ => []
  rw [hbelow, opened]

theorem symbol_tree_of_not_isUnion {type : WrittenType}
    (hsingle : ¬type.IsUnion) :
    ∃ kind, type.tree.symbol = .node kind ∧ kind.isType = true ∧
      kind ≠ .unionType := by
  cases type with
  | union => exact absurd trivial hsingle
  | _ => exact ⟨_, rfl, rfl, nofun⟩

theorem isType_foldl_alternative {first : WrittenType}
    (hsingle : ¬first.IsUnion) (rest : List WrittenType) :
    (rest.foldl (fun left part => WrittenType.alternative (some left) part.tree)
      first.tree).isType = true := by
  obtain rfl | ⟨init, last, rfl⟩ := rest.eq_nil_or_concat'
  · obtain ⟨kind, hsymbol, htype, -⟩ := symbol_tree_of_not_isUnion hsingle
    rw [List.foldl_nil, Tree.isType_eq]
    dsimp only
    rw [hsymbol]
    exact htype
  · rw [List.foldl_append]
    rfl

@[simp]
theorem isType_tree (type : WrittenType) : type.tree.isType = true := by
  obtain ⟨first, rest, halternatives, -⟩ := type.exists_alternatives
  rw [WrittenType.tree_eq halternatives]
  refine isType_foldl_alternative ?_ rest
  exact WrittenType.not_isUnion_of_mem_alternatives
    (halternatives ▸ List.mem_cons_self)

theorem Bears.opened_foldl {first : WrittenType} {rest : List WrittenType}
    (hsingle : ∀ part ∈ first :: rest, ¬part.IsUnion)
    (hbears : node.Bears
      (rest.foldl
        (fun left part => WrittenType.alternative (some left) part.tree)
          first.tree)) :
    List.Forall₂ Bears node.opened ((first :: rest).map WrittenType.tree) := by
  induction rest using List.reverseRecOn generalizing node with
  | nil =>
      obtain ⟨kind, hsymbol, -, hkind⟩ :=
        symbol_tree_of_not_isUnion (hsingle first List.mem_cons_self)
      rw [List.foldl_nil] at hbears
      obtain rfl := Symbol.node.inj (hsymbol.symm.trans hbears.symbol_eq)
      rw [opened, if_neg hkind]
      exact .cons hbears .nil
  | append_singleton init last ih =>
      rw [← List.cons_append, List.forall_mem_append] at hsingle
      rw [List.foldl_append] at hbears
      have hleft :=
        isType_foldl_alternative (hsingle.1 first List.mem_cons_self) init
      obtain ⟨kind, hsymbol, -, hkind⟩ :=
        symbol_tree_of_not_isUnion
          (hsingle.2 last (List.mem_singleton_self last))
      have htypes := hbears.types
      rw [List.filter_cons_of_pos hleft,
        List.filter_cons_of_neg Bool.false_ne_true,
        List.filter_cons_of_pos (isType_tree last)] at htypes
      obtain ⟨left, _, hleft, hrest, hnode⟩ :=
        List.forall₂_cons_right_iff.mp htypes
      obtain ⟨right, _, hright, hnil, rfl⟩ :=
        List.forall₂_cons_right_iff.mp hrest
      obtain rfl := List.forall₂_nil_right_iff.mp hnil
      obtain rfl := Symbol.node.inj (hsymbol.symm.trans hright.symbol_eq)
      have hlast : right.opened = [right] := if_neg hkind
      rw [opened, if_pos hbears.kind_eq, alternatives_eq, hnode,
        List.flatMap_cons, List.flatMap_singleton, hlast, ← List.cons_append,
        List.map_append]
      exact List.rel_append (ih hsingle.1 hleft) (.cons hright .nil)

theorem Bears.opened {type : WrittenType} (hbears : node.Bears type.tree) :
    List.Forall₂ Bears node.opened
      (type.alternatives.map WrittenType.tree) := by
  obtain ⟨first, rest, halternatives, -⟩ := type.exists_alternatives
  rw [WrittenType.tree_eq halternatives] at hbears
  rw [halternatives]
  refine hbears.opened_foldl fun part hpart => ?_
  exact WrittenType.not_isUnion_of_mem_alternatives (halternatives ▸ hpart)

@[simp]
theorem isType_tokenTree (leaf : Token.Kind × String) :
    (tokenTree leaf).isType = false :=
  rfl

@[simp]
theorem filter_isType_listed (types : List WrittenType) :
    (listed (tokenTree (word .comma)) ([·]) (WrittenType.treesOf types)).filter
      Tree.isType = types.map WrittenType.tree := by
  rw [WrittenType.treesOf_eq]
  cases types with
  | nil => rfl
  | cons first rest =>
      simp [listed, List.filter_flatMap, List.flatMap_map,
        ← List.map_eq_flatMap]

theorem Bears.innerType (hbears : node.Bears (.node kind trees)) {tree : Tree}
    (honly : trees.filter Tree.isType = [tree]) :
    ∃ inner, node.innerType = .ok inner ∧ inner.Bears tree := by
  rw [Tree.isType_eq] at honly
  exact hbears.required Kind.isType "type" rfl honly

theorem Bears.terminals_leaves {leaves : List (Token.Kind × String)}
    (hbears : node.Bears (.node kind (leaves.map tokenTree))) :
    node.terminals.map (fun terminal => (terminal.kind, terminal.text)) =
      leaves := by
  rw [hbears.terminals, List.filterMap_map]
  exact List.filterMap_some

theorem Bears.typeLiteral {opening closing : String} {runs : List String}
    (hbears : node.Bears (WrittenType.literal opening runs closing).tree) :
    ∃ literal, node.typeLiteral = .ok literal ∧
      literal.terminals.map (fun terminal => (terminal.kind, terminal.text)) =
        WrittenType.literalLeaves opening runs closing := by
  have hliteral : (literalKind opening).isStringLiteral = true := by
    rw [literalKind]
    split <;> rfl
  obtain ⟨literal, hrequired, hbears⟩ :=
    hbears.required Kind.isStringLiteral "string literal" rfl
    (List.filter_cons_of_pos hliteral)
  exact ⟨literal, hrequired, hbears.terminals_leaves⟩

theorem Bears.typeName {first : String} {others : List String}
    {arguments : List WrittenType}
    (hbears : node.Bears (WrittenType.named first others arguments).tree) :
    ∃ name,
      node.typeName = .ok name ∧
        name.identifiers.map Terminal.text = first :: others := by
  obtain ⟨name, hrequired, hbears⟩ : ∃ name,
      node.typeName = .ok name ∧ name.Bears
      (.node .qualifiedIdent
        ((WrittenType.nameLeaves first others).map tokenTree)) := by
    cases arguments <;>
      exact hbears.required (· = .qualifiedIdent) "type name" rfl rfl
  refine ⟨name, hrequired, ?_⟩
  calc
    name.identifiers.map Terminal.text
    _ =
      ((name.terminals.map fun terminal =>
        (terminal.kind, terminal.text)).filter
          fun leaf => leaf.1 = .identifier).map Prod.snd := by
        rw [List.filter_map, List.map_map]
        rfl
    _ = first :: others := by
        rw [hbears.terminals_leaves]
        simp [WrittenType.nameLeaves, word, List.filter_flatMap,
          List.map_flatMap]

theorem Bears.typeArguments {first : String} {others : List String}
    {arguments : List WrittenType}
    (hbears : node.Bears (WrittenType.named first others arguments).tree) :
    List.Forall₂ Bears node.typeArguments (arguments.map WrittenType.tree) := by
  rw [Node.typeArguments, typeArgumentList?, childOf?]
  cases arguments with
  | nil =>
      have hlists := hbears.childrenWhere (· = .typeArgumentList) rfl
      rw [child?_eq, List.forall₂_nil_right_iff.mp hlists]
      exact .nil
  | cons argument arguments =>
      obtain ⟨list, hlist, hbears⟩ :=
        hbears.child? (· = .typeArgumentList) rfl rfl
      have htypes := hbears.types
      rw [List.cons_append, List.filter_cons_of_neg Bool.false_ne_true,
        List.filter_append, filter_isType_listed,
        List.filter_cons_of_neg Bool.false_ne_true, List.filter_nil,
        List.append_nil] at htypes
      rw [hlist]
      exact htypes

theorem split_numbered {nodes : List Node} {offset : Nat}
    {before after : List Tree}
    (hstands : List.Forall₂
      (fun node (placed : Nat × Tree) => node.Stands placed.1 placed.2) nodes
        (Tree.numbered offset (before ++ after))) :
    ∃ left right, nodes = left ++ right ∧
        List.Forall₂
          (fun node (placed : Nat × Tree) => node.Stands placed.1 placed.2) left
          (Tree.numbered offset before) ∧
        List.Forall₂
          (fun node (placed : Nat × Tree) => node.Stands placed.1 placed.2)
            right
          (Tree.numbered (offset + Tree.sizeAll before) after) := by
  rw [Tree.numbered_append] at hstands
  exact ⟨_, _, (List.take_append_drop _ nodes).symm,
    List.forall₂_take_append _ _ _ hstands,
    List.forall₂_drop_append _ _ _ hstands⟩

theorem range_of_numbered {nodes : List Node} {offset : Nat} {trees : List Tree}
    (hstands : List.Forall₂
      (fun node (placed : Nat × Tree) => node.Stands placed.1 placed.2) nodes
        (Tree.numbered offset trees))
    (hnode : node ∈ nodes) :
    offset ≤ node.range.start ∧
      node.range.start ≤ offset + Tree.sizeAll trees := by
  obtain ⟨placed, hplaced, hnode⟩ := exists_right_of_forall₂ hstands hnode
  have hbounds := Tree.le_of_mem_place (List.mem_filter.mp hplaced).1
  rw [hnode.range_eq]
  exact ⟨hbounds.1, (Nat.le_add_right _ _).trans hbounds.2⟩

theorem token_mem_listed {kind : Token.Kind} {text : String}
    {parameters : List WrittenType}
    (hmem : .token kind text ∈
      listed (tokenTree (word .comma)) ([·]) (WrittenType.treesOf parameters)) :
    kind = .comma := by
  have htype : ∀ type : WrittenType, .token kind text ≠ type.tree := by
    intro type heq
    have htype := isType_tree type
    rw [← heq] at htype
    cases htype
  rw [WrittenType.treesOf_eq] at hmem
  cases parameters with
  | nil => cases hmem
  | cons first rest =>
      rcases List.mem_cons.mp hmem with hfirst | hrest
      · exact absurd hfirst (htype first)
      · obtain ⟨tree, htree, hcomma⟩ := List.mem_flatMap.mp hrest
        obtain ⟨type, -, rfl⟩ := List.mem_map.mp htree
        rcases List.mem_cons.mp hcomma with hcomma | htoken
        · exact (Tree.token.inj hcomma).1
        · exact absurd (List.mem_singleton.mp htoken) (htype type)

theorem Bears.around_arrow {front back : List Tree}
    (hbears : node.Bears
      (.node kind
        (front ++
          ([tokenTree (word .rightParen)] ++ [tokenTree (word .arrow)] ++
            back))))
    (hfirst : .token .arrow ∉ Tree.symbols front) : ∃ left right place,
      node.children = left ++ right ∧ node.arrowOffset? = some place ∧
      List.Forall₂ Bears left (front.filter Tree.isNumbered) ∧
      List.Forall₂ Bears right (back.filter Tree.isNumbered) ∧
      (∀ child ∈ left, child.range.start < place) ∧ ∀ child ∈ right,
        place ≤ child.range.start := by
  obtain ⟨offset, children, hstands, hparts⟩ := hbears.exists_stands
  obtain ⟨before, rest, rfl, hbefore, hrest⟩ := Tree.split_bareAll hparts
  obtain ⟨between, after, rfl, hbetween, hafter⟩ := Tree.split_bareAll hrest
  obtain ⟨left, others, hchildren, hleft, hothers⟩ :=
    split_numbered hstands.children
  obtain ⟨none, right, rfl, hnone, hright⟩ := split_numbered hothers
  obtain rfl :=
    List.forall₂_nil_right_iff.mp (hbetween ▸ bears_of_numbered hnone)
  obtain ⟨closing, tail, rfl, hclosing, htail⟩ := Tree.split_bareAll hbetween
  obtain ⟨gap, arrow, gap', rfl, hgap, harrow, -⟩ :=
    Tree.split_bareAll_cons htail
  obtain rfl := Tree.bare_eq_tokenTree harrow
  have hplace :
      node.arrowOffset? =
        some (offset + Tree.sizeAll (before ++ closing ++ gap)) := by
    have hsplit :
        before ++ (closing ++ (gap ++ tokenTree (word .arrow) :: gap') ++
          after) =
        before ++ closing ++ gap ++ tokenTree (word .arrow) ::
          (gap' ++ after) := by
      simp only [List.append_assoc, List.cons_append]
    refine (hsplit ▸ hstands).start_terminal? (fun harrow => ?_) rfl
    rw [← Tree.symbols_bareAll, Tree.bareAll_append, Tree.bareAll_append,
      hbefore, hclosing, hgap, List.append_nil, Tree.symbols_append] at harrow
    rcases List.mem_append.mp harrow with hfront | hparen
    · exact hfirst hfront
    · cases List.mem_singleton.mp hparen
  have hpositive : 0 < Tree.sizeAll closing := by
    obtain ⟨gap, paren, gap', rfl, -, hparen, -⟩ :=
      Tree.split_bareAll_cons hclosing
    obtain rfl := Tree.bare_eq_tokenTree hparen
    rw [Tree.sizeAll_append]
    exact Nat.add_pos_right _ (Nat.add_pos_left (by decide) _)
  refine ⟨left, right, _, hchildren, hplace, hbefore ▸ bears_of_numbered hleft,
    hafter ▸ bears_of_numbered hright, fun child hchild => ?_,
      fun child hchild => ?_⟩
  · have hbounds := range_of_numbered hleft hchild
    rw [Tree.sizeAll_append, Tree.sizeAll_append]
    omega
  · have hbounds := range_of_numbered hright hchild
    rw [Tree.sizeAll_append, Tree.sizeAll_append] at hbounds
    rw [Tree.sizeAll_append, Tree.sizeAll_append]
    omega

theorem Bears.function {parameters : List WrittenType} {result : WrittenType}
    (hbears : node.Bears (WrittenType.function parameters result).tree) :
    List.Forall₂ Bears node.parameterTypes (parameters.map WrittenType.tree) ∧
      ∃ child, node.resultType = .ok child ∧ child.Bears result.tree := by
  have hfirst : .token .arrow ∉ Tree.symbols (tokenTree (word .leftParen) ::
      listed (tokenTree (word .comma)) ([·])
        (WrittenType.treesOf parameters)) := by
    intro harrow
    obtain ⟨text, htext⟩ := (Tree.token_mem_symbols rfl).mp harrow
    rcases List.mem_cons.mp htext with hparen | hlisted
    · cases hparen
    · cases token_mem_listed hlisted
  have hparts : node.Bears (.node .functionType ((tokenTree (word .leftParen) ::
      listed (tokenTree (word .comma)) ([·]) (WrittenType.treesOf
        parameters)) ++
      ([tokenTree (word .rightParen)] ++ [tokenTree (word .arrow)] ++
        [result.tree]))) := hbears
  obtain ⟨left, right, place, hchildren, hplace, hleft, hright, hbelow,
    habove⟩ :=
    hparts.around_arrow hfirst
  have hparameters := bears_filter Kind.isType rfl hleft
  have hresult := bears_filter Kind.isType rfl hright
  rw [← Tree.isType_eq] at hparameters hresult
  have hfront :
      (tokenTree (word .leftParen) :: listed (tokenTree (word .comma)) ([·])
      (WrittenType.treesOf parameters)).filter Tree.isType =
        parameters.map WrittenType.tree :=
    filter_isType_listed parameters
  have hback : [result.tree].filter Tree.isType = [result.tree] :=
    List.filter_cons_of_pos (isType_tree result)
  obtain ⟨child, _, hchild, hnil, honly⟩ :=
    List.forall₂_cons_right_iff.mp (hback ▸ hresult)
  obtain rfl := List.forall₂_nil_right_iff.mp hnil
  have htypes :
      node.types = left.filter (fun child => child.kind.isType) ++ [child] := by
    rw [Node.types, Node.childrenWhere, hchildren, List.filter_append, honly]
  have hbelow : ∀ member ∈ left.filter fun child => child.kind.isType,
      member.range.start < place :=
    fun member hmember => hbelow member (List.mem_filter.mp hmember).1
  have habove : place ≤ child.range.start :=
    habove child (List.mem_filter.mp (honly ▸ List.mem_singleton_self child)).1
  constructor
  · rw [Node.parameterTypes, hplace, htypes, List.filter_append,
      List.filter_eq_self.mpr, List.filter_cons_of_neg, List.filter_nil,
      List.append_nil]
    · exact hfront ▸ hparameters
    · simpa using habove
    · simpa using hbelow
  · refine ⟨child, ?_, hchild⟩
    rw [Node.resultType, hplace, htypes]
    dsimp only
    rw [List.find?_append, List.find?_eq_none.mpr, Option.none_or,
      List.find?_cons_of_pos]
    · rfl
    · simpa using habove
    · simpa using hbelow

/-- What a node of a type gives as its parts, and what these give in turn, are
the parts of the type. -/
inductive Gives : Node → WrittenType → Prop
  | unknown {node : Node} (hkind : node.kind = .unknownType) :
  Gives node .unknown
  | nothing {node : Node} (hkind : node.kind = .nothingType) :
      Gives node .nothing
  | module {node : Node} (hkind : node.kind = .moduleType) : Gives node .module
  | literal {node literal : Node} {opening closing : String}
      {runs : List String}
      (hkind : node.kind = .stringLiteralType)
      (hliteral : node.typeLiteral = .ok literal)
      (htokens : literal.terminals.map (fun terminal =>
        (terminal.kind, terminal.text)) =
        WrittenType.literalLeaves opening runs closing) :
      Gives node (.literal opening runs closing)
  | named {node name : Node} {first : String} {others : List String}
      {arguments : List WrittenType}
      (hkind : node.kind = .declaredType) (hname : node.typeName = .ok name)
      (hparts : name.identifiers.map Terminal.text = first :: others)
      (harguments : List.Forall₂ Gives node.typeArguments arguments) :
      Gives node (.named first others arguments)
  | nullable {node child : Node} {inner : WrittenType}
      (hkind : node.kind = .nullableType)
      (hinner : node.innerType = .ok child) (hgives : Gives child inner) :
        Gives node (.nullable inner)
  | union {node : Node} {left right : WrittenType}
      (hkind : node.kind = .unionType) (halternatives :
        List.Forall₂ Gives node.alternatives
          (WrittenType.union left right).alternatives) :
      Gives node (.union left right)
  | function {node child : Node} {parameters : List WrittenType}
      {result : WrittenType} (hkind : node.kind = .functionType)
      (hparameters : List.Forall₂ Gives node.parameterTypes parameters)
      (hresult : node.resultType = .ok child) (hgives : Gives child result) :
      Gives node (.function parameters result)
  | parenthesized {node child : Node} {inner : WrittenType}
      (hkind : node.kind = .parenthesizedType)
      (hinner : node.innerType = .ok child) (hgives : Gives child inner) :
      Gives node (.parenthesized inner)

theorem forall₂_gives {types : List WrittenType} {nodes : List Node}
    (hgives : ∀ type ∈ types, ∀ node : Node,
      node.Bears type.tree → node.Gives type)
    (hbears : List.Forall₂ Bears nodes (types.map WrittenType.tree)) :
    List.Forall₂ Gives nodes types := by
  induction types generalizing nodes with
  | nil =>
      obtain rfl := List.forall₂_nil_right_iff.mp hbears
      exact .nil
  | cons type rest ih =>
      rw [List.forall_mem_cons] at hgives
      obtain ⟨node, nodes, hnode, hrest, rfl⟩ :=
        List.forall₂_cons_right_iff.mp hbears
      exact .cons (hgives.1 node hnode) (ih hgives.2 hrest)

theorem kind_of_bears_union {left right : WrittenType}
    (hbears : node.Bears (WrittenType.union left right).tree) :
    node.kind = .unionType := by
  obtain ⟨first, rest, hleft, -⟩ := left.exists_alternatives
  obtain ⟨first', rest', hright, -⟩ := right.exists_alternatives
  have halternatives : (WrittenType.union left right).alternatives =
      first :: (rest ++ first' :: rest') := by
    rw [WrittenType.alternatives, hleft, hright, List.cons_append]
  obtain ⟨init, last, hlast⟩ : ∃ init last,
    rest ++ first' :: rest' = init ++ [last] :=
    (List.eq_nil_or_concat' _).resolve_left
      (List.append_ne_nil_of_right_ne_nil _ (List.cons_ne_nil _ _))
  rw [WrittenType.tree_eq halternatives, hlast, List.foldl_append] at hbears
  exact hbears.kind_eq

theorem Bears.gives {type : WrittenType}
    (hgives : ∀ part ∈ type.alternatives, ∀ node : Node,
      node.Bears part.tree → node.Gives part)
    (hbears : node.Bears type.tree) : node.Gives type := by
  by_cases hunion : type.IsUnion
  case pos =>
      cases type with
      | union left right =>
          have hkind := kind_of_bears_union hbears
          have hopened := hbears.opened
          rw [Node.opened, if_pos hkind] at hopened
          exact .union hkind (forall₂_gives hgives hopened)
      | _ => exact hunion.elim
  case neg =>
      rw [WrittenType.alternatives_of_not_isUnion hunion] at hgives
      exact hgives type (List.mem_singleton_self type) node hbears

mutual

theorem gives_alternatives : (type : WrittenType) → ∀ part ∈ type.alternatives,
    ∀ node : Node, node.Bears part.tree → node.Gives part
  | .unknown =>
      List.forall_mem_singleton.mpr fun _ hbears => .unknown hbears.kind_eq
  | .nothing =>
      List.forall_mem_singleton.mpr fun _ hbears => .nothing hbears.kind_eq
  | .module =>
      List.forall_mem_singleton.mpr fun _ hbears => .module hbears.kind_eq
  | .literal opening runs closing =>
      List.forall_mem_singleton.mpr fun node hbears => by
        obtain ⟨literal, hliteral, htokens⟩ := hbears.typeLiteral
        exact .literal hbears.kind_eq hliteral htokens
  | .named first others arguments =>
      List.forall_mem_singleton.mpr fun node hbears => by
        obtain ⟨name, hname, hparts⟩ := hbears.typeName
        exact .named hbears.kind_eq hname hparts
          (forall₂_gives (gives_each arguments) hbears.typeArguments)
  | .nullable inner => List.forall_mem_singleton.mpr fun node hbears => by
      obtain ⟨child, hinner, hchild⟩ :=
        hbears.innerType (List.filter_cons_of_pos (isType_tree inner))
      exact .nullable hbears.kind_eq hinner
        (hchild.gives (gives_alternatives inner))
  | .union left right =>
      List.forall_mem_append.mpr ⟨gives_alternatives left,
        gives_alternatives right⟩
  | .function parameters result =>
      List.forall_mem_singleton.mpr fun node hbears => by
        obtain ⟨hparameters, child, hresult, hchild⟩ := hbears.function
        exact .function hbears.kind_eq
          (forall₂_gives (gives_each parameters) hparameters) hresult
          (hchild.gives (gives_alternatives result))
  | .parenthesized inner => List.forall_mem_singleton.mpr fun node hbears => by
      have honly : [tokenTree (word .leftParen), inner.tree,
          tokenTree (word .rightParen)].filter
          Tree.isType = [inner.tree] := by
        rw [List.filter_cons_of_neg Bool.false_ne_true]
        exact List.filter_cons_of_pos (isType_tree inner)
      obtain ⟨child, hinner, hchild⟩ := hbears.innerType honly
      exact .parenthesized hbears.kind_eq hinner
        (hchild.gives (gives_alternatives inner))

theorem gives_each : (types : List WrittenType) → ∀ type ∈ types,
    ∀ node : Node, node.Bears type.tree → node.Gives type
  | [] => nofun
  | type :: rest => List.forall_mem_cons.mpr
      ⟨fun _ hbears => hbears.gives (gives_alternatives type), gives_each rest⟩

end

/-- A type is read from the tokens with which it is written, whatever trivia
stand among them. All tokens are read, no error is found, and one tree is built,
whose nodes give back all parts of the type. -/
theorem gives_of_parse {type : WrittenType} (hgrouped : type.Grouped)
    {tokens : List Token}
    (htokens : (Token.significant tokens).map Token.leaf = type.print)
    (stop : Nat) {depth : Nat} (hdepth : Grammar.callDepth tokens ≤ depth) :
    ∃ final,
        (Grammar.parseRule depth .type).run (.ofTokens tokens stop) =
          (none, final) ∧
        final.errors = [] ∧ Token.significant final.tokens = [] ∧
        Tree.bareAll final.builder.trees.toList = [type.tree] ∧
        ∀ node : Node, node.Bears type.tree → node.Gives type := by
  have hcount : type.print.length ≤ tokens.length := by
    rw [← htokens, List.length_map]
    exact List.length_filter_le _ _
  rw [Grammar.callDepth] at hdepth
  obtain ⟨depth, rfl⟩ :=
    Nat.exists_eq_add_of_le' (Nat.le_of_add_left_le hdepth : 1 ≤ depth)
  have hread : Parser.Parses (Grammar.parseRule (depth + 1) .type) none
      type.print [type.tree] [] := by
    have halternatives := Grammar.isReadAt_of_grouped type hgrouped
    have hrule : Parser.Parses (Grammar.typeRule (Grammar.parseRule depth)) ()
        type.print [type.tree] [] :=
      Grammar.parses_typeRule halternatives hgrouped (by omega)
        (Grammar.before_nil _)
    exact hrule.last (Parser.parses_pure none [])
  rw [← List.append_nil type.print] at htokens
  obtain ⟨final, hrun, hahead, hbuilds⟩ := hread (.ofTokens tokens stop) htokens
  obtain ⟨added, hadded, hbare⟩ := hbuilds.built
  refine ⟨final, hrun, hbuilds.errors, List.map_eq_nil_iff.mp hahead, ?_,
    fun node hbears => hbears.gives (gives_alternatives type)⟩
  rw [hadded, ← hbare]
  rfl

/-- The type of the property of a module. -/
theorem gives_of_parse_property :
    ∃ (node : Node) (type : WrittenType) (tokens : List Token)
      (final : Parser.State),
      node.document.text = "x: ((A,m.B<C>) -> D|\"e\")?" ∧ type.Grouped ∧
      (Token.significant tokens).map Token.leaf = type.print ∧
      Grammar.callDepth tokens ≤ 50 ∧
      (Grammar.parseRule 50 .type).run (.ofTokens tokens 25) = (none, final) ∧
      final.errors = [] ∧ node.Gives type := by
  let uri := "file:///type.pkl"
  let text := "x: ((A,m.B<C>) -> D|\"e\")?"
  let tokens : List Token :=
    [⟨.identifier, "x", 0⟩, ⟨.colon, ":", 1⟩, ⟨.whitespace, " ", 2⟩,
     ⟨.leftParen, "(", 3⟩, ⟨.leftParen, "(", 4⟩, ⟨.identifier, "A", 5⟩,
     ⟨.comma, ",", 6⟩, ⟨.identifier, "m", 7⟩, ⟨.dot, ".", 8⟩,
     ⟨.identifier, "B", 9⟩, ⟨.less, "<", 10⟩, ⟨.identifier, "C", 11⟩,
     ⟨.greater, ">", 12⟩, ⟨.rightParen, ")", 13⟩, ⟨.whitespace, " ", 14⟩,
     ⟨.arrow, "->", 15⟩, ⟨.whitespace, " ", 17⟩, ⟨.identifier, "D", 18⟩,
     ⟨.pipe, "|", 19⟩, ⟨.stringStart, "\"", 20⟩, ⟨.stringChars, "e", 21⟩,
     ⟨.stringEnd, "\"", 22⟩, ⟨.rightParen, ")", 23⟩, ⟨.question, "?", 24⟩]
  let type : WrittenType :=
    .nullable
      (.parenthesized
        (.function [.named "A" [] [], .named "m" ["B"] [.named "C" [] []]]
      (.union (.named "D" [] []) (.literal "\"" ["e"] "\""))))
  have htokens : Token.tokenize text = .ok tokens :=
    Token.ok_of_toOption (by decide +kernel)
  have htree : (Grammar.parseTokens tokens text.utf8ByteSize).tree.bare =
      .node .root [.node .classProperty [.token .identifier "x",
        .node .typeClause [.token .colon ":", type.tree]]] := by
    decide +kernel
  let document := Document.ofTokens uri text tokens htokens
  have hroot :
      document.root.Bears
        (.node .root [.node .classProperty [.token .identifier "x",
      .node .typeClause [.token .colon ":", type.tree]]]) :=
        ⟨0, _, stands_root document, htree⟩
  obtain ⟨property, hmem, hproperty⟩ :=
    exists_left_of_forall₂ hroot.children List.mem_cons_self
  obtain ⟨clause, hmem', hclause⟩ :=
    exists_left_of_forall₂ hproperty.children List.mem_cons_self
  obtain ⟨node, hmem'', hnode⟩ :=
    exists_left_of_forall₂ hclause.children List.mem_cons_self
  have hgrouped : type.Grouped := by
    simp [type, WrittenType.Grouped, WrittenType.GroupedEach,
      WrittenType.IsUnion, WrittenType.EndsInFunction]
  have hprint : (Token.significant (tokens.drop 3)).map Token.leaf =
      type.print := by decide +kernel
  obtain ⟨final, hrun, herrors, -, -, hgives⟩ :=
    gives_of_parse hgrouped hprint 25 (by decide : _ ≤ 50)
  refine ⟨node, type, tokens.drop 3, final, ?_, hgrouped,
    hprint, by decide, hrun, herrors, hgives node hnode⟩
  rw [document_of_mem_children hmem'', document_of_mem_children hmem',
    document_of_mem_children hmem]
  rfl

end Node

end PklAnalysis

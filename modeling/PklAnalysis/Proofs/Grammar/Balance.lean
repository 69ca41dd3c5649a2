import PklAnalysis.Proofs.Analysis.Delimiters

/-!
The tokens of trees in which every node is complete: no more opening parentheses
than closing ones, and no dot at the end.
-/

namespace PklAnalysis

/-- The children of a node are what the grammar says, and none of them lacks its
closing delimiter. -/
def Node.Complete (kind : Kind) (children : List Tree) : Prop :=
  Tree.symbols children ∈ kind.shape.words ∧ Closed children

/-- Nodes of most kinds hold a token in a text without errors. -/
def Node.Kind.isSolid : Kind → Bool
  | root | modifierList | error => false
  | _ => true

/-- Whether a symbol may be the last one of a node: no dot, and no node without
a token. -/
def Symbol.endsNode : Symbol → Bool
  | token kind => kind ≠ .dot
  | node kind => kind.isSolid

namespace Shape

def once (test : Symbol → Bool) : Shape → Bool
  | empty | one _ => true
  | seq first rest =>
      (first.once test && !rest.may test) || (!first.may test && rest.once test)
  | either left right => left.once test && right.once test
  | many shape => !shape.may test

def ends (test : Symbol → Bool) : Shape → Bool
  | empty => true
  | one symbols => symbols.all test
  | seq first rest =>
      rest.ends test && (0 < rest.least (fun _ => true) || first.ends test)
  | either left right => left.ends test && right.ends test
  | many shape => shape.ends test

variable {test : Symbol → Bool} {word : List Symbol}

theorem countP_eq_zero {shape : Shape} (hword : word ∈ shape.words)
    (hnever : shape.may test = false) :
    word.countP test = 0 := by
  refine List.countP_eq_zero.mpr fun symbol hsymbol htest => ?_
  rw [may_of_mem test hword hsymbol htest] at hnever
  cases hnever

theorem countP_le_one {shape : Shape} (hword : word ∈ shape.words)
    (honce : shape.once test = true) :
    word.countP test ≤ 1 := by
  induction shape generalizing word with
  | empty =>
      rw [mem_empty.mp hword]
      exact Nat.zero_le 1
  | one symbols =>
      obtain ⟨symbol, -, rfl⟩ := hword
      exact List.countP_le_length
  | seq first rest ihFirst ihRest =>
      obtain ⟨left, hleft, right, hright, rfl⟩ := mem_seq.mp hword
      rw [once, Bool.or_eq_true, Bool.and_eq_true, Bool.and_eq_true,
        Bool.not_eq_true', Bool.not_eq_true'] at honce
      rw [List.countP_append]
      rcases honce with ⟨hfirst, hnever⟩ | ⟨hnever, hrest⟩
      · rw [countP_eq_zero hright hnever]
        exact ihFirst hleft hfirst
      · rw [countP_eq_zero hleft hnever, Nat.zero_add]
        exact ihRest hright hrest
  | either left right ihLeft ihRight =>
      rw [once, Bool.and_eq_true] at honce
      exact (mem_either.mp hword).elim (ihLeft · honce.1) (ihRight · honce.2)
  | many shape _ =>
      rw [once, Bool.not_eq_true'] at honce
      exact (countP_eq_zero hword honce).trans_le (Nat.zero_le 1)

theorem ne_nil_of_least {shape : Shape} (hword : word ∈ shape.words)
    (hleast : 0 < shape.least fun _ => true) : word ≠ [] := by
  rintro rfl
  exact absurd (Nat.lt_of_lt_of_le hleast (least_le_countP _ hword))
    (Nat.lt_irrefl 0)

theorem ends_of_getLast? {shape : Shape} (hword : word ∈ shape.words)
    (hends : shape.ends test = true) {last : Symbol}
    (hlast : word.getLast? = some last) : test last = true := by
  induction shape generalizing word with
  | empty =>
      rw [mem_empty.mp hword] at hlast
      cases hlast
  | one symbols =>
      obtain ⟨symbol, hsymbol, rfl⟩ := hword
      obtain rfl : symbol = last := Option.some.inj hlast
      exact List.all_eq_true.mp hends symbol hsymbol
  | seq first rest ihFirst ihRest =>
      obtain ⟨left, hleft, right, hright, rfl⟩ := mem_seq.mp hword
      rw [ends, Bool.and_eq_true, Bool.or_eq_true] at hends
      rw [List.getLast?_append] at hlast
      cases hright' : right.getLast? with
      | some symbol =>
          rw [hright', Option.some_or] at hlast
          exact ihRest hright hends.1 (hright'.trans hlast)
      | none =>
          rw [hright', Option.none_or] at hlast
          refine ihFirst hleft (hends.2.resolve_left fun hleast => ?_) hlast
          exact ne_nil_of_least hright (of_decide_eq_true hleast)
            (List.getLast?_eq_none_iff.mp hright')
  | either left right ihLeft ihRight =>
      rw [ends, Bool.and_eq_true] at hends
      exact (mem_either.mp hword).elim (ihLeft · hends.1 hlast)
        (ihRight · hends.2 hlast)
  | many shape ih =>
      obtain ⟨words, rfl, hwords⟩ := Language.mem_kstar.mp hword
      rw [List.getLast?_flatten] at hlast
      obtain ⟨part, hpart, hlast⟩ := List.exists_of_findSome?_eq_some hlast
      exact ih (hwords part (List.mem_reverse.mp hpart)) hends hlast

end Shape

namespace Tree

theorem Everywhere.and {holds holds' : Node.Kind → List Tree → Prop}
    {tree : Tree} (hleft : tree.Everywhere holds)
    (hright : tree.Everywhere holds') :
    tree.Everywhere fun kind children => holds kind children ∧
      holds' kind children := by
  induction hleft with
  | token => exact .token
  | node here _ ih =>
      obtain ⟨here', below'⟩ := everywhere_node.mp hright
      exact .node ⟨here, here'⟩ fun child hchild =>
        ih child hchild (below' child hchild)

def countAll (kind : Token.Kind) (trees : List Tree) : Nat :=
  (leavesAll trees).countP (·.1 = kind)

theorem countAll_cons (kind : Token.Kind) (tree : Tree) (rest : List Tree) :
    countAll kind (tree :: rest) = countAll kind
      [tree] + countAll kind rest := by
  rw [countAll, countAll, countAll, ← List.singleton_append, leavesAll_append,
    List.countP_append]

theorem countP_symbols_cons (test : Symbol → Bool) (tree : Tree)
    (rest : List Tree) :
    (symbols (tree :: rest)).countP test =
      (symbols [tree]).countP test + (symbols rest).countP test := by
  rw [← List.singleton_append, symbols_append, List.countP_append]

theorem countAll_token {kind other : Token.Kind}
    (htrivia : kind.isTrivia = false) (text : String) :
    countAll kind [token other text] =
      (symbols [token other text]).countP (· = .token kind) := by
  rw [countAll, leavesAll_token]
  cases hother : (token other text).isTrivia with
  | true =>
      rw [symbols_of_trivia (List.forall_mem_singleton.mpr hother)]
      refine List.countP_eq_zero.mpr fun leaf hleaf hsame => ?_
      rw [List.mem_singleton.mp hleaf, decide_eq_true_eq] at hsame
      rw [isTrivia, show other = kind from hsame, htrivia] at hother
      cases hother
  | false =>
      rw [symbols_singleton hother, List.countP_singleton,
        List.countP_singleton]
      simp [symbol]

/-- If no node among trees has more tokens of one kind than of another, then
they have more of them only beside the nodes. -/
theorem countAll_le_of_nodes {opener closer : Token.Kind}
    (hopener : opener.isTrivia = false) (hcloser : closer.isTrivia = false)
    {trees : List Tree}
    (hnodes : ∀ kind children, node kind children ∈ trees →
      countAll opener children ≤ countAll closer children) :
    countAll opener trees + (symbols trees).countP (· = .token closer) ≤
      countAll closer trees + (symbols trees).countP (· = .token opener) := by
  induction trees with
  | nil => exact Nat.le_refl _
  | cons tree rest ih =>
      have hrest :=
        ih fun kind children hmem =>
          hnodes kind children (List.mem_cons_of_mem _ hmem)
      have hone :
          countAll opener [tree] + (symbols [tree]).countP (· = .token closer) ≤
          countAll closer [tree] +
            (symbols [tree]).countP (· = .token opener) := by
        cases tree with
        | token kind text =>
            rw [countAll_token hopener, countAll_token hcloser, Nat.add_comm]
        | node kind children =>
            have hnode := hnodes kind children List.mem_cons_self
            simpa [countAll, symbols, isTrivia, symbol] using hnode
      rw [countAll_cons, countAll_cons closer, countP_symbols_cons,
        countP_symbols_cons (· = .token opener)]
      omega

/-- Complete nodes have as many closing parentheses as opening ones, or more,
since those of interpolations are opened by other tokens. -/
theorem countAll_leftParen_le {tree : Tree}
    (htree : tree.Everywhere Node.Complete) {kind : Node.Kind}
    {children : List Tree} (hnode : tree = node kind children) :
    countAll .leftParen children ≤ countAll .rightParen children := by
  induction htree generalizing kind children with
  | token => cases hnode
  | @node kind' children' here below ih =>
      obtain ⟨rfl, rfl⟩ := node.inj hnode
      have hbelow :=
        countAll_le_of_nodes
          (show Token.Kind.leftParen.isTrivia = false from rfl)
        (show Token.Kind.rightParen.isTrivia = false from rfl)
        fun kind children hmem => ih _ hmem rfl
      obtain ⟨hword, hclosed⟩ := here
      have honce : kind'.shape.once (· = .token .leftParen) = true := by
        cases kind' <;> decide
      have hle := Shape.countP_le_one hword honce
      rcases Nat.eq_zero_or_pos
        ((symbols children').countP (· = .token .leftParen)) with hnone | hsome
      · omega
      · obtain ⟨symbol, hsymbol, hsame⟩ := List.countP_pos_iff.mp hsome
        have hopened :=
          (token_mem_symbols rfl).mp (of_decide_eq_true hsame ▸ hsymbol)
        have hfound :=
          (token_mem_symbols rfl).mpr
            (hclosed (.leftParen, .rightParen) (by decide) hopened)
        have hcloser :
            0 < (symbols children').countP (· = .token .rightParen) :=
          List.countP_pos_iff.mpr ⟨_, hfound, by simp⟩
        omega

def significantAll (trees : List Tree) : List (Token.Kind × String) :=
  (leavesAll trees).filter fun leaf => !leaf.1.isTrivia

theorem significantAll_append (left right : List Tree) :
    significantAll (left ++ right) =
      significantAll left ++ significantAll right := by
  rw [significantAll, leavesAll_append, List.filter_append]
  rfl

theorem significantAll_of_symbols {trees : List Tree}
    (hnone : symbols trees = []) :
    significantAll trees = [] := by
  induction trees with
  | nil => rfl
  | cons tree rest ih =>
      rw [← List.singleton_append, symbols_append, List.append_eq_nil_iff]
        at hnone
      rw [← List.singleton_append, significantAll_append, ih hnone.2,
        List.append_nil]
      cases htrivia : tree.isTrivia with
      | true =>
          cases tree with
          | token kind text =>
              have hkind : kind.isTrivia = true := htrivia
              simp [significantAll, hkind]
          | node => cases htrivia
      | false =>
          rw [symbols_singleton htrivia] at hnone
          cases hnone.1

theorem getLast?_significantAll_of_word {shape : Shape} {trees : List Tree}
    (hword : symbols trees ∈ shape.words)
    (hleast : 0 < shape.least fun _ => true)
    (hends : shape.ends Symbol.endsNode = true)
    (hnodes : ∀ kind children, node kind children ∈ trees →
      kind.isSolid = true → ∃ leaf,
        (significantAll children).getLast? = some leaf ∧ leaf.1 ≠ .dot) :
    ∃ leaf, (significantAll trees).getLast? = some leaf ∧ leaf.1 ≠ .dot := by
  have hne := Shape.ne_nil_of_least hword hleast
  have hlast :=
    Shape.ends_of_getLast? hword hends (List.getLast?_eq_getLast_of_ne_nil hne)
  obtain ⟨before, tree, after, htrees, hsymbol, htrivia, -, hafter⟩ :=
    split_symbols_at (List.dropLast_append_getLast hne).symm
  rw [htrees, ← List.singleton_append, significantAll_append,
    significantAll_append, significantAll_of_symbols hafter, List.append_nil,
    List.getLast?_append]
  rw [← hsymbol] at hlast
  cases tree with
  | token kind text =>
      have hkind : kind.isTrivia = false := htrivia
      refine ⟨(kind, text), ?_, by simpa [Symbol.endsNode, symbol] using hlast⟩
      simp [significantAll, hkind]
  | node kind children =>
      have hmem : node kind children ∈ trees := by
        rw [htrees]
        exact List.mem_append_right _ List.mem_cons_self
      obtain ⟨leaf, hleaf, hdot⟩ := hnodes kind children hmem hlast
      refine ⟨leaf, ?_, hdot⟩
      have hsame : significantAll [node kind children] =
          significantAll children := by
        rw [significantAll, leavesAll_node, significantAll]
      rw [hsame, hleaf]
      rfl

theorem getLast?_significantAll {tree : Tree}
    (htree : tree.Everywhere Node.Complete) {kind : Node.Kind}
    {children : List Tree} (hnode : tree = node kind children)
    (hsolid : kind.isSolid = true) :
    ∃ leaf, (significantAll children).getLast? = some leaf ∧ leaf.1 ≠ .dot := by
  induction htree generalizing kind children with
  | token => cases hnode
  | @node kind' children' here below ih =>
      obtain ⟨rfl, rfl⟩ := node.inj hnode
      have hshape : 0 < kind'.shape.least (fun _ => true) ∧
          kind'.shape.ends Symbol.endsNode = true := by
        cases kind' <;> first | decide | cases hsolid
      exact getLast?_significantAll_of_word here.1 hshape.1 hshape.2
        fun kind children hmem hsolid => ih _ hmem rfl hsolid

end Tree

end PklAnalysis

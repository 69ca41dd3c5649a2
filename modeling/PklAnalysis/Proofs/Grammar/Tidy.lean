import PklAnalysis.Proofs.Grammar.Reading
import PklAnalysis.Proofs.Token.Lossless

/-!
Trees in which recovery has left no trace but error nodes, and where in the text
these start.
-/

namespace PklAnalysis

namespace Tree

/-- The children of an error node: tokens, and a first one that is no trivia. -/
structure Stray (children : List Tree) : Prop where
  tokens : ∀ child ∈ children, ∃ kind text, child = .token kind text
  head : ∃ kind text rest, children = .token kind text :: rest ∧
    kind.isTrivia = false

mutual
/-- Every error node holds stray tokens, and the number of tokens before it is
one of `reported`. Tokens of no known kind stand in error nodes only. There are
`first` tokens before the tree. -/
inductive Tidy (reported : Nat → Prop) : Nat → Tree → Prop
  | token {first : Nat} {kind : Token.Kind} {text : String}
  (hknown : kind ≠ .error) :
      Tidy reported first (.token kind text)
  | stray {first : Nat} {children : List Tree} (hreported : reported first)
      (hstray : Stray children) : Tidy reported first (.node .error children)
  | node {first : Nat} {kind : Node.Kind} {children : List Tree}
      (hkind : kind ≠ .error)
      (hchildren : TidyAll reported first children) :
        Tidy reported first (.node kind children)

inductive TidyAll (reported : Nat → Prop) : Nat → List Tree → Prop
  | nil {first : Nat} : TidyAll reported first []
  | cons {first : Nat} {tree : Tree} {rest : List Tree}
      (htree : Tidy reported first tree)
      (hrest : TidyAll reported (first + tree.leaves.length) rest) :
      TidyAll reported first (tree :: rest)
end

variable {reported reported' : Nat → Prop} {first : Nat}

theorem tidyAll_cons {tree : Tree} {rest : List Tree} :
    TidyAll reported first (tree :: rest) ↔
      Tidy reported first tree ∧
        TidyAll reported (first + tree.leaves.length) rest :=
  ⟨fun (.cons htree hrest) => ⟨htree, hrest⟩,
    fun ⟨htree, hrest⟩ => .cons htree hrest⟩

theorem tidyAll_append {left right : List Tree} :
    TidyAll reported first (left ++ right) ↔
      TidyAll reported first left ∧
        TidyAll reported (first + (leavesAll left).length) right := by
  induction left generalizing first with
  | nil => exact ⟨fun hright => ⟨.nil, hright⟩, fun hboth => hboth.2⟩
  | cons tree rest ih =>
      rw [List.cons_append, tidyAll_cons, tidyAll_cons, ih, leavesAll,
        List.length_append, Nat.add_assoc, and_assoc]

theorem tidyAll_singleton {tree : Tree} :
    TidyAll reported first [tree] ↔ Tidy reported first tree :=
  ⟨fun (.cons htree _) => htree, fun htree => .cons htree .nil⟩

mutual
theorem Tidy.mono (hreported : ∀ place, reported place → reported' place)
    {first : Nat} :
    ∀ {tree : Tree}, Tidy reported first tree → Tidy reported' first tree
  | _, .token hknown => .token hknown
  | _, .stray hplace hstray => .stray (hreported _ hplace) hstray
  | _, .node hkind hchildren => .node hkind (hchildren.mono hreported)

theorem TidyAll.mono (hreported : ∀ place, reported place → reported' place)
    {first : Nat} :
    ∀ {trees : List Tree}, TidyAll reported first trees →
    TidyAll reported' first trees
  | _, .nil => .nil
  | _, .cons htree hrest => .cons (htree.mono hreported) (hrest.mono hreported)
end

theorem TidyAll.exists_of_mem {trees : List Tree} {tree : Tree}
    (htidy : TidyAll reported first trees) (hmem : tree ∈ trees) :
    ∃ place, Tidy reported place tree := by
  induction trees generalizing first with
  | nil => exact nomatch hmem
  | cons head rest ih =>
      obtain ⟨hhead, hrest⟩ := tidyAll_cons.mp htidy
      rcases List.mem_cons.mp hmem with rfl | hmem
      · exact ⟨first, hhead⟩
      · exact ih hrest hmem

def byteSize : List (Token.Kind × String) → Nat
  | [] => 0
  | leaf :: rest => leaf.2.utf8ByteSize + byteSize rest

theorem byteSize_append (left right : List (Token.Kind × String)) :
    byteSize (left ++ right) = byteSize left + byteSize right := by
  induction left with
  | nil => exact (Nat.zero_add _).symm
  | cons leaf rest ih =>
      rw [List.cons_append, byteSize, byteSize, ih, Nat.add_assoc]

mutual
theorem size_eq_byteSize : ∀ tree : Tree, tree.size = byteSize tree.leaves
  | .token kind text => by simp [size, leaves, byteSize]
  | .node kind children => by rw [size, leaves, sizeAll_eq_byteSize]

theorem sizeAll_eq_byteSize :
    ∀ trees : List Tree, sizeAll trees = byteSize (leavesAll trees)
  | [] => rfl
  | tree :: rest => by
      rw [sizeAll, leavesAll, byteSize_append, size_eq_byteSize,
        sizeAll_eq_byteSize]
end

/-- A tree under a tidy one, listed with its offset, is tidy, or it is a token
that has been set aside. The tree is part of one with the given leaves. -/
def Row.Keeps (reported : Nat → Prop) (leaves : List (Token.Kind × String))
    (row : Row) : Prop :=
  (∃ place,
    Tidy reported place row.tree ∧ row.offset = byteSize (leaves.take place)) ∨
    (∃ place, reported place) ∧ ∃ kind text, row.tree = .token kind text

theorem exists_token_of_mem_rowsAll {depth offset : Nat} {trees : List Tree}
    (htokens : ∀ tree ∈ trees, ∃ kind text, tree = .token kind text) {row : Row}
    (hrow : row ∈ rowsAll depth offset trees) :
    ∃ kind text, row.tree = .token kind text := by
  induction trees generalizing offset with
  | nil => exact nomatch hrow
  | cons tree rest ih =>
      obtain ⟨hhead, hrest⟩ := List.forall_mem_cons.mp htokens
      rw [rowsAll, List.mem_append] at hrow
      rcases hrow with hrow | hrow
      · obtain ⟨kind, text, rfl⟩ := hhead
        rw [rows, List.mem_singleton] at hrow
        exact ⟨kind, text, by rw [hrow]⟩
      · exact ih hrest hrow

mutual
theorem Tidy.rows {first depth : Nat}
    (before after : List (Token.Kind × String))
    (hfirst : before.length = first) :
    ∀ {tree : Tree}, Tidy reported first tree →
      ∀ row ∈ tree.rows depth (byteSize before),
        row.Keeps reported (before ++ (tree.leaves ++ after))
  | _, .token hknown => by
      intro row hrow
      rw [Tree.rows, List.mem_singleton] at hrow
      subst hrow
      exact .inl ⟨first, .token hknown, by rw [← hfirst, List.take_left]⟩
  | .node _ children, .stray hreported hstray => by
      intro row hrow
      rw [Tree.rows, List.mem_cons] at hrow
      rcases hrow with rfl | hrow
      · exact .inl ⟨first,
          .stray hreported hstray, by rw [← hfirst, List.take_left]⟩
      · exact .inr ⟨⟨first, hreported⟩,
          exists_token_of_mem_rowsAll hstray.tokens hrow⟩
  | .node kind children, .node hkind hchildren => by
      intro row hrow
      rw [Tree.rows, List.mem_cons] at hrow
      rcases hrow with rfl | hrow
      · exact .inl ⟨first,
          .node hkind hchildren, by rw [← hfirst, List.take_left]⟩
      · exact hchildren.rows before after hfirst row hrow

theorem TidyAll.rows {first depth : Nat}
    (before after : List (Token.Kind × String))
    (hfirst : before.length = first) :
    ∀ {trees : List Tree}, TidyAll reported first trees →
      ∀ row ∈ rowsAll depth (byteSize before) trees,
        row.Keeps reported (before ++ (leavesAll trees ++ after))
  | _, .nil => fun _ hrow => nomatch hrow
  | tree :: rest, .cons htree hrest => by
      intro row hrow
      rw [rowsAll, List.mem_append, size_eq_byteSize, ← byteSize_append] at hrow
      rcases hrow with hrow | hrow
      · have hkeeps :=
          htree.rows before (leavesAll rest ++ after) hfirst row hrow
        rwa [leavesAll, List.append_assoc]
      · have hlength : (before ++ tree.leaves).length =
            first + tree.leaves.length := by
          rw [List.length_append, hfirst]
        have hkeeps := hrest.rows (before ++ tree.leaves) after hlength row hrow
        rwa [leavesAll, List.append_assoc tree.leaves,
          ← List.append_assoc before]
end

end Tree

theorem Token.Contiguous.offset_eq {tokens : List Token} {offset place : Nat}
    {token : Token} (hcontiguous : Contiguous offset tokens)
    (htoken : tokens[place]? = some token) :
    token.offset =
      offset + Tree.byteSize ((tokens.map Token.leaf).take place) := by
  induction tokens generalizing offset place with
  | nil => exact nomatch htoken
  | cons head rest ih =>
      cases place with
      | zero =>
          cases htoken
          exact hcontiguous.1
      | succ place =>
          rw [ih hcontiguous.2 htoken, List.map_cons, List.take_succ_cons,
            Nat.add_assoc]
          simp [Tree.byteSize, Token.leaf]

end PklAnalysis

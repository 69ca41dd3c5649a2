import PklAnalysis.Proofs.Grammar.Progress

/-!
Trivia: what the grammar sees of a list of tokens, and what is left of trees
without the blanks and comments in them.
-/

namespace PklAnalysis

namespace Token

def significant (tokens : List Token) : List Token :=
  tokens.filter fun token => !token.isTrivia

/-- The tokens that are no trivia as kinds and texts, each with whether the
trivia between it and the one before break the line. The trivia before the first
token count as well, and `broken` says whether a line break comes before all of
them. -/
def outline (broken : Bool) : List Token → List (Bool × Token.Kind × String)
  | [] => []
  | token :: rest =>
      if token.isTrivia then outline (broken || token.breaksLine) rest
      else (broken, token.leaf) :: outline false rest

theorem significant_cons_of_trivia {token : Token} (rest : List Token)
    (htrivia : token.isTrivia = true) :
    significant (token :: rest) = significant rest := by
  simp only [significant, List.filter_cons, htrivia, Bool.not_true,
    Bool.false_eq_true, if_false]

theorem significant_cons {token : Token} (rest : List Token)
    (htrivia : token.isTrivia = false) :
    significant (token :: rest) = token :: significant rest := by
  simp only [significant, List.filter_cons, htrivia, Bool.not_false, if_true]

theorem significant_dropWhile (tokens : List Token) :
    significant (tokens.dropWhile isTrivia) = significant tokens := by
  induction tokens with
  | nil => rfl
  | cons token rest ih =>
      cases htrivia : token.isTrivia with
      | true =>
          rw [List.dropWhile_cons_of_pos htrivia, ih,
            significant_cons_of_trivia _ htrivia]
      | false => rw [List.dropWhile_cons_of_neg (by simp [htrivia])]

theorem isTrivia_of_dropWhile {tokens rest : List Token} {token : Token}
    (hdrop : tokens.dropWhile isTrivia = token :: rest) :
    token.isTrivia = false := by
  have hnot := List.head?_dropWhile_not isTrivia tokens
  rw [hdrop] at hnot
  simpa using hnot

theorem significant_eq_nil_iff {tokens : List Token} :
    significant tokens = [] ↔ tokens.dropWhile isTrivia = [] := by
  rw [← significant_dropWhile]
  cases hdrop : tokens.dropWhile isTrivia with
  | nil => simp [significant]
  | cons token rest =>
      simp [significant_cons rest (isTrivia_of_dropWhile hdrop)]

theorem nth?_eq (n : Nat) (tokens : List Token) :
    Parser.nth? n tokens = (significant tokens)[n]? := by
  induction tokens generalizing n with
  | nil => rfl
  | cons token rest ih =>
      cases htrivia : token.isTrivia with
      | true =>
          simp only [Parser.nth?, htrivia, if_true, ih,
            significant_cons_of_trivia]
      | false => cases n <;> simp [Parser.nth?, htrivia, ih, significant_cons]

theorem map_snd_outline (broken : Bool) (tokens : List Token) :
    (outline broken tokens).map Prod.snd =
      (significant tokens).map Token.leaf := by
  induction tokens generalizing broken with
  | nil => rfl
  | cons token rest ih =>
      cases htrivia : token.isTrivia with
      | true =>
          simp only [outline, htrivia, if_true, ih, significant_cons_of_trivia]
      | false => simp [outline, htrivia, ih, significant_cons]

theorem outline_of_dropWhile_nil (broken : Bool) {tokens : List Token}
    (hdrop : tokens.dropWhile isTrivia = []) : outline broken tokens = [] := by
  have hleaves := map_snd_outline broken tokens
  rw [significant_eq_nil_iff.mpr hdrop] at hleaves
  exact List.map_eq_nil_iff.mp hleaves

theorem outline_of_dropWhile_cons (broken : Bool) {tokens rest : List Token}
    {token : Token} (hdrop : tokens.dropWhile isTrivia = token :: rest) :
    outline broken tokens =
      (broken || (tokens.takeWhile isTrivia).any breaksLine, token.leaf) ::
        outline false rest := by
  induction tokens generalizing broken with
  | nil => cases hdrop
  | cons head tokens ih =>
      cases htrivia : head.isTrivia with
      | true =>
          rw [List.dropWhile_cons_of_pos htrivia] at hdrop
          simp only [outline, htrivia, if_true, ih _ hdrop,
            List.takeWhile_cons_of_pos, List.any_cons, Bool.or_assoc]
      | false =>
          rw [List.dropWhile_cons_of_neg (by simp [htrivia])] at hdrop
          cases hdrop
          simp [outline, htrivia]

theorem outline_of_unbroken (broken : Bool) {tokens : List Token}
    (hunbroken : ∀ token ∈ tokens,
      token.isTrivia = true → token.breaksLine = false) :
    outline broken tokens = outline broken (significant tokens) := by
  induction tokens generalizing broken with
  | nil => rfl
  | cons token rest ih =>
      rw [List.forall_mem_cons] at hunbroken
      cases htrivia : token.isTrivia with
      | true =>
          rw [significant_cons_of_trivia rest htrivia, outline, htrivia,
            hunbroken.1 htrivia, Bool.or_false]
          exact ih broken hunbroken.2
      | false =>
          rw [significant_cons rest htrivia, outline, outline, htrivia,
            ih false hunbroken.2]
          rfl

theorem outline_congr (broken : Bool) {tokens tokens' : List Token}
    (hsame : tokens.map leaf = tokens'.map leaf) :
    outline broken tokens = outline broken tokens' := by
  induction tokens generalizing broken tokens' with
  | nil => rw [List.map_eq_nil_iff.mp hsame.symm]
  | cons token rest ih =>
      obtain ⟨token', rest', rfl, hleaf, hrest⟩ :=
        List.map_eq_cons_iff.mp hsame.symm
      obtain ⟨hkind, htext⟩ := Prod.mk.inj hleaf
      have htrivia : token'.isTrivia = token.isTrivia :=
        congrArg Kind.isTrivia hkind
      have hbreak : token'.breaksLine = token.breaksLine := by
        rw [breaksLine, breaksLine, htext]
      rw [outline, outline, htrivia, hbreak, hleaf, ih _ hrest.symm,
        ih _ hrest.symm]

/-- Skipping trivia forgets whether they break the line, and nothing else. -/
theorem outline_dropWhile {broken : Bool} {tokens tokens' : List Token}
    (hsame : outline broken tokens = outline broken tokens') (broken' : Bool) :
    outline broken' (tokens.dropWhile isTrivia) =
      outline broken' (tokens'.dropWhile isTrivia) := by
  have hforget : ∀ tokens : List Token,
      outline broken' (tokens.dropWhile isTrivia) =
      match outline broken tokens with
      | [] => []
      | (_, leaf) :: rest => (broken', leaf) :: rest := by
    intro tokens
    cases hdrop : tokens.dropWhile isTrivia with
    | nil => rw [outline_of_dropWhile_nil broken hdrop]; rfl
    | cons token rest =>
        rw [outline_of_dropWhile_cons broken hdrop]
        simp [outline, isTrivia_of_dropWhile hdrop]
  rw [hforget, hforget, hsame]

end Token

namespace Tree

def isTrivia : Tree → Bool
  | .token kind _ => kind.isTrivia
  | .node _ _ => false

mutual
def bare : Tree → Tree
  | .token kind text => .token kind text
  | .node kind children => .node kind (bareAll children)

def bareAll : List Tree → List Tree
  | [] => []
  | tree :: rest =>
      if tree.isTrivia then bareAll rest else tree.bare :: bareAll rest
end

@[simp] theorem bareAll_append (left right : List Tree) :
    bareAll (left ++ right) = bareAll left ++ bareAll right := by
  induction left with
  | nil => simp [bareAll]
  | cons tree rest ih =>
      simp only [List.cons_append, bareAll, ih]
      split <;> rfl

@[simp] theorem bareAll_node (kind : Node.Kind) (children : List Tree) :
    bareAll [.node kind children] = [.node kind (bareAll children)] := by
  simp [bareAll, isTrivia, bare]

theorem bareAll_of_isTrivia {tree : Tree} (htrivia : tree.isTrivia = true) :
    bareAll [tree] = [] := by
  simp [bareAll, htrivia]

mutual
theorem bare_eq_self : (tree : Tree) →
    (∀ leaf ∈ tree.leaves, leaf.1.isTrivia = false) → tree.bare = tree
  | .token _ _, _ => rfl
  | .node kind children, hplain => by
      rw [leaves] at hplain
      rw [bare, bareAll_eq_self children hplain]

theorem bareAll_eq_self : (trees : List Tree) →
    (∀ leaf ∈ leavesAll trees, leaf.1.isTrivia = false) → bareAll trees = trees
  | [], _ => rfl
  | tree :: rest, hplain => by
      rw [leavesAll, List.forall_mem_append] at hplain
      have htrivia : tree.isTrivia = false := by
        cases tree with
        | token kind text => exact hplain.1 _ List.mem_cons_self
        | node => rfl
      rw [bareAll, htrivia, bare_eq_self tree hplain.1,
        bareAll_eq_self rest hplain.2]
      rfl
end

end Tree

end PklAnalysis

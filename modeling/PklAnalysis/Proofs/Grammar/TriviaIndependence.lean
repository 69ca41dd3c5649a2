import PklAnalysis.Proofs.Grammar.Unrolling

/-!
Parsing depends on blanks and comments only through the line breaks in them, and
not on how deep calls of rules may nest, as long as that is deep enough.
-/

namespace PklAnalysis.Grammar

open PklAnalysis.Parser

theorem similar_ofTokens {tokens tokens' : List Token} (stop stop' : Nat)
    (hsame : Token.outline true tokens = Token.outline true tokens') :
    Similar ⟨⟨tokens, stop⟩, ⟨tokens', stop'⟩⟩ 0 0 (.ofTokens tokens stop)
      (.ofTokens tokens' stop') := by
  refine ⟨⟨0, ?_, ?_⟩, ?_, rfl, .nil⟩
  · exact ⟨rfl, rfl, fun hlt => absurd hlt (Nat.lt_irrefl 0)⟩
  · exact ⟨rfl, rfl, fun hlt => absurd hlt (Nat.lt_irrefl 0)⟩
  · have hstart :
        Inputs.atStart ⟨⟨tokens, stop⟩,
          ⟨tokens', stop'⟩⟩ (.ofTokens tokens stop) = true :=
      decide_eq_true (Nat.le_refl _)
    rw [hstart]
    exact hsame

/-- The final states of two runs agree, whatever calls of rules give that are
nested deeper than there is need for. -/
theorem similar_moduleRule {tokens tokens' : List Token} {stop stop' : Nat}
    (hsame : Token.outline true tokens = Token.outline true tokens')
    {stuck stuck' : Call} (hstuck : stuck.Keeps) (hstuck' : stuck'.Keeps)
    {depth depth' : Nat} (hdepth : callDepth tokens ≤ depth)
    (hdepth' : callDepth tokens' ≤ depth') :
    Similar ⟨⟨tokens, stop⟩, ⟨tokens', stop'⟩⟩ 0 0
      ((moduleRule (unroll Rule.parse stuck depth)).run
        (.ofTokens tokens stop)).2
      ((moduleRule (unroll Rule.parse stuck' depth')).run
        (.ofTokens tokens' stop')).2 := by
  have hsimilar := similar_ofTokens stop stop' hsame
  have hsize : (Token.significant tokens).length ≤ tokens.length :=
    List.length_filter_le _ _
  have hsize' : (Token.significant tokens').length ≤ tokens'.length :=
    List.length_filter_le _ _
  have hcount : (Token.significant tokens).length =
      (Token.significant tokens').length :=
    hsimilar.count_eq
  rw [callDepth] at hdepth hdepth'
  let like := Likeness.upToTrivia ⟨⟨tokens, stop⟩, ⟨tokens', stop'⟩⟩
  have hinput : like.size = (Token.significant tokens).length := rfl
  have hneed : 2 * (like.size + 1) ≤ depth := by omega
  have hneed' : 2 * (like.size + 1) ≤ depth' := by omega
  have hrel : like.rel 0 0 _ _ :=
    rel_moduleRule (fun _ hle => .of_junk trivial hle) hstuck hstuck'
    hneed hneed' rfl rfl hsimilar (Nat.le_refl _)
  exact hrel

/-- Two lists of tokens that agree in the kinds and texts of the tokens that are
no trivia, and in which of these start a line, have the same tree but for
trivia, and the same errors at the same tokens. What comes before the first of
these tokens does not matter. -/
theorem parse_eq_of_outline {tokens tokens' : List Token} (stop stop' : Nat)
    (hsame : Token.outline true tokens = Token.outline true tokens') :
    (parseTokens tokens stop).tree.bare =
      (parseTokens tokens' stop').tree.bare ∧
      List.Forall₂ (Inputs.SameError ⟨⟨tokens, stop⟩, ⟨tokens', stop'⟩⟩)
        (parseTokens tokens stop).errors
          (parseTokens tokens' stop').errors := by
  have hstuck : Call.Keeps fun _ => return none := fun _ _ => keeps_pure none
  have hsimilar : Similar ⟨⟨tokens, stop⟩, ⟨tokens', stop'⟩⟩ 0 0
      (finalState tokens stop)
      (finalState tokens' stop') := by
    rw [finalState_eq_unroll, finalState_eq_unroll]
    exact similar_moduleRule hsame hstuck hstuck (Nat.le_refl _) (Nat.le_refl _)
  obtain ⟨-, hinOrder, hopen, children, htrees, -⟩ :=
    finalState_built tokens stop
  obtain ⟨-, hinOrder', hopen', children', htrees', -⟩ :=
    finalState_built tokens' stop'
  refine ⟨?_, ?_⟩
  · have hbare := hsimilar.trees
    rw [htrees, htrees', List.drop_zero, List.drop_zero, Tree.bareAll_node,
      Tree.bareAll_node] at hbare
    rw [tree_parseTokens hinOrder hopen htrees,
      tree_parseTokens hinOrder' hopen' htrees', Tree.bare, Tree.bare]
    exact (List.cons.inj hbare).1
  · rw [errors_parseTokens, errors_parseTokens, List.forall₂_reverse_iff]
    exact hsimilar.errors

/-- Blanks, a comment and line breaks in other places, around an assignment
without a value and a stray bracket. -/
theorem parse_eq_of_outline_commented :
    let tokens : List Token :=
      [⟨.identifier, "a", 0⟩, ⟨.equal, "=", 1⟩, ⟨.whitespace, "\n", 2⟩,
       ⟨.rightParen, ")", 3⟩]
    let tokens' : List Token :=
      [⟨.whitespace, "\n", 0⟩, ⟨.identifier, "a", 1⟩, ⟨.whitespace, " ", 2⟩,
       ⟨.equal, "=", 3⟩, ⟨.lineComment, "//", 4⟩, ⟨.whitespace, "\n\n", 6⟩,
       ⟨.rightParen, ")", 8⟩]
    Token.outline true tokens = Token.outline true tokens' ∧
      (parseTokens tokens 4).tree.bare = (parseTokens tokens' 9).tree.bare ∧
      List.Forall₂ (Inputs.SameError ⟨⟨tokens, 4⟩, ⟨tokens', 9⟩⟩)
        (parseTokens tokens 4).errors (parseTokens tokens' 9).errors := by
  intro tokens tokens'
  have hsame : Token.outline true tokens = Token.outline true tokens' := by
    decide
  exact ⟨hsame, parse_eq_of_outline 4 9 hsame⟩

end PklAnalysis.Grammar

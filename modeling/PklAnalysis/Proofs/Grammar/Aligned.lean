import PklAnalysis.Proofs.Grammar.Termination

/-!
The same tokens in two places of a text. Where they begin, what has been built
before them and which nodes are open does not matter: a rule builds the same
trees of them and finds an error in both places or in neither.
-/

namespace PklAnalysis

namespace Token

theorem map_leaf_significant (tokens : List Token) :
    (significant tokens).map leaf = (tokens.map leaf).filter fun leaf =>
      !leaf.1.isTrivia := by
  rw [List.filter_map]
  rfl

theorem any_breaksLine_takeWhile (tokens : List Token) :
    (tokens.takeWhile isTrivia).any breaksLine =
      ((tokens.map leaf).takeWhile fun leaf => leaf.1.isTrivia).any fun leaf =>
        leaf.2.toList.contains '\n' := by
  rw [List.takeWhile_map, List.any_map]
  rfl

theorem length_takeWhile_isTrivia (tokens : List Token) :
    (tokens.takeWhile isTrivia).length =
      ((tokens.map leaf).takeWhile fun leaf => leaf.1.isTrivia).length := by
  rw [List.takeWhile_map, List.length_map]
  rfl

end Token

namespace Parser

/-- Two states before the same tokens, neither at the start of its text, where
the same trees stand after a place, and errors have been found in both or in
neither. -/
structure Aligned (start start' : Nat) (state state' : State) : Prop where
  tokens : state.tokens.map Token.leaf = state'.tokens.map Token.leaf
  started : state.atStart = false
  started' : state'.atStart = false
  trees : state.builder.trees.toList.drop start =
    state'.builder.trees.toList.drop start'
  errors : state.errors = [] ↔ state'.errors = []

namespace Aligned

variable {start start' : Nat} {state state' : State}

theorem leaves_eq (haligned : Aligned start start' state state') :
    (Token.significant state.tokens).map Token.leaf =
      (Token.significant state'.tokens).map Token.leaf := by
  rw [Token.map_leaf_significant, haligned.tokens, Token.map_leaf_significant]

theorem afterBreak_eq (haligned : Aligned start start' state state') :
    state.afterBreak = state'.afterBreak := by
  rw [State.afterBreak, State.afterBreak, Token.any_breaksLine_takeWhile,
    haligned.tokens, haligned.started, haligned.started',
    Token.any_breaksLine_takeWhile]

theorem advance (haligned : Aligned start start' state state')
    (hle : start ≤ state.builder.trees.size)
    (hle' : start' ≤ state'.builder.trees.size) :
    Aligned start start' state.advance state'.advance := by
  have hleaves := haligned.tokens
  cases htokens : state.tokens with
  | nil =>
      have htokens' : state'.tokens = [] := by
        rw [htokens] at hleaves
        exact List.map_eq_nil_iff.mp hleaves.symm
      simpa only [State.advance, htokens, htokens'] using haligned
  | cons token rest =>
      obtain ⟨token', rest', htokens', hleaf, hrest⟩ : ∃ token' rest',
          state'.tokens = token' :: rest' ∧
          token'.leaf = token.leaf ∧
            rest'.map Token.leaf = rest.map Token.leaf := by
        rw [htokens, List.map_cons] at hleaves
        exact List.map_eq_cons_iff.mp hleaves.symm
      have hadvance := State.advance_of_cons htokens
      have hadvance' := State.advance_of_cons htokens'
      obtain ⟨hkind, htext⟩ := Prod.mk.inj hleaf
      rw [hadvance, hadvance']
      refine ⟨hrest.symm, rfl, rfl, ?_, haligned.errors⟩
      change (state.builder.trees.push _).toList.drop start =
        (state'.builder.trees.push _).toList.drop start'
      rw [Array.toList_push, Array.toList_push,
        List.drop_append_of_le_length hle, List.drop_append_of_le_length hle',
        haligned.trees, hkind, htext]

theorem advanceBy (haligned : Aligned start start' state state')
    (hle : start ≤ state.builder.trees.size)
    (hle' : start' ≤ state'.builder.trees.size) (count : Nat) :
    Aligned start start' (state.advanceBy count) (state'.advanceBy count) := by
  induction count generalizing state state' with
  | zero => exact haligned
  | succ count ih =>
      have hreads := State.reads_advance hle
      have hreads' := State.reads_advance hle'
      exact ih (haligned.advance hle hle') hreads.start_le hreads'.start_le

theorem skipTrivia (haligned : Aligned start start' state state')
    (hle : start ≤ state.builder.trees.size)
    (hle' : start' ≤ state'.builder.trees.size) :
    Aligned start start' (skipTrivia.run state).2
      (skipTrivia.run state').2 := by
  rw [run_skipTrivia, run_skipTrivia, Token.length_takeWhile_isTrivia,
    haligned.tokens, ← Token.length_takeWhile_isTrivia]
  exact haligned.advanceBy hle hle' _

theorem finish (haligned : Aligned start start' state state') {kind : Node.Kind}
    {outer outer' : List (Node.Kind × Nat)}
    (hopen : state.builder.openNodes = (kind, start) :: outer)
    (hopen' : state'.builder.openNodes = (kind, start') :: outer')
    (hle : start ≤ state.builder.trees.size)
    (hle' : start' ≤ state'.builder.trees.size) :
    Aligned start start' { state with builder := state.builder.finish }
      { state' with builder := state'.builder.finish } := by
  refine ⟨haligned.tokens, haligned.started, haligned.started', ?_,
    haligned.errors⟩
  rw [Builder.drop_trees_finish hopen hle,
    Builder.drop_trees_finish hopen' hle', haligned.trees]

theorem narrow (haligned : Aligned start start' state state') :
    Aligned state.builder.mark state'.builder.mark state state' := by
  refine ⟨haligned.tokens, haligned.started, haligned.started', ?_,
    haligned.errors⟩
  rw [Builder.drop_mark, Builder.drop_mark]

theorem widen {place place' : Nat} {inner inner' : State}
    (haligned : Aligned start start' state state')
    (hinner : Aligned place place' inner inner') (hle : start ≤ place)
    (hle' : start' ≤ place') (hplace : place = state.builder.trees.size)
    (hplace' : place' = state'.builder.trees.size)
    (hreads : state.Reads place inner) (hreads' : state'.Reads place' inner') :
    Aligned start start' inner inner' := by
  refine ⟨hinner.tokens, hinner.started, hinner.started', ?_, hinner.errors⟩
  rw [hreads.drop_eq hle hplace, hreads'.drop_eq hle' hplace', haligned.trees,
    hinner.trees]

end Aligned

def Likeness.aligned (size : Nat) : Likeness where
  rel := Aligned
  size := size
  junk := True
  leaves_eq haligned := haligned.leaves_eq
  afterBreak_eq haligned _ _ := haligned.afterBreak_eq
  skipTrivia haligned haccepts haccepts' :=
    haligned.skipTrivia (Builder.accepts_iff.mp haccepts).2
      (Builder.accepts_iff.mp haccepts').2
  advance haligned haccepts haccepts' _ _ _ _ _ :=
    haligned.advance (Builder.accepts_iff.mp haccepts).2
      (Builder.accepts_iff.mp haccepts').2
  report haligned _ :=
    ⟨haligned.tokens, haligned.started, haligned.started', haligned.trees,
      iff_of_false (List.cons_ne_nil _ _) (List.cons_ne_nil _ _)⟩
  startAt haligned _ _ :=
    ⟨haligned.tokens, haligned.started, haligned.started', haligned.trees,
      haligned.errors⟩
  finish haligned _ hopen hopen' hle hle' :=
    haligned.finish hopen hopen' hle hle'
  narrow haligned _ _ := haligned.narrow
  widen haligned hinner hle hle' hplace hplace' hreads hreads' :=
    haligned.widen hinner hle hle' hplace hplace' hreads hreads'

end Parser

namespace Grammar

open PklAnalysis.Parser

variable {start start' : Nat} {state state' : State}

/-- An expression is read the same way wherever its tokens stand. -/
theorem aligned_expression (power : Nat)
    (haccepts : state.builder.accepts start = true)
    (haccepts' : state'.builder.accepts start' = true)
    (haligned : Aligned start start' state state') :
    Aligned start start' ((unbounded (.expression power)).run state).2
      ((unbounded (.expression power)).run state').2 := by
  let stuck : Call := fun _ => return none
  let depth := 2 * (state.count + 1)
  have hdepth' : 2 * state'.count + 2 ≤ depth := by
    rw [← State.count_eq_of_leaves haligned.leaves_eq]
    exact Nat.le_refl depth
  have hcall : Agree (.aligned state.count) (state.count + 1)
      (unroll Rule.parse stuck depth) (unroll Rule.parse stuck depth) :=
    agree_unroll keeps_none keeps_none
      (fun _ hlt => .of_junk trivial (Nat.le_of_lt_succ hlt))
      (Nat.le_refl _) (Nat.le_refl _)
  rw [run_unbounded (.expression power) keeps_none haccepts trivial
      (Nat.le_refl depth),
    run_unbounded (.expression power) keeps_none haccepts' trivial hdepth']
  exact ((hcall.expression power start start').same state state' haccepts
    haccepts' haligned trivial
    (Nat.lt_succ_self _)).2.1

end Grammar

end PklAnalysis

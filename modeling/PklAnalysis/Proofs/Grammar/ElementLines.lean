import PklAnalysis.Proofs.Grammar.WholeExpression

/-!
Objects with an expression on each line. The loop over the members of an object
reads a line in each turn: what comes next begins on a new line, so the
expression ends where it ends alone, and its first two tokens make no property
of it.
-/

namespace PklAnalysis.Grammar
open PklAnalysis.Parser

structure IsBreak (leaves : List Leaf) : Prop where
  trivia : ∀ leaf ∈ leaves, leaf.1.isTrivia = true
  breaks : ∃ leaf ∈ leaves, '\n' ∈ leaf.2.toList

structure Line where
  newLine : List Leaf
  value : List Leaf
  tree : Tree
  isBreak : IsBreak newLine
  alone : Alone value tree

def Line.element (line : Line) : Tree :=
  .node .objectElement [line.tree]

def bodyLeaves (lines : List Line) (last after : List Leaf) : List Leaf :=
  lines.flatMap (fun line => line.newLine ++ line.value) ++
    (last ++ (.rightBrace, "\x7d") :: after)

theorem bodyLeaves_cons (line : Line) (more : List Line)
    (last after : List Leaf) :
    bodyLeaves (line :: more) last after =
      line.newLine ++ (line.value ++ bodyLeaves more last after) := by
  rw [bodyLeaves, bodyLeaves, List.flatMap_cons, List.append_assoc,
    List.append_assoc]

theorem length_le_bodyLeaves (lines : List Line) (last after : List Leaf) :
    lines.length ≤ (bodyLeaves lines last after).length := by
  induction lines with
  | nil => exact Nat.zero_le _
  | cons line more ih =>
      obtain ⟨leaf, hleaf, -⟩ := line.isBreak.breaks
      have hpos := List.length_pos_of_mem hleaf
      rw [bodyLeaves_cons, List.length_append, List.length_append,
        List.length_cons]
      omega

theorem peek?_zero_of_leaves {tokens : List Token} :
    (nth? 0 tokens).map Token.kind =
      firstKind
        ((tokens.map Token.leaf).filter fun leaf => !leaf.1.isTrivia) := by
  rw [← Token.map_leaf_significant, Token.nth?_eq, firstKind, List.head?_map,
    Option.map_map, List.head?_eq_getElem?]
  rfl

theorem newLine_of_break {tokens : List Token} {before after : List Leaf}
    (hbreak : IsBreak before)
    (htokens : tokens.map Token.leaf = before ++ after) {kind : Token.Kind}
    (hkind : kind ∈ lineStarts)
    (hfirst : firstKind (after.filter fun leaf => !leaf.1.isTrivia) =
      some kind) : NewLine tokens where
  broken := by
    rw [Token.any_breaksLine_takeWhile, htokens,
      List.takeWhile_append_of_pos hbreak.trivia, List.any_append,
      Bool.or_eq_true]
    obtain ⟨leaf, hleaf, hnewLine⟩ := hbreak.breaks
    exact .inl (List.any_eq_true.mpr ⟨leaf, hleaf,
      List.contains_iff_mem.mpr hnewLine⟩)
  first := by
    refine ⟨kind, hkind, ?_⟩
    rw [peek?_zero_of_leaves, htokens, List.filter_append,
      filter_isTrivia hbreak.trivia, List.nil_append]
    exact hfirst

theorem firstKind_append {left : List Leaf} {kind : Token.Kind}
    (hleft : firstKind left = some kind) (right : List Leaf) :
    firstKind (left ++ right) = some kind := by
  obtain ⟨leaf, hleaf, rfl⟩ := Option.map_eq_some_iff.mp hleft
  rw [firstKind, List.head?_append, hleaf]
  rfl

theorem newLine_bodyLeaves {tokens : List Token} {lines : List Line}
    {last after : List Leaf} (hlast : IsBreak last)
    (htokens : tokens.map Token.leaf = bodyLeaves lines last after) :
    NewLine tokens := by
  cases lines with
  | nil =>
      exact @newLine_of_break tokens last _ hlast htokens .rightBrace
        (by decide) rfl
  | cons line more =>
      rw [bodyLeaves_cons] at htokens
      obtain ⟨whole, hvalue, hwhole⟩ := line.alone.exists_whole
      obtain ⟨kind, hkind, hpeek⟩ := hwhole.exists_start
      refine newLine_of_break line.isBreak htokens
        (List.mem_cons_of_mem _ hkind) ?_
      rw [State.peek?, peek?_zero_of_leaves, hvalue] at hpeek
      rw [List.filter_append]
      exact firstKind_append hpeek _

theorem nextObjectMember_run (call : Call) (state : State) :
    (nextObjectMember call).run state =
      (if (state.peek? 0).isNone ||
        decide (state.peek? 0 = some .rightBrace) then pure false
        else do objectMember call; return true : Parser Bool).run state :=
  rfl

section

variable {call : Call} {state : State} {kind : Token.Kind}
  (hkind : kind ∈ expressionStarts) (hpeek : state.peek? 0 = some kind)
  (hnext : kind = .identifier → ∀ next ∈ afterName, state.peek? 1 ≠ some next)
include hkind hpeek hnext

theorem run_objectMember :
    (objectMember call).run state = (objectElement call).run state := by
  rw [objectMember, run_bind, current?_run, hpeek]
  by_cases hname : kind = .identifier
  case pos =>
      subst hname
      have hsecond : (peek? 1).run state = (state.peek? 1, state) := rfl
      dsimp only
      rw [namedMember, run_bind, hsecond]
      dsimp only
      split
      case h_4 => rfl
      all_goals
        rename_i hfound
        exact absurd hfound (hnext rfl _ (by decide))
  case neg => fin_cases hkind <;> first | rfl | exact absurd rfl hname

theorem run_nextObjectMember :
    (nextObjectMember call).run state =
      (true, ((objectElement call).run state).2) := by
  have hbrace : kind ≠ .rightBrace := by
    rintro rfl
    exact absurd hkind (by decide)
  have hother : ((some kind).isNone || decide (some kind = some .rightBrace)) =
      false := by
    simp [hbrace]
  rw [nextObjectMember_run, hpeek, hother, if_neg Bool.false_ne_true, run_bind,
    run_objectMember hkind hpeek hnext]
  rfl

end

theorem run_nextObjectMember_of_rightBrace {call : Call} {state : State}
    (hbrace : state.peek? 0 = some .rightBrace) :
    (nextObjectMember call).run state = (false, state) := by
  rw [nextObjectMember_run, hbrace]
  rfl

/-- In the middle of an object: from `origin` on `added` have been built, trivia
aside, and no error has been found; `leaves` come next, trivia aside. -/
structure Midway (origin : State) (added : List Tree) (leaves : List Leaf)
    (state : State) : Prop where
  reads : origin.Reads origin.builder.mark state
  started : state.atStart = false
  errors : state.errors = []
  built :
    Tree.withoutTrivia (state.builder.trees.toList.drop origin.builder.mark) =
      added
  left : ∃ blank, (∀ leaf ∈ blank, leaf.1.isTrivia = true) ∧
    state.tokens.map Token.leaf = blank ++ leaves

namespace Midway

theorem start {state : State} {leaves : List Leaf}
    (hstarted : state.atStart = false) (herrors : state.errors = [])
    (htokens : state.tokens.map Token.leaf = leaves) :
    Midway state [] leaves state where
  reads := .of_unchanged (Nat.le_refl _) rfl rfl
  started := hstarted
  errors := herrors
  built := by
    rw [Builder.drop_mark]
    rfl
  left := ⟨[], nofun, htokens⟩

variable {origin state : State} {added : List Tree}

theorem withoutTrivia_drop {leaves : List Leaf}
    (hmidway : Midway origin added leaves state) {after : State}
    {more : List Tree}
    (hafter : after.builder.trees.toList =
      (skipTrivia.run state).2.builder.trees.toList ++ more) :
    Tree.withoutTrivia (after.builder.trees.toList.drop origin.builder.mark) =
      added ++ Tree.withoutTrivia more := by
  obtain ⟨trivia, hskipped, htrivia⟩ := exists_trivia_skipTrivia state
  have hle : origin.builder.mark ≤ state.builder.trees.toList.length :=
    hmidway.reads.start_le
  rw [hafter, hskipped, List.append_assoc, List.drop_append_of_le_length hle,
    Tree.withoutTrivia_append, hmidway.built, Tree.withoutTrivia_append,
    htrivia, List.nil_append]

section

variable {before after : List Leaf} {leaf : Leaf}
  (hmidway : Midway origin added (before ++ leaf :: after) state)
  (hbefore : ∀ leaf ∈ before, leaf.1.isTrivia = true)
  (hleaf : leaf.1.isTrivia = false)
include hmidway hbefore hleaf

theorem peek?_zero : state.peek? 0 = some leaf.1 := by
  obtain ⟨blank, hblank, htokens⟩ := hmidway.left
  rw [State.peek?, peek?_zero_of_leaves, htokens, List.filter_append,
    filter_isTrivia hblank, List.filter_append, filter_isTrivia hbefore,
    List.filter_cons_of_pos (by simp [hleaf])]
  rfl

theorem token (horigin : origin.builder.accepts origin.builder.mark = true) :
    Midway origin (added ++ [.token leaf.1 leaf.2]) after
      (take.run state).2 := by
  obtain ⟨blank, hblank, htokens⟩ := hmidway.left
  let skipped := (skipTrivia.run state).2
  have hskipped : skipped.tokens.map Token.leaf = leaf :: after := by
    rw [map_leaf_skipTrivia, htokens, List.dropWhile_append_of_pos hblank,
      List.dropWhile_append_of_pos hbefore,
      List.dropWhile_cons_of_neg (by simp [hleaf])]
  obtain ⟨token, rest, hcons, rfl, hrest⟩ := List.map_eq_cons_iff.mp hskipped
  have htake : (take.run state).2 = skipped.advance := rfl
  obtain ⟨htail, hstarted, htrees⟩ := State.advance_eq hcons
  have hplain : (Tree.token token.kind token.text).isTrivia = false := hleaf
  refine ⟨hmidway.reads.trans
    (keeps_take state (hmidway.reads.accepts horigin)), hstarted, ?_, ?_,
    [], nofun, ?_⟩
  · rw [htake, State.errors_advance]
    exact (errors_skipTrivia state).trans hmidway.errors
  · rw [htake, hmidway.withoutTrivia_drop htrees]
    exact congrArg (added ++ ·) (List.filter_cons_of_pos (by rw [hplain]; rfl))
  · rw [htake, htail]
    exact hrest

end

variable {last after : List Leaf} (hlast : IsBreak last)
  (horigin : origin.builder.accepts origin.builder.mark = true)
include hlast horigin

theorem line {line : Line} {more : List Line}
    (hmidway : Midway origin added (bodyLeaves (line :: more) last after)
      state) :
    ∃ final, (nextObjectMember unbounded).run state = (true, final) ∧
      Midway origin (added ++ [line.element]) (bodyLeaves more last after)
        final := by
  obtain ⟨whole, hvalue, hwhole⟩ := line.alone.exists_whole
  obtain ⟨front, hfront, hleaves⟩ := hmidway.left
  let blank := front ++ line.newLine
  have hblank : ∀ leaf ∈ blank, leaf.1.isTrivia = true :=
    List.forall_mem_append.mpr ⟨hfront, line.isBreak.trivia⟩
  have hsplit : state.tokens.map Token.leaf =
      blank ++ (line.value ++ bodyLeaves more last after) := by
    rw [hleaves, bodyLeaves_cons, List.append_assoc]
  obtain ⟨-, tokens, -, -, htokens⟩ := List.map_eq_append_iff.mp hsplit
  obtain ⟨-, rest, -, -, hrest⟩ := List.map_eq_append_iff.mp htokens
  have hnewLine : NewLine rest := newLine_bodyLeaves hlast hrest
  rw [← hvalue, ← hrest] at hsplit
  have hpeek := peek?_eq_followed hblank hsplit
  obtain ⟨kind, hkind, hfirst⟩ := hwhole.exists_start
  have hpeekFirst : state.peek? 0 = some kind := by
    rw [hpeek, State.peek?_followed (State.count_pos_of_peek? hfirst), hfirst]
  have hnext : kind = .identifier → ∀ next ∈ afterName,
      state.peek? 1 ≠ some next := by
    rintro rfl next hnext
    rw [hpeek]
    exact hwhole.second_followed hfirst hnewLine next hnext
  obtain ⟨hstarted, herrors, hbuilt, hleft⟩ :=
    hwhole.run_objectElement hblank hsplit hnewLine hmidway.started
      hmidway.errors
  have haccepts := hmidway.reads.accepts horigin
  rw [hrest] at hleft
  exact ⟨_, run_nextObjectMember hkind hpeekFirst hnext,
    hmidway.reads.trans (keeps_objectElement keeps_unbounded state haccepts),
    hstarted, herrors, hmidway.withoutTrivia_drop hbuilt, hleft⟩

/-- By induction on the lines, each of which is one turn of the loop. -/
theorem lines {lines : List Line} {added : List Tree} {state : State}
    (hmidway : Midway origin added (bodyLeaves lines last after) state)
    {limit : Nat} (hlimit : lines.length ≤ limit) :
    ∃ final,
      (iterate (once (nextObjectMember unbounded)) limit ()).run state =
        ((), final) ∧
      Midway origin (added ++ lines.map Line.element) (bodyLeaves [] last after)
        final := by
  induction lines generalizing added state limit with
  | nil =>
      have hbrace : state.peek? 0 = some .rightBrace :=
        hmidway.peek?_zero hlast.trivia rfl
      refine ⟨state,
        run_iterate_of_unchanged limit
          (run_nextObjectMember_of_rightBrace hbrace), ?_⟩
      rwa [List.map_nil, List.append_nil]
  | cons line more ih =>
      obtain ⟨limit, rfl⟩ :=
        Nat.exists_eq_add_of_le'
          (Nat.le_trans (Nat.succ_pos more.length) hlimit)
      obtain ⟨middle, hturn, hmiddle⟩ := hmidway.line hlast horigin
      obtain ⟨final, hrun, hfinal⟩ := ih hmiddle (Nat.le_of_succ_le_succ hlimit)
      refine ⟨final, (run_iterate_of_true limit hturn).trans hrun, ?_⟩
      rw [List.map_cons, List.append_cons]
      exact hfinal

end Midway

end PklAnalysis.Grammar

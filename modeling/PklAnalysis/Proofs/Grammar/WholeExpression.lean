import PklAnalysis.Proofs.Grammar.ObjectLine
import PklAnalysis.Proofs.Grammar.OneProperty

/-!
Expressions that take up all tokens there are, as the value of a property alone
in its module does. Such an expression is read in the same way wherever its
tokens stand, as long as what comes after them begins on a new line; in an
object it becomes an element.
-/

namespace PklAnalysis.Grammar
open PklAnalysis.Parser

/-- Tokens that, parsed alone as the value of a property, give one expression,
without an error and without a missing closing delimiter. -/
structure Alone (value : List Leaf) (tree : Tree) : Prop where
  parsed : ∃ tokens stop document property,
    tokens.map Token.leaf = (.identifier, "x") :: (.equal, "=") :: value ∧
    parseTokens tokens stop = { tree := .node .root document, errors := [] } ∧
    Tree.withoutTrivia document = [.node .classProperty property] ∧
    Tree.withoutTrivia property = [.token .identifier "x",
      .token .equal "=", tree]
  expr : tree.isExpr = true
  closed : tree.Everywhere fun _ children => Node.Closed children

/-- The tokens that are left make up one expression, and nothing but trivia is
left after it. -/
structure IsWhole (state : State) (tree : Tree) : Prop where
  expr : tree.isExpr = true
  started : state.atStart = false
  accepts : state.builder.accepts state.builder.mark = true
  sound : ((unbounded (.expression 0)).run state).2.Sound
  built : ((unbounded (.expression 0)).run state).2.builder.trees.toList =
    (skipTrivia.run state).2.builder.trees.toList ++ [tree]
  left : ((unbounded (.expression 0)).run state).2.count = 0

section

variable {start power : Nat} {state : State}
  (haccepts : state.builder.accepts start = true)
include haccepts

theorem yield_expression :
    Yield (Within power) state ((unbounded (.expression power)).run state) := by
  rw [run_unbounded (.expression power) binds_taking.keeps haccepts trivial
      (Nat.le_refl _)]
  exact (binds_unroll _).expression power state

theorem run_expression_skipTrivia :
    (unbounded (.expression power)).run (skipTrivia.run state).2 =
      (unbounded (.expression power)).run state := by
  have haccepts' := (keeps_skipTrivia state haccepts).accepts haccepts
  obtain ⟨next, hnext⟩ : ∃ next,
    Rule.parse unbounded (.expression power) = mark >>= next := ⟨_, rfl⟩
  rw [run_parse_unbounded (.expression power) haccepts trivial,
    run_parse_unbounded (.expression power) haccepts' trivial, hnext, run_bind,
    run_bind, run_mark, run_mark, skipTrivia_run_skipTrivia]

theorem isTrivia_of_added {after : State} {tree : Tree} {rest : List Tree}
    (hafter : ((unbounded (.expression power)).run state).2 = after)
    (hadded : after.builder.trees.toList =
      (skipTrivia.run state).2.builder.trees.toList ++ tree :: rest) :
    tree.isTrivia = false := by
  have hmark :=
    Builder.accepts_mark ((keeps_skipTrivia state haccepts).accepts haccepts)
  have hreads :=
    keeps_unbounded (.expression power) _ (skipTrivia.run state).2 hmark
  rw [run_expression_skipTrivia haccepts, hafter] at hreads
  obtain ⟨read, hread, hleaves⟩ := hreads.consumed
  rw [Builder.leaves, hadded, Tree.leavesAll_append] at hleaves
  have hsame := List.append_cancel_left hleaves
  cases tree with
  | node => rfl
  | token kind text =>
      rw [Tree.leavesAll, Tree.leaves, List.singleton_append] at hsame
      obtain ⟨token, more, rfl, hleaf, -⟩ := List.map_eq_cons_iff.mp hsame.symm
      rw [tokens_skipTrivia, List.cons_append] at hread
      have hplain := Token.isTrivia_of_dropWhile hread
      have hkind : token.kind = kind := congrArg Prod.fst hleaf
      rwa [Token.isTrivia, hkind] at hplain

theorem toList_trees_expression {added : List Tree} {tree : Tree}
    (hexpr : tree.isExpr = true)
    (hbuilt :
    ((unbounded (.expression power)).run state).2.builder.trees.toList =
      state.builder.trees.toList ++ added)
    (hadded : Tree.withoutTrivia added = [tree]) :
    ((unbounded (.expression power)).run state).2.builder.trees.toList =
      (skipTrivia.run state).2.builder.trees.toList ++ [tree] := by
  have hyield : Yield (Within power) (skipTrivia.run state).2
      ((unbounded (.expression power)).run (skipTrivia.run state).2) :=
    yield_expression ((keeps_skipTrivia state haccepts).accepts haccepts)
  rw [run_expression_skipTrivia haccepts] at hyield
  obtain ⟨trivia, hskipped, htrivia⟩ := exists_trivia_skipTrivia state
  have hlone : ∀ {trees}, state.builder.trees.toList ++ added =
      (skipTrivia.run state).2.builder.trees.toList ++ trees →
      Tree.withoutTrivia trees = [tree] := by
    intro trees hsame
    rw [hskipped, List.append_assoc] at hsame
    rw [List.append_cancel_left hsame, Tree.withoutTrivia_append, htrivia]
      at hadded
    exact hadded
  generalize hresult : (unbounded (.expression power)).run state = result at *
  cases hyield with
  | @nothing after tokens htokens htrees =>
      -- only tokens have been added, and an expression is none
      have hmem : tree ∈ Tree.withoutTrivia tokens := by
        rw [hlone (hbuilt.symm.trans htrees)]
        exact List.mem_singleton_self tree
      have htoken := htokens tree (List.mem_of_mem_filter hmem)
      cases tree with
      | token => cases hexpr
      | node => cases htoken
  | @expression after tokens children kind htokens htrees =>
      rw [List.append_assoc] at htrees
      have hnode := hlone (hbuilt.symm.trans htrees)
      rw [Tree.withoutTrivia_append, Tree.withoutTrivia_node_cons] at hnode
      obtain ⟨hblank, hsame⟩ :=
        List.append_eq_singleton_iff.mp hnode |>.resolve_right (by simp)
      obtain rfl : Tree.node kind children = tree :=
        List.singleton_injective hsame
      have hnone : tokens = [] := by
        cases tokens with
        | nil => rfl
        | cons first rest =>
            have hplain :=
              isTrivia_of_added haccepts (congrArg Prod.snd hresult) htrees
            have hblankFirst :=
              List.filter_eq_nil_iff.mp hblank first List.mem_cons_self
            rw [hplain] at hblankFirst
            exact absurd rfl hblankFirst
      rw [htrees, hnone, List.nil_append]

end

theorem count_eq_zero_of_trivia {state : State}
    (htrivia : ∀ token ∈ state.tokens, token.isTrivia = true) :
    state.count = 0 := by
  rw [State.count, List.length_eq_zero_iff, Token.significant,
    List.filter_eq_nil_iff]
  simpa using htrivia

theorem value_of_parsed {name equal : Token} {rest : List Token} {stop : Nat}
    {document property : List Tree} {tree : Tree}
    (hname : name.leaf = (.identifier, "x"))
    (hequal : equal.leaf = (.equal, "=")) (hexpr : tree.isExpr = true)
    (hparse : parseTokens (name :: equal :: rest) stop =
      { tree := .node .root document, errors := [] })
    (hdocument : Tree.withoutTrivia document = [.node .classProperty property])
    (hproperty : Tree.withoutTrivia property =
      [.token .identifier "x", .token .equal "=", tree]) :
    let state := (named name (equal :: rest) stop).advance
    let after := ((unbounded (.expression 0)).run state).2
    after.errors = [] ∧ after.count = 0 ∧
      after.builder.trees.toList =
        (skipTrivia.run state).2.builder.trees.toList ++ [tree] ∧
      .node .classProperty after.builder.trees.toList ∈ document := by
  intro state after
  have hnameKind : name.kind = .identifier := congrArg Prod.fst hname
  have hequalKind : equal.kind = .equal := congrArg Prod.fst hequal
  have htrivia : equal.isTrivia = false := by
    rw [Token.isTrivia, hequalKind]
    rfl
  let before := named name (equal :: rest) stop
  have hpeek : before.peek? 0 = some .equal := by
    rw [@peek?_of_cons before equal rest rfl htrivia, hequalKind]
  have hafter : ((propertyRest unbounded).run before).2 = after := by
    have htake : (take.run before).2 = (skipTrivia.run before).2.advance := rfl
    rw [run_propertyRest_value hpeek, htake,
      @skipTrivia_of_cons before equal rest rfl htrivia]
  obtain ⟨last, hcompletes, hresult⟩ :=
    parseTokens_named hnameKind (equal :: rest) stop
  rw [hafter] at hcompletes
  obtain ⟨more, hmore, hleft⟩ := hcompletes.built
  rw [hresult] at hparse
  obtain ⟨htree, hnone⟩ := Parse.mk.inj hparse
  obtain ⟨-, rfl⟩ := Tree.node.inj htree
  rw [hmore, Tree.withoutTrivia_node_cons] at hdocument
  obtain ⟨hnode, hblank⟩ := List.cons.inj hdocument
  obtain ⟨-, rfl⟩ := Tree.node.inj hnode
  have haccepts : state.builder.accepts 0 = true := rfl
  obtain ⟨added, hadded⟩ :=
    exists_toList_of_keeps (fun _ => keeps_unbounded (.expression 0) _) haccepts
  have hlone : Tree.withoutTrivia added = [tree] := by
    have hfront : state.builder.trees.toList =
        [.token name.leaf.1 name.leaf.2, .token equal.leaf.1 equal.leaf.2] :=
        rfl
    rw [hname, hequal] at hfront
    change after.builder.trees.toList = _ at hadded
    rw [hadded, Tree.withoutTrivia_append, hfront] at hproperty
    exact List.append_cancel_left hproperty
  refine ⟨hcompletes.errors (List.reverse_eq_nil_iff.mp hnone),
    count_eq_zero_of_trivia ?_,
    toList_trees_expression haccepts hexpr hadded hlone, ?_⟩
  · have htrivia := Tree.isTrivia_of_withoutTrivia hblank
    rwa [hleft, List.forall_mem_map] at htrivia
  · rw [hmore]
    exact List.mem_cons_self

theorem Alone.exists_whole {value : List Leaf} {tree : Tree}
    (halone : Alone value tree) :
    ∃ state : State,
      state.tokens.map Token.leaf = value ∧ IsWhole state tree := by
  obtain ⟨tokens, stop, document, property, hleaves, hparse, hdocument,
    hproperty⟩ := halone.parsed
  obtain ⟨name, tail, rfl, hname, htail⟩ := List.map_eq_cons_iff.mp hleaves
  obtain ⟨equal, rest, rfl, hequal, hrest⟩ := List.map_eq_cons_iff.mp htail
  obtain ⟨herrors, hleft, hbuilt, hmember⟩ :=
    value_of_parsed hname hequal halone.expr hparse hdocument hproperty
  let state : State := (named name (equal :: rest) stop).advance
  let after := ((unbounded (.expression 0)).run state).2
  have hcomplete : tree.Everywhere Node.Complete := by
    have hconforms := conforms_parseTokens _ stop (congrArg Parse.errors hparse)
    rw [hparse] at hconforms
    have hproperty := (Tree.everywhere_node.mp hconforms).2 _ hmember
    have htree : tree ∈ after.builder.trees.toList := by
      rw [hbuilt]
      exact List.mem_append_right _ (List.mem_singleton_self tree)
    exact ((Tree.everywhere_node.mp hproperty).2 tree htree).and halone.closed
  have htokens : ∀ other ∈ (skipTrivia.run state).2.builder.trees.toList,
      other.isToken = true := by
    obtain ⟨trivia, htrivia, hskipped⟩ :=
      state.exists_toList_advanceBy
        (state.tokens.takeWhile Token.isTrivia).length
    change (skipTrivia.run state).2.builder.trees.toList = _ at hskipped
    have hfront : state.builder.trees.toList =
      [.token name.kind name.text, .token equal.kind equal.text] := rfl
    rw [hskipped, hfront]
    exact List.forall_mem_append.mpr ⟨by simp [Tree.isToken], htrivia⟩
  refine ⟨state, hrest, ?_⟩
  exact
    { expr := halone.expr
      started := rfl
      accepts := rfl
      sound := by
        refine ⟨herrors, ?_⟩
        rw [hbuilt]
        refine List.forall_mem_append.mpr ⟨fun other hother => ?_,
          List.forall_mem_singleton.mpr hcomplete⟩
        exact Tree.everywhere_of_isToken (htokens other hother)
      built := hbuilt
      left := hleft }

theorem exists_expressionStart {call : Call} {power : Nat} {state : State}
    (herrors : ((expressionRule call power).run state).2.errors = []) :
    ∃ kind ∈ expressionStarts, state.peek? 0 = some kind := by
  by_contra hnone
  push Not at hnone
  let skipped := (skipTrivia.run state).2
  have hmark : mark.run state = (skipped.builder.mark, skipped) := rfl
  have hcurrent : current?.run skipped = (state.peek? 0, skipped) := by
    rw [← peek?_skipTrivia]
    rfl
  have hstart : (operandStart call).run skipped =
      (none, ((report .expectedExpression).run skipped).2) := by
    rw [operandStart, run_bind, hcurrent]
    dsimp only
    split
    case h_25 => rfl
    all_goals
      rename_i hkind
      exact absurd hkind (hnone _ (by decide))
  rw [expressionRule, run_bind, hmark, run_bind, hstart] at herrors
  cases herrors

def afterName : List Token.Kind :=
  [.equal, .colon, .leftBrace]

section

variable {call : Call} {kind : Token.Kind} {text : String} {rest : List Leaf}
  (hkind : kind ∈ afterName)
include hkind

theorem parses_optionalArguments_of_mem :
    Parses (optionalArguments call) () [] [] ((kind, text) :: rest) := by
  refine parses_of_unchanged fun state hahead => ?_
  have hparen : state.peek? 0 ≠ some .leftParen := by
    rw [peek?_zero_eq, hahead]
    rintro ⟨⟩
    exact absurd hkind (by decide)
  exact run_optionalArguments_of_ne hparen

theorem parses_continuation_of_mem (start power : Nat) :
    Parses (continuation call start power .unqualifiedAccessExpr) none [] []
      ((kind, text) :: rest) := by
  refine parses_of_unchanged fun state hahead => ?_
  have hpeek : state.peek? 0 = some kind := by
    rw [peek?_zero_eq, hahead]
    rfl
  have hget : (get : Parser State).run state = (state, state) := rfl
  have hsuffix : (suffix call start .unqualifiedAccessExpr).run state =
      (none, state) := by
    rw [suffix, run_bind, current?_run, hpeek]
    fin_cases hkind <;> rfl
  have hoperator : Operator.current? state = none := by
    rw [Operator.current?, hpeek]
    fin_cases hkind <;> rfl
  rw [continuation, run_bind, hsuffix]
  dsimp only
  rw [operation, run_bind, hget]
  dsimp only
  rw [hoperator]
  rfl

theorem parses_name (name : String) :
    Parses (expressionRule call 0) (some .unqualifiedAccessExpr)
      [(.identifier, name)]
        [.node .unqualifiedAccessExpr [.token .identifier name]]
          ((kind, text) :: rest) := by
  have hbody : Parses (do take; optionalArguments call) () [(.identifier, name)]
      [.token .identifier name]
      ((kind, text) :: rest) :=
    (parses_take (.identifier, name) _).last
      (parses_optionalArguments_of_mem hkind)
  have hstart : Parses (operandStart call) (some .unqualifiedAccessExpr)
      [(.identifier, name)]
      [.node .unqualifiedAccessExpr [.token .identifier name]]
        ((kind, text) :: rest) :=
    (parses_current? _).look
      ((hbody.node .unqualifiedAccessExpr).last (parses_pure _ _))
  have hloop (start : Nat) :
      Parses (repeatFrom (continuation call start 0) .unqualifiedAccessExpr)
      .unqualifiedAccessExpr [] [] ((kind, text) :: rest) := by
    intro state hahead
    obtain ⟨after, hrun, hafter⟩ :=
      parses_continuation_of_mem hkind start 0 state hahead
    have hturn :
        (repeatFrom (continuation call start 0)
          .unqualifiedAccessExpr).run state =
      (iterate (continuation call start 0) (state.tokens.length + 1)
        .unqualifiedAccessExpr).run state := rfl
    refine ⟨after, ?_, hafter⟩
    rw [hturn, iterate, run_bind, hrun]
    rfl
  have hrest (start : Nat) :
      Parses
        (do return some (← repeatFrom (continuation call start 0) .unqualifiedAccessExpr))
        (some .unqualifiedAccessExpr) [] [] ((kind, text) :: rest) :=
    (hloop start).last (parses_pure (some Node.Kind.unqualifiedAccessExpr) _)
  refine parses_mark_bind fun origin state hbuilds hahead => ?_
  exact (hstart.last (hrest origin.builder.mark)).onto [] origin state
    hbuilds hahead

end

namespace IsWhole

variable {whole : State} {tree : Tree}

theorem exists_start (hwhole : IsWhole whole tree) :
    ∃ kind ∈ expressionStarts, whole.peek? 0 = some kind := by
  have herrors := hwhole.sound.errors
  rw [run_parse_unbounded (.expression 0) hwhole.accepts trivial] at herrors
  exact exists_expressionStart herrors

theorem second (hwhole : IsWhole whole tree)
    (hname : whole.peek? 0 = some .identifier) {kind : Token.Kind}
    (hkind : kind ∈ afterName) : whole.peek? 1 ≠ some kind := by
  intro hnext
  obtain ⟨name, text, rest, hahead⟩ :
      ∃ name text rest,
      whole.ahead = (.identifier, name) :: (kind, text) :: rest := by
    rw [peek?_eq_ahead] at hname hnext
    match hahead : whole.ahead, hname, hnext with
    | (_, name) :: (_, text) :: rest, rfl, rfl => exact ⟨name, text, rest, rfl⟩
  obtain ⟨after, hrun, hafter, -⟩ :=
    @parses_name unbounded kind text rest hkind name whole hahead
  have hrule : (Rule.parse unbounded (.expression 0)).run whole =
      (some .unqualifiedAccessExpr, after) := hrun
  have hleft := hwhole.left
  rw [run_parse_unbounded (.expression 0) hwhole.accepts trivial, hrule]
    at hleft
  have hnone : after.ahead = [] := by
    rw [State.ahead, List.length_eq_zero_iff.mp hleft, List.map_nil]
  rw [hafter] at hnone
  cases hnone

theorem ends (hwhole : IsWhole whole tree) : whole.Ends := by
  have haccepts := hwhole.accepts
  have hmark :=
    Builder.accepts_mark ((keeps_skipTrivia whole haccepts).accepts haccepts)
  have hreads :=
    keeps_unbounded (.expression 0) _ (skipTrivia.run whole).2 hmark
  rw [run_expression_skipTrivia haccepts] at hreads
  obtain ⟨read, htokens, hleaves⟩ := hreads.consumed
  rw [Builder.leaves, hwhole.built, Tree.leavesAll_append] at hleaves
  have hread := List.append_cancel_left hleaves
  have hleft := List.length_eq_zero_iff.mp hwhole.left
  have hsignificant : Token.significant whole.tokens =
      Token.significant read := by
    rw [← Token.significant_dropWhile, ← tokens_skipTrivia, htokens,
      Token.significant, List.filter_append, ← Token.significant,
      ← Token.significant, hleft, List.append_nil]
  have hmember :
      tree ∈
        ((unbounded (.expression 0)).run whole).2.builder.trees.toList := by
    rw [hwhole.built]
    exact List.mem_append_right _ (List.mem_singleton_self tree)
  have hcomplete := hwhole.sound.complete tree hmember
  have hexpr := hwhole.expr
  cases htree : tree with
  | token =>
      rw [htree] at hexpr
      cases hexpr
  | node kind children =>
      rw [htree] at hexpr hread
      have hsolid : kind.isSolid = true := by
        cases kind <;> first | rfl | cases hexpr
      obtain ⟨leaf, hlast, hdot⟩ :=
        Tree.getLast?_significantAll hcomplete htree hsolid
      rw [Tree.leavesAll_node] at hread
      rw [Tree.significantAll, hread, ← Token.map_leaf_significant,
        List.getLast?_map] at hlast
      obtain ⟨token, htoken, rfl⟩ := Option.map_eq_some_iff.mp hlast
      rw [State.Ends, hsignificant, htoken]
      exact fun hsame => hdot (Option.some.inj hsame)

variable {rest : List Token}

theorem run_followed (hwhole : IsWhole whole tree) (hrest : NewLine rest) :
    (unbounded (.expression 0)).run (whole.followed rest) =
      (((unbounded (.expression 0)).run whole).1,
        ((unbounded (.expression 0)).run whole).2.followed rest) := by
  let depth := 2 * (whole.followed rest).count + 2
  have hdepth : 2 * whole.count + 2 ≤ depth := by
    have hcount : whole.count ≤ (whole.followed rest).count := by
      rw [State.count, State.count, State.significant_followed,
        List.length_append]
      exact Nat.le_add_right _ _
    omega
  have hrun :=
    run_unbounded (.expression 0) keeps_overflow hwhole.accepts trivial hdepth
  have hstays := (stays_unroll hrest depth).expression 0 whole.builder.mark
  have haccepts : (whole.followed rest).builder.accepts whole.builder.mark =
      true := hwhole.accepts
  have hsound := hwhole.sound
  rw [hrun] at hsound
  rw [run_unbounded (.expression 0) keeps_overflow haccepts trivial
    (Nat.le_refl depth), hrun]
  exact (hstays.same whole hwhole.accepts trivial hwhole.ends hsound
    (Nat.zero_le _)).1

theorem second_followed (hwhole : IsWhole whole tree)
    (hname : whole.peek? 0 = some .identifier) (hrest : NewLine rest) :
    ∀ next ∈ afterName, (whole.followed rest).peek? 1 ≠ some next := by
  intro next hnext
  have hpos : 0 < whole.count := State.count_pos_of_peek? hname
  by_cases hone : whole.count = 1
  case pos =>
      obtain ⟨kind, hkind, hpeek⟩ := whole.peek?_followed_end hrest
      rw [← hone, hpeek]
      rintro ⟨⟩
      have hapart : ∀ next ∈ afterName, next ∉ lineStarts := by decide
      exact hapart next hnext hkind
  case neg =>
      rw [State.peek?_followed (by omega)]
      exact hwhole.second hname hnext

end IsWhole

theorem map_leaf_skipTrivia (state : State) :
    (skipTrivia.run state).2.tokens.map Token.leaf =
      (state.tokens.map Token.leaf).dropWhile fun leaf => leaf.1.isTrivia := by
  rw [tokens_skipTrivia, List.dropWhile_map]
  rfl

theorem filter_isTrivia {leaves : List Leaf}
    (htrivia : ∀ leaf ∈ leaves, leaf.1.isTrivia = true) :
    leaves.filter (fun leaf => !leaf.1.isTrivia) = [] := by
  refine List.filter_eq_nil_iff.mpr fun leaf hleaf => ?_
  simp [htrivia leaf hleaf]

section

variable {whole state : State} {rest : List Token} {blank : List Leaf}
  (hblank : ∀ leaf ∈ blank, leaf.1.isTrivia = true)
  (htokens : state.tokens.map Token.leaf =
    blank ++ (whole.tokens.map Token.leaf ++ rest.map Token.leaf))
include hblank htokens

theorem peek?_eq_followed (n : Nat) :
    state.peek? n = (whole.followed rest).peek? n := by
  have hahead : state.ahead = (whole.followed rest).ahead := by
    rw [State.ahead, State.ahead, Token.map_leaf_significant,
      Token.map_leaf_significant, htokens, List.filter_append,
      filter_isTrivia hblank, List.nil_append, State.followed, List.map_append]
  rw [peek?_eq_ahead, peek?_eq_ahead, hahead]

theorem IsWhole.run_expression {tree : Tree} (hwhole : IsWhole whole tree)
    (hrest : NewLine rest) (hstarted : state.atStart = false)
    (herrors : state.errors = []) :
    let opened : State :=
      { (skipTrivia.run state).2 with
        builder := (skipTrivia.run state).2.builder.start .objectElement }
    let after := ((unbounded (.expression 0)).run opened).2
    after.atStart = false ∧ after.errors = [] ∧
      after.builder.trees.toList.drop opened.builder.mark = [tree] ∧
      after.tokens.map Token.leaf =
        ((unbounded (.expression 0)).run whole).2.tokens.map Token.leaf ++
          rest.map Token.leaf := by
  intro opened after
  let skipped := (skipTrivia.run state).2
  let alone := (skipTrivia.run (whole.followed rest)).2
  let last := ((unbounded (.expression 0)).run whole).2
  have haccepts : (whole.followed rest).builder.accepts whole.builder.mark =
      true := hwhole.accepts
  have hmark : alone.builder.accepts alone.builder.mark = true :=
    Builder.accepts_mark ((keeps_skipTrivia _ haccepts).accepts haccepts)
  have hopened : opened.builder.accepts opened.builder.mark = true :=
    skipped.builder.accepts_start _
  have hsame : ((unbounded (.expression 0)).run alone).2 =
      last.followed rest := by
    rw [run_expression_skipTrivia haccepts, hwhole.run_followed hrest]
  have haligned : Aligned alone.builder.mark opened.builder.mark alone
      opened := by
    refine ⟨?_, atStart_skipTrivia hwhole.started,
      atStart_skipTrivia hstarted, ?_, ?_⟩
    · have hwhole : (whole.followed rest).tokens.map Token.leaf =
          whole.tokens.map Token.leaf ++ rest.map Token.leaf := List.map_append
      change alone.tokens.map Token.leaf = skipped.tokens.map Token.leaf
      rw [map_leaf_skipTrivia, map_leaf_skipTrivia, hwhole, htokens,
        List.dropWhile_append_of_pos hblank]
    · rw [Builder.drop_mark, Builder.drop_mark]
    · have hnone : opened.errors = [] := (errors_skipTrivia state).trans herrors
      have hnone' : alone.errors = [] := by
        rw [errors_skipTrivia]
        exact (runs_unbounded.rule (.expression 0) whole).errors
          hwhole.sound.errors
      exact iff_of_true hnone' hnone
  have hresult := aligned_expression 0 hmark hopened haligned
  rw [hsame] at hresult
  refine ⟨hresult.started', hresult.errors.mp hwhole.sound.errors, ?_,
    hresult.tokens.symm.trans List.map_append⟩
  have hsome : View.something whole.peek? := by
    obtain ⟨kind, -, hpeek⟩ := hwhole.exists_start
    exact View.something_of_eq hpeek
  have hplace :
      alone.builder.mark =
        (skipTrivia.run whole).2.builder.trees.toList.length := by
    rw [Array.length_toList]
    exact congrArg (fun result => result.2.builder.mark)
      (run_skipTrivia_followed hsome)
  have hlast : (last.followed rest).builder.trees.toList =
    (skipTrivia.run whole).2.builder.trees.toList ++ [tree] := hwhole.built
  rw [← hresult.trees, hlast, hplace, List.drop_left]

/-- Wherever the tokens of an expression stand, an element is made of them. -/
theorem IsWhole.run_objectElement {tree : Tree} (hwhole : IsWhole whole tree)
    (hrest : NewLine rest) (hstarted : state.atStart = false)
    (herrors : state.errors = []) :
    let after := ((objectElement unbounded).run state).2
    after.atStart = false ∧ after.errors = [] ∧
      after.builder.trees.toList =
        (skipTrivia.run state).2.builder.trees.toList ++ [.node .objectElement
          [tree]] ∧
      ∃ left, (∀ leaf ∈ left, leaf.1.isTrivia = true) ∧
        after.tokens.map Token.leaf = left ++ rest.map Token.leaf := by
  intro after
  let skipped := (skipTrivia.run state).2
  let opened : State :=
    { skipped with builder := skipped.builder.start .objectElement }
  let inner := ((unbounded (.expression 0)).run opened).2
  have hafter : after = { inner with builder := inner.builder.finish } := rfl
  have hopened : opened.builder.accepts opened.builder.mark = true :=
    skipped.builder.accepts_start _
  obtain ⟨hstarted', herrors', htree, hleft⟩ :=
    hwhole.run_expression hblank htokens hrest hstarted herrors
  have hreads : opened.Reads opened.builder.mark inner :=
    keeps_unbounded (.expression 0) _ opened hopened
  have hfinished := @toList_trees_enclosed skipped inner .objectElement hreads
  change inner.builder.trees.toList.drop skipped.builder.mark = [tree] at htree
  rw [htree] at hfinished
  rw [hafter]
  refine ⟨hstarted', herrors', hfinished, _, ?_, hleft⟩
  have hzero := hwhole.left
  rw [State.count, List.length_eq_zero_iff, Token.significant,
    List.filter_eq_nil_iff] at hzero
  refine List.forall_mem_map.mpr fun token htoken => ?_
  change token.isTrivia = true
  simpa using hzero token htoken

end

end PklAnalysis.Grammar

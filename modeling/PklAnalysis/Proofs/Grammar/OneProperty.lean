import PklAnalysis.Proofs.Grammar.Aligned
import PklAnalysis.Proofs.Grammar.ArgumentList
import PklAnalysis.Proofs.Grammar.Followed
import PklAnalysis.Proofs.Grammar.OperatorParse

/-!
Modules whose first member is a property, as the parser reads them: the name,
what comes after it, and then the members that are left. What has been built of
the property stays the first child of the root, and an error in it is an error
of the module.
-/

namespace PklAnalysis

namespace Tree

def withoutTrivia (trees : List Tree) : List Tree :=
  trees.filter fun tree => !tree.isTrivia

theorem withoutTrivia_append (left right : List Tree) :
    withoutTrivia (left ++ right) = withoutTrivia left ++ withoutTrivia right :=
  List.filter_append left right

theorem withoutTrivia_node_cons (kind : Node.Kind) (children rest : List Tree) :
    withoutTrivia (.node kind children :: rest) =
      .node kind children :: withoutTrivia rest :=
  List.filter_cons_of_pos rfl

theorem withoutTrivia_of_bareAll {trees : List Tree}
    (hbare : bareAll trees = []) :
    withoutTrivia trees = [] := by
  refine List.filter_eq_nil_iff.mpr fun tree htree => ?_
  obtain ⟨left, right, rfl⟩ := List.append_of_mem htree
  rw [bareAll_append, bareAll] at hbare
  split at hbare
  case isTrue htrivia => simp [htrivia]
  case isFalse => simp at hbare

theorem isTrivia_of_withoutTrivia {trees : List Tree}
    (hnone : withoutTrivia trees = []) :
    ∀ leaf ∈ leavesAll trees, leaf.1.isTrivia = true := by
  induction trees with
  | nil => exact nofun
  | cons tree rest ih =>
      rw [withoutTrivia, List.filter_eq_nil_iff] at hnone
      obtain ⟨htree, hrest⟩ := List.forall_mem_cons.mp hnone
      have hleaves := ih (List.filter_eq_nil_iff.mpr hrest)
      cases tree with
      | token kind text =>
          rw [leavesAll, leaves, List.singleton_append]
          exact List.forall_mem_cons.mpr
            ⟨by simpa [isTrivia] using htree, hleaves⟩
      | node => simp [isTrivia] at htree

end Tree

namespace Parser

theorem exists_trivia_skipTrivia (state : State) : ∃ trivia,
    (skipTrivia.run state).2.builder.trees.toList =
      state.builder.trees.toList ++ trivia ∧
      Tree.withoutTrivia trivia = [] := by
  obtain ⟨trivia, hskipped, hbare⟩ := (builds_skipTrivia state).built
  exact ⟨trivia, hskipped, Tree.withoutTrivia_of_bareAll hbare⟩

section

variable {step : Parser Bool} {state next : State}

theorem exists_toList_repeatWhile (hkeeps : ∀ place, Keeps place step)
    {start : Nat} (haccepts : state.builder.accepts start = true) :
    ∃ more, ((repeatWhile step).run state).2.builder.trees.toList =
      (step.run state).2.builder.trees.toList ++ more := by
  have haccepts' := (hkeeps start state haccepts).accepts haccepts
  rw [run_repeatWhile, iterate, run_bind, run_once]
  cases (step.run state).1 with
  | true =>
      exact Grammar.exists_toList_of_keeps
        (fun place =>
          keeps_iterate (fun _ => (hkeeps place).bind fun _ => keeps_pure _) _
            ()) haccepts'
  | false => exact ⟨[], (List.append_nil _).symm⟩

end

end Parser

namespace Grammar
open PklAnalysis.Parser

variable {state : State} {call : Call} {start : Nat}

/-! Rules without a limit to their depth. -/

theorem run_parse_unbounded (rule : Rule)
    (haccepts : state.builder.accepts start = true)
    (hexpects : rule.expects state.peek?) :
    (unbounded rule).run state = (Rule.parse unbounded rule).run state :=
  (run_parse_of_below rule keeps_unbounded haccepts hexpects fun _ _ _ _ _ _ =>
    rfl).symm

theorem runs_unbounded : unbounded.Runs .all :=
  .of_rules (fun _ => trivial) fun rule state => by
    rw [run_unbounded_eq]
    exact (runs_parseRule .all (fun _ _ _ => trivial) (fun _ => trivial) _).rule
      rule state

theorem run_member (haccepts : state.builder.accepts start = true)
    (hsome : state.current?.isSome = true) :
    (member unbounded).run state =
      ((), ((memberRule unbounded).run state).2) := by
  have hexpects : Rule.member.expects state.peek? := by
    simpa [Rule.expects, View.something, State.peek?, State.current?]
      using hsome
  have hrule : (member unbounded).run state =
      ((), ((unbounded .member).run state).2) := rfl
  rw [hrule, run_parse_unbounded .member haccepts hexpects]
  rfl

/-! Before a name there are no annotations, modifiers or imports, and no module
clause. -/

section

variable (hname : state.peek? 0 = some .identifier)
include hname

theorem run_annotations : (annotations call).run state = ((), state) := by
  rw [annotations]
  apply run_repeatWhile_of_false
  rw [run_bind, run_at?, hname]
  rfl

theorem run_modifiers : modifiers.run state = ((), state) := by
  have hat : atModifier?.run state = ((state.peek? 0).any Token.Kind.isModifier,
      state) := rfl
  rw [modifiers, run_bind, hat, hname]
  rfl

theorem run_imports : (imports call).run state = ((), state) := by
  rw [imports]
  apply run_repeatWhile_of_false
  have hat : (atAny? [.importKw, .importStarKw]).run state =
    ((state.peek? 0).any [.importKw, .importStarKw].contains, state) := rfl
  rw [run_bind, hat, hname]
  rfl

theorem run_headerRest {place count : Nat} :
    (headerRest call place count count).run state = ((), state) := by
  have hat : (atAny? [.amendsKw, .extendsKw]).run state =
    ((state.peek? 0).any [.amendsKw, .extendsKw].contains, state) := rfl
  have hrun : (headerRest call place count count).run state =
      (if count ≠ count then memberRest call place else pure ()).run state := by
    rw [headerRest, run_bind, run_at?, hname]
    dsimp only
    rw [decide_eq_false (by decide), if_neg (by decide), run_bind, hat, hname]
    rfl
  rw [hrun, if_neg (not_not_intro rfl)]
  rfl

theorem run_memberRest {place : Nat} :
    (memberRest call place).run state =
      (property call place .classProperty).run state := by
  rw [memberRest, run_bind, current?_run, hname]

variable (hskipped : skipTrivia.run state = ((), state))
include hskipped

theorem run_moduleHeader : (moduleHeader call).run state = ((), state) := by
  have hmark : mark.run state = (state.builder.mark, state) := by
    rw [mark, run_bind, hskipped]
    rfl
  rw [moduleHeader_eq, run_bind, hmark, counting_run, hskipped]
  dsimp only
  rw [run_bind, run_annotations hname, run_modifiers hname,
    run_headerRest hname]

theorem run_memberRule :
    (memberRule call).run state =
      (property call state.builder.mark .classProperty).run state := by
  have hmark : mark.run state = (state.builder.mark, state) := by
    rw [mark, run_bind, hskipped]
    rfl
  rw [memberRule, run_bind, hmark]
  dsimp only
  rw [run_bind, run_annotations hname, run_bind, run_modifiers hname,
    run_memberRest hname]

end

def propertyRest (call : Call) : Parser Unit := do
  optionalTypeClause call
  if ← accept .equal then
    expression call
  else
    objectBodies call

theorem keeps_propertyRest (hcall : call.Keeps) :
    Keeps start (propertyRest call) := by
  refine .bind (keeps_optionalTypeClause hcall) fun _ =>
    .bind (keeps_accept _) fun found => ?_
  grind

theorem run_optionalTypeClause (hcolon : state.peek? 0 ≠ some .colon) :
    (optionalTypeClause call).run state = ((), state) := by
  rw [optionalTypeClause, run_bind, run_at?, decide_eq_false hcolon]
  rfl

theorem run_propertyRest_value (hequal : state.peek? 0 = some .equal) :
    ((propertyRest call).run state).2 =
      ((call (.expression 0)).run (take.run state).2).2 := by
  have hcolon : state.peek? 0 ≠ some .colon := by
    rw [hequal]
    decide
  have haccept : (accept .equal).run state = (true, (take.run state).2) := by
    rw [run_accept, if_pos hequal]
  rw [propertyRest, run_bind, run_optionalTypeClause hcolon, run_bind, haccept]
  rfl

section

variable (hbrace : state.peek? 0 = some .leftBrace)
include hbrace

theorem run_propertyRest_bodies :
    ((propertyRest call).run state).2 =
      ((repeatWhile (nextBody call)).run state).2 := by
  have hcolon : state.peek? 0 ≠ some .colon := by
    rw [hbrace]
    decide
  have haccept : (accept .equal).run state = (false, state) := by
    rw [run_accept, hbrace]
    rfl
  rw [propertyRest, run_bind, run_optionalTypeClause hcolon, run_bind, haccept]
  rfl

theorem run_nextBody :
    (nextBody call).run state = (true, ((call .objectBody).run state).2) := by
  rw [nextBody, run_bind, run_at?, hbrace]
  rfl

theorem run_propertyRest_body
    (hend : ((call .objectBody).run state).2.peek? 0 ≠ some .leftBrace) :
    ((propertyRest call).run state).2 = ((call .objectBody).run state).2 := by
  have hstop : (nextBody call).run ((call .objectBody).run state).2 =
      (false, ((call .objectBody).run state).2) := by
    rw [nextBody, run_bind, run_at?, decide_eq_false hend]
    rfl
  have hfirst : (nextBody call).run state =
      (true, ((call .objectBody).run state).2) := run_nextBody hbrace
  have hloop := run_repeatWhile_of_true hfirst
  rw [run_iterate_of_unchanged _ hstop] at hloop
  rw [run_propertyRest_bodies hbrace, hloop]

theorem exists_toList_propertyRest (hcall : call.Keeps)
    (haccepts : state.builder.accepts start = true) :
    ∃ more, ((propertyRest call).run state).2.builder.trees.toList =
      ((call .objectBody).run state).2.builder.trees.toList ++ more := by
  have hkeeps : ∀ place, Keeps place (nextBody call) := fun _ => by
    refine .bind (keeps_at? _) fun _ => ?_
    grind
  obtain ⟨more, hmore⟩ := exists_toList_repeatWhile hkeeps haccepts
  refine ⟨more, ?_⟩
  rw [run_propertyRest_bodies hbrace, hmore, run_nextBody hbrace]

end

def opened (tokens : List Token) (stop : Nat) : State :=
  { State.ofTokens tokens stop with builder := Builder.empty.start .root }

def named (name : Token) (tail : List Token) (stop : Nat) : State :=
  { tokens := tail
    atStart := false
    builder :=
      { trees := #[.token name.kind name.text]
        openNodes := [(.classProperty, 0), (.root, 0)]
        inOrder := true }
    errors := []
    stop }

def lastState (tail : List Token) (first : State) : State :=
  (skipTrivia.run
    ((iterate (once (nextMember unbounded)) (tail.length + 1) ()).run
      first).2).2

theorem keeps_lastState {first : State}
    (haccepts : first.builder.accepts start = true) (tail : List Token) :
    first.Reads start (lastState tail first) :=
  (Keeps.bind
    (keeps_iterate (fun _ => (keeps_nextMember keeps_unbounded).bind fun _ =>
      keeps_pure _) _ _)
    fun _ => keeps_skipTrivia) first haccepts

theorem runs_lastState (first : State) (tail : List Token) :
    first.Runs .all (lastState tail first) :=
  (Runs.bind
    (runs_iterate (fun _ => (runs_nextMember runs_unbounded).bind fun _ =>
      runs_pure _) _ _)
    fun _ => runs_skipTrivia) first

theorem parseTokens_of_finalState {tokens : List Token} {stop : Nat}
    {last : State}
    (hfinal : finalState tokens stop =
      { last with builder := last.builder.finish })
    (hopen : last.builder.openNodes = [(.root, 0)]) :
    last.tokens = [] ∧ parseTokens tokens stop =
      { tree := .node .root last.builder.trees.toList,
        errors := last.errors.reverse } := by
  have hbuilt := finalState_built tokens stop
  dsimp only at hbuilt
  rw [hfinal] at hbuilt
  obtain ⟨hend, hinOrder, hopenNodes, children, htrees, -⟩ := hbuilt
  have hsame : children = last.builder.trees.toList := by
    rw [Builder.toList_trees_finish hopen, List.take_zero, List.nil_append,
      List.drop_zero] at htrees
    exact ((Tree.node.inj (List.singleton_injective htrees)).2).symm
  have hparse : parseTokens tokens stop =
      { tree := (finalState tokens stop).builder.result?.getD (.node .root [])
        errors := (finalState tokens stop).errors.reverse } := rfl
  refine ⟨hend, ?_⟩
  rw [hparse, hfinal, Builder.result?_eq_some hinOrder hopenNodes htrees, hsame]
  rfl

theorem lastState_of_count {first : State} (hzero : first.count = 0)
    (tail : List Token) :
    lastState tail first = (skipTrivia.run first).2 := by
  have hcurrent : first.current? = none := by
    have hpeek : first.peek? 0 = none := State.peek?_zero_eq_none_iff.mpr hzero
    simpa [State.peek?, State.current?] using hpeek
  have hstop : (nextMember unbounded).run first = (false, first) :=
    nextMember_run_of_none hcurrent
  rw [lastState, run_iterate_of_unchanged _ hstop]

section

variable {name : Token} (hname : name.kind = .identifier) (tail : List Token)
  (stop : Nat)
include hname

theorem isTrivia_name : name.isTrivia = false := by
  rw [Token.isTrivia, hname]
  rfl

theorem run_property :
    ((property call 0 .classProperty).run (opened (name :: tail) stop)).2 =
      let after := ((propertyRest call).run (named name tail stop)).2
    { after with builder := after.builder.finish } := by
  let before : State :=
    { opened (name :: tail) stop with
      builder := (opened (name :: tail) stop).builder.startAt 0 .classProperty }
  have htake : take.run before = ((), named name tail stop) := by
    rw [run_take,
      @skipTrivia_of_cons before name tail rfl (isTrivia_name hname)]
    rfl
  rw [property, run_nodeAt, run_bind, htake]
  rfl

theorem finalState_named : finalState (name :: tail) stop =
    let after := ((propertyRest unbounded).run (named name tail stop)).2
    let last := lastState tail { after with builder := after.builder.finish }
    { last with builder := last.builder.finish } := by
  let before := opened (name :: tail) stop
  have htrivia := isTrivia_name hname
  have hpeek : before.peek? 0 = some .identifier := by
    rw [@peek?_of_cons before name tail rfl htrivia, hname]
  have hskipped : skipTrivia.run before = ((), before) :=
    @skipTrivia_of_cons before name tail rfl htrivia
  have hsome : before.current?.isSome = true := by
    simp [before, opened, State.ofTokens, State.current?, nth?, htrivia]
  have haccepts : before.builder.accepts 0 = true := rfl
  have hturn : (nextMember unbounded).run before =
      (true, ((property unbounded 0 .classProperty).run before).2) := by
    rw [nextMember_run_of_some hsome, run_member haccepts hsome,
      run_memberRule hpeek hskipped]
    rfl
  have hcontents : (moduleContents unbounded).run before =
      (iterate (once (nextMember unbounded)) (tail.length + 1) ()).run
        ((property unbounded 0 .classProperty).run before).2 := by
    rw [moduleContents, run_bind, run_moduleHeader hpeek hskipped, run_bind,
      run_imports hpeek]
    exact run_repeatWhile_of_true hturn
  have hopened : { State.ofTokens (name :: tail) stop with
    builder := (State.ofTokens (name :: tail) stop).builder.start .root } =
      before := rfl
  rw [← run_moduleRule_unbounded, moduleRule, run_enclose, run_bind, hopened,
    hcontents, run_property hname]
  rfl

end

/-- How a module ends that began with a property: `after` is the state at the
end of the property, `last` the one at the end of the text. -/
structure Completes (after last : State) : Prop where
  errors : last.errors = [] → after.errors = []
  built : ∃ more,
    last.builder.trees.toList =
      .node .classProperty after.builder.trees.toList :: more ∧
    Tree.leavesAll more = after.tokens.map Token.leaf
  alone : after.count = 0 → last.errors = after.errors ∧ ∃ trivia,
    Tree.withoutTrivia trivia = [] ∧
    last.builder.trees.toList =
      .node .classProperty after.builder.trees.toList :: trivia

theorem parseTokens_named {name : Token} (hname : name.kind = .identifier)
    (tail : List Token) (stop : Nat) : ∃ last,
      Completes ((propertyRest unbounded).run (named name tail stop)).2 last ∧
      parseTokens (name :: tail) stop =
        { tree := .node .root last.builder.trees.toList,
          errors := last.errors.reverse } := by
  have hreads :
      (named name tail stop).Reads 0
        ((propertyRest unbounded).run (named name tail stop)).2 :=
    keeps_propertyRest keeps_unbounded _ rfl
  have hfinal := finalState_named hname tail stop
  have hopen :
      ((propertyRest unbounded).run
        (named name tail stop)).2.builder.openNodes =
      [(.classProperty, 0), (.root, 0)] := hreads.openNodes
  dsimp only at hfinal
  generalize ((propertyRest unbounded).run (named name tail stop)).2 =
    after at hfinal hopen ⊢
  generalize hbuilder :
    ({ after with builder := after.builder.finish } : State) = first at hfinal
  have htokens : first.tokens = after.tokens := by rw [← hbuilder]
  have herrors : first.errors = after.errors := by rw [← hbuilder]
  have hfirst : first.builder.trees.toList =
      [.node .classProperty after.builder.trees.toList] := by
    rw [← hbuilder, Builder.toList_trees_finish hopen, List.take_zero,
      List.nil_append, List.drop_zero]
  have hroot : first.builder.openNodes = [(.root, 0)] := by
    rw [← hbuilder, Builder.openNodes_finish hopen]
  have haccepts : first.builder.accepts 1 = true := by
    rw [Builder.accepts_iff, Builder.floor, hroot, ← Array.length_toList,
      hfirst]
    exact ⟨Nat.zero_le 1, Nat.le_refl 1⟩
  have hlast : first.Reads 1 (lastState tail first) :=
    keeps_lastState haccepts tail
  have hkeeps := (runs_lastState first tail).errors
  have hskip : first.count = 0 →
      lastState tail first = (skipTrivia.run first).2 := fun hzero =>
    @lastState_of_count first hzero tail
  generalize lastState tail first = last at hfinal hlast hkeeps hskip
  obtain ⟨hend, hparse⟩ :=
    parseTokens_of_finalState hfinal (hlast.openNodes.trans hroot)
  have hkept : last.builder.trees.toList =
      .node .classProperty after.builder.trees.toList ::
        last.builder.trees.toList.drop 1 := by
    have hsplit := List.take_append_drop 1 last.builder.trees.toList
    rw [hlast.kept, hfirst] at hsplit
    exact hsplit.symm
  refine ⟨last, ⟨herrors ▸ hkeeps, ⟨_, hkept, ?_⟩, fun hzero => ?_⟩, hparse⟩
  · obtain ⟨read, hread, hleaves⟩ := hlast.consumed
    rw [hend, List.append_nil, htokens] at hread
    rw [Builder.leaves, Builder.leaves, hkept, hfirst, ← List.singleton_append,
      Tree.leavesAll_append] at hleaves
    rw [hread]
    exact List.append_cancel_left hleaves
  · obtain ⟨trivia, hadded, htrivia⟩ := exists_trivia_skipTrivia first
    rw [hskip (by rwa [State.count, htokens]), ← herrors]
    refine ⟨errors_skipTrivia first, trivia, htrivia, ?_⟩
    rw [hadded, hfirst, List.singleton_append]

end Grammar

end PklAnalysis

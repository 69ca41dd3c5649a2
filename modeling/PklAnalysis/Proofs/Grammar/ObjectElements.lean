import PklAnalysis.Proofs.Grammar.ElementLines

/-!
Objects whose lines are expressions, as the parser reads them: each line becomes
an element, unless the object seems to begin with parameters. For these it looks
for an arrow behind names and tokens of types, over the ends of lines and past
parentheses; so an arrow within one of the first lines, as in `f((b) -> b)` or
in `(b) -> b` behind a line with a name, turns the first line into a parameter.
-/

namespace PklAnalysis.Grammar
open PklAnalysis.Parser

variable {call : Call} {state : State} {start : Nat}

def closingMembers (call : Call) : Parser Unit := do
  repeatWhile (nextObjectMember call)
  let _ ← expect .rightBrace

def bodyContents (call : Call) (parameters : Bool) : Parser Unit := do
  if parameters then
    bodyParameters call
  closingMembers call

theorem keeps_closingMembers (hcall : call.Keeps) (start : Nat) :
    Keeps start (closingMembers call) := by
  refine .bind (keeps_repeatWhile ?_) fun _ => .bind (keeps_expect _) fun _ =>
    keeps_pure _
  refine .bind keeps_atEnd? fun _ => .bind (keeps_at? _) fun _ => ?_
  grind

theorem keeps_bodyContents (hcall : call.Keeps) (parameters : Bool)
    (start : Nat) :
    Keeps start (bodyContents call parameters) := by
  rw [bodyContents]
  split
  case isTrue =>
      exact .bind (keeps_bodyParameters hcall) fun _ =>
        keeps_closingMembers hcall start
  case isFalse => exact keeps_closingMembers hcall start

theorem parametersAhead_congr {state state' : State}
    (htokens : state.tokens = state'.tokens) :
    parametersAhead state = parametersAhead state' := by
  rw [parametersAhead, parametersAhead, State.peek?, State.peek?, htokens]

theorem run_objectBodyRule {parameters : Bool}
    (hparameters : parametersAhead (take.run state).2 = parameters) :
    let skipped := (skipTrivia.run state).2
    let opened : State :=
      { skipped with builder := skipped.builder.start .objectBody }
    let inner := ((bodyContents call parameters).run (take.run opened).2).2
    ((objectBodyRule call).run state).2 = { inner with
      builder := inner.builder.finish } := by
  intro skipped opened inner
  let taken := (take.run opened).2
  have htokens : taken.tokens = (take.run state).2.tokens := by
    have hopened : opened.tokens = state.tokens.dropWhile Token.isTrivia :=
      tokens_skipTrivia state
    rw [tokens_take, tokens_take, hopened, List.dropWhile_idempotent]
  let contents : Parser Unit :=
    take >>= fun _ => atBodyParameters? >>= bodyContents call
  have hcontents : (contents.run opened).2 = inner := by
    have hrun : contents.run opened =
        (bodyContents call (atBodyParameters?.run taken).1).run
          (atBodyParameters?.run taken).2 := rfl
    rw [hrun, run_atBodyParameters?, parametersAhead_congr htokens, hparameters]
  have hnode : ((objectBodyRule call).run state).2 =
      { (contents.run opened).2 with
        builder := (contents.run opened).2.builder.finish } := rfl
  rw [hnode, hcontents]

theorem run_objectBody (haccepts : state.builder.accepts start = true)
    (hbrace : state.peek? 0 = some .leftBrace) :
    ((unbounded .objectBody).run state).2 =
      ((objectBodyRule unbounded).run state).2 := by
  have hknown : View.known state.peek? := ⟨.leftBrace, hbrace, by decide⟩
  rw [run_parse_unbounded .objectBody haccepts hknown]
  rfl

theorem Midway.closingMembers {origin : State} {added : List Tree}
    {lines : List Line} {last after : List Leaf} (hlast : IsBreak last)
    (horigin : origin.builder.accepts origin.builder.mark = true)
    (hmidway : Midway origin added (bodyLeaves lines last after) state) :
    Midway origin
      (added ++ lines.map Line.element ++ [.token .rightBrace "\x7d"]) after
      ((closingMembers unbounded).run state).2 := by
  have hlimit : lines.length ≤ state.tokens.length + 1 := by
    obtain ⟨blank, -, htokens⟩ := hmidway.left
    have hlength := congrArg List.length htokens
    rw [List.length_map, List.length_append] at hlength
    have hle := length_le_bodyLeaves lines last after
    omega
  obtain ⟨middle, hrun, hmiddle⟩ := hmidway.lines hlast horigin hlimit
  have hloop : (repeatWhile (nextObjectMember unbounded)).run state =
      ((), middle) := hrun
  have hbrace : middle.peek? 0 = some .rightBrace :=
    hmiddle.peek?_zero hlast.trivia rfl
  have hexpect : ((expect .rightBrace).run middle).2 = (take.run middle).2 := by
    rw [expect, run_bind, run_accept, if_pos hbrace]
    rfl
  have hclosed : ((Grammar.closingMembers unbounded).run state).2 =
      ((expect .rightBrace).run middle).2 := by
    rw [Grammar.closingMembers, run_bind, hloop]
    rfl
  rw [hclosed, hexpect]
  exact hmiddle.token hlast.trivia rfl horigin

/-- Wherever an object with lines of expressions stands, without parameters
ahead each line becomes an element. -/
theorem objectBody_lines {blank : List Leaf} {lines : List Line}
    {last after : List Leaf} (haccepts : state.builder.accepts start = true)
    (hstarted : state.atStart = false) (herrors : state.errors = [])
    (hblank : ∀ leaf ∈ blank, leaf.1.isTrivia = true)
    (htokens : state.tokens.map Token.leaf =
      blank ++ (.leftBrace, "\x7b") :: bodyLeaves lines last after)
    (hlast : IsBreak last)
    (hnone : parametersAhead (take.run state).2 = false) :
    let final := ((unbounded .objectBody).run state).2
    final.errors = [] ∧
      (∃ left, (∀ leaf ∈ left, leaf.1.isTrivia = true) ∧
        final.tokens.map Token.leaf = left ++ after) ∧
      ∃ members, final.builder.trees.toList =
          (skipTrivia.run state).2.builder.trees.toList ++ [.node .objectBody
            members] ∧
        Tree.withoutTrivia members =
          .token .leftBrace "\x7b" ::
            (lines.map Line.element ++ [.token .rightBrace "\x7d"]) := by
  intro final
  let skipped := (skipTrivia.run state).2
  let opened : State :=
    { skipped with builder := skipped.builder.start .objectBody }
  have hopened : opened.builder.accepts opened.builder.mark = true :=
    skipped.builder.accepts_start _
  have hleaves : skipped.tokens.map Token.leaf =
      (.leftBrace, "\x7b") :: bodyLeaves lines last after := by
    rw [map_leaf_skipTrivia, htokens, List.dropWhile_append_of_pos hblank]
    exact List.dropWhile_cons_of_neg Bool.false_ne_true
  have hstart :
      Midway opened []
        ([] ++ (.leftBrace, "\x7b") :: bodyLeaves lines last after) opened :=
    .start (atStart_skipTrivia hstarted)
      ((errors_skipTrivia state).trans herrors) hleaves
  have hbrace : state.peek? 0 = some .leftBrace := by
    rw [← peek?_skipTrivia]
    exact hstart.peek?_zero nofun rfl
  have hrun := @run_objectBodyRule unbounded state _ hnone
  rw [← run_objectBody haccepts hbrace, bodyContents, if_neg Bool.false_ne_true]
    at hrun
  have hread := (hstart.token nofun rfl hopened).closingMembers hlast hopened
  dsimp only at hrun
  generalize ((closingMembers unbounded).run (take.run opened).2).2 =
    inner at hrun hread
  change final = _ at hrun
  rw [hrun]
  refine ⟨hread.errors, hread.left, _,
    @toList_trees_enclosed skipped inner .objectBody hread.reads, ?_⟩
  change Tree.withoutTrivia (inner.builder.trees.toList.drop
    opened.builder.mark) = _
  rw [hread.built, List.nil_append, List.singleton_append, List.cons_append]

theorem gains_of_keeps {parser : Parser α}
    (hkeeps : ∀ place, Keeps place parser)
    (haccepts : state.builder.accepts start = true) :
    ∃ word, state.Gains (parser.run state).2 word := by
  obtain ⟨added, hadded⟩ := exists_toList_of_keeps hkeeps haccepts
  exact ⟨_, added, hadded, rfl⟩

theorem gains_bodyParameters (hcall : call.Keeps)
    (haccepts : state.builder.accepts start = true) :
    ∃ word,
      state.Gains ((bodyParameters call).run state).2
        (.node .parameter :: word) := by
  have hkeeps : ∀ place, Keeps place (nextBodyParameter call) := fun _ =>
    .bind (keeps_parameter hcall) fun _ => keeps_accept _
  have hturn : ((nextBodyParameter call).run state).2 =
    ((accept .comma).run ((parameter call).run state).2).2 := rfl
  have hparameter : state.Gains ((parameter call).run state).2
      [.node .parameter] :=
    gains_node .parameter (by grind) state
  have hfirst :=
    hparameter.trans (gains_accept .comma ((parameter call).run state).2)
  obtain ⟨more, hmore⟩ := exists_toList_repeatWhile hkeeps haccepts
  rw [hturn] at hmore
  have hloop :=
    (keeps_repeatWhile (hkeeps start) state haccepts).accepts haccepts
  obtain ⟨word, hrest⟩ := gains_of_keeps (fun _ => keeps_expect .arrow) hloop
  have hsplit : bodyParameters call =
    repeatWhile (nextBodyParameter call) >>= fun _ => expect .arrow >>= fun _ =>
      pure () := rfl
  rw [hsplit, run_bind, run_bind]
  exact ⟨_, hfirst.trans (State.Gains.trans ⟨more, hmore, rfl⟩ hrest)⟩

theorem gains_bodyContents (hcall : call.Keeps)
    (haccepts : state.builder.accepts start = true) :
    ∃ word,
      state.Gains ((bodyContents call true).run state).2
        (.node .parameter :: word) := by
  have haccepts' := (keeps_bodyParameters hcall state haccepts).accepts haccepts
  obtain ⟨word, hparameters⟩ := gains_bodyParameters hcall haccepts
  obtain ⟨word', hmembers⟩ :=
    gains_of_keeps (keeps_closingMembers hcall) haccepts'
  rw [bodyContents, if_pos rfl, run_bind]
  exact ⟨word ++ word', hparameters.trans hmembers⟩

theorem exists_parameter (hcall : call.Keeps)
    (hbrace : state.peek? 0 = some .leftBrace)
    (hahead : parametersAhead (take.run state).2 = true) :
    ∃ members word, ((objectBodyRule call).run state).2.builder.trees.toList =
        (skipTrivia.run state).2.builder.trees.toList ++
          [.node .objectBody members] ∧
      Tree.symbols members = .token .leftBrace :: .node .parameter :: word := by
  let skipped := (skipTrivia.run state).2
  let opened : State :=
    { skipped with builder := skipped.builder.start .objectBody }
  let taken := (take.run opened).2
  have hopened : opened.builder.accepts opened.builder.mark = true :=
    skipped.builder.accepts_start _
  have htake := keeps_take opened hopened
  have htaken := htake.accepts hopened
  have hrun := @run_objectBodyRule call state _ hahead
  obtain ⟨word, hcontents⟩ := gains_bodyContents hcall htaken
  have hreads := htake.trans (keeps_bodyContents hcall true _ taken htaken)
  have hfirst : opened.peek? 0 = some .leftBrace := by
    rw [← peek?_skipTrivia] at hbrace
    exact hbrace
  dsimp only at hrun
  generalize ((bodyContents call true).run (take.run opened).2).2 =
    inner at hrun hcontents hreads
  obtain ⟨added, hadded, hword⟩ := (gains_take hfirst).trans hcontents
  have hmark : skipped.builder.mark = skipped.builder.trees.toList.length :=
    Array.length_toList.symm
  have hbuilt : inner.builder.trees.toList.drop skipped.builder.mark =
      added := by
    rw [hadded, hmark]
    exact List.drop_left
  rw [← hbuilt] at hword
  rw [hrun]
  exact ⟨_, word, @toList_trees_enclosed skipped inner .objectBody hreads,
    hword⟩

/-- What parsing gives of a property with a body of which each line is an
element, and nothing else: no error, and these elements in order. -/
def Separate (lines : List Line) (result : Parse) : Prop :=
  ∃ document property members,
    result = { tree := .node .root document, errors := [] } ∧
    Tree.withoutTrivia document = [.node .classProperty property] ∧
    Tree.withoutTrivia property = [.token .identifier "x",
      .node .objectBody members] ∧
    Tree.withoutTrivia members =
      .token .leftBrace "\x7b" ::
        (lines.map Line.element ++ [.token .rightBrace "\x7d"])

section

variable {name brace : Token} {blank body : List Token} {stop : Nat}
  (hname : name.leaf = (.identifier, "x"))
  (hblank : ∀ token ∈ blank, token.isTrivia = true)
  (hbrace : brace.leaf = (.leftBrace, "\x7b"))
include hblank hbrace

theorem named_brace :
    let before := named name (blank ++ brace :: body) stop
    before.peek? 0 = some .leftBrace ∧
      parametersAhead (take.run before).2 =
        parametersAhead (.ofTokens body stop) := by
  intro before
  have hkind : brace.kind = .leftBrace := congrArg Prod.fst hbrace
  have htrivia : brace.isTrivia = false := by
    rw [Token.isTrivia, hkind]
    rfl
  have htokens : (skipTrivia.run before).2.tokens = brace :: body := by
    have hbefore : before.tokens = blank ++ brace :: body := rfl
    rw [tokens_skipTrivia, hbefore, List.dropWhile_append_of_pos hblank,
      List.dropWhile_cons_of_neg (by simp [htrivia])]
  refine ⟨?_, parametersAhead_congr ?_⟩
  · rw [← peek?_skipTrivia, peek?_of_cons htokens htrivia, hkind]
  · rw [tokens_take, ← tokens_skipTrivia, htokens]
    rfl

include hname

theorem separate_of_no_parameters {lines : List Line} {last after : List Leaf}
    (hbody : body.map Token.leaf = bodyLeaves lines last after)
    (hlast : IsBreak last) (hafter : ∀ leaf ∈ after, leaf.1.isTrivia = true)
    (hnone : parametersAhead (.ofTokens body stop) = false) :
    Separate lines (parseTokens (name :: (blank ++ brace :: body)) stop) := by
  let before := named name (blank ++ brace :: body) stop
  obtain ⟨hpeek, hahead⟩ :=
    @named_brace name brace blank body stop hblank hbrace
  have hkind : name.kind = .identifier := congrArg Prod.fst hname
  have haccepts : before.builder.accepts 0 = true := rfl
  have htokens : before.tokens.map Token.leaf =
      blank.map Token.leaf ++ (.leftBrace, "\x7b") ::
        bodyLeaves lines last after := by
    have hbefore : before.tokens = blank ++ brace :: body := rfl
    rw [hbefore, List.map_append, List.map_cons, hbrace, hbody]
  obtain ⟨herrors, ⟨left, hleft, hend⟩, members, htrees, hmembers⟩ :=
    objectBody_lines haccepts rfl rfl (List.forall_mem_map.mpr hblank) htokens
      hlast (hahead.trans hnone)
  have hcount : ((unbounded .objectBody).run before).2.count = 0 := by
    have htrivia := List.forall_mem_append.mpr ⟨hleft, hafter⟩
    rw [← hend, List.forall_mem_map] at htrivia
    exact count_eq_zero_of_trivia htrivia
  have hstop : ((unbounded .objectBody).run before).2.peek? 0 ≠
      some .leftBrace := by
    rw [State.peek?_zero_eq_none_iff.mpr hcount]
    nofun
  obtain ⟨final, hcompletes, hparse⟩ :=
    parseTokens_named hkind (blank ++ brace :: body) stop
  rw [run_propertyRest_body hpeek hstop] at hcompletes
  obtain ⟨herrors', more, hmore, hfinal⟩ := hcompletes.alone hcount
  refine ⟨final.builder.trees.toList,
    ((unbounded .objectBody).run before).2.builder.trees.toList, members,
    ?_, ?_, ?_, hmembers⟩
  · rw [hparse, herrors', herrors]
    rfl
  · rw [hfinal, Tree.withoutTrivia_node_cons, hmore]
  · obtain ⟨trivia, hskipped, htrivia⟩ := exists_trivia_skipTrivia before
    have hbefore : before.builder.trees.toList =
        [.token name.leaf.1 name.leaf.2] := rfl
    rw [htrees, hskipped, Tree.withoutTrivia_append, Tree.withoutTrivia_append,
      htrivia, hbefore, hname]
    rfl

theorem no_parameters_of_separate {lines : List Line}
    (hseparate : Separate lines
      (parseTokens (name :: (blank ++ brace :: body)) stop)) :
    parametersAhead (.ofTokens body stop) = false := by
  by_contra hsome
  let before := named name (blank ++ brace :: body) stop
  obtain ⟨hpeek, hahead⟩ :=
    @named_brace name brace blank body stop hblank hbrace
  have hkind : name.kind = .identifier := congrArg Prod.fst hname
  have haccepts : before.builder.accepts 0 = true := rfl
  obtain ⟨found, word, htrees, hword⟩ := exists_parameter keeps_unbounded hpeek
    (hahead.trans (Bool.eq_true_of_not_eq_false hsome))
  obtain ⟨more, hmore⟩ :=
    exists_toList_propertyRest hpeek keeps_unbounded haccepts
  rw [run_objectBody haccepts hpeek, htrees] at hmore
  obtain ⟨final, hcompletes, hparse⟩ :=
    parseTokens_named hkind (blank ++ brace :: body) stop
  obtain ⟨rest, hfinal, -⟩ := hcompletes.built
  obtain ⟨document, property, members, hresult, hdocument, hproperty,
    hmembers⟩ := hseparate
  rw [hparse] at hresult
  obtain ⟨htree, -⟩ := Parse.mk.inj hresult
  obtain ⟨-, rfl⟩ := Tree.node.inj htree
  rw [hfinal, Tree.withoutTrivia_node_cons] at hdocument
  obtain ⟨hnode, -⟩ := List.cons.inj hdocument
  obtain ⟨-, rfl⟩ := Tree.node.inj hnode
  have hfound : found = members := by
    obtain ⟨trivia, hskipped, htrivia⟩ := exists_trivia_skipTrivia before
    have hbefore : before.builder.trees.toList =
        [.token name.leaf.1 name.leaf.2] := rfl
    rw [hmore, hskipped, Tree.withoutTrivia_append, Tree.withoutTrivia_append,
      Tree.withoutTrivia_append, htrivia, hbefore, hname] at hproperty
    obtain ⟨hbody, -⟩ := List.cons.inj (List.cons.inj hproperty).2
    exact (Tree.node.inj hbody).2
  -- the second child is a parameter, but the elements and the brace are none
  have hsecond : (Tree.withoutTrivia members).map Tree.symbol =
      .token .leftBrace :: .node .parameter :: word := by
    rw [← hfound]
    exact hword
  rw [hmembers] at hsecond
  cases lines with
  | nil => simp [Tree.symbol] at hsecond
  | cons line others => simp [Tree.symbol, Line.element] at hsecond

end

/-- Expressions on lines of their own stay apart in an object exactly if the
parser finds no arrow behind names and tokens of types at its beginning. -/
theorem separate_iff {name brace : Token} {blank body : List Token} {stop : Nat}
    {lines : List Line} {last after : List Leaf}
    (hname : name.leaf = (.identifier, "x"))
    (hblank : ∀ token ∈ blank, token.isTrivia = true)
    (hbrace : brace.leaf = (.leftBrace, "\x7b"))
    (hbody : body.map Token.leaf = bodyLeaves lines last after)
    (hlast : IsBreak last) (hafter : ∀ leaf ∈ after, leaf.1.isTrivia = true) :
    Separate lines (parseTokens (name :: (blank ++ brace :: body)) stop) ↔
      parametersAhead (.ofTokens body stop) = false :=
  ⟨no_parameters_of_separate hname hblank hbrace,
    separate_of_no_parameters hname hblank hbrace hbody hlast hafter⟩

/-- A function literal before a name, and behind it. -/
theorem separate_iff_functionLiteral : ∃ plain function : Line,
    plain.value = [(.identifier, "a")] ∧
    function.value =
      [(.leftParen, "("), (.identifier, "b"), (.rightParen, ")"),
        (.arrow, "->"), (.identifier, "b")] ∧
    Separate [function, plain]
      (parseTokens
        [⟨.identifier, "x", 0⟩, ⟨.whitespace, " ", 1⟩, ⟨.leftBrace, "\x7b", 2⟩,
        ⟨.whitespace, "\n", 3⟩, ⟨.leftParen, "(", 4⟩, ⟨.identifier, "b", 5⟩,
        ⟨.rightParen, ")", 6⟩, ⟨.arrow, "->", 7⟩, ⟨.identifier, "b", 9⟩,
        ⟨.whitespace, "\n", 10⟩, ⟨.identifier, "a", 11⟩,
          ⟨.whitespace, "\n", 12⟩, ⟨.rightBrace, "\x7d", 13⟩,
            ⟨.whitespace, "\n", 14⟩] 15) ∧
    ¬Separate [plain, function]
      (parseTokens
        [⟨.identifier, "x", 0⟩, ⟨.whitespace, " ", 1⟩, ⟨.leftBrace, "\x7b", 2⟩,
        ⟨.whitespace, "\n", 3⟩, ⟨.identifier, "a", 4⟩, ⟨.whitespace, "\n", 5⟩,
        ⟨.leftParen, "(", 6⟩, ⟨.identifier, "b", 7⟩, ⟨.rightParen, ")", 8⟩,
        ⟨.arrow, "->", 9⟩, ⟨.identifier, "b", 11⟩, ⟨.whitespace, "\n", 12⟩,
          ⟨.rightBrace, "\x7d", 13⟩, ⟨.whitespace, "\n", 14⟩] 15) := by
  have hplain :
      Alone [(.identifier, "a")]
        (.node .unqualifiedAccessExpr [.token .identifier "a"]) := by
    refine ⟨⟨[⟨.identifier, "x", 0⟩, ⟨.equal, "=", 1⟩, ⟨.identifier, "a", 2⟩],
      3, _, _, rfl, rfl, rfl, rfl⟩, rfl, ?_⟩
    simp [Tree.everywhere_node, Tree.Everywhere.token, Node.Closed,
      Node.delimiters]
  have hfunction : Alone
      [(.leftParen, "("), (.identifier, "b"), (.rightParen, ")"),
        (.arrow, "->"), (.identifier, "b")]
      (.node .functionLiteral
        [.node .parameterList [.token .leftParen "(",
          .node .parameter [.node .typedIdentifier [.token .identifier "b"]],
            .token .rightParen ")"],
         .token .arrow "->",
           .node .unqualifiedAccessExpr [.token .identifier "b"]]) := by
    refine
      ⟨⟨[⟨.identifier, "x", 0⟩, ⟨.equal, "=", 1⟩, ⟨.leftParen, "(", 2⟩,
        ⟨.identifier, "b", 3⟩,
      ⟨.rightParen, ")", 4⟩, ⟨.arrow, "->", 5⟩, ⟨.identifier, "b", 7⟩], 8, _, _,
        rfl, rfl, rfl, rfl⟩, rfl, ?_⟩
    simp [Tree.everywhere_node, Tree.Everywhere.token, Node.Closed,
      Node.delimiters]
  have hbreak : IsBreak [(.whitespace, "\n")] := ⟨by decide, by decide⟩
  have hblank : ∀ token ∈ [Token.mk .whitespace " " 1],
      token.isTrivia = true := by decide
  have hafter : ∀ leaf ∈ [(Token.Kind.whitespace, "\n")],
      leaf.1.isTrivia = true := by decide
  refine ⟨⟨_, _, _, hbreak, hplain⟩, ⟨_, _, _, hbreak, hfunction⟩, rfl, rfl,
    (separate_iff rfl hblank rfl rfl hbreak hafter).mpr rfl,
      fun hseparate => ?_⟩
  cases (separate_iff rfl hblank rfl rfl hbreak hafter).mp hseparate

end PklAnalysis.Grammar

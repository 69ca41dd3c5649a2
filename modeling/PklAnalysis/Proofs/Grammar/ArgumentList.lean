import PklAnalysis.Proofs.Grammar.BindingPower
import PklAnalysis.Proofs.Grammar.Parses

/-!
Argument lists, those of malformed texts included. In a turn of the loop over
the arguments one expression is read, and at most one comma after it. So no
comma comes first, and no two commas come without an argument between them; but
two arguments may come without a comma.
-/

namespace PklAnalysis

/-- Whether every comma comes after an argument that no other comma comes after.
There is such an argument before the symbols if `pending`. -/
def Symbol.commasFollow (pending : Bool) : List Symbol → Bool
  | [] => true
  | symbol :: rest =>
      if symbol = .token .comma then pending && commasFollow false rest
      else commasFollow (pending || symbol.isNode Node.Kind.isExpr) rest

namespace Symbol

variable {word left right : List Symbol}

theorem commasFollow_of_false (hword : commasFollow false word = true)
    (pending : Bool) :
    commasFollow pending word = true := by
  induction word with
  | nil => rfl
  | cons symbol rest ih =>
      rw [commasFollow] at hword ⊢
      split at hword
      case isTrue => cases hword
      case isFalse hcomma =>
          rw [if_neg hcomma]
          cases hargument : symbol.isNode Node.Kind.isExpr with
          | true =>
              rw [hargument] at hword
              rwa [Bool.or_true]
          | false =>
              rw [hargument] at hword
              rw [Bool.or_false]
              exact ih hword

theorem commasFollow_append {pending : Bool}
    (hleft : commasFollow pending left = true)
    (hright : commasFollow false right = true) :
    commasFollow pending (left ++ right) = true := by
  induction left generalizing pending with
  | nil => exact commasFollow_of_false hright pending
  | cons symbol rest ih =>
      rw [commasFollow] at hleft
      rw [List.cons_append, commasFollow]
      split at hleft
      case isTrue hcomma =>
          rw [Bool.and_eq_true] at hleft
          rw [if_pos hcomma, hleft.1, Bool.true_and]
          exact ih hleft.2
      case isFalse hcomma =>
          rw [if_neg hcomma]
          exact ih hleft

end Symbol

/-- In an argument list every comma comes after an argument of its own. -/
def Tree.CommasFollow (kind : Node.Kind) (children : List Tree) : Prop :=
  kind = .argumentList → Symbol.commasFollow false (symbols children) = true

theorem Builder.accepts_start (builder : Builder) (kind : Node.Kind) :
    (builder.start kind).accepts builder.mark = true :=
  accepts_iff.mpr ⟨Nat.le_refl _, Nat.le_refl _⟩

namespace Parser

/-! What is added to a tree. -/

variable {before middle after state : State} {word word' : List Symbol}

def State.Gains (before after : State) (word : List Symbol) : Prop :=
  ∃ added, after.builder.trees.toList = before.builder.trees.toList ++ added ∧
    Tree.symbols added = word

namespace State.Gains

theorem refl (state : State) : state.Gains state [] :=
  ⟨[], (List.append_nil _).symm, rfl⟩

theorem trans (hleft : before.Gains middle word)
    (hright : middle.Gains after word') :
    before.Gains after (word ++ word') := by
  obtain ⟨added, hadded, rfl⟩ := hleft
  obtain ⟨added', hadded', rfl⟩ := hright
  exact ⟨added ++ added', by rw [hadded', hadded, List.append_assoc],
    Tree.symbols_append _ _⟩

theorem of_builds {trees : List Tree} (hbuilds : before.Builds after trees) :
    before.Gains after (Tree.symbols trees) := by
  obtain ⟨added, hadded, rfl⟩ := hbuilds.built
  exact ⟨added, hadded, (Tree.symbols_bareAll added).symm⟩

end State.Gains

theorem gains_skipTrivia (state : State) :
    state.Gains (skipTrivia.run state).2 [] :=
  .of_builds (builds_skipTrivia state)

theorem gains_take {kind : Token.Kind} (hkind : state.peek? 0 = some kind) :
    state.Gains (take.run state).2 [.token kind] := by
  rw [peek?_zero_eq] at hkind
  obtain ⟨leaf, hleaf, rfl⟩ := Option.map_eq_some_iff.mp hkind
  obtain ⟨rest, hahead⟩ := List.head?_eq_some_iff.mp hleaf
  obtain ⟨token, tokens, hdrop, rfl, -⟩ := exists_tokens_of_ahead hahead
  obtain ⟨after, hrun, -, hbuilds⟩ := parses_take token.leaf rest state hahead
  have htrivia : (Tree.token token.leaf.1 token.leaf.2).isTrivia = false :=
    Token.isTrivia_of_dropWhile hdrop
  have hgains := State.Gains.of_builds hbuilds
  rw [Tree.symbols_singleton htrivia] at hgains
  rw [hrun]
  exact hgains

theorem gains_accept (kind : Token.Kind) (state : State) :
    state.Gains ((accept kind).run state).2
      (if state.peek? 0 = some kind then [.token kind] else []) := by
  have hat : (at? kind).run state = (decide (state.peek? 0 = some kind),
      state) := rfl
  rw [accept, run_bind, hat]
  by_cases hkind : state.peek? 0 = some kind
  case pos =>
      rw [decide_eq_true hkind, if_pos hkind]
      exact gains_take hkind
  case neg =>
      rw [decide_eq_false hkind, if_neg hkind]
      exact .refl state

theorem toList_trees_enclosed {before inner : State} {kind : Node.Kind}
    (hreads : State.Reads before.builder.mark
      { before with builder := before.builder.start kind } inner) :
    inner.builder.finish.trees.toList = before.builder.trees.toList ++
      [.node kind (inner.builder.trees.toList.drop before.builder.mark)] := by
  have hmark : before.builder.mark = before.builder.trees.toList.length :=
    Array.length_toList.symm
  have hbuilt := Grammar.toList_trees_of_reads before hreads rfl rfl
  rwa [hmark, List.take_length] at hbuilt

theorem gains_node (kind : Node.Kind) {body : Parser α}
    (hkeeps : ∀ place, Keeps place body) (state : State) :
    state.Gains ((node kind body).run state).2 [.node kind] := by
  let skipped := (skipTrivia.run state).2
  have hreads :=
    hkeeps skipped.builder.mark { skipped with
      builder := skipped.builder.start kind }
    (skipped.builder.accepts_start kind)
  exact (gains_skipTrivia state).trans ⟨_, toList_trees_enclosed hreads, rfl⟩

theorem repeatFrom_preserves {step : α → Parser (Option α)}
    (holds : α → State → Prop)
    (hstep : ∀ value (state : State),
      holds value state →
        holds (((step value).run state).1.getD value)
          ((step value).run state).2)
    {value : α} {state : State} (hholds : holds value state) :
    holds ((repeatFrom step value).run state).1
      ((repeatFrom step value).run state).2 := by
  have hloop : ∀ limit value (state : State), holds value state →
      holds ((iterate step limit value).run state).1
        ((iterate step limit value).run state).2 := by
    intro limit
    induction limit with
    | zero => exact fun _ _ hholds => hholds
    | succ limit ih =>
        intro value state hholds
        have hafter := hstep value state hholds
        rw [iterate, run_bind]
        cases hnext : ((step value).run state).1 with
        | some next =>
            rw [hnext] at hafter
            exact ih next _ hafter
        | none =>
            rw [hnext] at hafter
            exact hafter
  exact hloop (state.tokens.length + 1) value state hholds

def State.Lists (before after : State) : Prop :=
  ∃ word, before.Gains after word ∧ Symbol.commasFollow false word = true

theorem State.Gains.lists (hgains : before.Gains after word)
    (hfollow : Symbol.commasFollow false word = true) : before.Lists after :=
  ⟨word, hgains, hfollow⟩

theorem State.Lists.trans (hleft : before.Lists middle)
    (hright : middle.Lists after) :
    before.Lists after := by
  obtain ⟨word, hgains, hfollow⟩ := hleft
  obtain ⟨word', hgains', hfollow'⟩ := hright
  exact ⟨word ++ word', hgains.trans hgains',
    Symbol.commasFollow_append hfollow hfollow'⟩

theorem lists_repeatWhile {step : Parser Bool}
    (hstep : ∀ state : State, state.Lists (step.run state).2) (state : State) :
    state.Lists ((repeatWhile step).run state).2 := by
  let holds (_ : Unit) (last : State) : Prop := state.Lists last
  have hnone : holds () state := (State.Gains.refl state).lists rfl
  exact repeatFrom_preserves holds
    (fun _ last hlast => State.Lists.trans hlast (hstep last)) hnone

theorem lists_close {closer : Token.Kind} (hcloser : closer ≠ .comma)
    (state : State) :
    state.Lists ((close closer).run state).2 := by
  have haccept (state : State) : state.Lists ((accept closer).run state).2 := by
    refine (gains_accept closer state).lists ?_
    split
    · simp [Symbol.commasFollow, hcloser]
    · rfl
  rw [run_close, closeUnless]
  split
  case isTrue => exact haccept state
  case isFalse =>
      let reported := ((report .unexpectedToken).run state).2
      have herror : reported.Gains _ [.node .error] :=
        gains_node .error (fun _ => keeps_takeUntil (closer :: closers))
          reported
      exact State.Lists.trans (herror.lists rfl) (haccept _)

end Parser

namespace Grammar

open PklAnalysis.Parser

variable {call : Call}

def spacedLists : Permit where
  allows := Tree.CommasFollow
  plain hkind := fun hsame => absurd hsame hkind.2.2.2.2
  named _ := nofun
  error _ := nofun

def GivesExpr (state : State) (result : Option Node.Kind × State) : Prop :=
  ∃ kind : Node.Kind, result.1 = some kind ∧ kind.isExpr = true ∧
    state.Gains result.2 [.node kind]

structure Call.Separates (call : Call) : Prop where
  keeps : call.Keeps
  runs : call.Runs spacedLists
  expression (power : Nat) {state : State}
    (hstart : (state.peek? 0).any expressionStarts.contains = true) :
    GivesExpr state ((call (.expression power)).run state)
  literal (state : State) : GivesExpr state ((call .stringLiteral).run state)
  body (start : Nat) : Advances start (call .objectBody)

section

variable (hexpression : ∀ state : State,
    (state.peek? 0).any expressionStarts.contains = true →
  GivesExpr state ((call (.expression 0)).run state))
include hexpression

theorem lists_nextArgument (state : State) :
    state.Lists ((nextArgument call).run state).2 := by
  have hat : (atAny? expressionStarts).run state =
    ((state.peek? 0).any expressionStarts.contains, state) := rfl
  rw [nextArgument, run_bind, hat]
  dsimp only
  split
  case isTrue hstart =>
      obtain ⟨kind, -, hexpr, hgains⟩ := hexpression state hstart
      have hcomma := gains_accept .comma ((call (.expression 0)).run state).2
      refine (hgains.trans hcomma).lists ?_
      split <;> simp [Symbol.commasFollow, Symbol.isNode, Symbol.node?, hexpr]
  case isFalse => exact (State.Gains.refl state).lists rfl

theorem runs_argumentList (hrules : ∀ rule, Parser.Runs spacedLists (call rule))
    {state : State} (hparen : state.peek? 0 = some .leftParen) :
    state.Runs spacedLists ((argumentList call).run state).2 := by
  have hargument : Parser.Runs spacedLists (expression call) :=
    (hrules (.expression 0)).map _
  have hnext : Parser.Runs spacedLists (nextArgument call) := by
    refine .bind (runs_atAny? _) fun found => ?_
    grind
  have hrest :
      Parser.Runs spacedLists
        (do take; repeatWhile (nextArgument call); close .rightParen) :=
    runs_take.bind fun _ => .bind (runs_repeatWhile hnext) fun _ => runs_close _
  refine runs_node_of_opened hrest state ?_
  intro skipped opened
  have hopened : opened.peek? 0 = some .leftParen :=
    (congrFun (peek?_skipTrivia state) 0).trans hparen
  let taken := (take.run opened).2
  have htake : opened.Lists taken := (gains_take hopened).lists rfl
  have hloop : taken.Lists ((repeatWhile (nextArgument call)).run taken).2 :=
    lists_repeatWhile (lists_nextArgument hexpression) taken
  have hclosed := lists_close (by decide : Token.Kind.rightParen ≠ .comma)
    ((repeatWhile (nextArgument call)).run taken).2
  obtain ⟨word, ⟨added, hadded, rfl⟩, hfollow⟩ :=
    (htake.trans hloop).trans hclosed
  exact ⟨added, fun _ => hfollow, hadded⟩

theorem runs_optionalArguments_of
    (hrules : ∀ rule, Parser.Runs spacedLists (call rule)) :
    Parser.Runs spacedLists (optionalArguments call) := by
  intro state
  have hrun : (optionalArguments call).run state =
      (if decide (state.peek? 0 = some .leftParen) && !state.afterBreak then
        argumentList call
        else pure ()).run state := rfl
  rw [hrun]
  split
  case isTrue hstart =>
      rw [Bool.and_eq_true, decide_eq_true_eq] at hstart
      exact runs_argumentList hexpression hrules hstart.1
  case isFalse => exact .refl

end

theorem givesExpr_built {kind : Node.Kind} {body : Parser Unit}
    (hexpr : kind.isExpr = true) (hkeeps : ∀ place, Keeps place body)
    (state : State) :
    GivesExpr state ((built kind body).run state) :=
  ⟨kind, rfl, hexpr, gains_node kind hkeeps state⟩

theorem givesExpr_operandStart (hcall : call.Separates) {state : State}
    (hstart : (state.peek? 0).any expressionStarts.contains = true) :
    GivesExpr state ((operandStart call).run state) := by
  have hkeeps := hcall.keeps
  have hpeek : current?.run state = (state.peek? 0, state) := rfl
  rw [operandStart, run_bind, hpeek]
  dsimp only
  split
  case h_9 => exact hcall.literal state
  case h_19 | h_24 =>
      rw [run_bind]
      split <;> exact givesExpr_built rfl (by grind) _
  case h_25 =>
      obtain ⟨kind, hkind, hmem⟩ := (Option.any_eq_true _ _).mp hstart
      rw [expressionStarts, List.contains_iff_mem] at hmem
      fin_cases hmem <;> contradiction
  all_goals exact givesExpr_built rfl (by grind) state

theorem continues_expr (hcall : call.Separates) {power : Nat}
    {outer state : State} {kind : Node.Kind} (hexpr : kind.isExpr = true)
    (hgains : outer.Gains state [.node kind]) :
    let result :=
      (continuation call outer.builder.trees.toList.length power kind).run state
    let last := result.1.getD kind
    last.isExpr = true ∧ outer.Gains result.2 [.node last] := by
  intro result last
  have hturn : Turn spacedLists call outer.builder.trees.toList.length power
      state result :=
    turn_continuation hcall.keeps hcall.runs hcall.body power kind state
  have hwrap : ∀ {kind' : Node.Kind} {body : Parser Unit},
      Keeps outer.builder.trees.toList.length body →
      outer.Gains
        ((nodeAt outer.builder.trees.toList.length kind' body).run state).2
          [.node kind'] := by
    intro kind' body hkeeps
    obtain ⟨added, hbuilt, -⟩ := hgains
    exact ⟨_, toList_trees_nodeAt hbuilt hkeeps, rfl⟩
  clear_value result
  cases hturn with
  | ends => exact ⟨hexpr, hgains⟩
  | suffix hcurrent hplain hexpr' hkeeps => exact ⟨hexpr', hwrap hkeeps⟩
  | @operation operator hcurrent =>
      exact ⟨Operator.isExpr_kind (Operator.mem_all_of_current? hcurrent),
        hwrap (keeps_operatorRest hcall.keeps operator)⟩

theorem givesExpr_expressionRule (hcall : call.Separates) (power : Nat)
    {state : State}
    (hstart : (state.peek? 0).any expressionStarts.contains = true) :
    GivesExpr state ((expressionRule call power).run state) := by
  let skipped := (skipTrivia.run state).2
  have hmark : mark.run state = (skipped.builder.trees.toList.length,
      skipped) :=
    congrArg (·, skipped) Array.length_toList.symm
  have hskipped : (skipped.peek? 0).any expressionStarts.contains = true := by
    rwa [peek?_skipTrivia]
  obtain ⟨kind, hsome, hfirst⟩ := givesExpr_operandStart hcall hskipped
  rw [expressionRule, run_bind, hmark]
  dsimp only
  rw [run_bind, hsome]
  generalize ((operandStart call).run skipped).2 = first at hfirst
  let step := continuation call skipped.builder.trees.toList.length power
  let holds (kind : Node.Kind) (last : State) : Prop :=
    kind.isExpr = true ∧ skipped.Gains last [.node kind]
  have hrun : (do return some (← repeatFrom step kind) : Parser _).run first =
    (some ((repeatFrom step kind).run first).1,
      ((repeatFrom step kind).run first).2) := rfl
  have hloop : holds ((repeatFrom step kind).run first).1
      ((repeatFrom step kind).run first).2 :=
    repeatFrom_preserves holds
      (fun _ _ hlast => continues_expr hcall hlast.1 hlast.2) hfirst
  dsimp only
  rw [hrun]
  exact ⟨_, rfl, hloop.1, (gains_skipTrivia state).trans hloop.2⟩

theorem givesExpr_stringLiteralRule (hcall : call.Keeps) (state : State) :
    GivesExpr state ((stringLiteralRule call).run state) := by
  let kind := literalKind ((state.current?.map Token.text).getD "")
  have hrun : (stringLiteralRule call).run state =
    (built kind (do take; literalRest call)).run state := rfl
  rw [hrun]
  refine givesExpr_built (isExpr_literalKind _)
    (fun _ => .bind keeps_take fun _ => ?_) state
  exact keeps_literalRest hcall

theorem commasFollow_of_operator (kind : Node.Kind) (children : List Tree)
    (hkind : kind.IsOperator) :
    spacedLists.allows kind children := by
  rintro rfl
  exact absurd hkind (by decide)

theorem Call.Separates.parse (hcall : call.Separates) :
    Call.Separates (Rule.parse call) := by
  have hrules : ∀ rule, Parser.Runs spacedLists (Rule.parse call rule) :=
    runs_parse hcall.keeps hcall.runs fun power =>
      runs_expressionRule hcall.runs commasFollow_of_operator power
  have hexpression : ∀ power {state : State},
      (state.peek? 0).any expressionStarts.contains = true →
      GivesExpr state ((Rule.parse call (.expression power)).run state) :=
    fun power _ => givesExpr_expressionRule hcall power
  exact
    { keeps := keeps_parse hcall.keeps
      runs :=
        ⟨hrules, runs_optionalArguments_of (fun _ => hexpression 0) hrules⟩
      expression := hexpression
      literal := givesExpr_stringLiteralRule hcall.keeps
      body :=
        fun _ => (advances_objectBodyRule hcall.keeps).bind
          (keeps_objectBodyRule hcall.keeps)
        fun _ => keeps_pure none }

/-- Calls that are nested too deep take a token, as an expression. -/
def takingExpr : Call := fun _ => built .thisExpr take

theorem separates_takingExpr : takingExpr.Separates := by
  have hgives (rule : Rule) (state : State) :
      GivesExpr state ((takingExpr rule).run state) :=
    givesExpr_built rfl (fun _ => keeps_take) state
  have hrules (rule : Rule) : Parser.Runs spacedLists (takingExpr rule) :=
    runs_built (by decide) runs_take
  exact
    { keeps := fun _ _ => keeps_built _ fun _ => keeps_take
      runs :=
        ⟨hrules,
          runs_optionalArguments_of
            (fun state _ => hgives (.expression 0) state) hrules⟩
      expression := fun _ state _ => hgives _ state
      literal := hgives _
      body :=
        fun _ =>
          (advances_node (fun _ => keeps_take) fun _ => advances_take).bind
        (keeps_node fun _ => keeps_take) fun _ => keeps_pure _ }

theorem separates_unroll (depth : Nat) :
    Call.Separates (unroll Rule.parse takingExpr depth) := by
  induction depth with
  | zero => exact separates_takingExpr
  | succ depth ih => exact ih.parse

/-- In the tree of any tokens, well-formed or not, commas of argument lists come
after arguments. -/
theorem commasFollow_parseTokens (tokens : List Token) (stop : Nat) :
    (parseTokens tokens stop).tree.Everywhere Tree.CommasFollow := by
  have hcall := separates_unroll (callDepth tokens)
  have hfinal :=
    run_moduleRule_eq separates_takingExpr.keeps
      (Nat.le_refl (callDepth tokens)) stop
  have hbelow := permitted_of_moduleRule hcall.runs hfinal
  obtain ⟨-, hinOrder, hopen, children, htrees, -⟩ :=
    finalState_built tokens stop
  rw [tree_parseTokens hinOrder hopen htrees] at hbelow ⊢
  exact Tree.everywhere_node.mpr ⟨nofun, hbelow⟩

end Grammar

end PklAnalysis

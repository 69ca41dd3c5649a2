import PklAnalysis.Proofs.Grammar.Lossless
import PklAnalysis.Proofs.Grammar.Shape

/-!
Whatever the tokens are, a parser moves tokens into the tree, reports errors,
and wraps what it has built since some place into a node, and nothing else. So
what is asked of nodes holds everywhere in the tree, if it holds where they are
made. Of most nodes nothing need be asked: nodes of recovery are wrapped around
tokens only, types with a name are made where the name is read, and operators
where expressions are read. In particular no production makes a root, and the
tree of a document has no second one.
-/

namespace PklAnalysis.Tree

def isToken : Tree → Bool
  | .token _ _ => true
  | .node _ _ => false

/-- What a node below the root has: it is no root, and if recovery made it, then
it has tokens only. -/
def IsInner (kind : Node.Kind) (children : List Tree) : Prop :=
  kind ≠ .root ∧ (kind = .error → ∀ child ∈ children, child.isToken = true)

def HasName (kind : Node.Kind) (children : List Tree) : Prop :=
  kind = .declaredType → ∃ parts, node .qualifiedIdent parts ∈ children

theorem everywhere_of_isToken {holds : Node.Kind → List Tree → Prop}
    {tree : Tree} (htoken : tree.isToken = true) : tree.Everywhere holds := by
  cases tree with
  | token => exact .token
  | node => cases htoken

end PklAnalysis.Tree

namespace PklAnalysis

/-- Operators, signs and negations: what their operands are depends on how
tightly they bind. -/
abbrev Node.Kind.IsOperator (kind : Kind) : Prop :=
  kind = .nullCoalesceExpr ∨ kind = .pipeExpr ∨ kind = .logicalOrExpr ∨
    kind = .logicalAndExpr ∨
    kind = .equalityExpr ∨ kind = .typeTestExpr ∨ kind = .comparisonExpr ∨
    kind = .additiveExpr ∨
    kind = .multiplicativeExpr ∨ kind = .exponentiationExpr ∨
    kind = .unaryMinusExpr ∨ kind = .logicalNotExpr

/-- The kinds of the other nodes that the grammar has below the root, but for
types with a name and argument lists. -/
abbrev Node.Kind.IsPlain (kind : Kind) : Prop :=
  kind ≠ .root ∧ kind ≠ .error ∧ ¬kind.IsOperator ∧ kind ≠ .declaredType ∧
    kind ≠ .argumentList

namespace Parser

/-- What nodes may be made of: plain ones of anything, types with a name of what
has one, and nodes of recovery of tokens. -/
structure Permit where
  allows : Node.Kind → List Tree → Prop
  plain {kind : Node.Kind} {children : List Tree} (hkind : kind.IsPlain) :
    allows kind children
  named {children : List Tree} (hname : ∃ parts,
    Tree.node .qualifiedIdent parts ∈ children) :
    allows .declaredType children
  error {children : List Tree} (htokens : ∀ child ∈ children,
    child.isToken = true) :
    allows .error children

variable {permit : Permit}

/-- The second state is reached from the first by moving tokens into the tree,
reporting errors, and wrapping into nodes what is built in between or since an
earlier place, as it is permitted. -/
inductive State.Runs (permit : Permit) : State → State → Prop
  | refl {state : State} : Runs permit state state
  | trans {first second third : State} :
      Runs permit first second → Runs permit second third →
      Runs permit first third
  | advance {state : State} : Runs permit state state.advance
  | report {state : State} {error : SyntaxError} :
      Runs permit state { state with errors := error :: state.errors }
  | wrap {before inner : State} {kind : Node.Kind} {first : Nat}
      (opened : State)
      (hallowed : permit.allows kind (inner.builder.trees.toList.drop first))
      (htrees : opened.builder.trees = before.builder.trees)
      (hopen : opened.builder.openNodes =
        (kind, first) :: before.builder.openNodes)
      (herrors : opened.errors = before.errors) :
      Runs permit opened inner → Runs permit before { inner with
        builder := inner.builder.finish }

def State.Permitted (permit : Permit) (state : State) : Prop :=
  ∀ tree ∈ state.builder.trees.toList, tree.Everywhere permit.allows

theorem State.openNodes_advance (state : State) :
    state.advance.builder.openNodes = state.builder.openNodes := by
  rw [State.advance]
  split <;> rfl

theorem State.openNodes_advanceBy (state : State) (count : Nat) :
    (state.advanceBy count).builder.openNodes = state.builder.openNodes := by
  induction count generalizing state with
  | zero => rfl
  | succ count ih => exact (ih state.advance).trans state.openNodes_advance

theorem State.exists_toList_advanceBy (state : State) (count : Nat) :
    ∃ tokens : List Tree, (∀ tree ∈ tokens, tree.isToken = true) ∧
      (state.advanceBy count).builder.trees.toList =
        state.builder.trees.toList ++ tokens := by
  induction count generalizing state with
  | zero =>
      exact ⟨[], fun _ htree => (List.not_mem_nil htree).elim,
        (List.append_nil _).symm⟩
  | succ count ih =>
      obtain ⟨tokens, htokens, hbuilt⟩ := ih state.advance
      cases hrest : state.tokens with
      | nil =>
          have hsame : state.advance = state := by simp only [advance, hrest]
          rw [hsame] at hbuilt
          exact ⟨tokens, htokens, by rw [advanceBy, hsame, hbuilt]⟩
      | cons token rest =>
          have hfirst : state.advance.builder.trees.toList =
              state.builder.trees.toList ++ [.token token.kind token.text] := by
            simp only [advance, hrest, Builder.token, Array.toList_push]
          refine ⟨.token token.kind token.text :: tokens,
            List.forall_mem_cons.mpr ⟨rfl, htokens⟩, ?_⟩
          rw [advanceBy, hbuilt, hfirst, List.append_assoc,
            List.singleton_append]

theorem State.Runs.openNodes {before after : State}
    (hruns : before.Runs permit after) :
    after.builder.openNodes = before.builder.openNodes := by
  induction hruns with
  | refl | report => rfl
  | trans _ _ hleft hright => exact hright.trans hleft
  | advance => exact State.openNodes_advance _
  | wrap _ _ _ hopen _ _ ih => exact Builder.openNodes_finish (ih.trans hopen)

theorem State.Runs.permitted {before after : State}
    (hruns : before.Runs permit after) (hbefore : before.Permitted permit) :
    after.Permitted permit := by
  induction hruns with
  | refl | report => exact hbefore
  | trans _ _ hleft hright => exact hright (hleft hbefore)
  | @advance state =>
      obtain ⟨tokens, htokens, hbuilt⟩ := state.exists_toList_advanceBy 1
      have htrees : state.advance.builder.trees.toList =
          state.builder.trees.toList ++ tokens := hbuilt
      rw [Permitted, htrees]
      exact List.forall_mem_append.mpr
        ⟨hbefore,
          fun tree htree => Tree.everywhere_of_isToken (htokens tree htree)⟩
  | wrap opened hallowed htrees hopen _ hbody ih =>
      have hinner := ih (by rwa [Permitted, htrees])
      simp only [Permitted,
        Builder.toList_trees_finish (hbody.openNodes.trans hopen)]
      refine List.forall_mem_append.mpr
        ⟨fun tree htree => hinner tree (List.mem_of_mem_take htree),
        List.forall_mem_singleton.mpr
          (Tree.everywhere_node.mpr ⟨hallowed, fun tree htree => ?_⟩)⟩
      exact hinner tree (List.mem_of_mem_drop htree)

def Runs (permit : Permit) (parser : Parser α) : Prop :=
  ∀ state : State, state.Runs permit (parser.run state).2

theorem runs_of_unchanged {parser : Parser α}
    (hsame : ∀ state, (parser.run state).2 = state) :
    Runs permit parser := by
  intro state
  rw [hsame]
  exact .refl

theorem runs_pure (value : α) : Runs permit (pure value) :=
  runs_of_unchanged fun _ => rfl

theorem runs_get : Runs permit get :=
  runs_of_unchanged fun _ => rfl

theorem runs_current? : Runs permit current? :=
  runs_of_unchanged fun _ => rfl

theorem runs_peek? (n : Nat) : Runs permit (peek? n) :=
  runs_of_unchanged fun _ => rfl

theorem runs_at? (kind : Token.Kind) : Runs permit (at? kind) :=
  runs_of_unchanged fun _ => rfl

theorem runs_atAny? (kinds : List Token.Kind) : Runs permit (atAny? kinds) :=
  runs_of_unchanged fun _ => rfl

theorem runs_atEnd? : Runs permit atEnd? :=
  runs_of_unchanged fun _ => rfl

theorem runs_afterBreak? : Runs permit afterBreak? :=
  runs_of_unchanged fun _ => rfl

theorem runs_report (cause : SyntaxError.Cause) : Runs permit (report cause) :=
  fun _ => .report

theorem Runs.bind {first : Parser α} {next : α → Parser β}
    (hfirst : Runs permit first) (hnext : ∀ value, Runs permit (next value)) :
    Runs permit (first >>= next) :=
  fun state => (hfirst state).trans (hnext _ _)

theorem Runs.next {first : Parser PUnit} {next : PUnit → Parser β}
    (hfirst : Runs permit first) (hnext : Runs permit (next ⟨⟩)) :
    Runs permit (first >>= next) :=
  hfirst.bind fun _ => hnext

theorem Runs.map {parser : Parser α} (transform : α → β)
    (hparser : Runs permit parser) :
    Runs permit (transform <$> parser) :=
  fun state => hparser state

theorem runs_advanceBy (state : State) (count : Nat) :
    state.Runs permit (state.advanceBy count) := by
  induction count generalizing state with
  | zero => exact .refl
  | succ count ih => exact .trans .advance (ih state.advance)

theorem runs_skipTrivia : Runs permit skipTrivia :=
  fun state => runs_advanceBy state _

theorem runs_take : Runs permit take :=
  runs_skipTrivia.bind fun _ _ => .advance

theorem runs_mark : Runs permit mark :=
  runs_skipTrivia.bind fun _ => runs_get.bind fun _ => runs_pure _

theorem runs_accept (kind : Token.Kind) : Runs permit (accept kind) := by
  refine .bind (runs_at? kind) fun found => ?_
  split
  · exact .bind runs_take fun _ => runs_pure true
  · exact runs_pure false

theorem runs_expect (kind : Token.Kind) : Runs permit (expect kind) := by
  refine .bind (runs_accept kind) fun found => ?_
  split
  · exact runs_pure true
  · exact .bind (runs_report _) fun _ => runs_pure false

section

variable {kind : Node.Kind} {body : Parser α}
  (hallowed : ∀ children, permit.allows kind children)
  (hbody : Runs permit body)
include hallowed hbody

theorem runs_nodeAt (place : Nat) : Runs permit (nodeAt place kind body) :=
  fun state => .wrap { state with builder := state.builder.startAt place kind }
    (hallowed _) rfl rfl rfl
    (hbody _)

theorem runs_enclose : Runs permit (enclose kind body) :=
  fun state => .wrap { state with builder := state.builder.start kind }
    (hallowed _) rfl rfl rfl (hbody _)

theorem runs_node : Runs permit (node kind body) :=
  runs_skipTrivia.bind fun _ => runs_enclose hallowed hbody

end

theorem runs_iterate {step : α → Parser (Option α)}
    (hstep : ∀ value, Runs permit (step value)) (limit : Nat) (value : α) :
    Runs permit (iterate step limit value) :=
  holds_iterate runs_pure (fun value _ hnext => (hstep value).bind hnext)
    limit value

theorem runs_repeatFrom {step : α → Parser (Option α)} {value : α}
    (hstep : ∀ value, Runs permit (step value)) :
    Runs permit (repeatFrom step value) :=
  runs_get.bind fun _ => runs_iterate hstep _ value

theorem runs_repeatWhile {step : Parser Bool} (hstep : Runs permit step) :
    Runs permit (repeatWhile step) :=
  runs_repeatFrom fun _ => hstep.bind fun _ => runs_pure _

def Moves (parser : Parser α) : Prop :=
  ∀ state : State, ∃ count, (parser.run state).2 = state.advanceBy count

theorem moves_of_unchanged {parser : Parser α}
    (hsame : ∀ state, (parser.run state).2 = state) :
    Moves parser :=
  fun state => ⟨0, hsame state⟩

theorem State.advanceBy_add (state : State) (first second : Nat) :
    state.advanceBy (first + second) =
      (state.advanceBy first).advanceBy second := by
  induction first generalizing state with
  | zero => rw [Nat.zero_add, advanceBy]
  | succ first ih => rw [Nat.add_right_comm, advanceBy, advanceBy, ih]

theorem Moves.bind {first : Parser α} {next : α → Parser β}
    (hfirst : Moves first) (hnext : ∀ value, Moves (next value)) :
    Moves (first >>= next) := by
  intro state
  obtain ⟨count, hcount⟩ := hfirst state
  obtain ⟨more, hmore⟩ := hnext (first.run state).1 (first.run state).2
  exact ⟨count + more, by rw [run_bind, hmore, hcount, State.advanceBy_add]⟩

theorem moves_take : Moves take :=
  fun state => ⟨(state.tokens.takeWhile Token.isTrivia).length + 1,
    (state.advanceBy_add _ 1).symm⟩

theorem moves_iterate {step : α → Parser (Option α)}
    (hstep : ∀ value, Moves (step value)) (limit : Nat) (value : α) :
    Moves (iterate step limit value) :=
  holds_iterate (fun _ => moves_of_unchanged fun _ => rfl)
    (fun value _ hnext => (hstep value).bind hnext) limit value

theorem moves_takeUntil (kinds : List Token.Kind) :
    Moves (takeUntil kinds) := by
  refine .bind (moves_of_unchanged fun _ => rfl) fun state =>
    moves_iterate (fun _ => ?_) _ _
  refine .bind ?_ fun _ => moves_of_unchanged fun _ => rfl
  refine .bind (moves_of_unchanged fun _ => rfl) fun ended => ?_
  refine .bind (moves_of_unchanged fun _ => rfl) fun found => ?_
  refine .bind (moves_of_unchanged fun _ => rfl) fun broken => ?_
  split
  · exact moves_of_unchanged fun _ => rfl
  · exact .bind moves_take fun _ => moves_of_unchanged fun _ => rfl

theorem runs_plain {kind : Node.Kind} {body : Parser α} (hkind : kind.IsPlain)
    (hbody : Runs permit body) : Runs permit (node kind body) :=
  runs_node (fun _ => permit.plain hkind) hbody

theorem runs_plainAt {kind : Node.Kind} {body : Parser α} (hkind : kind.IsPlain)
    (hbody : Runs permit body) (place : Nat) :
    Runs permit (nodeAt place kind body) :=
  runs_nodeAt (fun _ => permit.plain hkind) hbody place

theorem runs_node_of_opened {kind : Node.Kind} {body : Parser α}
    (hbody : Runs permit body)
    (state : State) (hadded : let skipped := (skipTrivia.run state).2
      let opened : State :=
        { skipped with builder := skipped.builder.start kind }
      ∃ added, permit.allows kind added ∧
        (body.run opened).2.builder.trees.toList =
          opened.builder.trees.toList ++ added) :
    state.Runs permit ((node kind body).run state).2 := by
  let skipped := (skipTrivia.run state).2
  let opened : State := { skipped with builder := skipped.builder.start kind }
  obtain ⟨added, hallowed, hbuilt⟩ := hadded
  have hrun : ((node kind body).run state).2 =
      { (body.run opened).2 with
        builder := (body.run opened).2.builder.finish } := rfl
  have hmark : skipped.builder.mark = opened.builder.trees.toList.length :=
    Array.length_toList.symm
  have hskipped : state.Runs permit skipped := runs_skipTrivia state
  rw [hrun]
  refine hskipped.trans (.wrap opened ?_ rfl rfl rfl (hbody opened))
  rwa [hbuilt, List.drop_left' hmark.symm]

theorem runs_node_of_added {kind : Node.Kind} {body : Parser α}
    (hbody : Runs permit body)
    (hadded : ∀ state : State, state.builder.accepts state.builder.mark = true →
      ∃ added,
        permit.allows kind added ∧ (body.run state).2.builder.trees.toList =
          state.builder.trees.toList ++ added) :
    Runs permit (node kind body) :=
  fun state => runs_node_of_opened hbody state
    (hadded _ (Builder.accepts_iff.mpr ⟨Nat.le_refl _, Nat.le_refl _⟩))

theorem runs_node_error {body : Parser Unit} (hbody : Moves body) :
    Runs permit (node .error body) := by
  refine runs_node_of_added (fun state => ?_) fun state _ => ?_
  · obtain ⟨count, hcount⟩ := hbody state
    rw [hcount]
    exact runs_advanceBy state count
  · obtain ⟨count, hcount⟩ := hbody state
    obtain ⟨tokens, htokens, hbuilt⟩ := state.exists_toList_advanceBy count
    exact ⟨tokens, permit.error htokens, by rw [hcount, hbuilt]⟩

theorem runs_recover (cause : SyntaxError.Cause) (kinds : List Token.Kind) :
    Runs permit (recover cause kinds) := by
  refine .bind (runs_report cause) fun _ => ?_
  refine .bind runs_atEnd? fun ended => ?_
  split
  · exact runs_node_error (moves_take.bind fun _ => moves_takeUntil kinds)
  · exact runs_pure ()

theorem runs_close (closer : Token.Kind) : Runs permit (close closer) := by
  have haccept : Runs permit (do let _ ← accept closer) :=
    .bind (runs_accept closer) fun _ => runs_pure ()
  refine .bind runs_atEnd? fun ended => ?_
  refine .bind (runs_atAny? _) fun found => ?_
  refine .bind runs_afterBreak? fun broken => ?_
  split
  · refine .bind (runs_report _) fun _ => ?_
    exact .bind (runs_node_error (moves_takeUntil _)) fun _ => haccept
  · exact haccept

end Parser

namespace Grammar

open PklAnalysis.Parser

attribute [grind ←] Runs.bind Runs.next runs_pure runs_get runs_current?
  runs_peek? runs_at? runs_atAny?
  runs_atEnd? runs_afterBreak? runs_report runs_take runs_mark runs_accept
    runs_expect runs_plain
  runs_plainAt runs_repeatWhile runs_recover runs_close

variable {call : Call} {permit : Permit}

structure Call.Runs (permit : Permit) (call : Call) : Prop where
  rule (rule : Rule) : Parser.Runs permit (call rule)
  arguments : Parser.Runs permit (optionalArguments call)

@[grind ←] theorem runs_type (hcall : call.Runs permit) :
    Runs permit (type call) :=
  (hcall.rule .type).map _

@[grind ←] theorem runs_expression (hcall : call.Runs permit) :
    Runs permit (expression call) :=
  (hcall.rule (.expression 0)).map _

@[grind ←] theorem runs_stringLiteral (hcall : call.Runs permit) :
    Runs permit (stringLiteral call) :=
  (hcall.rule .stringLiteral).map _

@[grind ←] theorem runs_objectBody (hcall : call.Runs permit) :
    Runs permit (objectBody call) :=
  (hcall.rule .objectBody).map _

@[grind ←] theorem runs_member (hcall : call.Runs permit) :
    Runs permit (member call) :=
  (hcall.rule .member).map _

@[grind ←] theorem runs_optionalArguments (hcall : call.Runs permit) :
    Runs permit (optionalArguments call) :=
  hcall.arguments

/-- Where argument lists may be made of anything, they take no more than the
rules do. -/
theorem Call.Runs.of_rules
    (hallowed : ∀ children, permit.allows .argumentList children)
    (hrules : ∀ rule, Parser.Runs permit (call rule)) : call.Runs permit where
  rule := hrules
  arguments := by
    have hexpression : Parser.Runs permit (expression call) :=
      (hrules (.expression 0)).map _
    have hlist : Parser.Runs permit (argumentList call) := by
      refine runs_node hallowed
        (.bind runs_take fun _ => .bind (runs_repeatWhile ?_) fun _ => ?_)
      · refine .bind (runs_atAny? _) fun found => ?_
        grind
      · exact runs_close _
    refine .bind (runs_at? _) fun found => ?_
    grind

/-! What is built after a place. -/

theorem toList_trees_of_reads {start : Nat} (before : State)
    {opened inner : State} {kind : Node.Kind}
    (hreads : opened.Reads start inner)
    (htrees : opened.builder.trees = before.builder.trees)
    (hopen : opened.builder.openNodes =
      (kind, start) :: before.builder.openNodes) :
    inner.builder.finish.trees.toList =
      before.builder.trees.toList.take start ++
        [.node kind (inner.builder.trees.toList.drop start)] := by
  rw [Builder.toList_trees_finish (hreads.openNodes.trans hopen), hreads.kept,
    htrees]

theorem exists_toList_of_keeps {parser : Parser α}
    (hkeeps : ∀ place, Keeps place parser) {state : State} {start : Nat}
    (haccepts : state.builder.accepts start = true) : ∃ added,
      (parser.run state).2.builder.trees.toList =
        state.builder.trees.toList ++ added := by
  have hkept := (hkeeps _ state (Builder.accepts_mark haccepts)).kept
  have hmark : state.builder.mark = state.builder.trees.toList.length :=
    Array.length_toList.symm
  have hsplit :=
    List.take_append_drop state.builder.mark
      (parser.run state).2.builder.trees.toList
  rw [hkept, hmark, List.take_length] at hsplit
  exact ⟨_, hsplit.symm⟩

theorem exists_added_node (kind : Node.Kind) {body : Parser α}
    (hkeeps : ∀ place, Keeps place body) (state : State) :
    ∃ tokens children, (∀ tree ∈ tokens, tree.isToken = true) ∧
        ((node kind body).run state).2.builder.trees.toList =
          state.builder.trees.toList ++ tokens ++ [.node kind children] := by
  obtain ⟨tokens, htokens, hskipped⟩ :=
    state.exists_toList_advanceBy (state.tokens.takeWhile Token.isTrivia).length
  generalize hinner :
    state.advanceBy (state.tokens.takeWhile Token.isTrivia).length =
      inner at hskipped
  have hrun : (node kind body).run state = (enclose kind body).run inner := by
    rw [← hinner]
    rfl
  have hreads :=
    hkeeps inner.builder.mark { inner with builder := inner.builder.start kind }
    (Builder.accepts_iff.mpr ⟨Nat.le_refl _, Nat.le_refl _⟩)
  have hmark : inner.builder.mark = inner.builder.trees.toList.length :=
    Array.length_toList.symm
  have hbuilt := toList_trees_of_reads inner hreads rfl rfl
  rw [hmark, List.take_length, hskipped] at hbuilt
  rw [hrun, run_enclose]
  exact ⟨tokens, _, htokens, hbuilt⟩

@[grind ←] theorem runs_single {kind : Node.Kind} (hkind : kind.IsPlain) :
    Runs permit (single kind) :=
  runs_plain hkind runs_take

@[grind ←] theorem runs_qualifiedName : Runs permit qualifiedName := by
  refine runs_plain (by decide) (.bind (runs_expect _) fun _ =>
    runs_repeatWhile ?_)
  grind

@[grind ←] theorem runs_typeSequence (hcall : call.Runs permit) :
    Runs permit (typeSequence call) := by
  refine .bind (runs_type hcall) fun _ => runs_repeatWhile ?_
  grind

@[grind ←] theorem runs_typeArguments (hcall : call.Runs permit) :
    Runs permit (typeArguments call) := by
  refine runs_plain (by decide) ?_
  grind

/-- Whatever the tokens are, a type with a name has one: what is missing is
reported inside it. -/
theorem runs_declaredType (hkeeps : call.Keeps) (hcall : call.Runs permit) :
    Runs permit (declaredType call) := by
  refine runs_node_of_added (by grind) fun state haccepts => ?_
  have hname : ∃ tokens parts, (∀ tree ∈ tokens, tree.isToken = true) ∧
      (qualifiedName.run state).2.builder.trees.toList =
        state.builder.trees.toList ++ tokens ++
          [.node .qualifiedIdent parts] := by
    refine exists_added_node _ (fun _ => .bind (keeps_expect _) fun _ =>
      keeps_repeatWhile ?_) state
    grind
  have hrest : ∀ place,
      Keeps place (do if ← at? .less then typeArguments call) :=
    fun place => by grind
  obtain ⟨tokens, parts, -, hname⟩ := hname
  obtain ⟨added, hadded⟩ :=
    exists_toList_of_keeps hrest
      ((keeps_qualifiedName state haccepts).accepts haccepts)
  refine ⟨tokens ++ [.node .qualifiedIdent parts] ++ added,
    permit.named ⟨parts, by simp⟩, ?_⟩
  rw [run_bind, hadded, hname]
  simp only [List.append_assoc]

@[grind ←] theorem runs_parenthesizedOrFunctionType (hcall : call.Runs permit) :
    Runs permit (parenthesizedOrFunctionType call) := by
  refine .bind runs_mark fun _ => .bind runs_take fun _ => ?_
  grind

section

variable (hkeeps : call.Keeps) (hcall : call.Runs permit)
include hkeeps hcall

theorem runs_primaryType : Runs permit (primaryType call) := by
  refine .bind runs_current? fun found => ?_
  split
  case h_5 => exact runs_declaredType hkeeps hcall
  all_goals grind

theorem runs_nullableType : Runs permit (nullableType call) := by
  refine .bind runs_mark fun _ => .bind (runs_primaryType hkeeps hcall) fun _ =>
    runs_repeatWhile ?_
  grind

theorem runs_typeRule : Runs permit (typeRule call) := by
  have hnullable := runs_nullableType hkeeps hcall
  refine .bind runs_mark fun _ => .bind hnullable fun _ => runs_repeatWhile ?_
  grind

end

@[grind ←] theorem runs_typeClause (hcall : call.Runs permit) :
    Runs permit (typeClause call) :=
  runs_plain (by decide) (.bind runs_take fun _ => runs_type hcall)

@[grind ←] theorem runs_optionalTypeClause (hcall : call.Runs permit) :
    Runs permit (optionalTypeClause call) := by
  refine .bind (runs_at? _) fun found => ?_
  grind

@[grind ←] theorem runs_parameter (hcall : call.Runs permit) :
    Runs permit (parameter call) := by
  refine runs_plain (by decide) (.bind (runs_accept _) fun found => ?_)
  grind

@[grind ←] theorem runs_parameterList (hcall : call.Runs permit) :
    Runs permit (parameterList call) := by
  refine runs_plain (by decide)
    (.bind runs_take fun _ => .bind (runs_repeatWhile ?_) fun _ => ?_)
  · grind
  · grind

@[grind ←] theorem runs_typeParameter : Runs permit typeParameter := by
  refine runs_plain (by decide) (.bind (runs_accept _) fun found => ?_)
  grind

@[grind ←] theorem runs_optionalTypeParameters :
    Runs permit optionalTypeParameters := by
  refine .bind (runs_at? _) fun found => ?_
  split
  · refine runs_plain (by decide)
      (.bind runs_take fun _ => .bind (runs_repeatWhile ?_) fun _ => ?_)
    · grind
    · grind
  · exact runs_pure ()

@[grind ←] theorem runs_annotations (hcall : call.Runs permit) :
    Runs permit (annotations call) := by
  refine runs_repeatWhile (.bind (runs_at? _) fun found => ?_)
  grind

@[grind ←] theorem runs_atModifier? : Runs permit atModifier? :=
  runs_of_unchanged fun _ => rfl

@[grind ←] theorem runs_modifiers : Runs permit modifiers := by
  refine .bind runs_atModifier? fun found => ?_
  grind

@[grind ←] theorem runs_objectBodies (hcall : call.Runs permit) :
    Runs permit (objectBodies call) := by
  refine runs_repeatWhile (.bind (runs_at? _) fun found => ?_)
  grind

@[grind ←] theorem runs_property (hcall : call.Runs permit) {kind : Node.Kind}
    (hkind : kind.IsPlain) (place : Nat) :
    Runs permit (property call place kind) := by
  refine runs_plainAt hkind (.bind runs_take fun _ => ?_) place
  grind

@[grind ←] theorem runs_method (hcall : call.Runs permit) {kind : Node.Kind}
    (hkind : kind.IsPlain) (place : Nat) :
    Runs permit (method call place kind) := by
  refine runs_plainAt hkind
    (.bind runs_take fun _ => .bind (runs_expect _) fun _ => ?_) place
  refine .bind runs_optionalTypeParameters fun _ =>
    .bind (runs_at? _) fun found => ?_
  grind

@[grind ←] theorem runs_typeAlias (hcall : call.Runs permit) (place : Nat) :
    Runs permit (typeAlias call place) := by
  refine runs_plainAt (by decide) (.bind runs_take fun _ => ?_) place
  grind

@[grind ←] theorem runs_classBody (hcall : call.Runs permit) :
    Runs permit (classBody call) := by
  refine runs_plain (by decide)
    (.bind runs_take fun _ => .bind (runs_repeatWhile ?_) fun _ => ?_)
  · grind
  · grind

@[grind ←] theorem runs_classDecl (hcall : call.Runs permit) (place : Nat) :
    Runs permit (classDecl call place) := by
  refine runs_plainAt (by decide)
    (.bind runs_take fun _ => .bind (runs_expect _) fun _ => ?_) place
  grind

@[grind ←] theorem runs_memberRest (hcall : call.Runs permit) (place : Nat) :
    Runs permit (memberRest call place) := by
  refine .bind runs_current? fun found => ?_
  split <;> grind

theorem runs_memberRule (hcall : call.Runs permit) :
    Runs permit (memberRule call) := by
  refine .bind runs_mark fun _ => ?_
  grind

@[grind ←] theorem runs_operand (hcall : call.Runs permit) (power : Nat) :
    Runs permit (operand call power) := by
  refine .bind (hcall.rule (.expression power)) fun found => ?_
  grind

@[grind ←] theorem runs_literalRest (hcall : call.Runs permit) :
    Runs permit (literalRest call) := by
  refine .bind (runs_repeatWhile (.bind runs_current? fun found => ?_))
    fun _ => ?_
  · split <;> grind
  · grind

theorem isPlain_literalKind (delimiter : String) :
    (literalKind delimiter).IsPlain := by
  rw [literalKind]
  split <;> decide

theorem runs_stringLiteralRule (hcall : call.Runs permit) :
    Runs permit (stringLiteralRule call) := by
  refine .bind runs_get fun state =>
    .bind (runs_plain (isPlain_literalKind _) ?_) fun _ => ?_
  · grind
  · exact runs_pure _

@[grind ←] theorem runs_keywordCall (hcall : call.Runs permit) :
    Runs permit (keywordCall call) := by
  refine .bind runs_take fun _ => ?_
  grind

@[grind ←] theorem runs_importExpr (hcall : call.Runs permit) :
    Runs permit (importExpr call) := by
  refine .bind runs_take fun _ => .bind (runs_expect _) fun found => ?_
  grind

@[grind ←] theorem runs_newExpr (hcall : call.Runs permit) :
    Runs permit (newExpr call) := by
  refine .bind runs_take fun _ => .bind (runs_at? _) fun found => ?_
  grind

@[grind ←] theorem runs_superSubscriptExpr (hcall : call.Runs permit) :
    Runs permit (superSubscriptExpr call) := by
  refine .bind runs_take fun _ => ?_
  grind

@[grind ←] theorem runs_superAccessExpr (hcall : call.Runs permit) :
    Runs permit (superAccessExpr call) := by
  refine .bind runs_take fun _ => ?_
  grind

@[grind ←] theorem runs_ifExpr (hcall : call.Runs permit) :
    Runs permit (ifExpr call) := by
  refine .bind runs_take fun _ => .bind (runs_expect _) fun found => ?_
  grind

@[grind ←] theorem runs_letExpr (hcall : call.Runs permit) :
    Runs permit (letExpr call) := by
  refine .bind runs_take fun _ => .bind (runs_expect _) fun found => ?_
  grind

@[grind ←] theorem runs_parenthesizedExpr (hcall : call.Runs permit) :
    Runs permit (parenthesizedExpr call) := by
  refine .bind runs_take fun _ => ?_
  grind

@[grind ←] theorem runs_functionLiteral (hcall : call.Runs permit) :
    Runs permit (functionLiteral call) := by
  refine .bind (runs_parameterList hcall) fun _ => ?_
  grind

@[grind ←] theorem runs_atFunctionLiteral? : Runs permit atFunctionLiteral? :=
  runs_of_unchanged fun _ => rfl

@[grind ←] theorem runs_built {kind : Node.Kind} {body : Parser Unit}
    (hkind : kind.IsPlain) (hbody : Runs permit body) :
    Runs permit (built kind body) :=
  .bind (runs_plain hkind hbody) fun _ => runs_pure _

theorem runs_operandStart (hcall : call.Runs permit)
    (hminus : Runs permit
      (built .unaryMinusExpr do take; operand call unaryPower))
    (hbang : Runs permit
      (built .logicalNotExpr do take; operand call unaryPower)) :
    Runs permit (operandStart call) := by
  refine .bind runs_current? fun found => ?_
  split
  case h_9 => exact hcall.rule .stringLiteral
  case h_20 => exact hminus
  case h_21 => exact hbang
  all_goals grind

theorem runs_suffix (hcall : call.Runs permit) (place : Nat)
    (operandKind : Node.Kind) :
    Runs permit (suffix call place operandKind) := by
  refine .bind runs_current? fun found => ?_
  split <;> grind

theorem Operator.isOperator_kind {state : State} {operator : Operator}
    (hoperator : Operator.current? state = some operator) :
    operator.kind.IsOperator := by
  obtain ⟨token, -, htoken⟩ := Option.bind_eq_some_iff.mp hoperator
  split at htoken
  case isTrue => cases htoken
  case isFalse => cases token <;> cases htoken <;> decide

section

variable (hcall : call.Runs permit)
  (hoperators : ∀ kind children, kind.IsOperator → permit.allows kind children)
include hcall hoperators

theorem runs_operation (place power : Nat) :
    Runs permit (operation call place power) := by
  intro state
  have hget : (get : Parser State).run state = (state, state) := rfl
  rw [operation, run_bind, hget]
  dsimp only
  split
  case h_1 => exact .refl
  case h_2 operator hoperator =>
      split
      case isTrue => exact .refl
      case isFalse =>
          have hallowed := fun children =>
            hoperators operator.kind children
              (Operator.isOperator_kind hoperator)
          refine Parser.Runs.bind (runs_nodeAt hallowed ?_ place)
            (fun _ => runs_pure _) state
          grind

theorem runs_continuation (place power : Nat) (operandKind : Node.Kind) :
    Runs permit (continuation call place power operandKind) := by
  refine .bind (runs_suffix hcall place operandKind) fun found => ?_
  cases found with
  | some kind => exact runs_pure _
  | none => exact runs_operation hcall hoperators place power

theorem runs_expressionRule (power : Nat) :
    Runs permit (expressionRule call power) := by
  have hsign : ∀ kind : Node.Kind, kind.IsOperator →
      Runs permit (built kind do take; operand call unaryPower) :=
      fun kind hkind =>
    .bind (runs_node (fun children => hoperators kind children hkind)
      (runs_take.bind fun _ => runs_operand hcall unaryPower)) fun _ =>
        runs_pure _
  refine .bind runs_mark fun place => ?_
  refine .bind
    (runs_operandStart hcall (hsign _ (by decide)) (hsign _ (by decide)))
      fun found => ?_
  cases found with
  | none => exact runs_pure none
  | some kind =>
      refine .bind (runs_repeatFrom fun kind => ?_) fun _ => runs_pure _
      exact runs_continuation hcall hoperators place power kind

end

@[grind ←] theorem runs_atBodyParameters? : Runs permit atBodyParameters? := by
  refine .bind (runs_atAny? _) fun found => ?_
  grind

@[grind ←] theorem runs_expectedBody (hcall : call.Runs permit) :
    Runs permit (expectedBody call) := by
  refine .bind (runs_at? _) fun found => ?_
  grind

@[grind ←] theorem runs_objectEntry (hcall : call.Runs permit) :
    Runs permit (objectEntry call) := by
  refine runs_plain (by decide)
    (.bind runs_take fun _ => .bind (runs_expression hcall) fun _ => ?_)
  grind

@[grind ←] theorem runs_objectSpread (hcall : call.Runs permit) :
    Runs permit (objectSpread call) :=
  runs_plain (by decide) (.bind runs_take fun _ => runs_expression hcall)

@[grind ←] theorem runs_objectElement (hcall : call.Runs permit) :
    Runs permit (objectElement call) :=
  runs_plain (by decide) (runs_expression hcall)

@[grind ←] theorem runs_forGenerator (hcall : call.Runs permit) :
    Runs permit (forGenerator call) := by
  refine runs_plain (by decide)
    (.bind runs_take fun _ => .bind (runs_expect _) fun found => ?_)
  split
  · refine .bind (runs_parameter hcall) fun _ =>
      .bind (runs_accept _) fun another => ?_
    grind
  · exact runs_expectedBody hcall

@[grind ←] theorem runs_whenGenerator (hcall : call.Runs permit) :
    Runs permit (whenGenerator call) := by
  refine runs_plain (by decide)
    (.bind runs_take fun _ => .bind (runs_expect _) fun found => ?_)
  grind

@[grind ←] theorem runs_modifiedMember (hcall : call.Runs permit) :
    Runs permit (modifiedMember call) := by
  refine .bind runs_mark fun _ => .bind runs_modifiers fun _ =>
    .bind runs_current? fun found => ?_
  split <;> grind

@[grind ←] theorem runs_namedMember (hcall : call.Runs permit) :
    Runs permit (namedMember call) := by
  refine .bind (runs_peek? 1) fun found => ?_
  split
  case h_4 => exact runs_objectElement hcall
  all_goals exact runs_mark.bind (runs_property hcall (by decide))

@[grind ←] theorem runs_objectMember (hcall : call.Runs permit) :
    Runs permit (objectMember call) := by
  refine .bind runs_current? fun found => ?_
  split
  case h_1 => exact runs_mark.bind (runs_method hcall (by decide))
  all_goals grind

@[grind ←] theorem runs_bodyParameters (hcall : call.Runs permit) :
    Runs permit (bodyParameters call) := by
  refine .bind (runs_repeatWhile ?_) fun _ => ?_
  · grind
  · grind

theorem runs_objectBodyRule (hcall : call.Runs permit) :
    Runs permit (objectBodyRule call) := by
  have hmembers : Runs permit (do
      repeatWhile do
        if (← atEnd?) || (← at? .rightBrace) then
          return false
        else
          objectMember call
          return true
      let _ ← expect .rightBrace) := by
    refine .bind (runs_repeatWhile ?_) fun _ => ?_
    · grind
    · grind
  refine runs_plain (by decide)
    (.bind runs_take fun _ => .bind runs_atBodyParameters? fun found => ?_)
  grind

theorem runs_parse (hkeeps : call.Keeps) (hcall : call.Runs permit)
    (hexpression : ∀ power, Runs permit (expressionRule call power))
    (rule : Rule) :
    Runs permit (Rule.parse call rule) := by
  cases rule with
  | type => exact .bind (runs_typeRule hkeeps hcall) fun _ => runs_pure none
  | expression power => exact hexpression power
  | stringLiteral => exact runs_stringLiteralRule hcall
  | objectBody =>
      exact .bind (runs_objectBodyRule hcall) fun _ => runs_pure none
  | member => exact .bind (runs_memberRule hcall) fun _ => runs_pure none

@[grind ←] theorem runs_moduleUri (hcall : call.Runs permit) :
    Runs permit (moduleUri call) := by
  refine runs_plain (by decide) (.bind (runs_at? _) fun found => ?_)
  grind

@[grind ←] theorem runs_extendsAmendsClause (hcall : call.Runs permit) :
    Runs permit (extendsAmendsClause call) :=
  runs_plain (by decide) (.bind runs_take fun _ => runs_moduleUri hcall)

@[grind ←] theorem runs_importClause (hcall : call.Runs permit) :
    Runs permit (importClause call) := by
  refine runs_plain (by decide)
    (.bind runs_take fun _ => .bind (runs_moduleUri hcall) fun _ => ?_)
  grind

theorem runs_moduleHeader (hcall : call.Runs permit) :
    Runs permit (moduleHeader call) := by
  refine .bind runs_mark fun place => .bind runs_get fun before => ?_
  refine .bind (runs_annotations hcall) fun _ =>
    .bind runs_modifiers fun _ => ?_
  refine .bind runs_get fun after => .bind (runs_at? _) fun named => ?_
  grind

theorem runs_imports (hcall : call.Runs permit) :
    Runs permit (imports call) := by
  refine runs_repeatWhile (.bind (runs_atAny? _) fun found => ?_)
  grind

theorem runs_nextMember (hcall : call.Runs permit) :
    Runs permit (nextMember call) := by
  refine .bind runs_atEnd? fun ended => ?_
  grind

theorem runs_moduleContents (hcall : call.Runs permit) :
    Runs permit (moduleContents call) :=
  .bind (runs_moduleHeader hcall) fun _ =>
    .bind (runs_imports hcall) fun _ => runs_repeatWhile (runs_nextMember hcall)

theorem permitted_of_moduleRule (hcall : call.Runs permit) {tokens : List Token}
    {stop : Nat}
    (hfinal : ((moduleRule call).run (.ofTokens tokens stop)).2 =
      finalState tokens stop) :
    ∀ tree ∈ (parseTokens tokens stop).tree.children,
      tree.Everywhere permit.allows := by
  obtain ⟨-, hinOrder, hopen, children, htrees, -⟩ :=
    finalState_built tokens stop
  rw [tree_parseTokens hinOrder hopen htrees, Tree.children]
  rw [← hfinal, moduleRule, run_enclose, run_bind] at htrees
  generalize hopened : { State.ofTokens tokens stop with
    builder := (State.ofTokens tokens stop).builder.start .root } =
      opened at htrees
  have hruns := (runs_moduleContents hcall opened).trans (runs_skipTrivia _)
  generalize (skipTrivia.run ((moduleContents call).run opened).2).2 =
    inner at hruns htrees
  have hnone : opened.builder.trees.toList = [] := by rw [← hopened]; rfl
  have hroot : opened.builder.openNodes = [(.root, 0)] := by rw [← hopened]; rfl
  have hinner := hruns.permitted fun tree htree => by
    rw [hnone] at htree
    cases htree
  rw [Builder.toList_trees_finish (hruns.openNodes.trans hroot)] at htrees
  obtain rfl : inner.builder.trees.toList = children := by simpa using htrees
  exact hinner

section

variable (permit : Permit)
  (hoperators : ∀ kind children, kind.IsOperator → permit.allows kind children)
  (harguments : ∀ children, permit.allows .argumentList children)
include hoperators harguments

theorem runs_parseRule (depth : Nat) : Call.Runs permit (parseRule depth) := by
  induction depth with
  | zero => exact .of_rules harguments fun _ => runs_pure none
  | succ depth ih =>
      exact .of_rules harguments
        (runs_parse (keeps_parseRule depth) ih
          (runs_expressionRule ih hoperators))

theorem permitted_parseTokens (tokens : List Token) (stop : Nat) :
    ∀ tree ∈ (parseTokens tokens stop).tree.children,
      tree.Everywhere permit.allows :=
  permitted_of_moduleRule
    (runs_parseRule permit hoperators harguments (callDepth tokens)) rfl

end

theorem isInner_of_ne {kind : Node.Kind} (hroot : kind ≠ .root)
    (herror : kind ≠ .error) (children : List Tree) :
    Tree.IsInner kind children :=
  ⟨hroot, fun hsame => absurd hsame herror⟩

def innerNodes : Permit where
  allows := Tree.IsInner
  plain hkind := isInner_of_ne hkind.1 hkind.2.1 _
  named _ := isInner_of_ne (by decide) (by decide) _
  error htokens := ⟨by decide, fun _ => htokens⟩

theorem inner_parseTokens (tokens : List Token) (stop : Nat) :
    ∀ tree ∈ (parseTokens tokens stop).tree.children,
      tree.Everywhere Tree.IsInner := by
  refine permitted_parseTokens innerNodes (fun kind children hkind => ?_)
    (isInner_of_ne (by decide) (by decide)) tokens stop
  refine isInner_of_ne ?_ ?_ children <;> rintro rfl <;> revert hkind <;> decide

def namedTypes : Permit where
  allows := Tree.HasName
  plain hkind := fun hsame => absurd hsame hkind.2.2.2.1
  named hname := fun _ => hname
  error _ := nofun

theorem named_parseTokens (tokens : List Token) (stop : Nat) :
    ∀ tree ∈ (parseTokens tokens stop).tree.children,
      tree.Everywhere Tree.HasName := by
  refine permitted_parseTokens namedTypes (fun kind children hkind hsame => ?_)
    (fun _ => nofun)
    tokens stop
  rw [hsame] at hkind
  exact absurd hkind (by decide)

end Grammar

end PklAnalysis

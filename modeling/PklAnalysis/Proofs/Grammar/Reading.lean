import PklAnalysis.Grammar.Parser

/-!
What a parser does to its state: it moves tokens from the front of the input
into the tree under construction, and it leaves alone what was built before a
given place. Every parser that is put together from such parsers is one again.
-/

namespace PklAnalysis

namespace Tree

@[simp] theorem leavesAll_append (left right : List Tree) :
    leavesAll (left ++ right) = leavesAll left ++ leavesAll right := by
  induction left with
  | nil => rfl
  | cons tree rest ih =>
      simp only [List.cons_append, leavesAll, ih, List.append_assoc]

@[simp] theorem leavesAll_token (kind : Token.Kind) (text : String) :
    leavesAll [.token kind text] = [(kind, text)] := by
  simp only [leavesAll, leaves, List.append_nil]

@[simp] theorem leavesAll_node (kind : Node.Kind) (children : List Tree) :
    leavesAll [.node kind children] = leavesAll children := by
  simp only [leavesAll, leaves, List.append_nil]

end Tree

def Token.leaf (token : Token) : Token.Kind × String :=
  (token.kind, token.text)

theorem Tree.leavesAll_map_token (tokens : List Token) :
    leavesAll (tokens.map fun token => .token token.kind token.text) =
      tokens.map Token.leaf := by
  induction tokens with
  | nil => rfl
  | cons token rest ih =>
      rw [List.map_cons, List.map_cons, leavesAll, ih]
      rfl

namespace Builder

def leaves (builder : Builder) : List (Token.Kind × String) :=
  Tree.leavesAll builder.trees.toList

theorem accepts_iff {builder : Builder} {start : Nat} :
    builder.accepts start = true ↔
      builder.floor ≤ start ∧ start ≤ builder.trees.size := by
  simp only [accepts, Bool.and_eq_true, decide_eq_true_eq]

theorem accepts_mark {builder : Builder} {start : Nat}
    (haccepts : builder.accepts start = true) :
    builder.accepts builder.mark = true := by
  obtain ⟨hfloor, hplace⟩ := accepts_iff.mp haccepts
  exact accepts_iff.mpr ⟨Nat.le_trans hfloor hplace, Nat.le_refl _⟩

@[simp] theorem leaves_token (builder : Builder) (kind : Token.Kind)
    (text : String) :
    (builder.token kind text).leaves = builder.leaves ++ [(kind, text)] := by
  simp [leaves, token]

theorem toList_trees_finish {builder : Builder} {kind : Node.Kind} {first : Nat}
    {outer : List (Node.Kind × Nat)}
    (hopen : builder.openNodes = (kind, first) :: outer) :
    builder.finish.trees.toList =
      builder.trees.toList.take first ++
        [.node kind (builder.trees.toList.drop first)] := by
  have hall :
      (builder.trees.toList.drop first).take (builder.trees.size - first) =
      builder.trees.toList.drop first :=
    List.take_of_length_le (by simp)
  simp [finish, hopen, List.extract_eq_take_drop, hall]

theorem drop_trees_finish {builder : Builder} {kind : Node.Kind} {first : Nat}
    {outer : List (Node.Kind × Nat)}
    (hopen : builder.openNodes = (kind, first) :: outer)
    (hle : first ≤ builder.trees.size) :
    builder.finish.trees.toList.drop first =
      [.node kind (builder.trees.toList.drop first)] := by
  rw [toList_trees_finish hopen]
  exact List.drop_left' (List.length_take_of_le hle)

theorem openNodes_finish {builder : Builder} {kind : Node.Kind} {first : Nat}
    {outer : List (Node.Kind × Nat)}
    (hopen : builder.openNodes = (kind, first) :: outer) :
    builder.finish.openNodes = outer := by
  simp only [finish, hopen]

theorem inOrder_finish {builder : Builder} {kind : Node.Kind} {first : Nat}
    {outer : List (Node.Kind × Nat)}
    (hopen : builder.openNodes = (kind, first) :: outer) :
    builder.finish.inOrder = builder.inOrder := by
  simp only [finish, hopen]

theorem leaves_finish {builder : Builder} {kind : Node.Kind} {first : Nat}
    {outer : List (Node.Kind × Nat)}
    (hopen : builder.openNodes = (kind, first) :: outer) :
    builder.finish.leaves = builder.leaves := by
  simp only [leaves, toList_trees_finish hopen, Tree.leavesAll_append,
    Tree.leavesAll_node]
  rw [← Tree.leavesAll_append, List.take_append_drop]

theorem result?_eq_some {builder : Builder} {kind : Node.Kind}
    {children : List Tree} (hinOrder : builder.inOrder = true)
    (hopen : builder.openNodes = [])
    (htrees : builder.trees.toList = [.node kind children]) :
    builder.result? = some (.node kind children) := by
  simp only [result?, hinOrder, hopen, htrees]

end Builder

namespace Parser

variable {start : Nat}

/-- The second state is reached from the first by moving tokens into the tree
under construction. The trees before the place `start` stay as they are, and the
same nodes are open. -/
structure State.Reads (start : Nat) (before after : State) : Prop where
  consumed : ∃ read, before.tokens = read ++ after.tokens ∧
    after.builder.leaves = before.builder.leaves ++ read.map Token.leaf
  kept : after.builder.trees.toList.take start =
    before.builder.trees.toList.take start
  start_le : start ≤ after.builder.trees.size
  openNodes : after.builder.openNodes = before.builder.openNodes
  inOrder : after.builder.inOrder = before.builder.inOrder

namespace State.Reads

theorem of_unchanged {before after : State}
    (hstart : start ≤ before.builder.trees.size)
    (htokens : after.tokens = before.tokens)
    (hbuilder : after.builder = before.builder) :
    before.Reads start after where
  consumed := ⟨[], by simp [htokens, hbuilder]⟩
  kept := by rw [hbuilder]
  start_le := by rwa [hbuilder]
  openNodes := by rw [hbuilder]
  inOrder := by rw [hbuilder]

theorem trans {first second third : State} (hleft : first.Reads start second)
    (hright : second.Reads start third) : first.Reads start third where
  consumed := by
    obtain ⟨left, htokens, hleaves⟩ := hleft.consumed
    obtain ⟨right, htokens', hleaves'⟩ := hright.consumed
    refine ⟨left ++ right, ?_, ?_⟩
    · rw [htokens, htokens', List.append_assoc]
    · rw [hleaves', hleaves, List.map_append, List.append_assoc]
  kept := hright.kept.trans hleft.kept
  start_le := hright.start_le
  openNodes := hright.openNodes.trans hleft.openNodes
  inOrder := hright.inOrder.trans hleft.inOrder

theorem mono {earlier : Nat} {before after : State} (hle : earlier ≤ start)
    (hreads : before.Reads start after) : before.Reads earlier after where
  consumed := hreads.consumed
  kept := by
    have hkept := congrArg (List.take earlier) hreads.kept
    simpa only [List.take_take, Nat.min_eq_left hle] using hkept
  start_le := Nat.le_trans hle hreads.start_le
  openNodes := hreads.openNodes
  inOrder := hreads.inOrder

theorem accepts {before after : State} (hreads : before.Reads start after)
    (haccepts : before.builder.accepts start = true) :
    after.builder.accepts start = true := by
  have hfloor : after.builder.floor = before.builder.floor := by
    simp only [Builder.floor, hreads.openNodes]
  rw [Builder.accepts_iff, hfloor]
  exact ⟨(Builder.accepts_iff.mp haccepts).1, hreads.start_le⟩

theorem length_le {before after : State} (hreads : before.Reads start after) :
    after.tokens.length ≤ before.tokens.length := by
  obtain ⟨read, htokens, -⟩ := hreads.consumed
  simp [htokens]

theorem finish {kind : Node.Kind} {first : Nat} {before opened inner : State}
    (hbody : opened.Reads first inner) (hle : start ≤ first)
    (htokens : opened.tokens = before.tokens)
    (hopened : opened.builder =
      { before.builder with
        openNodes := (kind, first) :: before.builder.openNodes }) :
    before.Reads start { inner with builder := inner.builder.finish } := by
  obtain ⟨hconsumed, hkept, hfirst, hopen, hinOrder⟩ := hbody
  simp only [hopened, htokens] at hconsumed hkept hopen hinOrder
  have hlength : start ≤ (inner.builder.trees.toList.take first).length := by
    rw [List.length_take, Array.length_toList]
    omega
  refine ⟨?_, ?_, ?_, Builder.openNodes_finish hopen, ?_⟩
  · obtain ⟨read, hread, hleaves⟩ := hconsumed
    exact ⟨read, hread, (Builder.leaves_finish hopen).trans hleaves⟩
  · have hstarts := congrArg (List.take start) hkept
    simp only [List.take_take, Nat.min_eq_left hle] at hstarts
    simp only [Builder.toList_trees_finish hopen]
    rw [List.take_append_of_le_length hlength, List.take_take,
      Nat.min_eq_left hle]
    exact hstarts
  · rw [← Array.length_toList, Builder.toList_trees_finish hopen,
      List.length_append]
    exact Nat.le_trans hlength (Nat.le_add_right _ _)
  · exact (Builder.inOrder_finish hopen).trans hinOrder

end State.Reads

/-! What parsers do to a state. -/

theorem run_bind (first : Parser α) (next : α → Parser β) (state : State) :
    (first >>= next).run state =
      (next (first.run state).1).run (first.run state).2 :=
  rfl

theorem run_at? (kind : Token.Kind) (state : State) :
    (at? kind).run state = (decide (state.peek? 0 = some kind), state) :=
  rfl

theorem run_skipTrivia (state : State) : skipTrivia.run state =
    ((), state.advanceBy (state.tokens.takeWhile Token.isTrivia).length) :=
  rfl

theorem run_take (state : State) :
    take.run state = ((), (skipTrivia.run state).2.advance) :=
  rfl

theorem run_accept (kind : Token.Kind) (state : State) :
    (accept kind).run state =
      if state.peek? 0 = some kind then (true, (take.run state).2) else
        (false, state) := by
  rw [accept, run_bind, run_at?]
  by_cases hpeek : state.peek? 0 = some kind
  · rw [decide_eq_true hpeek, if_pos hpeek]
    rfl
  · rw [decide_eq_false hpeek, if_neg hpeek]
    rfl

theorem run_mark (state : State) :
    mark.run state =
      ((skipTrivia.run state).2.builder.mark, (skipTrivia.run state).2) :=
  rfl

theorem run_enclose (kind : Node.Kind) (body : Parser α) (state : State) :
    (enclose kind body).run state =
      ((body.run { state with builder := state.builder.start kind }).1,
        { (body.run { state with builder := state.builder.start kind }).2 with
          builder :=
            (body.run { state with
              builder := state.builder.start kind }).2.builder.finish }) :=
  rfl

theorem run_nodeAt (place : Nat) (kind : Node.Kind) (body : Parser α)
    (state : State) :
    (nodeAt place kind body).run state =
      ((body.run { state with builder := state.builder.startAt place kind }).1,
        { (body.run { state with
          builder := state.builder.startAt place kind }).2 with
          builder :=
            (body.run { state with
              builder := state.builder.startAt place kind }
              ).2.builder.finish }) :=
  rfl

theorem run_recover (cause : SyntaxError.Cause) (kinds : List Token.Kind)
    (state : State) :
    (recover cause kinds).run state =
      (if !(state.peek? 0).isNone then node .error do take; takeUntil kinds else
        pure ()).run
        ((report cause).run state).2 :=
  rfl

def once (step : Parser Bool) : Unit → Parser (Option Unit) :=
  fun _ => return if ← step then some () else none

theorem run_once (step : Parser Bool) (state : State) :
    (once step ()).run state =
      (if (step.run state).1 then some () else none, (step.run state).2) :=
  rfl

theorem run_repeatWhile (step : Parser Bool) (state : State) :
    (repeatWhile step).run state =
      (iterate (once step) (state.tokens.length + 1) ()).run state :=
  rfl

section

variable {step : Parser Bool} {state next : State} (limit : Nat)

theorem run_iterate_of_true (hstep : step.run state = (true, next)) :
    (iterate (once step) (limit + 1) ()).run state =
      (iterate (once step) limit ()).run next := by
  rw [iterate, run_bind, run_once, hstep]
  rfl

theorem run_iterate_of_false (hstep : step.run state = (false, next)) :
    (iterate (once step) (limit + 1) ()).run state = ((), next) := by
  rw [iterate, run_bind, run_once, hstep]
  rfl

theorem run_iterate_of_unchanged (hstep : step.run state = (false, state)) :
    (iterate (once step) limit ()).run state = ((), state) := by
  cases limit with
  | zero => rfl
  | succ limit => exact run_iterate_of_false limit hstep

theorem run_repeatWhile_of_true (hstep : step.run state = (true, next)) :
    (repeatWhile step).run state =
      (iterate (once step) state.tokens.length ()).run next :=
  run_iterate_of_true state.tokens.length hstep

theorem run_repeatWhile_of_false (hstep : step.run state = (false, next)) :
    (repeatWhile step).run state = ((), next) :=
  run_iterate_of_false state.tokens.length hstep

end

/-- From every state in which `start` is a valid place, the parser reads tokens
and leaves alone what is before that place. -/
def Keeps (start : Nat) (parser : Parser α) : Prop :=
  ∀ state : State, state.builder.accepts start = true →
    state.Reads start (parser.run state).2

theorem keeps_of_unchanged {parser : Parser α}
    (htokens : ∀ state, (parser.run state).2.tokens = state.tokens)
    (hbuilder : ∀ state, (parser.run state).2.builder = state.builder) :
    Keeps start parser := fun state haccepts =>
  .of_unchanged (Builder.accepts_iff.mp haccepts).2 (htokens state)
    (hbuilder state)

theorem keeps_pure (value : α) : Keeps start (pure value) :=
  keeps_of_unchanged (fun _ => rfl) fun _ => rfl

theorem keeps_get : Keeps start get :=
  keeps_of_unchanged (fun _ => rfl) fun _ => rfl

theorem keeps_current? : Keeps start current? :=
  keeps_of_unchanged (fun _ => rfl) fun _ => rfl

theorem keeps_peek? (n : Nat) : Keeps start (peek? n) :=
  keeps_of_unchanged (fun _ => rfl) fun _ => rfl

theorem keeps_at? (kind : Token.Kind) : Keeps start (at? kind) :=
  keeps_of_unchanged (fun _ => rfl) fun _ => rfl

theorem keeps_atAny? (kinds : List Token.Kind) : Keeps start (atAny? kinds) :=
  keeps_of_unchanged (fun _ => rfl) fun _ => rfl

theorem keeps_atEnd? : Keeps start atEnd? :=
  keeps_of_unchanged (fun _ => rfl) fun _ => rfl

theorem keeps_afterBreak? : Keeps start afterBreak? :=
  keeps_of_unchanged (fun _ => rfl) fun _ => rfl

theorem keeps_report (cause : SyntaxError.Cause) : Keeps start (report cause) :=
  keeps_of_unchanged (fun _ => rfl) fun _ => rfl

theorem Keeps.bind {first : Parser α} {next : α → Parser β}
    (hfirst : Keeps start first) (hnext : ∀ value, Keeps start (next value)) :
    Keeps start (first >>= next) := by
  intro state haccepts
  have hleft := hfirst state haccepts
  have hright :=
    hnext (first.run state).1 (first.run state).2 (hleft.accepts haccepts)
  exact hleft.trans hright

theorem Keeps.map {parser : Parser α} (transform : α → β)
    (hparser : Keeps start parser) :
    Keeps start (transform <$> parser) := by
  intro state haccepts
  exact hparser state haccepts

theorem State.reads_advance {state : State}
    (hstart : start ≤ state.builder.trees.size) :
    state.Reads start state.advance := by
  cases htokens : state.tokens with
  | nil =>
      exact .of_unchanged hstart (by simp [advance, htokens])
        (by simp [advance, htokens])
  | cons token rest =>
      have hadvance : state.advance =
          { state with
            tokens := rest
            atStart := false
            builder := state.builder.token token.kind token.text } := by
        simp only [advance, htokens]
      rw [hadvance]
      refine ⟨⟨[token], by simpa using htokens, by simp [Token.leaf]⟩, ?_, ?_,
        rfl, rfl⟩
      · simp only [Builder.token, Array.toList_push]
        exact List.take_append_of_le_length hstart
      · simp only [Builder.token, Array.size_push]
        exact Nat.le_succ_of_le hstart

theorem State.reads_advanceBy {state : State}
    (hstart : start ≤ state.builder.trees.size) (count : Nat) :
    state.Reads start (state.advanceBy count) := by
  induction count generalizing state with
  | zero => exact .of_unchanged hstart rfl rfl
  | succ count ih =>
      have hfirst := reads_advance hstart
      exact hfirst.trans (ih hfirst.start_le)

theorem keeps_skipTrivia : Keeps start skipTrivia := fun _ haccepts =>
  State.reads_advanceBy (Builder.accepts_iff.mp haccepts).2 _

theorem keeps_take : Keeps start take :=
  keeps_skipTrivia.bind fun _ _ haccepts =>
    State.reads_advance (Builder.accepts_iff.mp haccepts).2

theorem keeps_accept (kind : Token.Kind) : Keeps start (accept kind) := by
  refine .bind (keeps_at? kind) fun found => ?_
  split
  · exact .bind keeps_take fun _ => keeps_pure true
  · exact keeps_pure false

theorem keeps_expect (kind : Token.Kind) : Keeps start (expect kind) := by
  refine .bind (keeps_accept kind) fun found => ?_
  split
  · exact keeps_pure true
  · exact .bind (keeps_report _) fun _ => keeps_pure false

theorem keeps_nodeAt {kind : Node.Kind} {body : Parser α}
    (hbody : ∀ inner, Keeps inner body) :
    Keeps start (nodeAt start kind body) := by
  intro state haccepts
  have hopened : state.builder.startAt start kind =
      { state.builder with
        openNodes := (kind, start) :: state.builder.openNodes } := by
    simp only [Builder.startAt, haccepts, Bool.and_true]
  have hplace := (Builder.accepts_iff.mp haccepts).2
  have hinner :=
    hbody start { state with builder := state.builder.startAt start kind }
    (Builder.accepts_iff.mpr ⟨Nat.le_refl start, hplace⟩)
  exact hinner.finish (Nat.le_refl start) rfl hopened

theorem keeps_enclose {kind : Node.Kind} {body : Parser α}
    (hbody : ∀ inner, Keeps inner body) :
    Keeps start (enclose kind body) := by
  intro state haccepts
  have hinner :=
    hbody state.builder.mark { state with builder := state.builder.start kind }
    (Builder.accepts_iff.mpr ⟨Nat.le_refl _, Nat.le_refl _⟩)
  exact hinner.finish (Builder.accepts_iff.mp haccepts).2 rfl rfl

theorem keeps_node {kind : Node.Kind} {body : Parser α}
    (hbody : ∀ inner, Keeps inner body) :
    Keeps start (node kind body) :=
  keeps_skipTrivia.bind fun _ => keeps_enclose hbody

theorem keeps_mark_bind {next : Nat → Parser α}
    (hnext : ∀ place, Keeps place (next place)) :
    Keeps start (mark >>= next) := by
  intro state haccepts
  have hskip := keeps_skipTrivia state haccepts
  have hmark := Builder.accepts_mark (hskip.accepts haccepts)
  exact hskip.trans ((hnext _ _ hmark).mono hskip.start_le)

/-- What holds where a loop stops, and of a turn before what it holds of, holds
of the loop. -/
theorem holds_iterate {holds : Parser α → Prop} {step : α → Parser (Option α)}
    (hstop : ∀ value, holds (pure value))
    (hturn : ∀ value (next : Option α → Parser α),
      (∀ after, holds (next after)) → holds (step value >>= next))
    (limit : Nat) (value : α) : holds (iterate step limit value) := by
  induction limit generalizing value with
  | zero => exact hstop value
  | succ limit ih =>
      refine hturn value _ fun after => ?_
      cases after with
      | some next => exact ih next
      | none => exact hstop value

theorem keeps_iterate {step : α → Parser (Option α)}
    (hstep : ∀ value, Keeps start (step value)) (limit : Nat) (value : α) :
    Keeps start (iterate step limit value) :=
  holds_iterate keeps_pure (fun value _ hnext => (hstep value).bind hnext)
    limit value

theorem keeps_repeatFrom {step : α → Parser (Option α)} {value : α}
    (hstep : ∀ value, Keeps start (step value)) :
    Keeps start (repeatFrom step value) :=
  keeps_get.bind fun _ => keeps_iterate hstep _ value

theorem keeps_repeatWhile {step : Parser Bool} (hstep : Keeps start step) :
    Keeps start (repeatWhile step) :=
  keeps_repeatFrom fun _ => hstep.bind fun _ => keeps_pure _

theorem keeps_takeUntil (kinds : List Token.Kind) :
    Keeps start (takeUntil kinds) := by
  refine keeps_repeatWhile ?_
  refine .bind keeps_atEnd? fun ended => ?_
  refine .bind (keeps_atAny? kinds) fun found => ?_
  refine .bind keeps_afterBreak? fun broken => ?_
  split
  · exact keeps_pure false
  · exact .bind keeps_take fun _ => keeps_pure true

theorem keeps_recover (cause : SyntaxError.Cause) (kinds : List Token.Kind) :
    Keeps start (recover cause kinds) := by
  refine .bind (keeps_report cause) fun _ => ?_
  refine .bind keeps_atEnd? fun ended => ?_
  split
  · exact keeps_node fun _ => .bind keeps_take fun _ => keeps_takeUntil kinds
  · exact keeps_pure ()

def stopped (kinds : List Token.Kind) (state : State) : Bool :=
  (state.peek? 0).isNone || (state.peek? 0).any kinds.contains ||
    state.afterBreak

/-- The end of a bracketed construct, with nothing to set aside if recovery
stops at once. -/
def closeUnless (closer : Token.Kind) (stopped : Bool) : Parser Unit :=
  if stopped then do
    let _ ← accept closer
  else do
    report .unexpectedToken
    node .error (takeUntil (closer :: closers))
    let _ ← accept closer

theorem run_close (closer : Token.Kind) (state : State) :
    (close closer).run state =
      (closeUnless closer (stopped (closer :: closers) state)).run state := by
  change (if !(state.peek? 0).isNone &&
    !(state.peek? 0).any (closer :: closers).contains &&
    !state.afterBreak then _ else _ : Parser Unit).run state = _
  rw [← Bool.not_or, ← Bool.not_or, closeUnless]
  change (if !stopped (closer :: closers) state then _ else
    _ : Parser Unit).run state = _
  cases stopped (closer :: closers) state <;> rfl

theorem close_eq (closer : Token.Kind) :
    close closer = stopped (closer :: closers) <$> get >>= closeUnless closer :=
  funext (run_close closer)

theorem keeps_close (closer : Token.Kind) : Keeps start (close closer) := by
  have haccept : Keeps start (do let _ ← accept closer) :=
    .bind (keeps_accept closer) fun _ => keeps_pure ()
  refine .bind keeps_atEnd? fun ended => ?_
  refine .bind (keeps_atAny? _) fun found => ?_
  refine .bind keeps_afterBreak? fun broken => ?_
  split
  · refine .bind (keeps_report _) fun _ => ?_
    exact .bind (keeps_node fun _ => keeps_takeUntil _) fun _ => haccept
  · exact haccept

end Parser

end PklAnalysis

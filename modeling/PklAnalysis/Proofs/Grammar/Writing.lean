import PklAnalysis.Proofs.Grammar.Shape
import PklAnalysis.Proofs.Grammar.Twin

/-!
What parsers write as long as they find no error: trees that conform to the
grammar and stand side by side in a certain shape. Parsers that are put together
write shapes that are put together alike.
-/

namespace PklAnalysis.Parser

open View

/-- The trees after the place `start` conform to the grammar and have a
shape. -/
structure State.Built (start : Nat) (shape : Shape) (state : State) : Prop where
  word : Tree.symbols (state.builder.trees.toList.drop start) ∈ shape.words
  conforms : ∀ tree ∈ state.builder.trees.toList.drop start, tree.Conforms

def Clean (parser : Parser α) : Prop :=
  ∀ state, (parser.run state).2.errors = [] → state.errors = []

/-- If the next tokens are as `view` says and the parser finds no error, it
turns trees of the shape `before` after the place `start` into trees of a shape
that its value tells. -/
structure Writes (view : View) (start : Nat) (before : Shape)
    (parser : Parser α) (after : α → Shape) : Prop where
  keeps : Keeps start parser
  clean : Clean parser
  built : ∀ state : State, state.builder.accepts start = true →
    view state.peek? →
    state.Built start before → (parser.run state).2.errors = [] →
    (parser.run state).2.Built start (after (parser.run state).1)

/-- If the next tokens are as `view` says and the parser finds no error, it
writes trees of a shape. -/
def Adds (view : View) (parser : Parser α) (shape : Shape) : Prop :=
  ∀ start, Writes view start .empty parser fun _ => shape

variable {view : View} {start : Nat} {before shape rest : Shape}

theorem clean_of_view {parser : Parser α} {value : State → α}
    (hrun : ∀ state, parser.run state = (value state, state)) :
    Clean parser := by
  intro state herrors
  rwa [hrun] at herrors

theorem clean_pure (value : α) : Clean (pure value) :=
  clean_of_view fun _ => rfl

theorem clean_skipTrivia : Clean skipTrivia := fun state herrors =>
  (errors_skipTrivia state).symm.trans herrors

theorem clean_take : Clean take := by
  intro state herrors
  have herrors : (skipTrivia.run state).2.advance.errors = [] := herrors
  rw [State.errors_advance] at herrors
  exact clean_skipTrivia state herrors

theorem clean_report (cause : SyntaxError.Cause) : Clean (report cause) :=
  fun _ => nofun

theorem Clean.bind {first : Parser α} {next : α → Parser β}
    (hfirst : Clean first) (hnext : ∀ value, Clean (next value)) :
    Clean (first >>= next) :=
  fun state herrors => hfirst state (hnext _ _ herrors)

theorem Clean.ite {condition : Prop} [Decidable condition]
    {parser other : Parser α} (hthen : Clean parser) (helse : Clean other) :
    Clean (if condition then parser else other) := by
  split
  case isTrue => exact hthen
  case isFalse => exact helse

theorem clean_enclose {kind : Node.Kind} {body : Parser α}
    (hbody : Clean body) :
    Clean (enclose kind body) :=
  fun state herrors =>
    hbody { state with builder := state.builder.start kind } herrors

theorem clean_nodeAt {kind : Node.Kind} {body : Parser α} (hbody : Clean body) :
    Clean (nodeAt start kind body) :=
  fun state herrors =>
    hbody { state with builder := state.builder.startAt start kind } herrors

theorem clean_iterate {step : α → Parser (Option α)}
    (hstep : ∀ value, Clean (step value)) (limit : Nat) (value : α) :
    Clean (iterate step limit value) :=
  holds_iterate clean_pure (fun value _ hnext => (hstep value).bind hnext)
    limit value

theorem clean_repeatFrom {step : α → Parser (Option α)} {value : α}
    (hstep : ∀ value, Clean (step value)) : Clean (repeatFrom step value) :=
  fun _ herrors => clean_iterate hstep _ _ _ herrors

theorem clean_repeatWhile {step : Parser Bool} (hstep : Clean step) :
    Clean (repeatWhile step) :=
  clean_repeatFrom fun _ => hstep.bind fun _ => clean_pure _

theorem clean_takeUntil (kinds : List Token.Kind) :
    Clean (takeUntil kinds) := by
  refine clean_repeatWhile ?_
  refine (clean_of_view fun _ => rfl).bind fun _ =>
    (clean_of_view fun _ => rfl).bind fun _ => ?_
  refine (clean_of_view fun _ => rfl).bind fun _ => .ite (clean_pure _) ?_
  exact clean_take.bind fun _ => clean_pure _

theorem clean_node {kind : Node.Kind} {body : Parser α} (hbody : Clean body) :
    Clean (node kind body) :=
  clean_skipTrivia.bind fun _ => clean_enclose hbody

namespace State.Built

variable {state inner : State}

theorem mono (hbuilt : state.Built start before)
    (hle : before.words ≤ shape.words) :
    state.Built start shape :=
  ⟨hle hbuilt.word, hbuilt.conforms⟩

theorem of_mark (state : State) : state.Built state.builder.mark .empty := by
  refine ⟨?_, ?_⟩
  · rw [Builder.drop_mark]
    exact Shape.mem_empty.mpr rfl
  · rw [Builder.drop_mark]
    exact nofun

theorem append {place : Nat} (hbuilt : state.Built start before)
    (hinner : inner.Built place shape) (hle : start ≤ place)
    (hplace : place = state.builder.trees.size)
    (hreads : state.Reads place inner) :
    inner.Built start (before.seq shape) := by
  refine ⟨?_, ?_⟩
  · rw [hreads.drop_eq hle hplace, Tree.symbols_append]
    exact Shape.mem_seq.mpr ⟨_, hbuilt.word, _, hinner.word, rfl⟩
  · rw [hreads.drop_eq hle hplace]
    exact List.forall_mem_append.mpr ⟨hbuilt.conforms, hinner.conforms⟩

theorem skipTrivia (hbuilt : state.Built start shape)
    (hstart : start ≤ state.builder.trees.size) :
    (skipTrivia.run state).2.Built start shape := by
  refine ⟨?_, ?_⟩
  · rw [← Tree.symbols_bareAll, bareAll_skipTrivia hstart, Tree.symbols_bareAll]
    exact hbuilt.word
  · refine State.advanceBy_induction
      (motive := fun first last => start ≤ first.builder.trees.size →
      (∀ tree ∈ first.builder.trees.toList.drop start, tree.Conforms) →
      ∀ tree ∈ last.builder.trees.toList.drop start, tree.Conforms)
        (fun _ _ hfirst => hfirst)
      (fun first last hlast hstart hfirst => ?_) state _ hstart hbuilt.conforms
    have hreads := State.reads_advance hstart
    refine hlast hreads.start_le fun tree htree => ?_
    cases htokens : first.tokens with
    | nil =>
        have hsame : first.advance = first := by rw [State.advance, htokens]
        rw [hsame] at htree
        exact hfirst tree htree
    | cons token rest =>
        rw [(State.advance_eq htokens).2.2,
          List.drop_append_of_le_length (by simpa using hstart),
          List.mem_append, List.mem_singleton] at htree
        rcases htree with hold | rfl
        · exact hfirst tree hold
        · exact .token

end State.Built

namespace Writes

variable {parser : Parser α} {after : α → Shape}

theorem mono {view' : View} {before' : Shape} {after' : α → Shape}
    (hwrites : Writes view start before parser after)
    (hview : ∀ peek, view' peek → view peek)
    (hbefore : before'.words ≤ before.words)
    (hafter : ∀ value, (after value).words ≤ (after' value).words) :
    Writes view' start before' parser after' :=
  ⟨hwrites.keeps, hwrites.clean, fun state haccepts hsees hbuilt herrors =>
    (hwrites.built state haccepts (hview _ hsees) (hbuilt.mono hbefore)
      herrors).mono (hafter _)⟩

theorem relax {after' : α → Shape}
    (hwrites : Writes view start before parser after)
    (hafter : ∀ value, (after value).words ≤ (after' value).words) :
    Writes view start before parser after' :=
  hwrites.mono (fun _ hsees => hsees) le_rfl hafter

theorem bind_sees {view' : View} {next : α → Parser β} {last : β → Shape}
    (hfirst : Writes view start before parser after)
    (hview : ∀ state, view state.peek? → view' (parser.run state).2.peek?)
    (hnext : ∀ value, Writes view' start (after value) (next value) last) :
    Writes view start before (parser >>= next) last := by
  refine ⟨hfirst.keeps.bind fun value => (hnext value).keeps,
    hfirst.clean.bind fun value => (hnext value).clean, ?_⟩
  intro state haccepts hsees hbuilt herrors
  have hmiddle := (hnext (parser.run state).1).clean _ herrors
  exact (hnext _).built _ ((hfirst.keeps state haccepts).accepts haccepts)
    (hview state hsees)
    (hfirst.built state haccepts hsees hbuilt hmiddle) herrors

theorem bind {next : α → Parser β} {last : β → Shape}
    (hfirst : Writes view start before parser after)
    (hnext : ∀ value, Writes anything start (after value) (next value) last) :
    Writes view start before (parser >>= next) last :=
  hfirst.bind_sees (fun _ _ => trivial) hnext

theorem look_bind {next : α → Parser β} {last : β → Shape} (value : State → α)
    (hrun : ∀ state, parser.run state = (value state, state)) (views : α → View)
    (hviews : ∀ state, view state.peek? → views (value state) state.peek?)
    (hnext : ∀ value, Writes (views value) start before (next value) last) :
    Writes view start before (parser >>= next) last := by
  refine ⟨?_, (clean_of_view hrun).bind fun value => (hnext value).clean, ?_⟩
  · refine .bind ?_ fun value => (hnext value).keeps
    exact keeps_of_unchanged (fun state => by rw [hrun])
      fun state => by rw [hrun]
  · intro state haccepts hsees hbuilt herrors
    rw [run_bind, hrun] at herrors ⊢
    exact (hnext _).built state haccepts (hviews state hsees) hbuilt herrors

theorem map {transform : α → β}
    (hwrites : Writes view start before parser fun _ => shape) :
    Writes view start before (transform <$> parser) fun _ => shape :=
  ⟨hwrites.keeps.map transform, hwrites.clean, hwrites.built⟩

theorem ite {condition : Prop} [Decidable condition] {other : Parser α}
    (hthen : condition → Writes view start before parser after)
    (helse : ¬condition → Writes view start before other after) :
    Writes view start before (if condition then parser else other) after := by
  split
  case isTrue hcondition => exact hthen hcondition
  case isFalse hcondition => exact helse hcondition

end Writes

theorem writes_give {value : α} {after : α → Shape}
    (hle : before.words ≤ (after value).words) :
    Writes view start before (pure value) after :=
  ⟨keeps_pure value, clean_pure value, fun _ _ _ hbuilt _ => hbuilt.mono hle⟩

theorem writes_pure (value : α) :
    Writes view start before (pure value) fun _ => before :=
  writes_give le_rfl

theorem writes_report_bind {cause : SyntaxError.Cause} {next : Unit → Parser α}
    {after : α → Shape} (hkeeps : Keeps start (next ()))
    (hclean : Clean (next ())) :
    Writes view start before (report cause >>= next) after :=
  ⟨(keeps_report cause).bind fun _ => hkeeps,
    (clean_report cause).bind fun _ => hclean,
    fun _ _ _ _ herrors => nomatch hclean _ herrors⟩

theorem Adds.writes {parser : Parser α} (hadds : Adds view parser shape) :
    Writes view start before parser fun _ => before.seq shape := by
  refine ⟨(hadds start).keeps, (hadds start).clean,
    fun state haccepts hsees hbuilt herrors => ?_⟩
  have hmark := Builder.accepts_mark haccepts
  have hinner := (hadds _).built state hmark hsees (.of_mark state) herrors
  exact hbuilt.append hinner (Builder.accepts_iff.mp haccepts).2 rfl
    ((hadds _).keeps state hmark)

namespace Adds

variable {parser : Parser α}

theorem mono {shape' : Shape} (hadds : Adds view parser shape)
    (hle : shape.words ≤ shape'.words) :
    Adds view parser shape' :=
  fun start => (hadds start).mono (fun _ hsees => hsees) le_rfl fun _ => hle

theorem sees {view' : View} (hadds : Adds view parser shape)
    (hview : ∀ peek, view' peek → view peek) : Adds view' parser shape :=
  fun start => (hadds start).mono hview le_rfl fun _ => le_rfl

theorem weaken (hadds : Adds anything parser shape) : Adds view parser shape :=
  hadds.sees fun _ _ => trivial

theorem bind {next : α → Parser β} (hfirst : Adds view parser shape)
    (hnext : ∀ value, Adds anything (next value) rest) :
    Adds view (parser >>= next) (shape.seq rest) :=
  fun start => (hfirst start).bind fun value => (hnext value).writes

theorem give {value : α → β} (hadds : Adds view parser shape) :
    Adds view (parser >>= fun found => pure (value found)) shape :=
  fun start => (hadds start).bind fun _ => writes_pure _

theorem ite {condition : Prop} [Decidable condition] {other : Parser α}
    (hthen : condition → Adds view parser shape)
    (helse : ¬condition → Adds view other shape) :
    Adds view (if condition then parser else other) shape :=
  fun start => .ite (fun hcondition => hthen hcondition start) fun hcondition =>
    helse hcondition start

theorem map {transform : α → β} (hadds : Adds view parser shape) :
    Adds view (transform <$> parser) shape :=
  fun start => (hadds start).map

end Adds

theorem adds_pure (value : α) : Adds view (pure value) .empty :=
  fun _ => writes_pure value

theorem writes_report (cause : SyntaxError.Cause) {after : Unit → Shape} :
    Writes view start before (report cause) after :=
  ⟨keeps_report cause, clean_report cause, fun _ _ _ _ => nofun⟩

theorem adds_report (cause : SyntaxError.Cause) :
    Adds view (report cause) shape :=
  fun _ => writes_report cause

theorem adds_report_bind {cause : SyntaxError.Cause} {next : Unit → Parser α}
    {other : Shape} (hnext : Adds anything (next ()) other) :
    Adds view (report cause >>= next) shape :=
  fun start => writes_report_bind (hnext start).keeps (hnext start).clean

theorem adds_look_bind {look : Parser α} {next : α → Parser β}
    (value : State → α) (hrun : ∀ state, look.run state = (value state, state))
    (hnext : ∀ value, Adds view (next value) shape) :
    Adds view (look >>= next) shape :=
  fun start => .look_bind value hrun (fun _ => view) (fun _ hsees => hsees)
    fun value => hnext value start

theorem writes_current?_bind {next : Option Token.Kind → Parser α}
    {after : α → Shape}
    (hnext : ∀ kind?,
      Writes (fun peek => peek 0 = kind?) start before (next kind?) after) :
    Writes view start before (current? >>= next) after :=
  .look_bind (fun state => state.peek? 0) (fun _ => rfl)
    (fun kind? peek => peek 0 = kind?)
    (fun _ _ => rfl) hnext

theorem adds_current?_bind {next : Option Token.Kind → Parser α}
    (hnext : ∀ kind?, Adds (fun peek => peek 0 = kind?) (next kind?) shape) :
    Adds view (current? >>= next) shape :=
  fun start => writes_current?_bind fun kind? => hnext kind? start

theorem Writes.at_among {parser : Parser α} {kinds : List Token.Kind}
    {kind : Token.Kind} {after : α → Shape}
    (hwrites : Writes (first kinds) start before parser after)
    (hkind : kind ∈ kinds) :
    Writes (fun peek => peek 0 = some kind) start before parser after :=
  hwrites.mono (fun _ hsees => ⟨kind, hkind, hsees⟩) le_rfl fun _ => le_rfl

theorem Writes.at_some {parser : Parser α} {kind : Token.Kind}
    {after : α → Shape}
    (hwrites : Writes (first [kind]) start before parser after) :
    Writes (fun peek => peek 0 = some kind) start before parser after :=
  hwrites.at_among (List.mem_singleton_self kind)

theorem Adds.at_some {parser : Parser α} {kind : Token.Kind}
    (hadds : Adds (first [kind]) parser shape) :
    Adds (fun peek => peek 0 = some kind) parser shape :=
  fun start => (hadds start).at_some

theorem writes_atAny?_bind {kinds : List Token.Kind} {next : Bool → Parser α}
    {after : α → Shape}
    (hfound : Writes (first kinds) start before (next true) after)
    (hmissed : Writes view start before (next false) after) :
    Writes view start before (atAny? kinds >>= next) after := by
  refine .look_bind (fun state => (state.peek? 0).any kinds.contains)
    (fun _ => rfl)
    (fun found peek => (peek 0).any kinds.contains = found ∧ view peek)
      (fun _ hsees => ⟨rfl, hsees⟩)
    fun found => ?_
  cases found with
  | true =>
      refine hfound.mono (fun peek hsees => ?_) le_rfl fun _ => le_rfl
      have hany := hsees.1
      cases hpeek : peek 0 with
      | none =>
          rw [hpeek] at hany
          cases hany
      | some kind =>
          rw [hpeek] at hany
          exact ⟨kind, List.contains_iff_mem.mp hany, hpeek⟩
  | false => exact hmissed.mono (fun _ hsees => hsees.2) le_rfl fun _ => le_rfl

theorem adds_atAny?_bind {kinds : List Token.Kind} {next : Bool → Parser α}
    (hfound : Adds (first kinds) (next true) shape)
    (hmissed : Adds view (next false) shape) :
    Adds view (atAny? kinds >>= next) shape :=
  fun start => writes_atAny?_bind (hfound start) (hmissed start)

theorem writes_at?_bind {kind : Token.Kind} {next : Bool → Parser α}
    {after : α → Shape}
    (hfound : Writes (first [kind]) start before (next true) after)
    (hmissed : Writes view start before (next false) after) :
    Writes view start before (at? kind >>= next) after := by
  refine .look_bind (fun state => decide (state.peek? 0 = some kind))
    (fun _ => rfl)
    (fun found peek => decide (peek 0 = some kind) = found ∧ view peek)
      (fun _ hsees => ⟨rfl, hsees⟩)
    fun found => ?_
  cases found with
  | true =>
      exact hfound.mono
        (fun _ hsees => ⟨kind, List.mem_singleton_self kind,
          of_decide_eq_true hsees.1⟩)
        le_rfl fun _ => le_rfl
  | false => exact hmissed.mono (fun _ hsees => hsees.2) le_rfl fun _ => le_rfl

theorem adds_at?_bind {kind : Token.Kind} {next : Bool → Parser α}
    (hfound : Adds (first [kind]) (next true) shape)
    (hmissed : Adds view (next false) shape) :
    Adds view (at? kind >>= next) shape :=
  fun start => writes_at?_bind (hfound start) (hmissed start)

theorem adds_option {kind : Token.Kind} {parser : Parser Unit}
    (hfound : Adds (first [kind]) parser shape) :
    Adds view
      (at? kind >>= fun found => if found = true then parser else pure ())
      (.optional shape) :=
  adds_at?_bind (hfound.mono Shape.le_optional)
    ((adds_pure ()).mono Shape.empty_le_optional)

theorem adds_option_bind {kind : Token.Kind} {next : Bool → Parser α}
    (hfound : Adds (first [kind]) (next true) (shape.seq rest))
    (hmissed : Adds view (next false) rest) :
    Adds view (at? kind >>= next) ((Shape.optional shape).seq rest) := by
  exact adds_at?_bind (hfound.mono (Shape.seq_mono Shape.left_le_either le_rfl))
    (hmissed.mono Shape.le_optional_seq)

theorem adds_take {kinds : List Token.Kind} :
    Adds (first kinds) take (.tokens kinds) := by
  refine fun start =>
    ⟨keeps_take, clean_take, fun state haccepts hsees hbuilt _ => ?_⟩
  have hskipped := hbuilt.skipTrivia (Builder.accepts_iff.mp haccepts).2
  have hstart := (keeps_skipTrivia state haccepts).start_le
  have htokens := tokens_skipTrivia state
  obtain ⟨kind, hkind, hpeek⟩ := hsees
  rw [State.peek?, nth?_zero, ← htokens] at hpeek
  change ((skipTrivia.run state).2.advance).Built start _
  generalize (skipTrivia.run state).2 = skipped at *
  cases hcons : skipped.tokens with
  | nil =>
      rw [hcons] at hpeek
      cases hpeek
  | cons token rest =>
      rw [hcons] at hpeek htokens
      have htoken : token.kind = kind := Option.some.inj hpeek
      have htrivia : (Tree.token token.kind token.text).isTrivia = false :=
        Token.isTrivia_of_dropWhile htokens.symm
      have hlength : start ≤ skipped.builder.trees.toList.length := by
        simpa using hstart
      have hbefore : Tree.symbols (skipped.builder.trees.toList.drop start) =
          [] := hskipped.word
      refine ⟨?_, ?_⟩
      · rw [(State.advance_eq hcons).2.2, List.drop_append_of_le_length hlength,
          Tree.symbols_append, hbefore, Tree.symbols_singleton htrivia]
        exact ⟨_, List.mem_map_of_mem (htoken ▸ hkind), rfl⟩
      · rw [(State.advance_eq hcons).2.2, List.drop_append_of_le_length hlength]
        refine List.forall_mem_append.mpr ⟨hskipped.conforms, ?_⟩
        exact List.forall_mem_singleton.mpr .token

theorem adds_take_bind {kinds : List Token.Kind} {next : Unit → Parser α}
    (hnext : Adds anything (next ()) rest) :
    Adds (first kinds) (take >>= next) ((Shape.tokens kinds).seq rest) :=
  adds_take.bind fun _ => hnext

theorem adds_take_take_bind {kind kind' : Token.Kind} {next : Unit → Parser α}
    (hnext : Adds anything (next ()) rest) :
    Adds (fun peek => peek 0 = some kind ∧ peek 1 = some kind')
      (take >>= fun _ => take >>= next)
      ((Shape.token kind).seq ((Shape.token kind').seq rest)) := by
  have hfirst : Adds (fun peek => peek 0 = some kind ∧ peek 1 = some kind') take
      (Shape.token kind) :=
    adds_take.sees fun _ hsees => ⟨kind, List.mem_singleton_self kind, hsees.1⟩
  have hsecond :
      Adds (first [kind']) (take >>= next) ((Shape.token kind').seq rest) :=
    adds_take_bind hnext
  refine fun start => (hfirst start).bind_sees (fun state hsees => ?_) fun _ =>
    hsecond.writes
  refine ⟨kind', List.mem_singleton_self kind', ?_⟩
  rw [peek?_take (something_of_eq hsees.1)]
  exact hsees.2

theorem adds_accept_bind {kind : Token.Kind} {next : Bool → Parser α}
    (hfound : Adds anything (next true) rest)
    (hmissed : Adds view (next false) shape) :
    Adds view (accept kind >>= next)
      (.either ((Shape.token kind).seq rest) shape) := by
  change Adds view (at? kind >>= fun found =>
    (if found = true then take >>= fun _ => pure true else
      pure false) >>= next) _
  refine adds_at?_bind ?_ (hmissed.mono Shape.right_le_either)
  have htake : Adds (first [kind]) (take >>= fun _ => next true)
      ((Shape.token kind).seq rest) :=
    adds_take_bind hfound
  exact htake.mono Shape.left_le_either

theorem adds_accept (kind : Token.Kind) :
    Adds view (accept kind) (.optional (.token kind)) := by
  refine adds_at?_bind ?_ ((adds_pure false).mono Shape.right_le_either)
  have htake : Adds (first [kind]) (take >>= fun _ => pure true)
      (.token kind) := adds_take.give
  exact htake.mono Shape.left_le_either

theorem adds_expect_bind {kind : Token.Kind} {next : Bool → Parser α}
    {other : Shape} (hfound : Adds anything (next true) rest)
    (hmissed : Adds anything (next false) other) :
    Adds view (expect kind >>= next) ((Shape.token kind).seq rest) := by
  have hreport :
      Adds view (report (.expectedToken kind) >>= fun _ => next false)
        .nothing :=
    adds_report_bind hmissed
  have haccept : Adds view (accept kind >>= fun found =>
      if found = true then next true else report (.expectedToken kind) >>=
        fun _ => next false) _ :=
    adds_accept_bind hfound hreport
  have hrun : (expect kind >>= next) = accept kind >>= fun found =>
      if found = true then next true else report (.expectedToken kind) >>=
        fun _ => next false := by
    rw [expect, bind_assoc]
    refine congrArg (accept kind >>= ·) (funext fun found => ?_)
    cases found <;> rfl
  rw [hrun]
  exact haccept.mono (Shape.either_le le_rfl Shape.nothing_le)

theorem adds_expect_then {kind : Token.Kind} {next : Parser α}
    (hnext : Adds anything next rest) :
    Adds view (expect kind >>= fun _ => next) ((Shape.token kind).seq rest) :=
  adds_expect_bind hnext hnext

theorem adds_accept_or {kind : Token.Kind} {next : Bool → Parser α}
    (hfound : Adds anything (next true) .empty)
    (hmissed : Adds view (next false) shape) :
    Adds view (accept kind >>= next) (.either (.token kind) shape) :=
  (adds_accept_bind hfound hmissed).mono
    (Shape.either_le ((Shape.seq_empty _).trans_le Shape.left_le_either)
      Shape.right_le_either)

theorem adds_expect (kind : Token.Kind) :
    Adds view (expect kind) (.token kind) := by
  have hexpect :
      Adds view (expect kind >>= pure) ((Shape.token kind).seq .empty) :=
    adds_expect_bind (adds_pure true) (adds_pure false)
  rw [bind_pure] at hexpect
  exact hexpect.mono (Shape.seq_empty _).le

theorem State.Built.finish {kind : Node.Kind} {outer : List (Node.Kind × Nat)}
    {inner : State} (hinner : inner.Built start shape)
    (hshape : shape.words ≤ kind.shape.words)
    (hstart : start ≤ inner.builder.trees.size)
    (hopen : inner.builder.openNodes = (kind, start) :: outer) :
    State.Built start (.node kind)
    { inner with builder := inner.builder.finish } := by
  have htrees := Builder.drop_trees_finish hopen hstart
  refine ⟨?_, ?_⟩
  · rw [htrees]
    exact ⟨_, List.mem_singleton_self _, rfl⟩
  · rw [htrees]
    exact List.forall_mem_singleton.mpr
      (.node (hshape hinner.word) hinner.conforms)

theorem writes_nodeAt {kind : Node.Kind} {body : Parser α}
    (hbody : Adds view body rest)
    (hshape : (before.seq rest).words ≤ kind.shape.words) :
    Writes view start before (nodeAt start kind body) fun _ => .node kind := by
  have hwrites : Writes view start before body fun _ => before.seq rest :=
    hbody.writes
  refine ⟨keeps_nodeAt fun inner => (hbody inner).keeps,
    clean_nodeAt hwrites.clean, ?_⟩
  intro state haccepts hsees hbuilt herrors
  let opened : State :=
    { state with builder := state.builder.startAt start kind }
  have haccepts' : opened.builder.accepts start = true :=
    Builder.accepts_iff.mpr ⟨Nat.le_refl start,
      (Builder.accepts_iff.mp haccepts).2⟩
  have hreads := hwrites.keeps opened haccepts'
  have hinner :=
    hwrites.built opened haccepts' hsees ⟨hbuilt.word, hbuilt.conforms⟩ herrors
  exact hinner.finish hshape hreads.start_le hreads.openNodes

theorem adds_enclose {kind : Node.Kind} {body : Parser α}
    (hbody : Adds view body shape) (hshape : shape.words ≤ kind.shape.words) :
    Adds view (enclose kind body) (.node kind) := by
  refine fun start => ⟨keeps_enclose fun inner => (hbody inner).keeps,
    clean_enclose (hbody start).clean,
      fun state haccepts hsees hbuilt herrors => ?_⟩
  let opened : State := { state with builder := state.builder.start kind }
  have haccepts' : opened.builder.accepts state.builder.mark = true :=
    Builder.accepts_iff.mpr ⟨Nat.le_refl _, Nat.le_refl _⟩
  have hreads := (hbody state.builder.mark).keeps opened haccepts'
  have hinner :=
    (hbody state.builder.mark).built opened haccepts' hsees
      (.of_mark opened) herrors
  have hnode := hinner.finish hshape hreads.start_le hreads.openNodes
  have hkeeps : Keeps state.builder.mark (enclose kind body) :=
    keeps_enclose fun inner => (hbody inner).keeps
  exact (hbuilt.append hnode (Builder.accepts_iff.mp haccepts).2 rfl
    (hkeeps state (Builder.accepts_mark haccepts))).mono (Shape.empty_seq _).le

theorem writes_skipTrivia_bind {next : Unit → Parser α} {after : α → Shape}
    (hnext : Writes view start before (next ()) after) :
    Writes view start before (skipTrivia >>= next) after := by
  refine ⟨keeps_skipTrivia.bind fun _ => hnext.keeps,
    clean_skipTrivia.bind fun _ => hnext.clean,
    fun state haccepts hsees hbuilt herrors => ?_⟩
  have hskipped := hbuilt.skipTrivia (Builder.accepts_iff.mp haccepts).2
  rw [← peek?_skipTrivia] at hsees
  exact hnext.built _ ((keeps_skipTrivia state haccepts).accepts haccepts) hsees
    hskipped herrors

theorem adds_node {kind : Node.Kind} {body : Parser α}
    (hbody : Adds view body shape) (hshape : shape.words ≤ kind.shape.words) :
    Adds view (node kind body) (.node kind) :=
  fun start => writes_skipTrivia_bind (adds_enclose hbody hshape start)

theorem writes_mark_bind {next : Nat → Parser α} {after : α → Shape}
    (hnext : ∀ place, Writes view place .empty (next place) after) :
    Writes view start .empty (mark >>= next) after := by
  have hplace :
      Writes view start .empty
        (get >>= fun state : State => next state.builder.mark)
      after := by
    refine ⟨fun state haccepts => ?_,
      fun state herrors => (hnext _).clean state herrors,
      fun state haccepts hsees hbuilt herrors => ?_⟩
    · have hmark := Builder.accepts_mark haccepts
      exact ((hnext _).keeps state hmark).mono
        (Builder.accepts_iff.mp haccepts).2
    · have hmark := Builder.accepts_mark haccepts
      have hinner := (hnext _).built state hmark hsees (.of_mark state) herrors
      exact (hbuilt.append hinner (Builder.accepts_iff.mp haccepts).2 rfl
        ((hnext _).keeps state hmark)).mono (Shape.empty_seq _).le
  have hskip : Writes view start .empty
      (skipTrivia >>= fun _ => get >>= fun state : State =>
        next state.builder.mark) after :=
    writes_skipTrivia_bind hplace
  exact hskip

theorem adds_mark_bind {next : Nat → Parser α}
    (hnext : ∀ place, Writes view place .empty (next place) fun _ => shape) :
    Adds view (mark >>= next) shape :=
  fun _ => writes_mark_bind hnext

theorem writes_iterate {step : α → Parser (Option α)}
    (hstep : ∀ value, Writes anything start before (step value) fun _ => before)
    (limit : Nat) (value : α) :
    Writes view start before (iterate step limit value) fun _ => before := by
  let holds (parser : Parser α) : Prop :=
    Writes anything start before parser fun _ => before
  have hloop : holds (iterate step limit value) :=
    holds_iterate writes_pure (fun value _ hnext => (hstep value).bind hnext)
      limit value
  exact hloop.mono (fun _ _ => trivial) le_rfl fun _ => le_rfl

theorem writes_repeatFrom {step : α → Parser (Option α)} {value : α}
    (hstep : ∀ value, Writes anything start before (step value) fun _ =>
      before) :
    Writes view start before (repeatFrom step value) fun _ => before :=
  .look_bind id (fun _ => rfl) (fun _ => view) (fun _ hsees => hsees)
    fun _ => writes_iterate hstep _ value

theorem writes_repeatWhile {step : Parser Bool}
    (hstep : Writes anything start before step fun _ => before) :
    Writes view start before (repeatWhile step) fun _ => before :=
  writes_repeatFrom fun _ => hstep.bind fun _ => writes_pure _

theorem adds_repeatWhile {step : Parser Bool}
    (hstep : Adds anything step (.optional shape)) :
    Adds view (repeatWhile step) (.many shape) := by
  refine fun start => (writes_repeatWhile ?_).mono (fun _ hsees => hsees)
    (Shape.empty_le_many shape)
    fun _ => le_rfl
  have hmore : Writes anything start (.many shape) step fun _ =>
      (Shape.many shape).seq (.optional shape) := hstep.writes
  exact hmore.mono (fun _ hsees => hsees) le_rfl fun _ =>
    Shape.many_seq_optional_le shape

theorem writes_recover (cause : SyntaxError.Cause) (kinds : List Token.Kind)
    {after : Unit → Shape} :
    Writes view start before (recover cause kinds) after := by
  refine writes_report_bind (.bind keeps_atEnd? fun _ => ?_) ?_
  · split
    case isTrue =>
        exact keeps_node fun _ => .bind keeps_take fun _ =>
          keeps_takeUntil kinds
    case isFalse => exact keeps_pure ()
  · refine (clean_of_view fun _ => rfl).bind fun _ => .ite ?_ (clean_pure ())
    exact clean_node (clean_take.bind fun _ => clean_takeUntil kinds)

theorem adds_close (closer : Token.Kind) :
    Adds view (close closer) (.optional (.token closer)) := by
  have hrest :
      Adds view (do let _ ← accept closer) (.optional (.token closer)) :=
    (adds_accept closer).give
  refine adds_look_bind _ (fun _ => rfl) fun _ =>
      adds_look_bind _ (fun _ => rfl) fun _ =>
    adds_look_bind _ (fun _ => rfl) fun _ => .ite (fun _ => ?_) fun _ => hrest
  refine fun start => writes_report_bind ?_ ?_
  · exact .bind (keeps_node fun _ => keeps_takeUntil _) fun _ =>
      (hrest start).keeps
  · exact (clean_node (clean_takeUntil _)).bind fun _ => (hrest start).clean

end PklAnalysis.Parser

import PklAnalysis.Proofs.Grammar.Conformance
import PklAnalysis.Proofs.Grammar.Followed

/-!
Parsers that do the same if more tokens follow on a new line, as far as the
state after them is sound. Parsers that are put together from such parsers are
such again.

A parser may look at a token that could begin an element only where there is
one. So where it matters, it is said that tokens are left after a parser, and
then there were some before.
-/

namespace PklAnalysis.Parser

open View

/-- If the next tokens are as `view` says, and the state after the parser is
sound and `least` tokens are left, then the parser does the same where `rest`
follows. It spends a token if its value is one of `spends`. -/
structure Stays (rest : List Token) (view : View) (least : Nat)
    (spends : α → Prop) (start : Nat) (parser : Parser α) : Prop where
  keeps : Keeps start parser
  runs : Runs .all parser
  same : ∀ state : State, state.builder.accepts start = true →
    view state.peek? → state.Ends →
    (parser.run state).2.Sound → least ≤ (parser.run state).2.count →
    parser.run (state.followed rest) = ((parser.run state).1,
      (parser.run state).2.followed rest) ∧
      (spends (parser.run state).1 → (parser.run state).2.count < state.count)

variable {rest : List Token} {view : View} {least start : Nat}

namespace Stays

variable {spends : α → Prop} {parser : Parser α}

theorem mono {view' : View} {least' : Nat} {spends' : α → Prop}
    (hstays : Stays rest view least spends start parser)
    (hview : ∀ peek, view' peek → view peek) (hleast : least ≤ least')
    (hspends : ∀ value, spends' value → spends value) :
    Stays rest view' least' spends' start parser := by
  refine ⟨hstays.keeps, hstays.runs,
    fun state haccepts hsees hends hsound hleft => ?_⟩
  obtain ⟨hsame, hspent⟩ :=
    hstays.same state haccepts (hview _ hsees) hends hsound
      (Nat.le_trans hleast hleft)
  exact ⟨hsame, fun hvalue => hspent (hspends _ hvalue)⟩

theorem sees {view' : View} (hstays : Stays rest view least spends start parser)
    (hview : ∀ peek, view' peek → view peek) :
    Stays rest view' least spends start parser :=
  hstays.mono hview (Nat.le_refl _) fun _ hvalue => hvalue

theorem relax (hstays : Stays rest view 0 spends start parser) :
    Stays rest view least spends start parser :=
  hstays.mono (fun _ hsees => hsees) (Nat.zero_le _) fun _ hvalue => hvalue

theorem forget (hstays : Stays rest view least spends start parser) :
    Stays rest view least never start parser :=
  hstays.mono (fun _ hsees => hsees) (Nat.le_refl _) fun _ hnever => hnever.elim

theorem weaken (hstays : Stays rest anything 0 spends start parser) :
    Stays rest view least never start parser :=
  (hstays.relax.sees fun _ _ => trivial).forget

theorem of_some {kind : Token.Kind}
    (hstays : Stays rest something least spends start parser) :
    Stays rest (fun peek => peek 0 = some kind ∧ view peek) least spends start
      parser :=
  hstays.sees fun _ hsees => something_of_eq hsees.1

theorem of_among {kinds : List Token.Kind} {kind : Token.Kind}
    (hstays : Stays rest (first kinds) least spends start parser)
    (hkind : kind ∈ kinds) :
    Stays rest (fun peek => peek 0 = some kind ∧ view peek) least spends start
      parser :=
  hstays.sees fun _ hsees => ⟨kind, hkind, hsees.1⟩

/-- Where no token is left, nothing is asked of a parser that finds an error
there. -/
theorem of_starves (hstarves : Starves parser)
    (hsome : Stays rest (fun peek => something peek ∧ view peek) least spends
      start parser) :
    Stays rest view least spends start parser := by
  refine ⟨hsome.keeps, hsome.runs,
    fun state haccepts hsees hends hsound hleft => ?_⟩
  have hpos : 0 < state.count :=
    Nat.pos_of_ne_zero fun hzero => hstarves state hzero hsound.errors
  exact hsome.same state haccepts ⟨State.something_of_count hpos, hsees⟩ hends
    hsound hleft

theorem inside
    (hsome : Stays rest (fun peek => something peek ∧ view peek) 1 spends start
      parser) :
    Stays rest view 1 spends start parser := by
  refine ⟨hsome.keeps, hsome.runs,
    fun state haccepts hsees hends hsound hleft => ?_⟩
  have hpos : 0 < state.count :=
    Nat.lt_of_lt_of_le hleft (hsome.keeps state haccepts).count_le
  exact hsome.same state haccepts ⟨State.something_of_count hpos, hsees⟩ hends
    hsound hleft

theorem bind_of {spends : β → Prop} {took : α → Prop} {first : Parser α}
    {next : α → Parser β} {least' : Nat} (later : α → β → Prop)
    (hfirst : Stays rest view least' took start first)
    (hnext : ∀ value,
      Stays rest anything least (later value) start (next value))
    (hleast : ∀ value (state : State), state.builder.accepts start = true →
      ((next value).run state).2.Sound →
        least ≤ ((next value).run state).2.count → least' ≤ state.count)
    (hspends : ∀ value result,
      spends result → took value ∨ later value result) :
    Stays rest view least spends start (first >>= next) := by
  refine ⟨hfirst.keeps.bind fun value => (hnext value).keeps,
    hfirst.runs.bind fun value => (hnext value).runs, ?_⟩
  intro state haccepts hsees hends hsound hleft
  have hreads := hfirst.keeps state haccepts
  have haccepts' := hreads.accepts haccepts
  have hnext := hnext (first.run state).1
  have hmiddle := hsound.of_after (hnext.runs _)
  obtain ⟨hsame, htook⟩ :=
    hfirst.same state haccepts hsees hends hmiddle
      (hleast _ _ haccepts' hsound hleft)
  obtain ⟨hsame', hlater⟩ :=
    hnext.same _ haccepts' trivial (hends.of_before hreads) hsound hleft
  refine ⟨?_, fun hspent => ?_⟩
  · rw [run_bind, run_bind, hsame]
    exact hsame'
  · rcases hspends _ _ hspent with htaken | htaken
    · exact Nat.lt_of_le_of_lt (hnext.keeps _ haccepts').count_le (htook htaken)
    · exact Nat.lt_of_lt_of_le (hlater htaken) hreads.count_le

theorem bind {spends : β → Prop} {took : α → Prop} {first : Parser α}
    {next : α → Parser β} (hfirst : Stays rest view 0 took start first)
    (hnext : ∀ value, Stays rest anything least spends start (next value)) :
    Stays rest view least spends start (first >>= next) :=
  hfirst.bind_of (fun _ => spends) hnext (fun _ _ _ _ _ => Nat.zero_le _)
    fun _ _ => .inr

theorem before {spends : β → Prop} {first : Parser α} {next : α → Parser β}
    (hfirst : Stays rest view 0 always start first)
    (hnext : ∀ value, Stays rest anything least never start (next value)) :
    Stays rest view least spends start (first >>= next) :=
  hfirst.bind_of (fun _ => never) hnext (fun _ _ _ _ _ => Nat.zero_le _)
    fun _ _ _ => .inl trivial

/-- A token is left after the first parser, since the second one would miss
it. -/
theorem bind_starves {spends : β → Prop} {took : α → Prop} {first : Parser α}
    {next : α → Parser β} (hfirst : Stays rest view 1 took start first)
    (hnext : ∀ value, Stays rest anything least spends start (next value))
    (hstarves : ∀ value, Starves (next value)) :
    Stays rest view least spends start (first >>= next) :=
  hfirst.bind_of (fun _ => spends) hnext
    (fun value state _ hsound _ =>
      Nat.pos_of_ne_zero fun hzero => hstarves value state hzero hsound.errors)
        fun _ _ => .inr

theorem map {spends' : β → Prop} {transform : α → β}
    (hstays : Stays rest view least spends start parser)
    (hspends : ∀ value, spends' (transform value) → spends value) :
    Stays rest view least spends' start (transform <$> parser) := by
  refine ⟨hstays.keeps.map _, hstays.runs.map _,
    fun state haccepts hsees hends hsound hleft => ?_⟩
  obtain ⟨hsame, hspent⟩ := hstays.same state haccepts hsees hends hsound hleft
  have hrun : ∀ state, (transform <$> parser).run state =
      (transform (parser.run state).1, (parser.run state).2) := fun _ => rfl
  rw [hrun, hrun, hsame]
  exact ⟨rfl, fun hvalue => hspent (hspends _ hvalue)⟩

theorem ite {condition : Prop} [Decidable condition] {other : Parser α}
    (hthen : condition → Stays rest view least spends start parser)
    (helse : ¬condition → Stays rest view least spends start other) :
    Stays rest view least spends start
      (if condition then parser else other) := by
  split
  case isTrue hcondition => exact hthen hcondition
  case isFalse hcondition => exact helse hcondition

end Stays

theorem stays_of_errors {spends : α → Prop} {parser : Parser α}
    (hkeeps : Keeps start parser) (hruns : Runs .all parser)
    (herrors : ∀ state, view state.peek? → (parser.run state).2.errors ≠ []) :
    Stays rest view least spends start parser :=
  ⟨hkeeps, hruns,
    fun _ _ hsees _ hsound _ => absurd hsound.errors (herrors _ hsees)⟩

theorem stays_pure {spends : α → Prop} {value : α} (hvalue : ¬spends value) :
    Stays rest view least spends start (pure value) :=
  ⟨keeps_pure value, runs_pure value,
    fun _ _ _ _ _ _ => ⟨rfl, fun hspent => absurd hspent hvalue⟩⟩

theorem stays_done {value : α} :
    Stays rest view least never start (pure value) :=
  stays_pure id

theorem stays_report (cause : SyntaxError.Cause) {spends : Unit → Prop} :
    Stays rest view least spends start (report cause) :=
  stays_of_errors (keeps_report cause) (runs_report cause) fun _ _ =>
    List.cons_ne_nil _ _

theorem stays_report_bind {spends : α → Prop} {cause : SyntaxError.Cause}
    {next : Unit → Parser α} (hkeeps : Keeps start (next ()))
    (hruns : Runs .all (next ())) :
    Stays rest view least spends start (report cause >>= next) := by
  refine stays_of_errors ((keeps_report cause).bind fun _ => hkeeps)
    ((runs_report cause).bind fun _ => hruns) fun state _ herrors => ?_
  exact absurd ((hruns _).errors herrors) (List.cons_ne_nil _ _)

theorem stays_report_then {spends : α → Prop} {cause : SyntaxError.Cause}
    {parser : Parser α} (hkeeps : Keeps start parser)
    (hruns : Runs .all parser) :
    Stays rest view least spends start (report cause >>= fun _ => parser) :=
  stays_report_bind hkeeps hruns

/-- A parser that only looks, and sees the same where more tokens follow, as far
as the state in the end is sound. -/
theorem stays_look_bind {spends : β → Prop} {look : Parser α}
    {next : α → Parser β} (value : State → α)
    (hrun : ∀ state, look.run state = (value state, state))
    (hvalue : ∀ state : State, state.builder.accepts start = true →
      view state.peek? → state.Ends → ((next (value state)).run state).2.Sound →
        value (state.followed rest) = value state)
    (seen : α → View)
    (hseen : ∀ state, view state.peek? → seen (value state) state.peek?)
    (hnext : ∀ value, Stays rest (seen value) least spends start (next value)) :
    Stays rest view least spends start (look >>= next) := by
  refine ⟨?_, ?_, fun state haccepts hsees hends hsound hleft => ?_⟩
  · refine .bind ?_ fun value => (hnext value).keeps
    exact keeps_of_unchanged (fun state => by rw [hrun])
      fun state => by rw [hrun]
  · refine .bind ?_ fun value => (hnext value).runs
    exact runs_of_unchanged fun state => by rw [hrun]
  · rw [run_bind, hrun] at hsound hleft
    rw [run_bind, run_bind, hrun, hrun,
      hvalue state haccepts hsees hends hsound]
    exact (hnext _).same state haccepts (hseen state hsees) hends hsound hleft

section

variable (hsome : ∀ peek, view peek → something peek)
include hsome

theorem stays_current?_bind_of_some {spends : α → Prop}
    {next : Option Token.Kind → Parser α}
    (hnext : ∀ kind?,
      Stays rest (fun peek => peek 0 = kind? ∧ view peek) least spends start
        (next kind?)) :
    Stays rest view least spends start (current? >>= next) :=
  stays_look_bind (fun state => state.peek? 0) (fun _ => rfl)
    (fun _ _ hsees _ _ =>
      State.peek?_followed (State.count_pos (hsome _ hsees)))
    (fun kind? peek => peek 0 = kind? ∧ view peek)
      (fun _ hsees => ⟨rfl, hsees⟩) hnext

theorem stays_test_bind_of_some {spends : α → Prop} {test : Parser Bool}
    {next : Bool → Parser α} (holds : Option Token.Kind → Bool)
    (hrun : ∀ state, test.run state = (holds (state.peek? 0), state))
    (hfound : Stays rest (fun peek => holds (peek 0) = true ∧ view peek) least
      spends start (next true))
    (hmissed : Stays rest (fun peek => holds (peek 0) = false ∧ view peek) least
      spends start (next false)) :
    Stays rest view least spends start (test >>= next) := by
  refine stays_look_bind (fun state => holds (state.peek? 0)) hrun
    (fun _ _ hsees _ _ => by rw [State.peek?_followed
      (State.count_pos (hsome _ hsees))])
    (fun found peek => holds (peek 0) = found ∧ view peek)
      (fun _ hsees => ⟨rfl, hsees⟩) fun found => ?_
  cases found with
  | true => exact hfound
  | false => exact hmissed

theorem stays_at?_bind_of_some {spends : α → Prop} {kind : Token.Kind}
    {next : Bool → Parser α}
    (hfound : Stays rest (first [kind]) least spends start (next true))
    (hmissed : Stays rest view least spends start (next false)) :
    Stays rest view least spends start (at? kind >>= next) := by
  refine stays_test_bind_of_some hsome (fun kind? => decide (kind? = some kind))
    (fun _ => rfl) ?_ ?_
  · exact hfound.sees fun _ hsees => ⟨kind, List.mem_singleton_self kind,
      of_decide_eq_true hsees.1⟩
  · exact hmissed.sees fun _ hsees => hsees.2

theorem stays_atAny?_bind_of_some {spends : α → Prop} {kinds : List Token.Kind}
    {next : Bool → Parser α}
    (hfound : Stays rest (first kinds) least spends start (next true))
    (hmissed : Stays rest view least spends start (next false)) :
    Stays rest view least spends start (atAny? kinds >>= next) := by
  refine stays_test_bind_of_some hsome (fun kind? => kind?.any kinds.contains)
    (fun _ => rfl) ?_ ?_
  · refine hfound.sees fun peek hsees => ?_
    obtain ⟨kind, hpeek, hkind⟩ := (Option.any_eq_true _ _).mp hsees.1
    exact ⟨kind, List.contains_iff_mem.mp hkind, hpeek⟩
  · exact hmissed.sees fun _ hsees => hsees.2

end

section

variable (hrest : NewLine rest)
include hrest

theorem test_followed (holds : Option Token.Kind → Bool)
    (hline : ∀ kind ∈ lineStarts, holds (some kind) = holds none)
    (state : State) :
    holds ((state.followed rest).peek? 0) = holds (state.peek? 0) := by
  by_cases hpos : 0 < state.count
  · rw [State.peek?_followed hpos]
  · have hzero := Nat.eq_zero_of_not_pos hpos
    obtain ⟨kind, hkind, hpeek⟩ := state.peek?_followed_end hrest
    rw [hzero] at hpeek
    rw [hpeek, State.peek?_zero_eq_none_iff.mpr hzero, hline kind hkind]

theorem stays_test_bind {spends : α → Prop} {test : Parser Bool}
    {next : Bool → Parser α} (holds : Option Token.Kind → Bool)
    (hrun : ∀ state, test.run state = (holds (state.peek? 0), state))
    (hline : ∀ kind ∈ lineStarts, holds (some kind) = holds none)
    (hfound : Stays rest (fun peek => holds (peek 0) = true ∧ view peek) least
      spends start (next true))
    (hmissed : Stays rest (fun peek => holds (peek 0) = false ∧ view peek) least
      spends start (next false)) :
    Stays rest view least spends start (test >>= next) := by
  refine stays_look_bind (fun state => holds (state.peek? 0)) hrun
    (fun state _ _ _ _ => test_followed hrest holds hline state)
    (fun found peek => holds (peek 0) = found ∧ view peek)
      (fun _ hsees => ⟨rfl, hsees⟩) fun found => ?_
  cases found with
  | true => exact hfound
  | false => exact hmissed

theorem stays_at?_bind {spends : α → Prop} {kind : Token.Kind}
    {next : Bool → Parser α} (hkind : lineStarts.contains kind = false)
    (hfound : Stays rest (first [kind]) least spends start (next true))
    (hmissed : Stays rest view least spends start (next false)) :
    Stays rest view least spends start (at? kind >>= next) := by
  refine stays_test_bind hrest (fun kind? => decide (kind? = some kind))
    (fun _ => rfl) ?_ ?_ ?_
  · refine fun other hother => decide_eq_false fun hsame => ?_
    rw [Option.some.inj hsame] at hother
    rw [List.contains_iff_mem.mpr hother] at hkind
    cases hkind
  · exact hfound.sees fun _ hsees => ⟨kind, List.mem_singleton_self kind,
      of_decide_eq_true hsees.1⟩
  · exact hmissed.sees fun _ hsees => hsees.2

end

theorem stays_peek?_bind (hrest : NewLine rest) {spends : α → Prop} {n : Nat}
    {next : Option Token.Kind → Parser α}
    (hcount : ∀ state : State, view state.peek? → n ≤ state.count)
    (hline : ∀ kind ∈ lineStarts, next (some kind) = next none)
    (hnext : ∀ kind?,
      Stays rest (fun peek => peek n = kind? ∧ view peek) least spends start
        (next kind?)) :
    Stays rest view least spends start (peek? n >>= next) := by
  refine ⟨.bind (keeps_peek? n) fun kind? => (hnext kind?).keeps,
    .bind (runs_peek? n) fun kind? => (hnext kind?).runs,
      fun state haccepts hsees hends hsound hleft => ?_⟩
  have hrun : ∀ state : State,
      (peek? n >>= next).run state = (next (state.peek? n)).run state :=
    fun _ => rfl
  have hsame := (hnext _).same state haccepts ⟨rfl, hsees⟩ hends hsound hleft
  rw [hrun, hrun]
  rcases Nat.lt_or_eq_of_le (hcount state hsees) with hlt | rfl
  · rw [State.peek?_followed hlt]
    exact hsame
  · obtain ⟨kind, hkind, hpeek⟩ := state.peek?_followed_end hrest
    have hnone : state.peek? state.count = none := by
      rw [State.peek?, Token.nth?_eq,
        List.getElem?_eq_none (Nat.le_refl state.count)]
      rfl
    rw [hnone] at hsame ⊢
    rw [hpeek, hline kind hkind]
    exact hsame

/-- Where the parser finds an error without a token, it matters what it does
with one. -/
theorem stays_current?_bind {spends : α → Prop}
    {next : Option Token.Kind → Parser α} (hstarves : Starves (next none))
    (hnext : ∀ kind?,
      Stays rest (fun peek => peek 0 = kind? ∧ something peek ∧ view peek) least
        spends start (next kind?)) :
    Stays rest view least spends start (current? >>= next) :=
  .of_starves (starves_current?_bind hstarves)
    (stays_current?_bind_of_some (fun _ hsees => hsees.1) hnext)

theorem stays_afterBreak?_bind {spends : α → Prop} {next : Bool → Parser α}
    (hsome : ∀ peek, view peek → something peek)
    (hnext : ∀ broken, Stays rest view least spends start (next broken)) :
    Stays rest view least spends start (afterBreak? >>= next) :=
  stays_look_bind State.afterBreak (fun _ => rfl)
    (fun _ _ hsees _ _ => State.afterBreak_followed (hsome _ hsees))
      (fun _ => view)
    (fun _ hsees => hsees) hnext

theorem count_take {state : State} (hsome : something state.peek?) :
    (take.run state).2.count < state.count := by
  obtain ⟨token, later, hdrop⟩ := exists_cons_of_something hsome
  have htrivia := Token.isTrivia_of_dropWhile hdrop
  rw [← tokens_skipTrivia] at hdrop
  have hspent := State.count_advance hdrop htrivia
  rw [count_skipTrivia] at hspent
  exact Nat.lt_of_succ_le (Nat.le_of_eq hspent)

theorem stays_take : Stays rest something least always start take :=
  ⟨keeps_take, runs_take,
    fun _ _ hsome _ _ _ => ⟨run_take_followed hsome, fun _ => count_take hsome⟩⟩

theorem stays_take_bind {spends : α → Prop} {next : Unit → Parser α}
    (hnext : Stays rest anything least never start (next ())) :
    Stays rest something least spends start (take >>= next) :=
  stays_take.before fun _ => hnext

theorem something_of_first {kinds : List Token.Kind}
    {peek : Nat → Option Token.Kind} (hfirst : first kinds peek) :
    something peek :=
  something_of_eq hfirst.choose_spec.2

theorem stays_take_first {spends : α → Prop} {kinds : List Token.Kind}
    {next : Unit → Parser α}
    (hnext : Stays rest anything least never start (next ())) :
    Stays rest (first kinds) least spends start (take >>= next) :=
  (stays_take_bind hnext).sees fun _ => something_of_first

theorem stays_take_then {spends : α → Prop} (value : α) :
    Stays rest something least spends start (take >>= fun _ => pure value) :=
  stays_take_bind stays_done

theorem stays_accept (hrest : NewLine rest) {kind : Token.Kind}
    (hkind : lineStarts.contains kind = false) :
    Stays rest view least (· = true) start (accept kind) :=
  stays_at?_bind hrest hkind ((stays_take_then true).sees fun _ =>
    something_of_first) (stays_pure nofun)

theorem stays_accept_bind {spends : α → Prop} (hrest : NewLine rest)
    {kind : Token.Kind} {next : Bool → Parser α}
    (hkind : lineStarts.contains kind = false)
    (hfound : Stays rest anything least never start (next true))
    (hmissed : Stays rest view least spends start (next false)) :
    Stays rest view least spends start (accept kind >>= next) := by
  rw [accept, bind_assoc]
  refine stays_at?_bind hrest hkind ?_ hmissed
  rw [if_pos rfl, bind_assoc]
  exact stays_take_first hfound

/-- A token that must be there may be of any kind. -/
theorem stays_expect (kind : Token.Kind) :
    Stays rest view least never start (expect kind) := by
  refine .of_starves (starves_expect kind) ?_
  rw [expect, accept, bind_assoc]
  refine stays_at?_bind_of_some (fun _ hsees => hsees.1) ?_ ?_
  · exact (stays_take_then true).sees fun _ => something_of_first
  · exact stays_report_then (keeps_pure false) (runs_pure false)

theorem stays_take_again {spends : α → Prop} {next : Unit → Parser α}
    (hnext : Stays rest anything least never start (next ()))
    (hseen : ∀ peek, view peek → something peek ∧ something fun n =>
      peek (n + 1)) :
    Stays rest view least spends start (take >>= fun _ => take >>= next) := by
  have hrest' : Stays rest something least never start (take >>= next) :=
    stays_take_bind hnext
  refine ⟨keeps_take.bind fun _ => hrest'.keeps,
    runs_take.bind fun _ => hrest'.runs, ?_⟩
  intro state haccepts hsees hends hsound hleft
  obtain ⟨hfirst, hsecond⟩ := hseen _ hsees
  have hreads := keeps_take state haccepts
  have hpeek : (take.run state).2.peek? = fun n => state.peek? (n + 1) :=
    funext (peek?_take hfirst)
  have haccepts' := hreads.accepts haccepts
  obtain ⟨hsame, -⟩ :=
    hrest'.same _ haccepts' (hpeek ▸ hsecond) (hends.of_before hreads)
      hsound hleft
  refine ⟨?_,
    fun _ => Nat.lt_of_le_of_lt (hrest'.keeps _ haccepts').count_le
      (count_take hfirst)⟩
  rw [run_bind, run_bind, run_take_followed hfirst]
  exact hsame

theorem stays_skipTrivia_bind {spends : α → Prop} {next : Unit → Parser α}
    (hsome : ∀ peek, view peek → something peek)
    (hnext : Stays rest view least spends start (next ())) :
    Stays rest view least spends start (skipTrivia >>= next) := by
  refine ⟨keeps_skipTrivia.bind fun _ => hnext.keeps,
    runs_skipTrivia.bind fun _ => hnext.runs, ?_⟩
  intro state haccepts hsees hends hsound hleft
  have hreads := keeps_skipTrivia state haccepts
  have hskipped := hsees
  rw [← peek?_skipTrivia] at hskipped
  obtain ⟨hsame, hspent⟩ :=
    hnext.same _ (hreads.accepts haccepts) hskipped (hends.of_before hreads)
      hsound hleft
  rw [count_skipTrivia] at hspent
  refine ⟨?_, hspent⟩
  rw [run_bind, run_bind, run_skipTrivia_followed (hsome _ hsees)]
  exact hsame

theorem State.Sound.of_finish {inner : State} {kind : Node.Kind} {place : Nat}
    {outer : List (Node.Kind × Nat)}
    (hsound : ({ inner with builder := inner.builder.finish } : State).Sound)
    (hopen : inner.builder.openNodes = (kind, place) :: outer) :
    Node.Complete kind (inner.builder.trees.toList.drop place) ∧
      inner.Sound := by
  have hcomplete := hsound.complete
  rw [Builder.toList_trees_finish hopen, List.forall_mem_append,
    List.forall_mem_singleton, Tree.everywhere_node] at hcomplete
  refine ⟨hcomplete.2.1, hsound.errors, fun tree htree => ?_⟩
  rw [← List.take_append_drop place inner.builder.trees.toList] at htree
  exact (List.mem_append.mp htree).elim (hcomplete.1 tree) (hcomplete.2.2 tree)

theorem stays_nodeAt {spends : α → Prop} {kind : Node.Kind} {body : Parser α}
    (hbody : ∀ inner, Stays rest view least spends inner body) :
    Stays rest view least spends start (nodeAt start kind body) := by
  refine ⟨keeps_nodeAt fun inner => (hbody inner).keeps,
    runs_nodeAt (fun _ => trivial) (hbody start).runs start, ?_⟩
  intro state haccepts hsees hends hsound hleft
  let opened : State :=
    { state with builder := state.builder.startAt start kind }
  have hvalid : opened.builder.accepts start = true :=
    Builder.accepts_iff.mpr ⟨Nat.le_refl start,
      (Builder.accepts_iff.mp haccepts).2⟩
  have hinner : (body.run opened).2.Sound :=
    (State.Sound.of_finish hsound
      ((hbody start).keeps opened hvalid).openNodes).2
  obtain ⟨hsame, hspent⟩ :=
    (hbody start).same opened hvalid hsees hends hinner hleft
  have hfollowed : body.run { state.followed rest with
      builder := (state.followed rest).builder.startAt start kind } = _ := hsame
  refine ⟨?_, hspent⟩
  rw [run_nodeAt, run_nodeAt, hfollowed]
  rfl

theorem stays_enclose {spends : α → Prop} {kind : Node.Kind} {body : Parser α}
    (hbody : ∀ inner, Stays rest view least spends inner body) :
    Stays rest view least spends start (enclose kind body) := by
  refine ⟨keeps_enclose fun inner => (hbody inner).keeps,
    runs_enclose (fun _ => trivial) (hbody start).runs, ?_⟩
  intro state haccepts hsees hends hsound hleft
  have hnode : Stays rest view least spends state.builder.mark
      (nodeAt state.builder.mark kind body) :=
    stays_nodeAt hbody
  have hfollowed : (enclose kind body).run (state.followed rest) =
      (nodeAt state.builder.mark kind body).run (state.followed rest) :=
      enclose_run_eq haccepts
  rw [enclose_run_eq haccepts] at hsound hleft ⊢
  rw [hfollowed]
  exact hnode.same state (Builder.accepts_mark haccepts) hsees hends
    hsound hleft

theorem stays_node {spends : α → Prop} {kind : Node.Kind} {body : Parser α}
    (hsome : ∀ peek, view peek → something peek)
    (hbody : ∀ inner, Stays rest view least spends inner body) :
    Stays rest view least spends start (node kind body) :=
  stays_skipTrivia_bind hsome (stays_enclose hbody)

theorem stays_node_of_starves {spends : α → Prop} {kind : Node.Kind}
    {body : Parser α} (hstarves : Starves body)
    (hbody : ∀ inner, Stays rest view least spends inner body) :
    Stays rest view least spends start (node kind body) :=
  .of_starves (starves_node hstarves)
    (stays_node (fun _ hsees => hsees.1) fun inner =>
      (hbody inner).sees fun _ hsees => hsees.2)

theorem stays_mark_bind {spends : α → Prop} {next : Nat → Parser α}
    (hsome : ∀ peek, view peek → something peek)
    (hnext : ∀ place, Stays rest view least spends place (next place)) :
    Stays rest view least spends start (mark >>= next) := by
  have hplaced :
      Stays rest view least spends start
        (get >>= fun state => next state.builder.mark) := by
    refine ⟨fun state haccepts => ?_, fun state => (hnext _).runs state, ?_⟩
    · exact ((hnext _).keeps state (Builder.accepts_mark haccepts)).mono
        (Builder.accepts_iff.mp haccepts).2
    · exact fun state haccepts =>
        (hnext _).same state (Builder.accepts_mark haccepts)
  change Stays rest view least spends start
    (skipTrivia >>= fun _ => get >>= fun state => next state.builder.mark)
  exact stays_skipTrivia_bind hsome hplaced

theorem stays_mark_bind_of_starves {spends : α → Prop} {next : Nat → Parser α}
    (hstarves : ∀ place, Starves (next place))
    (hnext : ∀ place, Stays rest view least spends place (next place)) :
    Stays rest view least spends start (mark >>= next) :=
  .of_starves (starves_mark_bind hstarves)
    (stays_mark_bind (fun _ hsees => hsees.1) fun place =>
      (hnext place).sees fun _ hsees => hsees.2)

/-- A loop whose every repeated step spends a token makes as many steps if more
tokens follow, whatever the limits are, as long as they are beyond the number of
tokens that are left. -/
theorem stays_iterate {step : α → Parser (Option α)}
    (hstep : ∀ value,
      Stays rest anything least (·.isSome = true) start (step value))
    {limit limit' : Nat} (value : α) {state : State}
    (haccepts : state.builder.accepts start = true) (hends : state.Ends)
    (hsound : ((iterate step limit value).run state).2.Sound)
    (hleft : least ≤ ((iterate step limit value).run state).2.count)
    (hlimit : state.count < limit) (hlimit' : state.count < limit') :
    (iterate step limit' value).run (state.followed rest) =
      (((iterate step limit value).run state).1,
        ((iterate step limit value).run state).2.followed rest) := by
  induction limit generalizing limit' value state with
  | zero => exact absurd hlimit (Nat.not_lt_zero _)
  | succ limit ih =>
      obtain ⟨limit', rfl⟩ :=
        Nat.exists_eq_add_one_of_ne_zero (Nat.ne_zero_of_lt hlimit')
      have hreads := (hstep value).keeps state haccepts
      rw [iterate, run_bind] at hsound hleft
      rw [iterate, iterate, run_bind, run_bind]
      cases hnext : ((step value).run state).1 with
      | none =>
          rw [hnext] at hsound hleft
          obtain ⟨hsame, -⟩ :=
            (hstep value).same state haccepts trivial hends hsound hleft
          rw [hsame, hnext]
          rfl
      | some next =>
          rw [hnext] at hsound hleft
          have haccepts' := hreads.accepts haccepts
          have hmiddle : ((step value).run state).2.Sound :=
            hsound.of_after
              (runs_iterate (fun value => (hstep value).runs) limit next _)
          have hle :
              ((iterate step limit next).run
                ((step value).run state).2).2.count ≤
              ((step value).run state).2.count :=
            (keeps_iterate (fun value => (hstep value).keeps) limit next _
              haccepts').count_le
          obtain ⟨hsame, hspent⟩ :=
            (hstep value).same state haccepts trivial hends hmiddle
            (Nat.le_trans hleft hle)
          have hlt := hspent (by rw [hnext]; rfl)
          rw [hsame, hnext]
          exact ih next haccepts' (hends.of_before hreads) hsound hleft
            (by omega) (by omega)

theorem stays_repeatFrom {step : α → Parser (Option α)} {value : α}
    (hstep : ∀ value,
      Stays rest anything least (·.isSome = true) start (step value)) :
    Stays rest view least never start (repeatFrom step value) := by
  refine ⟨keeps_repeatFrom fun value => (hstep value).keeps,
    runs_repeatFrom fun value => (hstep value).runs, ?_⟩
  intro state haccepts _ hends hsound hleft
  refine ⟨stays_iterate hstep value haccepts hends hsound hleft
    (Nat.lt_succ_of_le state.count_le_length) ?_, fun hnever => hnever.elim⟩
  refine Nat.lt_succ_of_le (Nat.le_trans state.count_le_length ?_)
  rw [State.followed, List.length_append]
  exact Nat.le_add_right _ _

theorem stays_repeatWhile {step : Parser Bool}
    (hstep : Stays rest anything least (· = true) start step) :
    Stays rest view least never start (repeatWhile step) := by
  refine stays_repeatFrom fun _ => ?_
  refine (hstep.bind_of (fun more next => more = false ∧ next.isSome = true)
    (fun more => stays_pure ?_)
    (fun _ _ _ _ hleft => hleft) fun more next hnext => ?_)
  · cases more <;> simp
  · cases more <;> simp_all

theorem stopped_followed (hrest : NewLine rest) (kinds : List Token.Kind)
    (state : State) :
    stopped kinds (state.followed rest) = stopped kinds state := by
  by_cases hpos : 0 < state.count
  · rw [stopped, stopped, State.peek?_followed hpos,
      State.afterBreak_followed (State.something_of_count hpos)]
  · have hzero := Nat.eq_zero_of_not_pos hpos
    rw [stopped, stopped, State.afterBreak_followed_end hrest hzero,
      Bool.or_true, State.peek?_zero_eq_none_iff.mpr hzero]
    rfl

/-- A closing delimiter that is missing at the end of the tokens is missing at
the end of the line. -/
theorem stays_close (hrest : NewLine rest) {closer : Token.Kind}
    (hcloser : lineStarts.contains closer = false) :
    Stays rest view least never start (close closer) := by
  rw [close_eq]
  refine stays_look_bind _ (fun _ => rfl)
    (fun state _ _ _ _ => stopped_followed hrest _ state)
    (fun _ => anything) (fun _ _ => trivial) fun stopped =>
      .ite (fun _ => ?_) fun _ => ?_
  · exact (stays_accept hrest hcloser).bind fun _ => stays_done
  · refine stays_report_bind
      (.bind (keeps_node fun _ => keeps_takeUntil _) fun _ => ?_)
      (.bind (runs_node_error (moves_takeUntil _)) fun _ => ?_)
    · exact .bind (keeps_accept _) fun _ => keeps_pure ()
    · exact .bind (runs_accept _) fun _ => runs_pure ()

theorem run_close_of_count {closer : Token.Kind} {state : State}
    (hzero : state.count = 0) :
    (close closer).run state = ((), state) := by
  have hpeek := State.peek?_zero_eq_none_iff.mpr hzero
  have hstopped : stopped (closer :: closers) state = true := by
    rw [stopped, hpeek]
    rfl
  have hmissed : (accept closer).run state = (false, state) := by
    rw [run_accept, hpeek]
    rfl
  rw [run_close, hstopped, closeUnless, if_pos rfl, run_bind, hmissed]
  rfl

theorem count_pos_of_closed {opener closer : Token.Kind} {shape : Shape}
    {front : Parser α} {opened : State}
    (hdelimiter : (opener, closer) ∈ Node.delimiters)
    (hadds : Adds view front shape)
    (hopener : 0 < shape.least (· = .token opener))
    (hmissing : shape.may (· = .token closer) = false)
    (hvalid : opened.builder.accepts opened.builder.mark = true)
    (hsees : view opened.peek?) (hmiddle : (front.run opened).2.Sound)
    (hcomplete : Node.Closed
      (((close closer).run (front.run opened).2).2.builder.trees.toList.drop
        opened.builder.mark)) : 0 < (front.run opened).2.count := by
  refine Nat.pos_of_ne_zero fun hzero => ?_
  have hbuilt :=
    (hadds _).built opened hvalid hsees (.of_mark opened) hmiddle.errors
  rw [run_close_of_count hzero] at hcomplete
  have htrivia : ∀ delimiter ∈ Node.delimiters,
      delimiter.1.isTrivia = false ∧ delimiter.2.isTrivia = false := by decide
  obtain ⟨hopenerTrivia, hcloserTrivia⟩ := htrivia _ hdelimiter
  obtain ⟨symbol, hsymbol, hsame⟩ := List.countP_pos_iff.mp
    (Nat.lt_of_lt_of_le hopener (Shape.least_le_countP _ hbuilt.word))
  have hopened :=
    (Tree.token_mem_symbols hopenerTrivia).mp (of_decide_eq_true hsame ▸
      hsymbol)
  have hfound :=
    (Tree.token_mem_symbols hcloserTrivia).mpr (hcomplete _ hdelimiter hopened)
  have hmay := Shape.may_of_mem (· = .token closer) hbuilt.word hfound (by simp)
  rw [hmissing] at hmay
  cases hmay

theorem stays_closing (hrest : NewLine rest) {kind : Node.Kind}
    {opener closer : Token.Kind} {shape : Shape} {took : α → Prop}
    {front : Parser α} (hsome : ∀ peek, view peek → something peek)
    (hcloser : lineStarts.contains closer = false)
    (hdelimiter : (opener, closer) ∈ Node.delimiters)
    (hfront : ∀ inner, Stays rest view 1 took inner front)
    (hadds : Adds view front shape)
    (hopener : 0 < shape.least (· = .token opener))
    (hmissing : shape.may (· = .token closer) = false) :
    Stays rest view least never start
      (node kind (front >>= fun _ => close closer)) := by
  have hclose : ∀ inner, Stays rest anything 0 never inner (close closer) :=
    fun _ =>
    stays_close hrest hcloser
  refine stays_skipTrivia_bind hsome
      ⟨keeps_enclose fun inner => (hfront inner).keeps.bind fun _ =>
    (hclose inner).keeps,
      runs_enclose (fun _ => trivial) ((hfront 0).runs.bind fun _ =>
        (hclose 0).runs), ?_⟩
  intro state haccepts hsees hends hsound hleft
  let opened : State := { state with builder := state.builder.start kind }
  let middle : State := (front.run opened).2
  have hvalid : opened.builder.accepts state.builder.mark = true :=
    Builder.accepts_iff.mpr ⟨Nat.le_refl _, Nat.le_refl _⟩
  have hreads : opened.Reads state.builder.mark middle :=
    (hfront _).keeps opened hvalid
  have hvalid' := hreads.accepts hvalid
  have hreads' := (hclose _).keeps middle hvalid'
  obtain ⟨hcomplete, hinner⟩ :=
    hsound.of_finish (hreads'.openNodes.trans hreads.openNodes)
  have hmiddle : middle.Sound := hinner.of_after ((hclose 0).runs middle)
  have hpos : 0 < middle.count :=
    count_pos_of_closed hdelimiter hadds hopener hmissing hvalid hsees hmiddle
      hcomplete.2
  obtain ⟨hsame, -⟩ := (hfront _).same opened hvalid hsees hends hmiddle hpos
  have hends' : opened.Ends := hends
  obtain ⟨hsame', -⟩ :=
    (hclose _).same middle hvalid' trivial (hends'.of_before hreads) hinner
    (Nat.zero_le _)
  have hbody : (front >>= fun _ => close closer).run (opened.followed rest) =
      ((), ((close closer).run middle).2.followed rest) := by
    rw [run_bind, hsame]
    exact hsame'
  have hfollowed :
      (front >>= fun _ => close closer).run { state.followed rest with
      builder := (state.followed rest).builder.start kind } = _ := hbody
  refine ⟨?_, fun hnever => hnever.elim⟩
  rw [run_enclose, run_enclose, hfollowed]
  rfl

end PklAnalysis.Parser

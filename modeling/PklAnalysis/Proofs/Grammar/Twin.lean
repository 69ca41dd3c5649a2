import PklAnalysis.Proofs.Grammar.Likeness

/-!
Two runs of parsers side by side, from states that are alike. The runs go the
same way: they give the same value, and their states are alike again. Parsers
that are put together from such pairs of parsers are such a pair again.

The rules that a pair calls may go the same way only while few tokens are left,
so every statement has a bound on their number. Since it also says when a token
is spent, bounds come down.
-/

namespace PklAnalysis.Parser

abbrev View := (Nat → Option Token.Kind) → Prop

namespace View

def anything : View := fun _ => True

def something : View := fun peek => (peek 0).isSome = true

def known : View := fun peek => ∃ kind, peek 0 = some kind ∧ kind ≠ .error

def first (kinds : List Token.Kind) :
    View := fun peek => ∃ kind ∈ kinds, peek 0 = some kind

theorem something_of_eq {peek : Nat → Option Token.Kind} {kind : Token.Kind}
    (hpeek : peek 0 = some kind) : something peek := by
  rw [something, hpeek]
  rfl

theorem known.something {peek : Nat → Option Token.Kind} (hknown : known peek) :
    View.something peek :=
  something_of_eq hknown.choose_spec.1

theorem known_of_first {kinds : List Token.Kind}
    {peek : Nat → Option Token.Kind} (hfirst : first kinds peek)
    (hkinds : .error ∉ kinds) : known peek := by
  obtain ⟨kind, hmem, hpeek⟩ := hfirst
  exact ⟨kind, hpeek, fun herror => hkinds (herror ▸ hmem)⟩

end View

open View

/-! Values that tell whether a token has been spent. -/

def never : α → Prop := fun _ => False

def always : α → Prop := fun _ => True

/-- The two parsers go the same way from states that are alike, if the next
tokens are as `ahead` says and fewer than `bound` tokens are left. They spend a
token if their value is one of `spends`. -/
structure Twin (like : Likeness) (ahead : View) (bound : Nat)
    (spends : α → Prop) (start start' : Nat) (parser parser' : Parser α) :
    Prop where
  keeps : Keeps start parser
  keeps' : Keeps start' parser'
  same : ∀ state state' : State, state.builder.accepts start = true →
    state'.builder.accepts start' = true → like.rel start start' state state' →
    ahead state.peek? → state.count < bound →
    (parser.run state).1 = (parser'.run state').1 ∧
      like.rel start start' (parser.run state).2 (parser'.run state').2 ∧
      (spends (parser.run state).1 → (parser.run state).2.count < state.count)

variable {like : Likeness} {ahead : View} {bound start start' : Nat}

namespace Twin

variable {spends : α → Prop} {parser parser' : Parser α}

theorem mono {ahead' : View} {bound' : Nat} {spends' : α → Prop}
    (htwin : Twin like ahead bound spends start start' parser parser')
    (hahead : ∀ peek, ahead' peek → ahead peek) (hbound : bound' ≤ bound)
    (hspends : ∀ value, spends' value → spends value) :
    Twin like ahead' bound' spends' start start' parser parser' := by
  refine ⟨htwin.keeps, htwin.keeps',
    fun state state' haccepts haccepts' hlike hsees hcount => ?_⟩
  obtain ⟨hvalue, hafter, hspent⟩ :=
    htwin.same state state' haccepts haccepts' hlike
    (hahead _ hsees) (Nat.lt_of_lt_of_le hcount hbound)
  exact ⟨hvalue, hafter, fun hvalue => hspent (hspends _ hvalue)⟩

theorem weaken
    (htwin : Twin like anything bound spends start start' parser parser') :
    Twin like ahead bound never start start' parser parser' :=
  htwin.mono (fun _ _ => trivial) (Nat.le_refl _) fun _ hnever => hnever.elim

theorem lower
    (htwin : Twin like ahead (bound + 1) spends start start' parser parser') :
    Twin like ahead bound spends start start' parser parser' :=
  htwin.mono (fun _ hahead => hahead) (Nat.le_succ _) fun _ hvalue => hvalue

theorem forget
    (htwin : Twin like ahead bound spends start start' parser parser') :
    Twin like ahead bound never start start' parser parser' :=
  htwin.mono (fun _ hahead => hahead) (Nat.le_refl _) fun _ hnever =>
    hnever.elim

theorem of_some {kind : Token.Kind}
    (htwin : Twin like something bound spends start start' parser parser') :
    Twin like (fun peek => peek 0 = some kind ∧ ahead peek) bound spends start
      start' parser
      parser' :=
  htwin.mono (fun _ hseen => something_of_eq hseen.1) (Nat.le_refl _)
    fun _ hvalue => hvalue

theorem of_known {kind : Token.Kind}
    (htwin : Twin like known bound spends start start' parser parser')
    (hknown : decide (kind = .error) = false) :
    Twin like (fun peek => peek 0 = some kind ∧ ahead peek) bound spends start
      start' parser
      parser' :=
  htwin.mono (fun _ hseen => ⟨kind, hseen.1, of_decide_eq_false hknown⟩)
    (Nat.le_refl _)
    fun _ hvalue => hvalue

theorem spend {spends' : α → Prop}
    (htwin : Twin like ahead bound always start start' parser parser') :
    Twin like ahead bound spends' start start' parser parser' :=
  htwin.mono (fun _ hseen => hseen) (Nat.le_refl _) fun _ _ => trivial

theorem replace {other : Parser α}
    (htwin : Twin like ahead bound spends start start' parser parser')
    (hkeeps : Keeps start other)
    (hequal : ∀ state : State, state.builder.accepts start = true →
      ahead state.peek? → state.count < bound →
        other.run state = parser.run state) :
    Twin like ahead bound spends start start' other parser' := by
  refine ⟨hkeeps, htwin.keeps',
    fun state state' haccepts haccepts' hlike hsees hcount => ?_⟩
  rw [hequal state haccepts hsees hcount]
  exact htwin.same state state' haccepts haccepts' hlike hsees hcount

theorem by_end
    (hnone : Twin like (fun peek => peek 0 = none) bound never start start'
      parser parser')
    (hsome : Twin like something bound spends start start' parser parser') :
    Twin like ahead bound never start start' parser parser' := by
  refine ⟨hsome.keeps, hsome.keeps',
    fun state state' haccepts haccepts' hlike _ hcount => ?_⟩
  cases hpeek : state.peek? 0 with
  | none => exact hnone.same state state' haccepts haccepts' hlike hpeek hcount
  | some kind =>
      have hseen : something state.peek? := something_of_eq hpeek
      obtain ⟨hvalue, hafter, -⟩ :=
        hsome.same state state' haccepts haccepts' hlike hseen hcount
      exact ⟨hvalue, hafter, fun hnever => hnever.elim⟩

theorem bind_of_spends {spends : β → Prop} {took : α → Prop}
    {first first' : Parser α} {next next' : α → Parser β} (later : α → β → Prop)
    (hfirst : Twin like ahead bound took start start' first first')
    (hnext : ∀ value,
      Twin like anything bound (later value) start start' (next value)
        (next' value))
    (hspends : ∀ value result,
      spends result → took value ∨ later value result) :
    Twin like ahead bound spends start start' (first >>= next)
      (first' >>= next') := by
  refine ⟨hfirst.keeps.bind fun value => (hnext value).keeps,
    hfirst.keeps'.bind fun value => (hnext value).keeps', ?_⟩
  intro state state' haccepts haccepts' hlike hsees hcount
  obtain ⟨hvalue, hmiddle, htook⟩ :=
    hfirst.same state state' haccepts haccepts' hlike hsees hcount
  have hreads := hfirst.keeps state haccepts
  have hreads' := hfirst.keeps' state' haccepts'
  have hnext := hnext (first.run state).1
  obtain ⟨hresult, hafter, hlater⟩ := hnext.same _ _ (hreads.accepts haccepts)
    (hreads'.accepts haccepts') hmiddle trivial
      (Nat.lt_of_le_of_lt hreads.count_le hcount)
  rw [run_bind, run_bind, ← hvalue]
  refine ⟨hresult, hafter, fun hspent => ?_⟩
  have hrest := (hnext.keeps _ (hreads.accepts haccepts)).count_le
  rcases hspends _ _ hspent with htaken | htaken
  · exact Nat.lt_of_le_of_lt hrest (htook htaken)
  · exact Nat.lt_of_lt_of_le (hlater htaken) hreads.count_le

theorem bind {spends : β → Prop} {took : α → Prop} {first first' : Parser α}
    {next next' : α → Parser β}
    (hfirst : Twin like ahead bound took start start' first first')
    (hnext : ∀ value,
      Twin like anything bound spends start start' (next value) (next' value)) :
    Twin like ahead bound spends start start' (first >>= next)
      (first' >>= next') :=
  hfirst.bind_of_spends (fun _ => spends) hnext fun _ _ => .inr

theorem before {spends : β → Prop} {first first' : Parser α}
    {next next' : α → Parser β}
    (hfirst : Twin like ahead bound always start start' first first')
    (hnext : ∀ value,
      Twin like anything bound never start start' (next value) (next' value)) :
    Twin like ahead bound spends start start' (first >>= next)
      (first' >>= next') :=
  hfirst.bind_of_spends (fun _ => never) hnext fun _ _ _ => .inl trivial

theorem bind_spent {spends : β → Prop} {took : α → Prop}
    {first first' : Parser α} {next next' : α → Parser β}
    (hfirst : Twin like ahead (bound + 1) took start start' first first')
    (hspent : ∀ value,
      took value →
        Twin like anything bound never start start' (next value) (next' value))
    (hunspent : ∀ value,
      ¬took value →
        Twin like anything (bound + 1) spends start start' (next value)
          (next' value)) :
    Twin like ahead (bound + 1) spends start start' (first >>= next)
      (first' >>= next') := by
  have hkeeps : ∀ value,
      Keeps start (next value) ∧ Keeps start' (next' value) := by
    intro value
    by_cases htook : took value
    · exact ⟨(hspent value htook).keeps, (hspent value htook).keeps'⟩
    · exact ⟨(hunspent value htook).keeps, (hunspent value htook).keeps'⟩
  refine ⟨hfirst.keeps.bind fun value => (hkeeps value).1,
    hfirst.keeps'.bind fun value => (hkeeps value).2, ?_⟩
  intro state state' haccepts haccepts' hlike hsees hcount
  obtain ⟨hvalue, hmiddle, htook⟩ :=
    hfirst.same state state' haccepts haccepts' hlike hsees hcount
  have hreads := hfirst.keeps state haccepts
  have haccepts := hreads.accepts haccepts
  have haccepts' := (hfirst.keeps' state' haccepts').accepts haccepts'
  have hrest := ((hkeeps (first.run state).1).1 _ haccepts).count_le
  rw [run_bind, run_bind, ← hvalue]
  by_cases htaken : took (first.run state).1
  · have hlt := htook htaken
    obtain ⟨hresult, hafter, -⟩ :=
      (hspent _ htaken).same _ _ haccepts haccepts' hmiddle trivial
      (Nat.lt_of_lt_of_le hlt (Nat.le_of_lt_succ hcount))
    exact ⟨hresult, hafter, fun _ => Nat.lt_of_le_of_lt hrest hlt⟩
  · obtain ⟨hresult, hafter, hlater⟩ :=
      (hunspent _ htaken).same _ _ haccepts haccepts' hmiddle
      trivial (Nat.lt_of_le_of_lt hreads.count_le hcount)
    exact ⟨hresult, hafter,
      fun hspent => Nat.lt_of_lt_of_le (hlater hspent) hreads.count_le⟩

theorem after {spends : β → Prop} {first first' : Parser α}
    {next next' : α → Parser β}
    (hfirst : Twin like something bound never start start' first first')
    (hnone : ∀ value,
      Twin like (fun peek => peek 0 = none) bound never start start'
        (next value) (next' value))
    (hsome : ∀ value,
      Twin like something bound always start start' (next value)
        (next' value)) :
    Twin like something bound spends start start' (first >>= next)
      (first' >>= next') := by
  have hnext : ∀ value,
      Twin like anything bound never start start' (next value) (next' value) :=
    fun value => (hnone value).by_end (hsome value)
  have hwhole : Twin like something bound never start start' (first >>= next)
      (first' >>= next') :=
    hfirst.bind hnext
  refine ⟨hwhole.keeps, hwhole.keeps', ?_⟩
  intro state state' haccepts haccepts' hlike hsees hcount
  obtain ⟨hvalue, hafter, -⟩ :=
    hwhole.same state state' haccepts haccepts' hlike hsees hcount
  refine ⟨hvalue, hafter, fun _ => ?_⟩
  obtain ⟨-, hmiddle, -⟩ :=
    hfirst.same state state' haccepts haccepts' hlike hsees hcount
  have hreads := hfirst.keeps state haccepts
  have haccepts := hreads.accepts haccepts
  have haccepts' := (hfirst.keeps' state' haccepts').accepts haccepts'
  have hcount' := Nat.lt_of_le_of_lt hreads.count_le hcount
  have hvalues := (hfirst.same state state' ‹_› ‹_› hlike hsees hcount).1
  rw [run_bind]
  cases hpeek : (first.run state).2.peek? 0 with
  | none =>
      have hpos : 0 < state.count := by
        obtain ⟨kind, hkind⟩ := Option.isSome_iff_exists.mp hsees
        exact State.count_pos_of_peek? hkind
      have hzero := State.peek?_zero_eq_none_iff.mp hpeek
      have hrest := ((hnext (first.run state).1).keeps _ haccepts).count_le
      omega
  | some kind =>
      have hseen : something (first.run state).2.peek? := something_of_eq hpeek
      obtain ⟨-, -, hspent⟩ :=
        (hsome (first.run state).1).same _ _ haccepts haccepts' hmiddle
          hseen hcount'
      exact Nat.lt_of_lt_of_le (hspent trivial) hreads.count_le

theorem map {spends' : β → Prop} {transform : α → β}
    (htwin : Twin like ahead bound spends start start' parser parser')
    (hspends : ∀ value, spends' (transform value) → spends value) :
    Twin like ahead bound spends' start start' (transform <$> parser)
      (transform <$> parser') := by
  refine ⟨htwin.keeps.map _, htwin.keeps'.map _, ?_⟩
  intro state state' haccepts haccepts' hlike hsees hcount
  obtain ⟨hvalue, hafter, hspent⟩ :=
    htwin.same state state' haccepts haccepts' hlike hsees hcount
  exact ⟨congrArg transform hvalue, hafter,
    fun hvalue => hspent (hspends _ hvalue)⟩

theorem ite {condition : Prop} [Decidable condition] {other other' : Parser α}
    (hthen : condition →
      Twin like ahead bound spends start start' parser parser')
    (helse : ¬condition →
      Twin like ahead bound spends start start' other other') :
    Twin like ahead bound spends start start'
      (if condition then parser else other)
      (if condition then parser' else other') := by
  split
  case isTrue hcondition => exact hthen hcondition
  case isFalse hcondition => exact helse hcondition

end Twin

/-! Parsers that leave the state alone. -/

theorem twin_of_view {parser parser' : Parser α} {view view' : State → α}
    (hrun : ∀ state, parser.run state = (view state, state))
    (hrun' : ∀ state, parser'.run state = (view' state, state))
    (hview : ∀ state state', like.rel start start' state state' →
      ahead state.peek? → state.count < bound → view state = view' state') :
    Twin like ahead bound never start start' parser parser' := by
  refine ⟨?_, ?_, fun state state' _ _ hlike hsees hcount => ?_⟩
  · exact keeps_of_unchanged (fun state => by rw [hrun])
      fun state => by rw [hrun]
  · exact keeps_of_unchanged (fun state => by rw [hrun'])
      fun state => by rw [hrun']
  · rw [hrun, hrun']
    exact ⟨hview state state' hlike hsees hcount, hlike,
      fun hnever => hnever.elim⟩

theorem twin_of_impossible {spends : α → Prop} {parser parser' : Parser α}
    (hkeeps : Keeps start parser) (hkeeps' : Keeps start' parser')
    (himpossible : ∀ peek, ¬ahead peek) :
    Twin like ahead bound spends start start' parser parser' :=
  ⟨hkeeps, hkeeps', fun _ _ _ _ _ hsees _ => absurd hsees (himpossible _)⟩

theorem twin_pure {spends : α → Prop} {value : α} (hvalue : ¬spends value) :
    Twin like ahead bound spends start start' (pure value) (pure value) :=
  ⟨keeps_pure value, keeps_pure value,
    fun _ _ _ _ hlike _ _ => ⟨rfl, hlike, fun hspent => absurd hspent hvalue⟩⟩

theorem twin_done {value : α} :
    Twin like ahead bound never start start' (pure value) (pure value) :=
  twin_pure id

theorem twin_look_bind {spends : β → Prop} {look look' : Parser α}
    {next next' : α → Parser β} (view view' : State → α)
    (hrun : ∀ state, look.run state = (view state, state))
    (hrun' : ∀ state, look'.run state = (view' state, state))
    (hview : ∀ state state', like.rel start start' state state' →
      ahead state.peek? → state.count < bound → view state = view' state')
    (seen : α → View)
    (hseen : ∀ state, ahead state.peek? → seen (view state) state.peek?)
    (hnext : ∀ value,
      Twin like (seen value) bound spends start start' (next value)
        (next' value)) :
    Twin like ahead bound spends start start' (look >>= next)
      (look' >>= next') := by
  refine ⟨?_, ?_, fun state state' haccepts haccepts' hlike hsees hcount => ?_⟩
  · refine .bind ?_ fun value => (hnext value).keeps
    exact keeps_of_unchanged (fun state => by rw [hrun])
      fun state => by rw [hrun]
  · refine .bind ?_ fun value => (hnext value).keeps'
    exact keeps_of_unchanged (fun state => by rw [hrun'])
      fun state => by rw [hrun']
  · rw [run_bind, run_bind, hrun, hrun',
      ← hview state state' hlike hsees hcount]
    exact (hnext _).same state state' haccepts haccepts' hlike
      (hseen state hsees) hcount

theorem twin_peek?_bind {spends : α → Prop} {n : Nat}
    {next next' : Option Token.Kind → Parser α}
    (hnext : ∀ kind?,
      Twin like (fun peek => peek n = kind? ∧ ahead peek) bound spends start
        start' (next kind?) (next' kind?)) :
    Twin like ahead bound spends start start' (peek? n >>= next)
      (peek? n >>= next') :=
  twin_look_bind (fun state => state.peek? n) (fun state => state.peek? n)
    (fun _ => rfl) (fun _ => rfl)
      (fun _ _ hlike _ _ => congrFun (Likeness.peek?_eq hlike) n)
    (fun kind? peek => peek n = kind? ∧ ahead peek)
      (fun _ hsees => ⟨rfl, hsees⟩) hnext

theorem twin_current?_bind {spends : α → Prop}
    {next next' : Option Token.Kind → Parser α}
    (hnext : ∀ kind?,
      Twin like (fun peek => peek 0 = kind? ∧ ahead peek) bound spends start
        start' (next kind?) (next' kind?)) :
    Twin like ahead bound spends start start' (current? >>= next)
      (current? >>= next') :=
  twin_peek?_bind hnext

theorem twin_test_bind {spends : α → Prop} {test : Parser Bool}
    {next next' : Bool → Parser α} (holds : Option Token.Kind → Bool)
    (hrun : ∀ state, test.run state = (holds (state.peek? 0), state))
    (hfound : Twin like (fun peek => holds (peek 0) = true ∧ ahead peek) bound
      spends start start' (next true) (next' true))
    (hmissed : Twin like (fun peek => holds (peek 0) = false ∧ ahead peek) bound
      spends start start' (next false) (next' false)) :
    Twin like ahead bound spends start start' (test >>= next)
      (test >>= next') := by
  refine twin_look_bind (fun state => holds (state.peek? 0))
    (fun state => holds (state.peek? 0))
    hrun hrun (fun _ _ hlike _ _ => by simp only [Likeness.peek?_eq hlike])
    (fun found peek => holds (peek 0) = found ∧ ahead peek)
      (fun _ hsees => ⟨rfl, hsees⟩)
    fun found => ?_
  cases found with
  | true => exact hfound
  | false => exact hmissed

theorem twin_at?_bind {spends : α → Prop} {kind : Token.Kind}
    {next next' : Bool → Parser α} (hknown : decide (kind = .error) = false)
    (hfound : Twin like known bound spends start start' (next true)
      (next' true))
    (hmissed : Twin like ahead bound spends start start' (next false)
      (next' false)) :
    Twin like ahead bound spends start start' (at? kind >>= next)
      (at? kind >>= next') := by
  refine twin_test_bind (fun kind? => decide (kind? = some kind))
    (fun _ => rfl) ?_ ?_
  · refine hfound.mono (fun _ hseen => ?_) (Nat.le_refl _)
      fun _ hvalue => hvalue
    exact ⟨kind, of_decide_eq_true hseen.1, of_decide_eq_false hknown⟩
  · exact hmissed.mono (fun _ hseen => hseen.2) (Nat.le_refl _)
      fun _ hvalue => hvalue

theorem twin_atAny?_bind {spends : α → Prop} {kinds : List Token.Kind}
    {next next' : Bool → Parser α}
    (hfound : Twin like (first kinds) bound spends start start' (next true)
      (next' true))
    (hmissed : Twin like ahead bound spends start start' (next false)
      (next' false)) :
    Twin like ahead bound spends start start' (atAny? kinds >>= next)
      (atAny? kinds >>= next') := by
  refine twin_test_bind (fun kind? => kind?.any kinds.contains)
    (fun _ => rfl) ?_ ?_
  · refine hfound.mono (fun peek hseen => ?_) (Nat.le_refl _)
      fun _ hvalue => hvalue
    obtain ⟨kind, hpeek, hkind⟩ := (Option.any_eq_true _ _).mp hseen.1
    exact ⟨kind, List.contains_iff_mem.mp hkind, hpeek⟩
  · exact hmissed.mono (fun _ hseen => hseen.2) (Nat.le_refl _)
      fun _ hvalue => hvalue

theorem twin_atEnd?_bind {spends : α → Prop} {next next' : Bool → Parser α}
    (hended : Twin like ahead bound spends start start' (next true)
      (next' true))
    (hmore : Twin like something bound spends start start' (next false)
      (next' false)) :
    Twin like ahead bound spends start start' (atEnd? >>= next)
      (atEnd? >>= next') := by
  refine twin_test_bind Option.isNone (fun _ => rfl) ?_ ?_
  · exact hended.mono (fun _ hseen => hseen.2) (Nat.le_refl _)
      fun _ hvalue => hvalue
  · refine hmore.mono (fun peek hseen => ?_) (Nat.le_refl _)
      fun _ hvalue => hvalue
    simpa [something, Option.isSome_iff_ne_none] using hseen.1

theorem peek?_skipTrivia (state : State) :
    (skipTrivia.run state).2.peek? = state.peek? := by
  funext n
  rw [State.peek?, State.peek?, Token.nth?_eq, Token.nth?_eq, tokens_skipTrivia,
    Token.significant_dropWhile]

theorem count_skipTrivia (state : State) :
    (skipTrivia.run state).2.count = state.count := by
  rw [State.count, State.count, tokens_skipTrivia, Token.significant_dropWhile]

theorem exists_cons_of_something {state : State}
    (hsome : something state.peek?) :
    ∃ token rest, state.tokens.dropWhile Token.isTrivia = token :: rest := by
  refine List.exists_cons_of_ne_nil fun hnil => ?_
  have hnone := State.peek?_zero_eq_none_iff.mpr
    (congrArg List.length (Token.significant_eq_nil_iff.mpr hnil))
  rw [something, hnone] at hsome
  cases hsome

theorem twin_take_of (hsome : ∀ peek, ahead peek → something peek)
    (hjunk : ∀ peek, ahead peek → peek 0 = some .error → like.junk) :
    Twin like ahead bound always start start' take take := by
  refine ⟨keeps_take, keeps_take,
    fun state state' haccepts haccepts' hlike hsees hcount => ?_⟩
  have hskipped := like.skipTrivia hlike haccepts haccepts'
  obtain ⟨token, rest, hrest⟩ := exists_cons_of_something (hsome _ hsees)
  obtain ⟨token', rest', hrest'⟩ :=
    exists_cons_of_something (Likeness.peek?_eq hlike ▸ hsome _ hsees)
  have htrivia := Token.isTrivia_of_dropWhile hrest
  have htrivia' := Token.isTrivia_of_dropWhile hrest'
  have hkind : state.peek? 0 = some token.kind := by
    rw [State.peek?, nth?_zero, hrest]
    rfl
  rw [← tokens_skipTrivia] at hrest hrest'
  have htaken :=
    like.advance hskipped ((keeps_skipTrivia state haccepts).accepts haccepts)
    ((keeps_skipTrivia state' haccepts').accepts haccepts') hrest hrest' htrivia
      htrivia'
    fun herror => hjunk _ hsees (herror ▸ hkind)
  have hspent := State.count_advance hrest htrivia
  rw [count_skipTrivia] at hspent
  exact ⟨rfl, htaken, fun _ => Nat.lt_of_succ_le (Nat.le_of_eq hspent)⟩

theorem twin_take : Twin like known bound always start start' take take :=
  twin_take_of (fun _ => known.something) fun _ ⟨_, hpeek, hknown⟩ herror =>
    absurd (Option.some.inj (hpeek.symm.trans herror)) hknown

theorem twin_take_bind {spends : α → Prop} {next next' : Unit → Parser α}
    (hnext : Twin like anything bound never start start' (next ()) (next' ())) :
    Twin like known (bound + 1) spends start start' (take >>= next)
      (take >>= next') :=
  twin_take.bind_spent (fun _ _ => hnext) fun _ hunspent =>
    absurd trivial hunspent

theorem peek?_take {state : State} (hsome : something state.peek?) (n : Nat) :
    (take.run state).2.peek? n = state.peek? (n + 1) := by
  obtain ⟨token, rest, hrest⟩ := exists_cons_of_something hsome
  have htrivia := Token.isTrivia_of_dropWhile hrest
  rw [State.peek?, State.peek?, Token.nth?_eq, Token.nth?_eq, tokens_take,
    ← Token.significant_dropWhile state.tokens, hrest, List.tail_cons,
    Token.significant_cons _ htrivia, List.getElem?_cons_succ]

theorem twin_take_again {spends : α → Prop} {next next' : Unit → Parser α}
    (hnext : Twin like anything bound never start start' (next ()) (next' ()))
    (hseen : ∀ peek, ahead peek → known peek ∧ known fun n => peek (n + 1)) :
    Twin like ahead (bound + 1) spends start start'
      (take >>= fun _ => take >>= next) (take >>= fun _ => take >>= next') := by
  have hfirst : Twin like ahead (bound + 1) always start start' take take :=
    twin_take.mono (fun peek hsees => (hseen peek hsees).1) (Nat.le_refl _)
      fun _ hvalue => hvalue
  have hrest : Twin like known (bound + 1) never start start' (take >>= next)
      (take >>= next') :=
    twin_take_bind hnext
  refine ⟨keeps_take.bind fun _ => hrest.keeps,
    keeps_take.bind fun _ => hrest.keeps', ?_⟩
  intro state state' haccepts haccepts' hlike hsees hcount
  obtain ⟨-, htaken, hspent⟩ :=
    hfirst.same state state' haccepts haccepts' hlike hsees hcount
  have hknown := hseen _ hsees
  have hpeek : (take.run state).2.peek? = fun n => state.peek? (n + 1) :=
    funext (peek?_take hknown.1.something)
  have hreads := keeps_take state haccepts
  obtain ⟨hvalue, hafter, -⟩ := hrest.same _ _ (hreads.accepts haccepts)
    ((keeps_take state' haccepts').accepts haccepts') htaken (hpeek ▸ hknown.2)
    (Nat.lt_of_le_of_lt hreads.count_le hcount)
  have hle := (hrest.keeps _ (hreads.accepts haccepts)).count_le
  exact ⟨hvalue, hafter, fun _ => Nat.lt_of_le_of_lt hle (hspent trivial)⟩

theorem twin_accept {kind : Token.Kind}
    (hknown : decide (kind = .error) = false) :
    Twin like ahead bound (· = true) start start' (accept kind) (accept kind) :=
  twin_at?_bind hknown (twin_take.before fun _ => twin_done) (twin_pure nofun)

theorem twin_accept_bind {spends : α → Prop} {kind : Token.Kind}
    {next next' : Bool → Parser α} (hknown : decide (kind = .error) = false)
    (hfound : Twin like anything bound never start start' (next true)
      (next' true))
    (hmissed : Twin like anything bound spends start start' (next false)
      (next' false)) :
    Twin like ahead bound spends start start' (accept kind >>= next)
      (accept kind >>= next') := by
  refine (twin_accept hknown).bind_of_spends
    (fun found value => found = false ∧ spends value)
    (fun found => ?_) fun found value hvalue => ?_
  · cases found with
    | true =>
        exact hfound.mono (fun _ hseen => hseen) (Nat.le_refl _) fun _ hvalue =>
          nomatch hvalue.1
    | false =>
        exact hmissed.mono (fun _ hseen => hseen) (Nat.le_refl _)
          fun _ hvalue => hvalue.2
  · cases found with
    | true => exact .inl rfl
    | false => exact .inr ⟨rfl, hvalue⟩

theorem twin_report (cause : SyntaxError.Cause) :
    Twin like ahead bound never start start' (report cause) (report cause) :=
  ⟨keeps_report cause, keeps_report cause, fun _ _ _ _ hlike _ _ =>
    ⟨rfl, like.report hlike cause, fun hnever => hnever.elim⟩⟩

theorem twin_report_bind {spends : α → Prop} {cause : SyntaxError.Cause}
    {next next' : Unit → Parser α}
    (hnext : Twin like ahead bound spends start start' (next ()) (next' ())) :
    Twin like ahead bound spends start start' (report cause >>= next)
      (report cause >>= next') := by
  refine ⟨(keeps_report cause).bind fun _ => hnext.keeps,
    (keeps_report cause).bind fun _ => hnext.keeps', ?_⟩
  intro state state' haccepts haccepts' hlike hsees hcount
  obtain ⟨-, hreported, -⟩ :=
    (twin_report cause).same state state' haccepts haccepts' hlike hsees hcount
  exact hnext.same _ _ haccepts haccepts' hreported hsees hcount

theorem twin_expect {kind : Token.Kind}
    (hknown : decide (kind = .error) = false) :
    Twin like ahead bound never start start' (expect kind) (expect kind) := by
  refine (twin_accept hknown).bind fun found => .ite (fun _ => twin_done)
    fun _ => ?_
  exact (twin_report _).bind fun _ => twin_done

theorem twin_skipTrivia :
    Twin like ahead bound never start start' skipTrivia skipTrivia :=
  ⟨keeps_skipTrivia, keeps_skipTrivia, fun _ _ haccepts haccepts' hlike _ _ =>
    ⟨rfl, like.skipTrivia hlike haccepts haccepts', fun hnever => hnever.elim⟩⟩

theorem twin_nodeAt_of {spends : α → Prop} {kind : Node.Kind}
    {body body' : Parser α}
    (hbody : ∀ inner inner',
      Twin like ahead bound spends inner inner' body body')
    (hjunk : ∀ peek, ahead peek → kind = .error → like.junk) :
    Twin like ahead bound spends start start' (nodeAt start kind body)
      (nodeAt start' kind body') := by
  refine ⟨keeps_nodeAt fun inner => (hbody inner inner).keeps,
    keeps_nodeAt fun inner => (hbody inner inner).keeps', ?_⟩
  intro state state' haccepts haccepts' hlike hsees hcount
  have hplace := (Builder.accepts_iff.mp haccepts).2
  have hplace' := (Builder.accepts_iff.mp haccepts').2
  have hbody := hbody start start'
  let opened := { state with builder := state.builder.startAt start kind }
  let opened' := { state' with builder := state'.builder.startAt start' kind }
  have hopened : like.rel start start' opened opened' :=
    like.startAt hlike (hjunk _ hsees)
  have hvalid : opened.builder.accepts start = true :=
    Builder.accepts_iff.mpr ⟨Nat.le_refl start, hplace⟩
  have hvalid' : opened'.builder.accepts start' = true :=
    Builder.accepts_iff.mpr ⟨Nat.le_refl start', hplace'⟩
  obtain ⟨hvalue, hinner, hspent⟩ :=
    hbody.same opened opened' hvalid hvalid' hopened hsees hcount
  have hreads := hbody.keeps opened hvalid
  have hreads' := hbody.keeps' opened' hvalid'
  exact ⟨hvalue,
    like.finish hinner (hjunk _ hsees) hreads.openNodes hreads'.openNodes
      hreads.start_le
    hreads'.start_le, hspent⟩

theorem enclose_run_eq {kind : Node.Kind} {body : Parser α} {state : State}
    (haccepts : state.builder.accepts start = true) :
    (enclose kind body).run state =
      (nodeAt state.builder.mark kind body).run state := by
  have hopened : state.builder.startAt state.builder.mark kind =
      state.builder.start kind := by
    simp only [Builder.startAt, Builder.start, Builder.accepts_mark haccepts,
      Bool.and_true]
  change _ =
    ((body >>= fun result => build .finish >>= fun _ => pure result).run
    { state with builder := state.builder.startAt state.builder.mark kind })
  rw [hopened]
  rfl

theorem node_run_eq {kind : Node.Kind} {body : Parser α} {state : State}
    (haccepts : state.builder.accepts start = true) :
    (node kind body).run state =
      (mark >>= fun place => nodeAt place kind body).run state :=
  enclose_run_eq ((keeps_skipTrivia state haccepts).accepts haccepts)

theorem mark_bind_run (next : Nat → Parser α) (state : State) :
    (mark >>= next).run state =
      (next (skipTrivia.run state).2.builder.mark).run
        (skipTrivia.run state).2 :=
  rfl

theorem twin_mark_bind {spends : α → Prop} {next next' : Nat → Parser α}
    (hnext : ∀ place place',
      Twin like ahead bound spends place place' (next place) (next' place')) :
    Twin like ahead bound spends start start' (mark >>= next)
      (mark >>= next') := by
  refine ⟨keeps_mark_bind fun place => (hnext place 0).keeps,
    keeps_mark_bind fun place => (hnext 0 place).keeps', ?_⟩
  intro state state' haccepts haccepts' hlike hsees hcount
  have hskipped := like.skipTrivia hlike haccepts haccepts'
  have hready := ready_skipTrivia state
  have hready' := ready_skipTrivia state'
  have haccepts := (keeps_skipTrivia state haccepts).accepts haccepts
  have haccepts' := (keeps_skipTrivia state' haccepts').accepts haccepts'
  rw [← count_skipTrivia state] at hcount ⊢
  rw [← peek?_skipTrivia] at hsees
  rw [mark_bind_run, mark_bind_run]
  generalize (skipTrivia.run state).2 = placed at *
  generalize (skipTrivia.run state').2 = placed' at *
  have hle := (Builder.accepts_iff.mp haccepts).2
  have hle' := (Builder.accepts_iff.mp haccepts').2
  have hvalid := Builder.accepts_mark haccepts
  have hvalid' := Builder.accepts_mark haccepts'
  have hnext := hnext placed.builder.mark placed'.builder.mark
  obtain ⟨hvalue, hinner, hspent⟩ := hnext.same placed placed' hvalid hvalid'
    (like.narrow hskipped hready hready') hsees hcount
  have hreads := hnext.keeps placed hvalid
  have hreads' := hnext.keeps' placed' hvalid'
  exact ⟨hvalue, like.widen hskipped hinner hle hle' rfl rfl hreads hreads',
    hspent⟩

theorem twin_node_of {spends : α → Prop} {kind : Node.Kind}
    {body body' : Parser α}
    (hbody : ∀ inner inner',
      Twin like ahead bound spends inner inner' body body')
    (hjunk : ∀ peek, ahead peek → kind = .error → like.junk) :
    Twin like ahead bound spends start start' (node kind body)
      (node kind body') := by
  have hmarked : Twin like ahead bound spends start start'
      (mark >>= fun place => nodeAt place kind body)
        (mark >>= fun place => nodeAt place kind body') :=
    twin_mark_bind fun _ _ => twin_nodeAt_of hbody hjunk
  refine ⟨keeps_node fun inner => (hbody inner inner).keeps,
    keeps_node fun inner => (hbody inner inner).keeps', ?_⟩
  intro state state' haccepts haccepts' hlike hsees hcount
  rw [node_run_eq haccepts, node_run_eq haccepts']
  exact hmarked.same state state' haccepts haccepts' hlike hsees hcount

/-! All other nodes than those for errors. -/

section

variable {spends : α → Prop} {kind : Node.Kind}
  (hkind : decide (kind = .error) = false) {body body' : Parser α}
  (hbody : ∀ inner inner', Twin like ahead bound spends inner inner' body body')
include hkind hbody

theorem twin_nodeAt :
    Twin like ahead bound spends start start' (nodeAt start kind body)
      (nodeAt start' kind body') :=
  twin_nodeAt_of hbody fun _ _ herror =>
    absurd herror (of_decide_eq_false hkind)

theorem twin_node :
    Twin like ahead bound spends start start' (node kind body)
      (node kind body') :=
  twin_node_of hbody fun _ _ herror => absurd herror (of_decide_eq_false hkind)

end

/-- A loop whose every repeated step spends a token makes as many steps in both
runs, whatever the limits are, as long as they are beyond the number of
tokens. -/
theorem twin_iterate {step step' : α → Parser (Option α)}
    (hstep : ∀ value,
      Twin like anything bound (·.isSome = true) start start' (step value)
        (step' value))
    {limit limit' : Nat} (value : α) {state state' : State}
    (haccepts : state.builder.accepts start = true)
    (haccepts' : state'.builder.accepts start' = true)
    (hlike : like.rel start start' state state') (hcount : state.count < bound)
    (hlimit : state.count < limit) (hlimit' : state'.count < limit') :
    ((iterate step limit value).run state).1 =
      ((iterate step' limit' value).run state').1 ∧
      like.rel start start' ((iterate step limit value).run state).2
        ((iterate step' limit' value).run state').2 := by
  induction limit generalizing limit' value state state' with
  | zero => exact absurd hlimit (Nat.not_lt_zero _)
  | succ limit ih =>
      cases limit' with
      | zero => exact absurd hlimit' (Nat.not_lt_zero _)
      | succ limit' =>
          obtain ⟨hvalue, hafter, hspent⟩ :=
            (hstep value).same state state' haccepts haccepts' hlike
              trivial hcount
          have hreads := (hstep value).keeps state haccepts
          have hreads' := (hstep value).keeps' state' haccepts'
          rw [iterate, iterate, run_bind, run_bind, ← hvalue]
          cases hnext : ((step value).run state).1 with
          | none => exact ⟨rfl, hafter⟩
          | some next =>
              have hlt := hspent (by rw [hnext]; rfl)
              have hsame := Likeness.count_eq hafter
              have hsame' := Likeness.count_eq hlike
              exact ih next (hreads.accepts haccepts)
                (hreads'.accepts haccepts') hafter
                (by omega) (by omega) (by omega)

theorem State.count_le_length (state : State) :
    state.count ≤ state.tokens.length :=
  List.length_filter_le _ _

theorem twin_repeatFrom {step step' : α → Parser (Option α)} {value : α}
    (hstep : ∀ value,
      Twin like anything bound (·.isSome = true) start start' (step value)
        (step' value)) :
    Twin like ahead bound never start start' (repeatFrom step value)
      (repeatFrom step' value) := by
  refine ⟨keeps_repeatFrom fun value => (hstep value).keeps,
    keeps_repeatFrom fun value => (hstep value).keeps', ?_⟩
  intro state state' haccepts haccepts' hlike _ hcount
  obtain ⟨hvalue, hafter⟩ :=
    twin_iterate hstep value haccepts haccepts' hlike hcount
    (Nat.lt_succ_of_le state.count_le_length)
      (Nat.lt_succ_of_le state'.count_le_length)
  exact ⟨hvalue, hafter, fun hnever => hnever.elim⟩

theorem twin_once {step step' : Parser Bool}
    (hstep : Twin like anything bound (· = true) start start' step step')
    (value : Unit) :
    Twin like anything bound (·.isSome = true) start start' (once step value)
      (once step' value) := by
  refine hstep.bind_of_spends
    (fun more next => more = false ∧ next.isSome = true)
    (fun more => twin_pure ?_) fun more next hnext => ?_
  · cases more <;> simp
  · cases more <;> simp_all

theorem twin_repeatWhile {step step' : Parser Bool}
    (hstep : Twin like anything bound (· = true) start start' step step') :
    Twin like ahead bound never start start' (repeatWhile step)
      (repeatWhile step') :=
  twin_repeatFrom (twin_once hstep)

/-- At the end two runs may not see alike whether the line breaks, but then it
does not matter. -/
theorem afterBreak_eq_of_something {state state' : State}
    (hbound : bound ≤ like.size) (hlike : like.rel start start' state state')
    (hsome : something state.peek?) (hcount : state.count < bound) :
    state.afterBreak = state'.afterBreak := by
  refine like.afterBreak_eq hlike (Nat.pos_of_ne_zero fun hzero => ?_)
    (Nat.lt_of_lt_of_le hcount hbound)
  rw [something, State.peek?_zero_eq_none_iff.mpr hzero] at hsome
  cases hsome

theorem twin_afterBreak?_bind {spends : α → Prop} (hbound : bound ≤ like.size)
    {next next' : Bool → Parser α} (hsome : ∀ peek, ahead peek → something peek)
    (hnext : ∀ broken,
      Twin like ahead bound spends start start' (next broken) (next' broken)) :
    Twin like ahead bound spends start start' (afterBreak? >>= next)
      (afterBreak? >>= next') :=
  twin_look_bind State.afterBreak State.afterBreak (fun _ => rfl) (fun _ => rfl)
    (fun _ _ hlike hsees hcount => afterBreak_eq_of_something hbound hlike
      (hsome _ hsees) hcount)
    (fun _ => ahead) (fun _ hsees => hsees) hnext

theorem stopped_eq {kinds : List Token.Kind} {state state' : State}
    (hbound : bound ≤ like.size) (hlike : like.rel start start' state state')
    (hcount : state.count < bound) :
    stopped kinds state = stopped kinds state' := by
  rw [stopped, stopped, ← Likeness.peek?_eq hlike]
  cases hpeek : state.peek? 0 with
  | none => rfl
  | some kind =>
      rw [afterBreak_eq_of_something hbound hlike
          (something_of_eq hpeek) hcount]

theorem something_of_not_stopped {kinds : List Token.Kind} {state : State}
    (hstopped : stopped kinds state = false) : something state.peek? := by
  cases hpeek : state.peek? 0 with
  | none => simp [stopped, hpeek] at hstopped
  | some kind => exact something_of_eq hpeek

theorem twin_of_isNone {parser parser' : Parser α} {spends : α → Prop}
    (hkeeps : Keeps start parser) (hkeeps' : Keeps start' parser') :
    Twin like (fun peek => (peek 0).isNone = true ∧ something peek) bound spends
      start start' parser
      parser' :=
  twin_of_impossible hkeeps hkeeps' fun peek ⟨hnone, hsome⟩ => by
    rw [something, Option.isNone_iff_eq_none.mp hnone] at hsome
    exact nomatch hsome

/-- Both runs recover alike from errors while fewer than `bound` tokens are
left. -/
structure Likeness.Covers (like : Likeness) (bound : Nat) : Prop where
  le : bound ≤ like.size
  recover : ∀ {start start'} cause kinds,
    Twin like something (bound + 1) always start start'
    (recover cause kinds) (recover cause kinds)
  close : ∀ {start start'} closer, closer ≠ .error →
    Twin like anything bound never start start' (close closer) (close closer)

theorem twin_recover (hlike : like.Covers bound) (cause : SyntaxError.Cause)
    (kinds : List Token.Kind) :
    Twin like something (bound + 1) always start start' (recover cause kinds)
      (recover cause kinds) :=
  hlike.recover cause kinds

theorem twin_recover_anything (hlike : like.Covers bound)
    (cause : SyntaxError.Cause) (kinds : List Token.Kind) :
    Twin like ahead (bound + 1) never start start' (recover cause kinds)
      (recover cause kinds) := by
  refine .by_end ?_ (twin_recover hlike cause kinds)
  refine twin_report_bind
    (twin_test_bind Option.isNone (fun _ => rfl) twin_done ?_)
  have hkeeps : ∀ start, Keeps start (node .error do take; takeUntil kinds) :=
    fun _ =>
    keeps_node fun _ => .bind keeps_take fun _ => keeps_takeUntil kinds
  refine twin_of_impossible (hkeeps start) (hkeeps start') fun peek ⟨hsome,
    hnone⟩ => ?_
  rw [hnone] at hsome
  exact nomatch hsome

theorem twin_close (hlike : like.Covers bound) {closer : Token.Kind}
    (hknown : decide (closer = .error) = false) :
    Twin like ahead bound never start start' (close closer) (close closer) :=
  (hlike.close closer (of_decide_eq_false hknown)).weaken

/-! Recovery where tokens of no known kind may be taken like others. -/

def nextStray (kinds : List Token.Kind) : Parser Bool := do
  if (← atEnd?) || (← atAny? kinds) || (← afterBreak?) then
    return false
  else
    take
    return true

theorem twin_nextStray (hjunk : like.junk) (hbound : bound ≤ like.size)
    (kinds : List Token.Kind) :
    Twin like ahead bound (· = true) start start' (nextStray kinds)
      (nextStray kinds) := by
  change Twin like ahead bound (· = true) start start'
    ((do return (← atEnd?) || (← atAny? kinds) || (← afterBreak?)) >>=
      fun stop =>
      if stop then pure false else take >>= fun _ => pure true)
    ((do return (← atEnd?) || (← atAny? kinds) || (← afterBreak?)) >>=
        fun stop =>
      if stop then pure false else take >>= fun _ => pure true)
  refine twin_look_bind (stopped kinds) (stopped kinds) (fun _ => rfl)
    (fun _ => rfl)
    (fun _ _ hlike _ hcount => stopped_eq hbound hlike hcount)
    (fun stop peek => stop = false → something peek)
    (fun _ _ hstopped => something_of_not_stopped hstopped) fun stop => ?_
  cases stop with
  | true => exact twin_pure nofun
  | false =>
      exact (twin_take_of (fun _ hseen => hseen rfl) fun _ _ _ => hjunk).before
        fun _ => twin_done

theorem twin_takeUntil (hjunk : like.junk) (hbound : bound ≤ like.size)
    (kinds : List Token.Kind) :
    Twin like ahead bound never start start' (takeUntil kinds)
      (takeUntil kinds) :=
  twin_repeatWhile (twin_nextStray hjunk hbound kinds)

theorem twin_recover_of_junk (hjunk : like.junk) (hbound : bound ≤ like.size)
    (cause : SyntaxError.Cause) (kinds : List Token.Kind) :
    Twin like something (bound + 1) always start start' (recover cause kinds)
      (recover cause kinds) := by
  refine twin_report_bind (twin_test_bind Option.isNone (fun _ => rfl) ?_ ?_)
  · exact twin_of_isNone (keeps_pure ()) (keeps_pure ())
  · have htake : ∀ {start start'},
        Twin like something (bound + 1) always start start' take take :=
      twin_take_of (fun _ hsome => hsome) fun _ _ _ => hjunk
    have haside : Twin like something (bound + 1) always start start'
        (node .error do take; takeUntil kinds)
          (node .error do take; takeUntil kinds) :=
      twin_node_of
        (fun _ _ =>
          htake.bind_spent (fun _ _ => twin_takeUntil hjunk hbound kinds)
        fun _ hunspent => absurd trivial hunspent) fun _ _ _ => hjunk
    exact haside.mono (fun _ hseen => hseen.2) (Nat.le_refl _)
      fun _ hvalue => hvalue

theorem twin_close_of_junk (hjunk : like.junk) (hbound : bound ≤ like.size)
    (closer : Token.Kind) (hknown : closer ≠ .error) :
    Twin like ahead bound never start start' (close closer) (close closer) := by
  have haccept : ∀ {ahead},
      Twin like ahead bound never start start' (do let _ ← accept closer)
      (do let _ ← accept closer) :=
    (twin_accept (decide_eq_false hknown)).bind fun _ => twin_done
  rw [close_eq]
  refine twin_look_bind _ _ (fun _ => rfl) (fun _ => rfl)
    (fun _ _ hlike _ hcount => stopped_eq hbound hlike hcount)
      (fun _ => anything)
    (fun _ _ => trivial) fun stopped => .ite (fun _ => haccept) fun _ => ?_
  exact (twin_report _).bind fun _ =>
    (twin_node_of (fun _ _ => twin_takeUntil hjunk hbound _) fun _ _ _ =>
      hjunk).bind fun _ => haccept

theorem Likeness.Covers.of_junk (hjunk : like.junk)
    (hbound : bound ≤ like.size) :
    like.Covers bound where
  le := hbound
  recover := twin_recover_of_junk hjunk hbound
  close := twin_close_of_junk hjunk hbound

end PklAnalysis.Parser

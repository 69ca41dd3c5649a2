import PklAnalysis.Proofs.Grammar.Balance
import PklAnalysis.Proofs.Grammar.Loop
import PklAnalysis.Proofs.Grammar.Nesting
import PklAnalysis.Proofs.Grammar.Twin

/-!
What comes after a line break. A parser that finds no error and leaves no node
incomplete does the same if more tokens follow, as long as these begin on a line
of their own, with a token that begins an element of an object or ends its body.
Parsers that are put together from such parsers are such again.
-/

namespace PklAnalysis

namespace Parser

open Token (significant)
open View

def lineStarts : List Token.Kind :=
  .rightBrace :: Grammar.expressionStarts

structure NewLine (rest : List Token) : Prop where
  broken : (rest.takeWhile Token.isTrivia).any Token.breaksLine = true
  first : ∃ kind ∈ lineStarts, (nth? 0 rest).map Token.kind = some kind

def State.followed (state : State) (rest : List Token) : State :=
  { state with tokens := state.tokens ++ rest }

def Permit.all : Permit where
  allows _ _ := True
  plain _ := trivial
  named _ := trivial
  error _ := trivial

structure State.Sound (state : State) : Prop where
  errors : state.errors = []
  complete : ∀ tree ∈ state.builder.trees.toList, tree.Everywhere Node.Complete

def State.Ends (state : State) : Prop :=
  (significant state.tokens).getLast?.map Token.kind ≠ some .dot

variable {rest : List Token} {state : State} {start : Nat}

section

variable {before after : State}

theorem State.Runs.errors {permit : Permit} (hruns : before.Runs permit after)
    (herrors : after.errors = []) : before.errors = [] := by
  induction hruns with
  | refl => exact herrors
  | trans _ _ hleft hright => exact hleft (hright herrors)
  | advance => rwa [errors_advance] at herrors
  | report => cases herrors
  | wrap _ _ _ _ hsame _ ih => exact hsame ▸ ih herrors

theorem State.Runs.everywhere {permit : Permit}
    {holds : Node.Kind → List Tree → Prop} (hruns : before.Runs permit after)
    (hafter : ∀ tree ∈ after.builder.trees.toList, tree.Everywhere holds) :
    ∀ tree ∈ before.builder.trees.toList, tree.Everywhere holds := by
  induction hruns with
  | refl | report => exact hafter
  | trans _ _ hleft hright => exact hleft (hright hafter)
  | @advance state =>
      obtain ⟨tokens, -, hbuilt⟩ := state.exists_toList_advanceBy 1
      have htrees : state.advance.builder.trees.toList =
          state.builder.trees.toList ++ tokens := hbuilt
      rw [htrees] at hafter
      exact (List.forall_mem_append.mp hafter).1
  | @wrap before inner kind first opened hallowed htrees hopen herrors
      hbody ih =>
      rw [← htrees]
      refine ih fun tree htree => ?_
      rw [Builder.toList_trees_finish (hbody.openNodes.trans hopen),
        List.forall_mem_append, List.forall_mem_singleton, Tree.everywhere_node]
        at hafter
      rw [← List.take_append_drop first inner.builder.trees.toList] at htree
      exact (List.mem_append.mp htree).elim (hafter.1 tree) (hafter.2.2 tree)

theorem State.Sound.of_after {permit : Permit} (hsound : after.Sound)
    (hruns : before.Runs permit after) : before.Sound :=
  ⟨hruns.errors hsound.errors, hruns.everywhere hsound.complete⟩

theorem State.Ends.of_before (hends : before.Ends)
    (hreads : before.Reads start after) : after.Ends := by
  obtain ⟨read, htokens, -⟩ := hreads.consumed
  intro hdot
  refine hends ?_
  rw [htokens, significant, List.filter_append, List.getLast?_append]
  rw [State.Ends] at *
  cases hlast : (significant after.tokens).getLast? with
  | none => simp [hlast] at hdot
  | some token =>
      rw [hlast] at hdot
      rw [significant] at hlast
      rw [hlast]
      exact hdot

end

/-! More tokens after those that are left. -/

theorem State.significant_followed (state : State) :
    significant (state.followed rest).tokens =
      significant state.tokens ++ significant rest :=
  List.filter_append _ _

theorem State.peek?_followed {n : Nat} (hlt : n < state.count) :
    (state.followed rest).peek? n = state.peek? n := by
  rw [peek?, peek?, Token.nth?_eq, Token.nth?_eq, significant_followed,
    List.getElem?_append_left hlt]

theorem State.peek?_followed_end (state : State) (hrest : NewLine rest) :
    ∃ kind ∈ lineStarts,
      (state.followed rest).peek? state.count = some kind := by
  obtain ⟨kind, hkind, hfirst⟩ := hrest.first
  refine ⟨kind, hkind, ?_⟩
  rw [peek?, Token.nth?_eq, significant_followed, count,
    List.getElem?_append_right (Nat.le_refl _), Nat.sub_self, ← Token.nth?_eq]
  exact hfirst

theorem State.count_pos (hsome : something state.peek?) : 0 < state.count := by
  obtain ⟨kind, hpeek⟩ := Option.isSome_iff_exists.mp hsome
  exact count_pos_of_peek? hpeek

theorem State.something_of_count (hpos : 0 < state.count) :
    something state.peek? := by
  rw [something, Option.isSome_iff_ne_none, Ne, peek?_zero_eq_none_iff]
  omega

theorem State.takeWhile_followed (hsome : something state.peek?) :
    (state.followed rest).tokens.takeWhile Token.isTrivia =
      state.tokens.takeWhile Token.isTrivia := by
  obtain ⟨token, later, hdrop⟩ := exists_cons_of_something hsome
  have htrivia := Token.isTrivia_of_dropWhile hdrop
  have htokens :=
    List.takeWhile_append_dropWhile (p := Token.isTrivia) (l := state.tokens)
  rw [hdrop] at htokens
  have hwhole : (state.followed rest).tokens =
      state.tokens.takeWhile Token.isTrivia ++ token :: (later ++ rest) := by
    conv_lhs => rw [followed, ← htokens]
    rw [List.append_assoc, List.cons_append]
  rw [hwhole,
    List.takeWhile_append_of_pos fun token htoken =>
      List.all_eq_true.mp List.all_takeWhile token htoken,
    List.takeWhile_cons_of_neg (by simp [htrivia]), List.append_nil]

theorem State.afterBreak_followed (hsome : something state.peek?) :
    (state.followed rest).afterBreak = state.afterBreak := by
  rw [afterBreak, afterBreak, takeWhile_followed hsome]
  rfl

theorem State.afterBreak_followed_end (hrest : NewLine rest)
    (hzero : state.count = 0) :
    (state.followed rest).afterBreak = true := by
  have htrivia : ∀ token ∈ state.tokens, token.isTrivia = true := by
    simpa [count, significant] using hzero
  have hall : (state.followed rest).tokens.takeWhile Token.isTrivia =
      state.tokens ++ rest.takeWhile Token.isTrivia :=
      List.takeWhile_append_of_pos htrivia
  rw [afterBreak, hall, List.any_append, hrest.broken, Bool.or_true,
    Bool.or_true]

theorem State.advance_followed (hsome : state.tokens ≠ []) :
    (state.followed rest).advance = state.advance.followed rest := by
  obtain ⟨token, later, htokens⟩ := List.exists_cons_of_ne_nil hsome
  have hwhole : (state.followed rest).tokens = token :: (later ++ rest) := by
    rw [followed, htokens, List.cons_append]
  rw [State.advance_of_cons htokens, State.advance_of_cons hwhole]
  rfl

theorem State.advanceBy_followed {count : Nat}
    (hle : count ≤ state.tokens.length) :
    (state.followed rest).advanceBy count =
      (state.advanceBy count).followed rest := by
  induction count generalizing state with
  | zero => rfl
  | succ count ih =>
      have hsome : state.tokens ≠ [] := List.ne_nil_of_length_pos (by omega)
      rw [advanceBy, advanceBy, advance_followed hsome, ih]
      rw [tokens_advance, List.length_tail]
      omega

theorem run_skipTrivia_followed (hsome : something state.peek?) :
    skipTrivia.run (state.followed rest) =
      ((), (skipTrivia.run state).2.followed rest) := by
  rw [run_skipTrivia, State.takeWhile_followed hsome, State.advanceBy_followed]
  · rfl
  · exact (List.takeWhile_prefix _).length_le

theorem run_take_followed (hsome : something state.peek?) :
    take.run (state.followed rest) =
      ((), (take.run state).2.followed rest) := by
  obtain ⟨token, later, hdrop⟩ := exists_cons_of_something hsome
  rw [run_take, run_take, run_skipTrivia_followed hsome, State.advance_followed]
  rw [tokens_skipTrivia, hdrop]
  exact List.cons_ne_nil _ _

/-! Parsers that find nothing where no token is left. -/

/-- Where no token is left, the parser finds an error. -/
def Starves (parser : Parser α) : Prop :=
  ∀ state : State, state.count = 0 → (parser.run state).2.errors ≠ []

theorem starves_report (cause : SyntaxError.Cause) : Starves (report cause) :=
  fun _ _ => List.cons_ne_nil _ _

theorem Starves.bind {first : Parser α} {next : α → Parser β}
    (hfirst : Starves first) (hnext : ∀ value, Runs .all (next value)) :
    Starves (first >>= next) :=
  fun state hzero herrors => hfirst state hzero ((hnext _ _).errors herrors)

theorem starves_look_bind {look : Parser α} {next : α → Parser β}
    (value : Option Token.Kind → α)
    (hrun : ∀ state : State, look.run state = (value (state.peek? 0), state))
    (hnext : Starves (next (value none))) : Starves (look >>= next) := by
  intro state hzero
  rw [run_bind, hrun, State.peek?_zero_eq_none_iff.mpr hzero]
  exact hnext state hzero

theorem starves_current?_bind {next : Option Token.Kind → Parser α}
    (hnext : Starves (next none)) :
    Starves (current? >>= next) :=
  starves_look_bind id (fun _ => rfl) hnext

theorem starves_at?_bind {kind : Token.Kind} {next : Bool → Parser α}
    (hnext : Starves (next false)) :
    Starves (at? kind >>= next) :=
  starves_look_bind (fun kind? => decide (kind? = some kind))
    (fun _ => rfl) hnext

theorem starves_accept_bind {kind : Token.Kind} {next : Bool → Parser α}
    (hnext : Starves (next false)) :
    Starves (accept kind >>= next) := by
  rw [accept, bind_assoc]
  exact starves_at?_bind hnext

theorem starves_expect (kind : Token.Kind) : Starves (expect kind) :=
  starves_accept_bind ((starves_report _).bind fun _ => runs_pure false)

theorem starves_mark_bind {next : Nat → Parser α}
    (hnext : ∀ place, Starves (next place)) :
    Starves (mark >>= next) := by
  intro state hzero
  rw [← count_skipTrivia] at hzero
  exact hnext _ _ hzero

theorem starves_node {kind : Node.Kind} {body : Parser α}
    (hbody : Starves body) :
    Starves (node kind body) := by
  intro state hzero
  rw [← count_skipTrivia] at hzero
  let opened : State :=
    { (skipTrivia.run state).2 with
      builder := (skipTrivia.run state).2.builder.start kind }
  exact hbody opened hzero

end Parser

end PklAnalysis

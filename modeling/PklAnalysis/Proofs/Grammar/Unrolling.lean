import Mathlib.Data.List.DropRight
import PklAnalysis.Proofs.Grammar.Agreement
import PklAnalysis.Proofs.Grammar.Lossless
import PklAnalysis.Proofs.Recursion

/-!
Rules whose calls nest to a depth, and whole modules: two runs go the same way,
whatever calls give that are nested deeper than there is need for.
-/

namespace PklAnalysis.Grammar

open PklAnalysis.Parser
open PklAnalysis.Parser.View

variable {like : Likeness} {ahead : View} {bound start start' : Nat}
  {call call' : Call}

theorem keeps_unroll {stuck : Call} (hstuck : stuck.Keeps) (depth : Nat) :
    Call.Keeps (unroll Rule.parse stuck depth) := by
  induction depth with
  | zero => exact hstuck
  | succ depth ih => exact keeps_parse ih

theorem parseRule_eq_unroll (depth : Nat) :
    parseRule depth = unroll Rule.parse (fun _ => return none) depth := by
  induction depth with
  | zero => rfl
  | succ depth ih => rw [parseRule, ih, unroll]

theorem keeps_none : Call.Keeps fun _ => return none :=
  fun _ _ => keeps_pure none

theorem Agree.of_keeps (hcall : call.Keeps) (hcall' : call'.Keeps) :
    Agree like 0 call call' := by
  have htwin :
      ∀ {ahead : View} {spends : Option Node.Kind → Prop} rule start start',
      Twin like ahead 0 spends start start' (call rule) (call' rule) :=
    fun rule start start' => ⟨hcall rule start, hcall' rule start',
      fun _ _ _ _ _ _ hcount => absurd hcount (Nat.not_lt_zero _)⟩
  exact ⟨htwin _, fun _ => htwin _, fun _ => htwin _, htwin _, htwin _, htwin _⟩

/-- Between two nested calls at most one takes no token, so calls nested twice
as deep as there are tokens never get stuck. -/
theorem agree_unroll {stuck stuck' : Call} (hstuck : stuck.Keeps)
    (hstuck' : stuck'.Keeps) (hlike : ∀ fewer < bound, like.Covers fewer)
    {depth depth' : Nat} (hdepth : 2 * bound ≤ depth)
    (hdepth' : 2 * bound ≤ depth') :
    Agree like bound (unroll Rule.parse stuck depth)
      (unroll Rule.parse stuck' depth') := by
  induction bound generalizing depth depth' with
  | zero =>
      exact .of_keeps (keeps_unroll hstuck depth) (keeps_unroll hstuck' depth')
  | succ bound ih =>
      obtain ⟨depth, rfl⟩ := Nat.exists_eq_add_of_le' (show 2 ≤ depth by omega)
      obtain ⟨depth', rfl⟩ :=
        Nat.exists_eq_add_of_le' (show 2 ≤ depth' by omega)
      have hcovers := hlike bound (Nat.lt_succ_self bound)
      have hfewer : ∀ fewer < bound, like.Covers fewer := fun fewer hlt =>
        hlike fewer (Nat.lt_succ_of_lt hlt)
      have hcall : Agree like bound (unroll Rule.parse stuck (depth + 1))
          (unroll Rule.parse stuck' (depth' + 1)) :=
          ih hfewer (by omega) (by omega)
      have hdeeper : Agree like bound (unroll Rule.parse stuck depth)
          (unroll Rule.parse stuck' depth') := ih hfewer (by omega) (by omega)
      exact hcall.parse hcovers (hdeeper.parseLiteral hcovers)

theorem agree_parseRule (hlike : ∀ fewer < bound, like.Covers fewer)
    {depth : Nat} (hdepth : 2 * bound ≤ depth) :
    Agree like bound (parseRule depth) (parseRule depth) := by
  rw [parseRule_eq_unroll]
  exact agree_unroll keeps_none keeps_none hlike hdepth hdepth

theorem Agree.lower (hcall : Agree like (bound + 1) call call') :
    Agree like bound call call' where
  type _ _ := (hcall.type _ _).lower
  expression _ _ _ := (hcall.expression _ _ _).lower
  starting _ _ _ := (hcall.starting _ _ _).lower
  literal _ _ := (hcall.literal _ _).lower
  body _ _ := (hcall.body _ _).lower
  member _ _ := (hcall.member _ _).lower

theorem length_eq_iff_count_eq {before after : State}
    (hreads : before.Reads start after)
    (hskipped : before.tokens.dropWhile Token.isTrivia = before.tokens) :
    after.tokens.length = before.tokens.length ↔
      after.count = before.count := by
  obtain ⟨read, htokens, -⟩ := hreads.consumed
  rw [State.count, State.count, htokens, Token.significant, Token.significant,
    List.filter_append, List.length_append, List.length_append]
  cases read with
  | nil => simp
  | cons token read =>
      rw [htokens, List.cons_append] at hskipped
      have htrivia := Token.isTrivia_of_dropWhile hskipped
      simp [htrivia]

/-- Runs a parser after trivia, and goes on with the number of tokens before and
after it. -/
def counting (first : Parser β) (next : Nat → Nat → Parser α) : Parser α := do
  skipTrivia
  let before := (← get).tokens.length
  let _ ← first
  next before (← get).tokens.length

theorem counting_run (first : Parser β) (next : Nat → Nat → Parser α)
    (state : State) :
    (counting first next).run state =
      (next (skipTrivia.run state).2.tokens.length
        (first.run (skipTrivia.run state).2).2.tokens.length).run
          (first.run (skipTrivia.run state).2).2 :=
  rfl

theorem keeps_counting {first : Parser β} {next : Nat → Nat → Parser α}
    (hfirst : Keeps start first)
    (hnext : ∀ before after, Keeps start (next before after)) :
    Keeps start (counting first next) :=
  .bind keeps_skipTrivia fun _ => .bind keeps_get fun _ => .bind hfirst fun _ =>
    .bind keeps_get fun _ => hnext _ _

theorem twin_counting {first first' : Parser β} {took : β → Prop}
    {next next' : Nat → Nat → Parser α}
    (hfirst : Twin like ahead bound took start start' first first')
    (hnext : ∀ before after before' after',
      (after = before ↔ after' = before') →
        Twin like anything bound never start start' (next before after)
          (next' before' after')) :
    Twin like ahead bound never start start' (counting first next)
      (counting first' next') := by
  refine ⟨keeps_counting hfirst.keeps fun _ _ => (hnext _ _ _ _ Iff.rfl).keeps,
    keeps_counting hfirst.keeps' fun _ _ => (hnext _ _ _ _ Iff.rfl).keeps', ?_⟩
  intro state state' haccepts haccepts' hrel hsees hcount
  have hskipped : ∀ state : State,
      (skipTrivia.run state).2.tokens.dropWhile Token.isTrivia =
      (skipTrivia.run state).2.tokens := by
    intro state
    rw [tokens_skipTrivia, List.dropWhile_idempotent]
  have hrel' := like.skipTrivia hrel haccepts haccepts'
  rw [counting_run, counting_run]
  rw [← count_skipTrivia] at hcount
  rw [← peek?_skipTrivia] at hsees
  have haccepts := (keeps_skipTrivia state haccepts).accepts haccepts
  have haccepts' := (keeps_skipTrivia state' haccepts').accepts haccepts'
  have hskipped' := hskipped state'
  have hskipped := hskipped state
  generalize (skipTrivia.run state).2 = before at *
  generalize (skipTrivia.run state').2 = before' at *
  obtain ⟨-, hafter, -⟩ :=
    hfirst.same before before' haccepts haccepts' hrel' hsees hcount
  have hreads := hfirst.keeps before haccepts
  have hreads' := hfirst.keeps' before' haccepts'
  have hsame : (first.run before).2.tokens.length = before.tokens.length ↔
      (first'.run before').2.tokens.length = before'.tokens.length := by
    rw [length_eq_iff_count_eq hreads hskipped,
      length_eq_iff_count_eq hreads' hskipped', Likeness.count_eq hafter,
      Likeness.count_eq hrel']
  obtain ⟨hvalue, hfinal, -⟩ :=
    (hnext _ _ _ _ hsame).same _ _ (hreads.accepts haccepts)
    (hreads'.accepts haccepts') hafter trivial
      (Nat.lt_of_le_of_lt hreads.count_le hcount)
  exact ⟨hvalue, hfinal, fun hnever => hnever.elim⟩

def headerRest (call : Call) (start before after : Nat) : Parser Unit := do
  let named ← at? .moduleKw
  if named then
    nodeAt start .moduleDecl do
      take
      qualifiedName
  let derived ← atAny? [.amendsKw, .extendsKw]
  if derived then
    extendsAmendsClause call
  if named || derived then
    nodeAt start .moduleHeader (return ())
  else if after ≠ before then
    memberRest call start

theorem takeWhile_skipTrivia (state : State) :
    (skipTrivia.run state).2.tokens.takeWhile Token.isTrivia = [] := by
  have hsplit := List.takeWhile_append_dropWhile (p := Token.isTrivia)
    (l := (skipTrivia.run state).2.tokens)
  rw [tokens_skipTrivia, List.dropWhile_idempotent] at hsplit
  rw [tokens_skipTrivia]
  exact List.append_left_eq_self.mp hsplit

theorem skipTrivia_run_skipTrivia (state : State) :
    skipTrivia.run (skipTrivia.run state).2 = skipTrivia.run state := by
  rw [run_skipTrivia (skipTrivia.run state).2, takeWhile_skipTrivia]
  rfl

theorem moduleHeader_eq (call : Call) :
    moduleHeader call = mark >>= fun place =>
      counting (do annotations call; modifiers) (headerRest call place) := by
  funext state
  have hrun : (mark >>= fun place =>
      counting (do annotations call; modifiers) (headerRest call place)).run
        state =
      (counting (do annotations call; modifiers)
        (headerRest call (skipTrivia.run state).2.builder.mark)).run
          (skipTrivia.run state).2 := rfl
  refine Eq.trans ?_ hrun.symm
  rw [counting_run, skipTrivia_run_skipTrivia]
  rfl

theorem twin_moduleUri (hcall : Agree like bound call call') :
    Twin like ahead bound never start start' (moduleUri call)
      (moduleUri call') :=
  twin_node rfl fun _ _ => twin_at?_bind rfl (twin_stringLiteral hcall).forget
    (twin_report _)

theorem twin_extendsAmendsClause (hcall : Agree like bound call call') :
    Twin like known bound always start start' (extendsAmendsClause call)
      (extendsAmendsClause call') :=
  twin_node rfl fun _ _ => twin_take.before fun _ => twin_moduleUri hcall

theorem twin_importClause (hcall : Agree like bound call call') :
    Twin like known bound always start start' (importClause call)
      (importClause call') := by
  refine twin_node rfl fun _ _ => twin_take.before fun _ =>
    (twin_moduleUri hcall).bind fun _ => ?_
  exact twin_accept_bind rfl ((twin_expect rfl).bind fun _ => twin_done)
    twin_done

theorem twin_headerRest (hlike : like.Covers bound)
    (hcall : Agree like (bound + 1) call call')
    {before after before' after' : Nat}
    (hsame : after = before ↔ after' = before') :
    Twin like ahead (bound + 1) never start start'
      (headerRest call start before after)
      (headerRest call' start' before' after') := by
  have hfinished : ∀ (header : Bool),
      Twin like anything (bound + 1) never start start'
      (do
        if header then
          nodeAt start .moduleHeader (return ())
        else if after ≠ before then
          memberRest call start)
      (do
        if header then
          nodeAt start' .moduleHeader (return ())
        else if after' ≠ before' then
          memberRest call' start') := by
    intro header
    refine .ite (fun _ => twin_nodeAt rfl fun _ _ => twin_done) fun _ => ?_
    by_cases hconsumed : after = before
    · rw [if_neg (not_not_intro hconsumed),
        if_neg (not_not_intro (hsame.mp hconsumed))]
      exact twin_done
    · rw [if_pos hconsumed, if_pos fun hsame' => hconsumed (hsame.mpr hsame')]
      exact twin_memberRest hlike hcall.lower
  have hderived : ∀ {ahead : View} (named : Bool),
      Twin like ahead (bound + 1) never start start'
      (do
        let derived ← atAny? [.amendsKw, .extendsKw]
        if derived then
          extendsAmendsClause call
        if named || derived then
          nodeAt start .moduleHeader (return ())
        else if after ≠ before then
          memberRest call start)
      (do
        let derived ← atAny? [.amendsKw, .extendsKw]
        if derived then
          extendsAmendsClause call'
        if named || derived then
          nodeAt start' .moduleHeader (return ())
        else if after' ≠ before' then
          memberRest call' start') := by
    intro ahead named
    refine twin_atAny?_bind ?_ ?_
    · have hclause : Twin like (first [.amendsKw, .extendsKw]) (bound + 1) never
          start start'
          (extendsAmendsClause call) (extendsAmendsClause call') :=
        (twin_extendsAmendsClause hcall).spend.mono
          (fun _ hseen => known_of_first hseen (by decide))
          (Nat.le_refl _) fun _ hvalue => hvalue
      exact hclause.bind fun _ => hfinished _
    · exact (hfinished _).weaken
  refine twin_at?_bind rfl ?_ (hderived _)
  have hdecl : Twin like _ (bound + 1) never start start'
      (nodeAt start .moduleDecl _) _ :=
    twin_nodeAt rfl fun _ _ => twin_take.before fun _ => twin_qualifiedName
  exact hdecl.bind fun _ => hderived _

theorem twin_moduleHeader (hlike : like.Covers bound)
    (hcall : Agree like (bound + 1) call call') :
    Twin like ahead (bound + 1) never start start' (moduleHeader call)
      (moduleHeader call') := by
  rw [moduleHeader_eq, moduleHeader_eq]
  exact twin_mark_bind fun _ _ =>
    twin_counting ((twin_annotations hcall.lower).bind fun _ => twin_modifiers)
      fun _ _ _ _ => twin_headerRest hlike hcall

theorem twin_nextImport (hcall : Agree like bound call call') :
    Twin like ahead bound (· = true) start start' (nextImport call)
      (nextImport call') := by
  refine twin_atAny?_bind ?_ ?_
  · have hclause : Twin like (first [.importKw, .importStarKw]) bound (· = true)
        start start'
        (do importClause call; return true)
          (do importClause call'; return true) :=
      ((twin_importClause hcall).before fun _ => twin_done).mono
        (fun _ hseen => known_of_first hseen (by decide)) (Nat.le_refl _)
          fun _ hvalue => hvalue
    refine twin_peek?_bind fun _ => .ite (fun _ => ?_) fun _ =>
      twin_pure (by decide)
    exact hclause.mono (fun _ hseen => hseen.2) (Nat.le_refl _)
      fun _ hvalue => hvalue
  · exact twin_peek?_bind fun _ => .ite (fun himport => nomatch himport)
      fun _ => twin_pure (by decide)

theorem twin_imports (hcall : Agree like bound call call') :
    Twin like ahead bound never start start' (imports call) (imports call') :=
  twin_repeatWhile (twin_nextImport hcall)

theorem twin_nextMember (hcall : Agree like bound call call') :
    Twin like ahead bound (· = true) start start' (nextMember call)
      (nextMember call') :=
  twin_atEnd?_bind (twin_pure (by decide)) ((twin_member hcall).before fun _ =>
    twin_done)

theorem twin_moduleContents (hlike : like.Covers bound)
    (hcall : Agree like (bound + 1) call call') :
    Twin like ahead (bound + 1) never start start' (moduleContents call)
      (moduleContents call') := by
  refine (twin_moduleHeader hlike hcall).bind fun _ => (twin_imports hcall).bind
    fun _ => ?_
  exact twin_repeatWhile (twin_nextMember hcall)

theorem moduleRule_run_eq {state : State} (hempty : state.builder = .empty) :
    (moduleRule call).run state =
      (nodeAt 0 .root (moduleContents call >>= fun _ => skipTrivia)).run
        state := by
  have haccepts : state.builder.accepts 0 = true := by rw [hempty]; rfl
  have hmark : state.builder.mark = 0 := by rw [hempty]; rfl
  rw [← hmark]
  exact enclose_run_eq haccepts

theorem twin_moduleAt (hlike : like.Covers bound)
    (hcall : Agree like (bound + 1) call call') :
    Twin like ahead (bound + 1) never start start'
      (nodeAt start .root (moduleContents call >>= fun _ => skipTrivia))
      (nodeAt start' .root (moduleContents call' >>= fun _ => skipTrivia)) :=
  twin_nodeAt rfl fun _ _ => (twin_moduleContents hlike hcall).bind fun _ =>
    twin_skipTrivia

/-- Two runs over a whole module, before which nothing has been built, go the
same way, whatever calls of rules give that are nested deeper than there is need
for. -/
theorem rel_moduleRule (hlike : ∀ fewer ≤ like.size, like.Covers fewer)
    {stuck stuck' : Call} (hstuck : stuck.Keeps) (hstuck' : stuck'.Keeps)
    {depth depth' : Nat} (hdepth : 2 * (like.size + 1) ≤ depth)
    (hdepth' : 2 * (like.size + 1) ≤ depth') {state state' : State}
    (hempty : state.builder = .empty) (hempty' : state'.builder = .empty)
    (hrel : like.rel 0 0 state state') (hcount : state.count ≤ like.size) :
    like.rel 0 0 ((moduleRule (unroll Rule.parse stuck depth)).run state).2
      ((moduleRule (unroll Rule.parse stuck' depth')).run state').2 := by
  have hcall : Agree like (like.size + 1) (unroll Rule.parse stuck depth)
      (unroll Rule.parse stuck' depth') :=
    agree_unroll hstuck hstuck'
      (fun fewer hlt => hlike fewer (Nat.le_of_lt_succ hlt)) hdepth hdepth'
  have htwin : Twin like anything (like.size + 1) never 0 0 _ _ :=
    twin_moduleAt (hlike _ (Nat.le_refl _)) hcall
  have haccepts : state.builder.accepts 0 = true := by rw [hempty]; rfl
  have haccepts' : state'.builder.accepts 0 = true := by rw [hempty']; rfl
  rw [moduleRule_run_eq hempty, moduleRule_run_eq hempty']
  exact (htwin.same _ _ haccepts haccepts' hrel trivial
    (Nat.lt_succ_of_le hcount)).2.1

theorem le_callDepth (state : State) :
    2 * (state.count + 1) ≤ callDepth state.tokens := by
  have hsize := state.count_le_length
  rw [callDepth]
  omega

theorem finalState_eq_unroll (tokens : List Token) (stop : Nat) :
    finalState tokens stop =
      ((moduleRule
        (unroll Rule.parse (fun _ => return none) (callDepth tokens))).run
        (.ofTokens tokens stop)).2 := by
  rw [finalState, parseRule_eq_unroll]

theorem rel_finalState {tokens : List Token} {stop : Nat}
    (hlike : ∀ fewer ≤ like.size, like.Covers fewer)
    (hsize : like.size = (State.ofTokens tokens stop).count)
    (hrel : like.rel 0 0 (.ofTokens tokens stop) (.ofTokens tokens stop)) :
    like.rel 0 0 (finalState tokens stop) (finalState tokens stop) := by
  have hneed : 2 * (like.size + 1) ≤ callDepth tokens :=
    hsize ▸ le_callDepth (.ofTokens tokens stop)
  rw [finalState_eq_unroll]
  exact rel_moduleRule hlike keeps_none keeps_none hneed hneed rfl rfl hrel
    (Nat.le_of_eq hsize.symm)

theorem finalState_of_lasting {holds : State → Prop}
    (hlasting : Lasting True holds) {tokens : List Token} {stop : Nat}
    (hstart : holds (.ofTokens tokens stop)) :
    holds (finalState tokens stop) := by
  let like :=
    Likeness.keeping holds True (State.ofTokens tokens stop).count hlasting
  have hrel : like.rel 0 0 (finalState tokens stop) (finalState tokens stop) :=
    rel_finalState (fun _ hle => .of_junk trivial hle) rfl ⟨rfl, rfl, hstart⟩
  exact hrel.2.2

theorem errors_parseTokens (tokens : List Token) (stop : Nat) :
    (parseTokens tokens stop).errors =
      (finalState tokens stop).errors.reverse := by
  rw [parseTokens]

end PklAnalysis.Grammar

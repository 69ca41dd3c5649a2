import PklAnalysis.Proofs.Grammar.Loop
import PklAnalysis.Proofs.Grammar.Nesting
import PklAnalysis.Proofs.Grammar.Similar

/-!
What parsers make of tokens in a given order, whatever trivia stand among them:
which of the tokens they read before those that follow, and which trees they
build of them. Some add to what has been built since a place, and make one tree
of both.
-/

namespace PklAnalysis

namespace Tree

mutual

def decEq : (left right : Tree) → Decidable (left = right)
  | .token kind text, .token kind' text' =>
      decidable_of_iff (kind = kind' ∧ text = text') (by simp)
  | .node kind trees, .node kind' trees' =>
      have := decEqAll trees trees'
      decidable_of_iff (kind = kind' ∧ trees = trees') (by simp)
  | .token _ _, .node _ _ | .node _ _, .token _ _ => .isFalse nofun

def decEqAll : (left right : List Tree) → Decidable (left = right)
  | [], [] => .isTrue rfl
  | tree :: rest, tree' :: rest' =>
      have := decEq tree tree'
      have := decEqAll rest rest'
      decidable_of_iff (tree = tree' ∧ rest = rest') (by simp)
  | [], _ :: _ | _ :: _, [] => .isFalse nofun

end

instance : DecidableEq Tree :=
  decEq

end Tree

namespace Parser

abbrev Leaf := Token.Kind × String

def State.ahead (state : State) : List Leaf :=
  (Token.significant state.tokens).map Token.leaf

def firstKind (leaves : List Leaf) : Option Token.Kind :=
  leaves.head?.map Prod.fst

/-- From one state to another `trees` have been built, trivia aside, and no
error has been found. -/
structure State.Builds (before after : State) (trees : List Tree) : Prop where
  errors : after.errors = before.errors
  openNodes : after.builder.openNodes = before.builder.openNodes
  built : ∃ added,
    after.builder.trees.toList = before.builder.trees.toList ++ added ∧
    Tree.bareAll added = trees

/-- If `rest` is what follows `leaves`, the parser reads these, builds `trees`
and gives a value. -/
def Parses (parser : Parser α) (value : α) (leaves : List Leaf)
    (trees : List Tree) (rest : List Leaf) : Prop :=
  ∀ state : State, state.ahead = leaves ++ rest → ∃ after,
    parser.run state = (value, after) ∧
    after.ahead = rest ∧ state.Builds after trees

/-- The same where `first` has been built since a place, which the parser may
add to. -/
def ParsesOnto (first : List Tree) (parser : Nat → Parser α) (value : α)
    (leaves : List Leaf) (trees : List Tree) (rest : List Leaf) : Prop :=
  ∀ origin state : State, origin.Builds state first →
    state.ahead = leaves ++ rest →
    ∃ after, (parser origin.builder.mark).run state = (value, after) ∧
      after.ahead = rest ∧ origin.Builds after trees

variable {state after : State} {first trees trees' : List Tree}
  {leaves leaves' rest : List Leaf}
  {leaf : Leaf} {kind : Token.Kind} {text : String}

namespace State.Builds

theorem refl (state : State) : state.Builds state [] :=
  ⟨rfl, rfl, [], (List.append_nil _).symm, rfl⟩

theorem trans {before middle after : State}
    (hfirst : before.Builds middle trees)
    (hsecond : middle.Builds after trees') :
    before.Builds after (trees ++ trees') := by
  obtain ⟨added, hadded, hbare⟩ := hfirst.built
  obtain ⟨added', hadded', hbare'⟩ := hsecond.built
  refine ⟨hsecond.errors.trans hfirst.errors,
    hsecond.openNodes.trans hfirst.openNodes, added ++ added', ?_, ?_⟩
  · rw [hadded', hadded, List.append_assoc]
  · rw [Tree.bareAll_append, hbare, hbare']

end State.Builds

theorem peek?_eq_ahead (state : State) (n : Nat) :
    state.peek? n = state.ahead[n]?.map Prod.fst := by
  rw [State.peek?, Token.nth?_eq, State.ahead, List.getElem?_map,
    Option.map_map]
  rfl

theorem peek?_zero_eq (state : State) :
    state.peek? 0 = firstKind state.ahead := by
  rw [peek?_eq_ahead, firstKind, List.head?_eq_getElem?]

theorem map_text_current? (state : State) :
    state.current?.map Token.text = state.ahead.head?.map Prod.snd := by
  rw [State.current?, Token.nth?_eq, State.ahead, List.head?_eq_getElem?,
    List.getElem?_map, Option.map_map]
  rfl

theorem parses_of_unchanged {parser : Parser α} {value : α}
    (hrun : ∀ state : State,
      state.ahead = rest → parser.run state = (value, state)) :
    Parses parser value [] [] rest :=
  fun state hahead => ⟨state, hrun state hahead, hahead, .refl state⟩

theorem parses_pure (value : α) (rest : List Leaf) :
    Parses (pure value) value [] [] rest :=
  parses_of_unchanged fun _ _ => rfl

theorem parses_peek? (n : Nat) (rest : List Leaf) :
    Parses (peek? n) (rest[n]?.map Prod.fst) [] [] rest := by
  refine parses_of_unchanged fun state hahead => ?_
  rw [← hahead, ← peek?_eq_ahead]
  rfl

theorem parses_current? (rest : List Leaf) :
    Parses current? (firstKind rest) [] [] rest := by
  refine parses_of_unchanged fun state hahead => ?_
  rw [← hahead, ← peek?_zero_eq]
  rfl

theorem parses_at? (kind : Token.Kind) (rest : List Leaf) :
    Parses (at? kind) (decide (firstKind rest = some kind)) [] [] rest := by
  refine parses_of_unchanged fun state hahead => ?_
  rw [← hahead, ← peek?_zero_eq]
  rfl

theorem Parses.onto {parser : Parser α} {value : α}
    (hparses : Parses parser value leaves trees rest) (first : List Tree) :
    ParsesOnto first (fun _ => parser) value leaves (first ++ trees) rest := by
  intro origin state hbuilds hahead
  obtain ⟨after, hrun, hafter, hbuilds'⟩ := hparses state hahead
  exact ⟨after, hrun, hafter, hbuilds.trans hbuilds'⟩

theorem Parses.of_onto {parser : Parser α} {value : α}
    (hparses : ParsesOnto [] (fun _ => parser) value leaves trees rest) :
    Parses parser value leaves trees rest :=
  fun state hahead => hparses state state (.refl state) hahead

theorem ParsesOnto.bind {parser : Nat → Parser α} {next : Nat → α → Parser β}
    {value : α} {value' : β}
    (hfirst : ParsesOnto first parser value leaves trees (leaves' ++ rest))
    (hnext : ParsesOnto trees (fun place => next place value) value' leaves'
      trees' rest) :
    ParsesOnto first (fun place => parser place >>= next place) value'
      (leaves ++ leaves') trees' rest := by
  intro origin state hbuilds hahead
  rw [List.append_assoc] at hahead
  obtain ⟨middle, hrun, hmiddle, hbuilds⟩ := hfirst origin state hbuilds hahead
  obtain ⟨after, hrun', hafter, hbuilds'⟩ := hnext origin middle hbuilds hmiddle
  exact ⟨after, by rw [run_bind, hrun, hrun'], hafter, hbuilds'⟩

theorem Parses.bind {parser : Parser α} {next : α → Parser β} {value : α}
    {value' : β} (hfirst : Parses parser value leaves trees (leaves' ++ rest))
    (hnext : Parses (next value) value' leaves' trees' rest) :
    Parses (parser >>= next) value' (leaves ++ leaves')
      (trees ++ trees') rest :=
  .of_onto ((hfirst.onto []).bind (hnext.onto trees))

theorem Parses.look {parser : Parser α} {next : α → Parser β} {value : α}
    {value' : β} (hfirst : Parses parser value [] [] (leaves ++ rest))
    (hnext : Parses (next value) value' leaves trees rest) :
    Parses (parser >>= next) value' leaves trees rest :=
  hfirst.bind hnext

theorem Parses.last {parser : Parser α} {next : α → Parser β} {value : α}
    {value' : β} (hfirst : Parses parser value leaves trees rest)
    (hnext : Parses (next value) value' [] [] rest) :
    Parses (parser >>= next) value' leaves trees rest := by
  have hboth : Parses (parser >>= next) value' (leaves ++ []) (trees ++ [])
      rest := hfirst.bind hnext
  rwa [List.append_nil, List.append_nil] at hboth

theorem Parses.discard {parser : Parser α} {value : α}
    (hparses : Parses parser value leaves trees rest) :
    Parses (discard parser) () leaves trees rest := by
  intro state hahead
  obtain ⟨after, hrun, hafter⟩ := hparses state hahead
  have hdiscard : (Functor.discard parser).run state =
      ((), (parser.run state).2) := rfl
  exact ⟨after, by rw [hdiscard, hrun], hafter⟩

theorem Parses.lookOnto {parser : Parser α} {next : Nat → α → Parser β}
    {value : α} {value' : β}
    (hfirst : Parses parser value [] [] (leaves ++ rest))
    (hnext : ParsesOnto first (fun place => next place value) value' leaves
      trees rest) :
    ParsesOnto first (fun place => parser >>= next place) value' leaves trees
      rest := by
  have honto : ParsesOnto first (fun _ => parser) value [] first
      (leaves ++ rest) := by
    simpa using hfirst.onto first
  exact honto.bind hnext

theorem ParsesOnto.last {parser : Nat → Parser α} {next : α → Parser β}
    {value : α} {value' : β}
    (hfirst : ParsesOnto first parser value leaves trees rest)
    (hnext : Parses (next value) value' [] [] rest) :
    ParsesOnto first (fun place => parser place >>= next) value' leaves trees
      rest := by
  have hboth := hfirst.bind (hnext.onto trees)
  rwa [List.append_nil, List.append_nil] at hboth

theorem parsesOnto_pure (first : List Tree) (value : α) (rest : List Leaf) :
    ParsesOnto first (fun _ => pure value) value [] first rest :=
  fun _ state hbuilds hahead => ⟨state, rfl, hahead, hbuilds⟩

section

variable {next : Nat → Bool → Parser α} {value : α}

theorem parsesOnto_of_at (hkind : firstKind (leaves ++ rest) = some kind)
    (hnext : ParsesOnto first (fun place => next place true) value leaves
      trees rest) :
    ParsesOnto first (fun place => at? kind >>= next place) value leaves trees
      rest := by
  refine (parses_at? kind _).lookOnto ?_
  rwa [decide_eq_true hkind]

theorem parsesOnto_of_not_at (hkind : firstKind (leaves ++ rest) ≠ some kind)
    (hnext : ParsesOnto first (fun place => next place false) value leaves
      trees rest) :
    ParsesOnto first (fun place => at? kind >>= next place) value leaves trees
      rest := by
  refine (parses_at? kind _).lookOnto ?_
  rwa [decide_eq_false hkind]

end

section

variable {next : Bool → Parser α} {value : α}

theorem parses_of_at (hkind : firstKind (leaves ++ rest) = some kind)
    (hnext : Parses (next true) value leaves trees rest) :
    Parses (at? kind >>= next) value leaves trees rest :=
  .of_onto (parsesOnto_of_at hkind (hnext.onto []))

theorem parses_of_not_at (hkind : firstKind (leaves ++ rest) ≠ some kind)
    (hnext : Parses (next false) value leaves trees rest) :
    Parses (at? kind >>= next) value leaves trees rest :=
  .of_onto (parsesOnto_of_not_at hkind (hnext.onto []))

end

theorem ahead_skipTrivia (state : State) :
    (skipTrivia.run state).2.ahead = state.ahead := by
  rw [State.ahead, tokens_skipTrivia, Token.significant_dropWhile, State.ahead]

theorem builds_skipTrivia (state : State) :
    state.Builds (skipTrivia.run state).2 [] := by
  obtain ⟨added, -, hadded⟩ :=
    state.exists_toList_advanceBy (state.tokens.takeWhile Token.isTrivia).length
  have hbare := bareAll_skipTrivia (Nat.le_refl state.builder.trees.size)
  change (skipTrivia.run state).2.builder.trees.toList = _ at hadded
  rw [hadded, ← Array.length_toList, List.drop_left, List.drop_length] at hbare
  exact ⟨errors_skipTrivia state, state.openNodes_advanceBy _, added,
    hadded, hbare⟩

theorem parses_skipTrivia (rest : List Leaf) :
    Parses skipTrivia () [] [] rest :=
  fun state hahead => ⟨_, rfl, (ahead_skipTrivia state).trans hahead,
    builds_skipTrivia state⟩

theorem exists_tokens_of_ahead (hahead : state.ahead = leaf :: rest) :
    ∃ token tokens,
      state.tokens.dropWhile Token.isTrivia = token :: tokens ∧
        token.leaf = leaf ∧
        (Token.significant tokens).map Token.leaf = rest := by
  rw [State.ahead, ← Token.significant_dropWhile] at hahead
  cases hdrop : state.tokens.dropWhile Token.isTrivia with
  | nil =>
      rw [hdrop] at hahead
      cases hahead
  | cons token tokens =>
      rw [hdrop, Token.significant_cons _ (Token.isTrivia_of_dropWhile hdrop),
        List.map_cons] at hahead
      obtain ⟨hleaf, hrest⟩ := List.cons.inj hahead
      exact ⟨token, tokens, rfl, hleaf, hrest⟩

theorem parses_take (leaf : Leaf) (rest : List Leaf) :
    Parses take () [leaf] [.token leaf.1 leaf.2] rest := by
  intro state hahead
  obtain ⟨token, tokens, hdrop, rfl, hrest⟩ := exists_tokens_of_ahead hahead
  have htrivia := Token.isTrivia_of_dropWhile hdrop
  rw [← tokens_skipTrivia] at hdrop
  have hadvance := State.advance_of_cons hdrop
  have hbuilds :
      (skipTrivia.run state).2.Builds (skipTrivia.run state).2.advance
      [.token token.kind token.text] := by
    refine ⟨State.errors_advance _, State.openNodes_advance _, _,
      (State.advance_eq hdrop).2.2, ?_⟩
    exact Tree.bareAll_eq_self _ (List.forall_mem_singleton.mpr htrivia)
  exact ⟨(skipTrivia.run state).2.advance,
    rfl, by rw [State.ahead, hadvance]; exact hrest,
    (builds_skipTrivia state).trans hbuilds⟩

theorem parses_accept (kind : Token.Kind) (text : String) (rest : List Leaf) :
    Parses (accept kind) true [(kind, text)] [.token kind text] rest := by
  refine parses_of_at rfl ?_
  exact (parses_take (kind, text) rest).last (parses_pure true rest)

theorem parses_accept_of_ne (hne : firstKind rest ≠ some kind) :
    Parses (accept kind) false [] [] rest := by
  refine parses_of_not_at hne ?_
  exact parses_pure false rest

theorem parses_expect (kind : Token.Kind) (text : String) (rest : List Leaf) :
    Parses (expect kind) true [(kind, text)] [.token kind text] rest :=
  (parses_accept kind text rest).last (parses_pure true rest)

theorem parses_close (kind : Token.Kind) (text : String) (rest : List Leaf) :
    Parses (close kind) () [(kind, text)] [.token kind text] rest := by
  intro state hahead
  obtain ⟨after, haccept, hafter⟩ := parses_accept kind text rest state hahead
  have hstopped : stopped (kind :: closers) state = true := by
    simp [stopped, peek?_zero_eq, hahead, firstKind]
  refine ⟨after, ?_, hafter⟩
  rw [run_close, hstopped, closeUnless, if_pos rfl, run_bind, haccept]
  rfl

theorem State.Builds.finish {kind : Node.Kind}
    {origin state opened inner : State} (hfirst : origin.Builds state first)
    (hinner : opened.Builds inner trees)
    (herrors : opened.errors = state.errors)
    (htrees : opened.builder.trees = state.builder.trees)
    (hopen : opened.builder.openNodes =
      (kind, origin.builder.mark) :: state.builder.openNodes) :
    origin.Builds
      { inner with builder := inner.builder.finish }
        [.node kind (first ++ trees)] := by
  obtain ⟨before, hbefore, rfl⟩ := hfirst.built
  obtain ⟨added, hadded, rfl⟩ := hinner.built
  have hopened := hinner.openNodes.trans hopen
  have hmark : origin.builder.mark = origin.builder.trees.toList.length :=
    Array.length_toList.symm
  refine ⟨hinner.errors.trans (herrors.trans hfirst.errors), ?_,
    [.node kind (before ++ added)], ?_, ?_⟩
  · exact (Builder.openNodes_finish hopened).trans hfirst.openNodes
  · rw [Builder.toList_trees_finish hopened, hadded, htrees, hbefore, hmark,
      List.append_assoc, List.take_left, List.drop_left]
  · rw [Tree.bareAll_node, Tree.bareAll_append]

theorem Parses.nodeAt {parser : Parser α} {value : α}
    (hbody : Parses parser value leaves trees rest) (kind : Node.Kind)
    (first : List Tree) :
    ParsesOnto first (fun place => Parser.nodeAt place kind parser) value leaves
      [.node kind (first ++ trees)] rest := by
  intro origin state hfirst hahead
  let opened : State :=
    { state with builder := state.builder.startAt origin.builder.mark kind }
  obtain ⟨inner, hrun, hinner, hbuilds⟩ := hbody opened hahead
  refine ⟨{ inner with builder := inner.builder.finish }, ?_, hinner,
    hfirst.finish hbuilds rfl rfl rfl⟩
  rw [run_nodeAt, hrun]

theorem Parses.node {parser : Parser α} {value : α}
    (hbody : Parses parser value leaves trees rest) (kind : Node.Kind) :
    Parses (Parser.node kind parser) value leaves [.node kind trees] rest := by
  refine (parses_skipTrivia _).look fun state hahead => ?_
  let opened : State := { state with builder := state.builder.start kind }
  obtain ⟨inner, hrun, hinner, hbuilds⟩ := hbody opened hahead
  refine ⟨{ inner with builder := inner.builder.finish }, ?_, hinner,
    (State.Builds.refl state).finish hbuilds rfl rfl rfl⟩
  rw [run_enclose, hrun]

theorem parses_mark_bind {next : Nat → Parser α} {value : α}
    (hnext : ParsesOnto [] next value leaves trees rest) :
    Parses (mark >>= next) value leaves trees rest := by
  intro state hahead
  have hskipped := builds_skipTrivia state
  rw [← ahead_skipTrivia] at hahead
  obtain ⟨after, hrun, hafter, hbuilds⟩ := hnext _ _ (.refl _) hahead
  exact ⟨after, hrun, hafter, hskipped.trans hbuilds⟩

theorem parsesOnto_repeatWhile {step : Nat → Parser Bool} {items : List ι}
    (spell : ι → List Leaf) (grow : List Tree → ι → List Tree)
    (hspell : ∀ item ∈ items, spell item ≠ [])
    (hstep : ∀ item more, item :: more <:+ items → ∀ first,
      ParsesOnto first step true (spell item) (grow first item)
        (more.flatMap spell ++ rest))
    (hlast : ∀ first, ParsesOnto first step false [] first rest)
    (first : List Tree) :
    ParsesOnto first (fun place => repeatWhile (step place)) ()
      (items.flatMap spell)
      (items.foldl grow first) rest := by
  intro origin state hfirst hahead
  have hloop : ∀ limit : Nat, items.length < limit → ∃ after,
      (iterate (once (step origin.builder.mark)) limit ()).run state = ((),
        after) ∧ after.ahead = rest ∧
        origin.Builds after (items.foldl grow first) := by
    induction items generalizing first state with
    | nil =>
        intro limit hlimit
        obtain ⟨limit, rfl⟩ := Nat.exists_eq_add_of_le' hlimit
        obtain ⟨after, hrun, hafter, hbuilds⟩ :=
          hlast first origin state hfirst hahead
        exact ⟨after, run_iterate_of_false limit hrun, hafter, hbuilds⟩
    | cons item more ih =>
        intro limit hlimit
        obtain ⟨limit, rfl⟩ :=
          Nat.exists_eq_add_of_le' (Nat.zero_lt_of_lt hlimit)
        rw [List.flatMap_cons, List.append_assoc] at hahead
        obtain ⟨middle, hrun, hmiddle, hbuilds⟩ :=
          hstep item more (List.suffix_refl _) first origin state hfirst hahead
        obtain ⟨after, hrun', hafter⟩ :=
          ih (fun other hother => hspell other (List.mem_cons_of_mem _ hother))
          (fun other others hsuffix =>
            hstep other others (hsuffix.trans (List.suffix_cons item more)))
          _ middle hbuilds hmiddle limit (Nat.lt_of_succ_lt_succ hlimit)
        exact ⟨after, (run_iterate_of_true limit hrun).trans hrun', hafter⟩
  refine hloop (state.tokens.length + 1) (Nat.lt_succ_of_le ?_)
  calc
    items.length
    _ ≤ (items.flatMap spell).length := by
        rw [List.length_flatMap,
          ← List.length_map (f := fun item => (spell item).length)]
        refine List.length_le_sum_of_one_le _
          (List.forall_mem_map.mpr fun item hitem => ?_)
        exact List.length_pos_of_ne_nil (hspell item hitem)
    _ ≤ state.ahead.length := by
        rw [hahead, List.length_append]
        exact Nat.le_add_right _ _
    _ ≤ state.tokens.length := by
        rw [State.ahead, List.length_map]
        exact List.length_filter_le _ _

theorem parses_repeatWhile {step : Parser Bool} {items : List ι}
    (spell : ι → List Leaf) (build : ι → List Tree)
    (hspell : ∀ item ∈ items, spell item ≠ [])
    (hstep : ∀ item more,
      item :: more <:+ items →
        Parses step true (spell item) (build item) (more.flatMap spell ++ rest))
    (hlast : Parses step false [] [] rest) :
    Parses (repeatWhile step) () (items.flatMap spell) (items.flatMap build)
      rest := by
  have hgrown : ∀ first : List Tree,
      items.foldl (fun first item => first ++ build item) first =
        first ++ items.flatMap build := by
    intro first
    rw [List.foldl_append_eq_append, List.flatMap_def]
  refine .of_onto ?_
  rw [← List.nil_append (items.flatMap build), ← hgrown]
  refine parsesOnto_repeatWhile spell _ hspell (fun item more hsuffix first =>
    ?_) (fun first => ?_) []
  · exact (hstep item more hsuffix).onto first
  · have hnothing := hlast.onto first
    rwa [List.append_nil] at hnothing

end Parser

end PklAnalysis

import PklAnalysis.Proofs.Grammar.Unrolling

/-!
Where errors stand. A parser never goes back, and an error is reported at the
token that comes next, so errors come in the order of the text, and each stands
at a token or at the end.
-/

namespace PklAnalysis

/-! Tokens that stand one after the other. -/

namespace Token

/-- The tokens stand one after the other between two offsets. -/
def Spans (start stop : Nat) (tokens : List Token) : Prop :=
  Contiguous start tokens ∧ start + Text.byteSize (charsOf tokens) = stop

theorem spans_cons {start stop : Nat} {token : Token} {rest : List Token} :
    Spans start stop (token :: rest) ↔
      token.range.start = start ∧ Spans token.range.stop stop rest := by
  have hsize : Text.byteSize (charsOf (token :: rest)) =
      token.text.utf8ByteSize + Text.byteSize (charsOf rest) := by
    rw [charsOf, List.flatMap_cons, Text.byteSize_append, byteSize_text]
    rfl
  have hstart : token.range.start = token.offset := rfl
  have hstop : token.range.stop = token.offset + token.text.utf8ByteSize := rfl
  rw [Spans, Spans, Contiguous, hsize, hstart, hstop, ← Nat.add_assoc]
  constructor
  · rintro ⟨⟨rfl, hrest⟩, hend⟩
    exact ⟨rfl, hrest, hend⟩
  · rintro ⟨rfl, hrest, hend⟩
    exact ⟨⟨rfl, hrest⟩, hend⟩

theorem Covers.spans {text : String} {tokens : List Token}
    (hcovers : Covers 0 text.toList tokens) :
    Spans 0 text.utf8ByteSize tokens := by
  have hsize : Text.byteSize text.toList = text.utf8ByteSize := by
    rw [← Text.utf8ByteSize_ofList, String.ofList_toList]
  exact ⟨hcovers.contiguous, by rw [hcovers.chars, hsize, Nat.zero_add]⟩

end Token

namespace Parser

open Token (Spans)

/-! Where the next error would stand. -/

theorem errorRange_of_trivia {state : State} {token : Token} {rest : List Token}
    (htokens : state.tokens = token :: rest) (htrivia : token.isTrivia = true) :
    state.advance.errorRange = state.errorRange := by
  rw [State.advance_of_cons htokens, State.errorRange, State.errorRange,
    State.current?, State.current?, htokens, nth?, if_pos htrivia]

theorem errorRange_of_not_trivia {state : State} {token : Token}
    {rest : List Token} (htokens : state.tokens = token :: rest)
    (htrivia : token.isTrivia = false) :
    state.errorRange = token.range := by
  rw [State.errorRange, State.current?, htokens, nth?, htrivia]
  rfl

theorem le_start_errorRange {state : State} {start : Nat}
    (hspans : Spans start state.stop state.tokens) :
    start ≤ state.errorRange.start := by
  generalize htokens : state.tokens = tokens at hspans
  induction tokens generalizing state start with
  | nil =>
      have hrange : state.errorRange = .ofSize state.stop 0 := by
        rw [State.errorRange, State.current?, htokens, nth?]
      rw [hrange]
      exact Nat.le.intro hspans.2
  | cons token rest ih =>
      obtain ⟨rfl, hrest⟩ := Token.spans_cons.mp hspans
      cases htrivia : token.isTrivia with
      | true =>
          rw [← errorRange_of_trivia htokens htrivia]
          have hnext : state.advance.tokens = rest :=
            (State.advance_eq htokens).1
          have hstop : state.advance.stop = state.stop := by
            rw [State.advance_of_cons htokens]
          have hle : token.range.stop ≤ state.advance.errorRange.start :=
            ih hnext (by rw [hstop]; exact hrest)
          exact Nat.le_trans token.range.start_le_stop hle
      | false => rw [errorRange_of_not_trivia htokens htrivia]

theorem start_errorRange_le_advance {state : State} {start : Nat}
    (hspans : Spans start state.stop state.tokens) :
    state.errorRange.start ≤ state.advance.errorRange.start := by
  cases htokens : state.tokens with
  | nil => simp only [State.advance, htokens, Nat.le_refl]
  | cons token rest =>
      cases htrivia : token.isTrivia with
      | true => rw [errorRange_of_trivia htokens htrivia]
      | false =>
          obtain ⟨-, hrest⟩ := Token.spans_cons.mp (htokens ▸ hspans)
          have hnext : Spans token.range.stop state.advance.stop
              state.advance.tokens := by
            rwa [State.advance_of_cons htokens]
          rw [errorRange_of_not_trivia htokens htrivia]
          exact Nat.le_trans token.range.start_le_stop
            (le_start_errorRange hnext)

def Placed (tokens : List Token) (stop : Nat) (range : Range) : Prop :=
  (∃ token ∈ tokens, token.isTrivia = false ∧ range = token.range) ∨
    range = .ofSize stop 0

/-- No error stands after the place where the next one would stand. -/
structure InTextOrder (tokens : List Token) (stop : Nat) (state : State) :
    Prop where
  suffix : state.tokens <:+ tokens
  spans : ∃ start, Spans start state.stop state.tokens
  stop_eq : state.stop = stop
  placed : ∀ error ∈ state.errors, Placed tokens stop error.range
  ordered : state.errors.Pairwise fun later earlier => earlier.range.start ≤
    later.range.start
  behind : ∀ error ∈ state.errors, error.range.start ≤ state.errorRange.start

theorem inTextOrder_ofTokens {tokens : List Token} {stop : Nat}
    (hspans : Spans 0 stop tokens) :
    InTextOrder tokens stop (.ofTokens tokens stop) where
  suffix := List.suffix_rfl
  spans := ⟨0, hspans⟩
  stop_eq := rfl
  placed := nofun
  ordered := .nil
  behind := nofun

theorem nth?_mem {n : Nat} {tokens : List Token} {token : Token}
    (hnth : nth? n tokens = some token) :
    token ∈ tokens ∧ token.isTrivia = false := by
  rw [Token.nth?_eq] at hnth
  have hmem := List.mem_filter.mp (List.mem_of_getElem? hnth)
  exact ⟨hmem.1, by simpa using hmem.2⟩

theorem InTextOrder.placed_errorRange {tokens : List Token} {stop : Nat}
    {state : State} (horder : InTextOrder tokens stop state) :
    Placed tokens stop state.errorRange := by
  rw [State.errorRange]
  cases hcurrent : state.current? with
  | none =>
      right
      rw [← horder.stop_eq]
  | some token =>
      obtain ⟨hmem, htrivia⟩ := nth?_mem hcurrent
      exact .inl ⟨token, horder.suffix.mem hmem, htrivia, rfl⟩

theorem InTextOrder.advance {tokens : List Token} {stop : Nat} {state : State}
    {token : Token} {rest : List Token} (horder : InTextOrder tokens stop state)
    (htokens : state.tokens = token :: rest) :
    InTextOrder tokens stop state.advance := by
  obtain ⟨start, hspans⟩ := horder.spans
  have hmono := start_errorRange_le_advance hspans
  have hnext := State.advance_of_cons htokens
  have herrors : state.advance.errors = state.errors := by rw [hnext]
  have hstop : state.advance.stop = state.stop := by rw [hnext]
  have hrest : state.advance.tokens = rest := by rw [hnext]
  refine ⟨?_, ⟨token.range.stop, ?_⟩, hstop.trans horder.stop_eq, ?_, ?_, ?_⟩
  · rw [hrest]
    exact (List.suffix_cons token rest).trans (htokens ▸ horder.suffix)
  · rw [hstop, hrest]
    exact (Token.spans_cons.mp (htokens ▸ hspans)).2
  · rw [herrors]
    exact horder.placed
  · rw [herrors]
    exact horder.ordered
  · rw [herrors]
    exact fun error herror => Nat.le_trans (horder.behind error herror) hmono

theorem InTextOrder.report {tokens : List Token} {stop : Nat} {state : State}
    (horder : InTextOrder tokens stop state) (cause : SyntaxError.Cause) :
    InTextOrder tokens stop ((Parser.report cause).run state).2 where
  suffix := horder.suffix
  spans := horder.spans
  stop_eq := horder.stop_eq
  placed := List.forall_mem_cons.mpr ⟨horder.placed_errorRange, horder.placed⟩
  ordered := List.pairwise_cons.mpr ⟨horder.behind, horder.ordered⟩
  behind := List.forall_mem_cons.mpr ⟨Nat.le_refl _, horder.behind⟩

theorem lasting_inTextOrder (tokens : List Token) (stop : Nat) :
    Lasting True (InTextOrder tokens stop) where
  advance horder htokens _ := horder.advance htokens
  report horder := horder.report
  startAt horder _ _ _ :=
    ⟨horder.1, horder.2, horder.3, horder.4, horder.5, horder.6⟩
  finish horder _ _ _ :=
    ⟨horder.1, horder.2, horder.3, horder.4, horder.5, horder.6⟩

end Parser

namespace Grammar

open PklAnalysis.Parser

/-- The errors of a text that can be lexed start one after the other, and each
stands at a token that is no trivia, or at the end of the text. -/
theorem errors_in_text_order {text : String} {tokens : List Token}
    (htokens : Token.tokenize text = .ok tokens) :
    ∃ result, parse text = .ok result ∧
        (result.errors.Pairwise fun earlier later => earlier.range.start ≤
          later.range.start) ∧
        ∀ error ∈ result.errors,
          (∃ token ∈ tokens,
            token.isTrivia = false ∧ error.range = token.range) ∨
            error.range = .ofSize text.utf8ByteSize 0 := by
  have hspans := (Token.tokenize_covers htokens).spans
  have horder :
      InTextOrder tokens text.utf8ByteSize
        (finalState tokens text.utf8ByteSize) :=
    finalState_of_lasting (lasting_inTextOrder _ _)
      (inTextOrder_ofTokens hspans)
  refine ⟨parseTokens tokens text.utf8ByteSize,
    parse_of_tokenize htokens, ?_, ?_⟩
  · rw [errors_parseTokens]
    exact List.pairwise_reverse.mpr horder.ordered
  · intro error herror
    rw [errors_parseTokens, List.mem_reverse] at herror
    exact horder.placed error herror

/-- Errors at the stray bracket and at the end, where the value is missing. -/
theorem errors_in_text_order_stray :
    let tokens : List Token :=
      [⟨.rightBracket, "]", 0⟩, ⟨.whitespace, "\n", 1⟩, ⟨.identifier, "x", 2⟩,
       ⟨.whitespace, " ", 3⟩, ⟨.equal, "=", 4⟩]
    Token.tokenize "]\nx =" = .ok tokens ∧
      ∃ result, parse "]\nx =" = .ok result ∧
        (result.errors.Pairwise fun earlier later => earlier.range.start ≤
          later.range.start) ∧
        ∀ error ∈ result.errors,
          (∃ token ∈ tokens,
            token.isTrivia = false ∧ error.range = token.range) ∨
            error.range = .ofSize 5 0 := by
  intro tokens
  have htokens : Token.tokenize "]\nx =" = .ok tokens :=
    Token.ok_of_toOption (by decide +kernel)
  exact ⟨htokens, errors_in_text_order htokens⟩

end Grammar

end PklAnalysis

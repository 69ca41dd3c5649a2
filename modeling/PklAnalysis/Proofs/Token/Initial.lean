import PklAnalysis.Proofs.Token.Pattern
import PklAnalysis.Token.Lexer

/-!
Tokens by their first characters. Of the keywords and marks only those can match
that begin as the text does. So few patterns need be tried where the tokens of a
given text are computed.
-/

namespace PklAnalysis

theorem toOption_eq_some {result : Except ε α} {value : α} :
    result.toOption = some value ↔ result = .ok value := by
  cases result <;> simp [Except.toOption]

namespace Token

open Match

def initials : List (Kind × Char) :=
  [(.leftBrace, '\x7b'), (.rightBrace, '\x7d'), (.leftBracket, '['),
    (.rightBracket, ']'),
   (.leftParen, '('), (.rightParen, ')'), (.comma, ','), (.dot, '.'),
     (.questionDot, '?'),
   (.spread, '.'), (.questionSpread, '.'), (.colon, ':'), (.arrow, '-'),
     (.equal, '='),
   (.equalEqual, '='), (.bangEqual, '!'), (.less, '<'), (.greater, '>'),
     (.lessEqual, '<'),
   (.greaterEqual, '>'), (.plus, '+'), (.minus, '-'), (.star, '*'),
     (.starStar, '*'),
   (.slash, '/'), (.tildeSlash, '~'), (.percent, '%'), (.bang, '!'),
     (.bangBang, '!'),
   (.ampAmp, '&'), (.pipePipe, '|'), (.pipeGreater, '|'), (.pipe, '|'),
     (.question, '?'),
   (.questionQuestion, '?'), (.atSign, '@'), (.underscore, '_'),
     (.abstractKw, 'a'),
   (.amendsKw, 'a'), (.asKw, 'a'), (.classKw, 'c'), (.constKw, 'c'),
     (.elseKw, 'e'),
   (.extendsKw, 'e'), (.externalKw, 'e'), (.falseKw, 'f'), (.fixedKw, 'f'),
     (.forKw, 'f'),
   (.functionKw, 'f'), (.hiddenKw, 'h'), (.ifKw, 'i'), (.importKw, 'i'),
     (.importStarKw, 'i'),
   (.inKw, 'i'), (.isKw, 'i'), (.letKw, 'l'), (.localKw, 'l'), (.moduleKw, 'm'),
     (.newKw, 'n'),
   (.nothingKw, 'n'), (.nullKw, 'n'), (.openKw, 'o'), (.outKw, 'o'),
     (.outerKw, 'o'),
   (.readKw, 'r'), (.readOrNullKw, 'r'), (.readStarKw, 'r'), (.superKw, 's'),
     (.thisKw, 't'),
   (.throwKw, 't'), (.traceKw, 't'), (.trueKw, 't'), (.typealiasKw, 't'),
     (.unknownKw, 'u'),
   (.whenKw, 'w')]

def Kind.initial? (kind : Kind) : Option Char :=
  kind.spelling?.bind fun text => text.toList.head?

theorem initials_eq :
    initials = Kind.all.filterMap fun kind => kind.initial?.map (kind, ·) := by
  decide +kernel

def Kind.spelled? (kind : Kind) : Option (Kind × Match) :=
  kind.spelling?.map fun text => (kind, spelled text)

def patternsFrom (c : Char) : List (Kind × Match) :=
  ((initials.filter fun entry => entry.2 = c).filterMap fun entry =>
    entry.1.spelled?) ++ patterns.drop initials.length

def longer (chars : List Char) (best : Option (Kind × Nat))
    (entry : Kind × Match) :
    Option (Kind × Nat) :=
  match best, entry.2 chars with
  | some (_, count), some other =>
      if count < other then some (entry.1, other) else best
  | none, some count => some (entry.1, count)
  | _, none => best

theorem longestMatch_eq_foldl (chars : List Char) :
    longestMatch chars = patterns.foldl (longer chars) none :=
  rfl

theorem longer_of_none {chars : List Char} {entry : Kind × Match}
    (hnone : entry.2 chars = none) (best : Option (Kind × Nat)) :
    longer chars best entry = best := by
  cases best <;> simp only [longer, hnone]

theorem spelled_eq_none {text : String} {c d : Char} {rest others : List Char}
    (htext : text.toList = d :: others) (hother : d ≠ c) :
    spelled text (c :: rest) = none := by
  have hexactly : exactly text (c :: rest) = none := by
    simp [exactly, htext, hother]
  rw [spelled, hexactly]
  rfl

/-- Keywords and marks that begin otherwise than a text do not count for its
longest match. -/
theorem foldl_spelled {kinds : List Kind}
    (hkinds : ∀ kind ∈ kinds, kind.spelling? ≠ some "") (c : Char)
    (rest : List Char) (best : Option (Kind × Nat)) :
    (kinds.filterMap Kind.spelled?).foldl (longer (c :: rest)) best =
      (((kinds.filterMap fun kind => kind.initial?.map (kind, ·)).filter
        fun entry =>
        entry.2 = c).filterMap fun entry => entry.1.spelled?).foldl
          (longer (c :: rest)) best := by
  induction kinds generalizing best with
  | nil => rfl
  | cons kind kinds ih =>
      obtain ⟨hkind, hkinds⟩ := List.forall_mem_cons.mp hkinds
      cases hspelling : kind.spelling? with
      | none =>
          simpa [Kind.spelled?, Kind.initial?, hspelling] using ih hkinds best
      | some text =>
          rw [hspelling, Ne, Option.some.injEq, ← String.toList_eq_nil_iff]
            at hkind
          obtain ⟨d, others, htext⟩ := List.exists_cons_of_ne_nil hkind
          by_cases hother : d = c
          · simpa [Kind.spelled?, Kind.initial?, hspelling, htext, hother]
              using ih hkinds _
          · have hnone : longer (c :: rest) best (kind, spelled text) = best :=
              longer_of_none (spelled_eq_none htext hother) best
            simpa [Kind.spelled?, Kind.initial?, hspelling, htext, hother,
              hnone] using ih hkinds best

/-- The longest match where only the patterns are tried that begin as the text
does. -/
def longestFrom : List Char → Option (Kind × Nat)
  | [] => longestMatch []
  | c :: rest => (patternsFrom c).foldl (longer (c :: rest)) none

theorem longestFrom_eq (chars : List Char) :
    longestFrom chars = longestMatch chars := by
  cases chars with
  | nil => rfl
  | cons c rest =>
      have htake : patterns.take initials.length =
          Kind.all.filterMap Kind.spelled? :=
        List.take_left' rfl
      rw [longestMatch_eq_foldl,
        ← List.take_append_drop initials.length patterns, htake,
        List.foldl_append, foldl_spelled spelling?_ne_empty, ← initials_eq,
        ← List.foldl_append]
      rfl

/-- The kind and length of the token that a text starts with, found by its first
character. -/
def firstFrom (chars : List Char) : Kind × Nat :=
  match longestFrom chars with
  | none => (.error, errorLength chars)
  | some (.lineComment, count) =>
      (if isDocComment chars then .docComment else .lineComment, count)
  | some found => found

theorem firstFrom_eq (chars : List Char) : firstFrom chars = first chars := by
  rw [firstFrom, longestFrom_eq]
  rfl

def lexBy : Nat → Nat → List Char → Except Literal.Unreadable (List Token)
  | 0, _, _ => .ok []
  | _ + 1, _, [] => .ok []
  | fuel + 1, offset, c :: rest =>
      let chars := c :: rest
      match Literal.opening? chars with
      | some multiline => do
          let quotes := Literal.delimiter multiline
          let scan ← Literal.scan multiline (chars.drop quotes.length)
          let bodyOffset := offset + quotes.length
          let body ← ofPieces (lexBy fuel) bodyOffset
            (← Literal.split multiline scan.taken)
          let stop := bodyOffset + Text.byteSize scan.taken
          let further ← lexBy fuel stop scan.rest
          return ofChars .stringStart offset quotes :: body ++ further
      | none => do
          let (kind, count) := firstFrom chars
          let text := chars.take count
          let further ← lexBy fuel (offset + Text.byteSize text)
            (chars.drop count)
          return ofChars kind offset text :: further

theorem lexBy_eq (fuel : Nat) : lexBy fuel = lexFrom fuel := by
  induction fuel with
  | zero => rfl
  | succ fuel ih =>
      funext offset chars
      cases chars with
      | nil => rfl
      | cons c rest =>
          rw [lexBy, ih, firstFrom_eq]
          rfl

/-- A text has the tokens that are found by first characters. The kernel is slow
to take a text apart, so it is given as its characters. -/
theorem ok_of_toOption {chars : List Char} {tokens : List Token}
    (htokens : (lexBy chars.length 0 chars).toOption = some tokens) :
    tokenize (String.ofList chars) = .ok tokens := by
  rw [lexBy_eq] at htokens
  rw [tokenize, String.toList_ofList]
  exact toOption_eq_some.mp htokens

end Token

end PklAnalysis

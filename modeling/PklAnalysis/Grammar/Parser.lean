import PklAnalysis.Grammar.SyntaxError
import PklAnalysis.Tree.Builder

/-!
Parsers build trees from tokens. The grammar sees past blanks and comments;
whatever consumes a token first moves those before it into the tree being built.
-/

namespace PklAnalysis

structure Parser.State where
  /-- The tokens not consumed yet, trivia included. -/
  tokens : List Token
  atStart : Bool
  builder : Builder
  /-- The errors found so far, latest first. -/
  errors : List SyntaxError
  stop : Nat

abbrev Parser := StateM Parser.State

namespace Parser

def State.ofTokens (tokens : List Token) (stop : Nat) : State :=
  { tokens, atStart := true, builder := .empty, errors := [], stop }

/-- The token number `n` of those that are no trivia. -/
def nth? : Nat → List Token → Option Token
  | _, [] => none
  | n, token :: rest =>
      if token.isTrivia then nth? n rest
      else
        match n with
        | 0 => some token
        | n + 1 => nth? n rest

def State.current? (state : State) : Option Token :=
  nth? 0 state.tokens

def State.peek? (state : State) (n : Nat) : Option Token.Kind :=
  (nth? n state.tokens).map Token.kind

/-- Whether the next token starts a line. The first token of a text does. -/
def State.afterBreak (state : State) : Bool :=
  state.atStart || (state.tokens.takeWhile Token.isTrivia).any Token.breaksLine

/-- The kind of the next token; there is none at the end. -/
def current? : Parser (Option Token.Kind) :=
  return (← get).peek? 0

def peek? (n : Nat) : Parser (Option Token.Kind) :=
  return (← get).peek? n

def at? (kind : Token.Kind) : Parser Bool :=
  return (← current?) = some kind

def atAny? (kinds : List Token.Kind) : Parser Bool :=
  return (← current?).any kinds.contains

def atEnd? : Parser Bool :=
  return (← current?).isNone

def afterBreak? : Parser Bool :=
  return (← get).afterBreak

def State.advance (state : State) : State :=
  match state.tokens with
  | [] => state
  | token :: rest =>
      { state with
        tokens := rest
        atStart := false
        builder := state.builder.token token.kind token.text }

def State.advanceBy (state : State) : Nat → State
  | 0 => state
  | count + 1 => state.advance.advanceBy count

/-- Moves the trivia before the next token into the open node. -/
def skipTrivia : Parser Unit :=
  modify fun state =>
    state.advanceBy (state.tokens.takeWhile Token.isTrivia).length

/-- Moves the next token, and the trivia before it, into the open node. -/
def take : Parser Unit := do
  skipTrivia
  modify State.advance

/-- Takes the next token if it is of a kind; tells whether it did. -/
def accept (kind : Token.Kind) : Parser Bool := do
  if ← at? kind then
    take
    return true
  else
    return false

def build (call : Builder → Builder) : Parser Unit :=
  modify fun state => { state with builder := call state.builder }

/-- The place before the next token, to start a node at later. The trivia before
it stays outside. -/
def mark : Parser Nat := do
  skipTrivia
  return (← get).builder.mark

def enclose (kind : Node.Kind) (body : Parser α) : Parser α := do
  build (.start kind)
  let result ← body
  build .finish
  return result

/-- Makes a node of what a parser builds. The trivia before it stays outside. -/
def node (kind : Node.Kind) (body : Parser α) : Parser α := do
  skipTrivia
  enclose kind body

/-- Makes a node of what has been built since a mark and what a parser adds. -/
def nodeAt (mark : Nat) (kind : Node.Kind) (body : Parser α) : Parser α := do
  build (.startAt mark kind)
  let result ← body
  build .finish
  return result

/-- Where an error found now is reported: at the next token, or at the end of
the text. -/
def State.errorRange (state : State) : Range :=
  match state.current? with
  | some token => token.range
  | none => .ofSize state.stop 0

def report (cause : SyntaxError.Cause) : Parser Unit :=
  modify fun state =>
    { state with
      errors := { cause, range := state.errorRange } :: state.errors }

/-- Takes the next token if it is of a kind, and reports an error otherwise. -/
def expect (kind : Token.Kind) : Parser Bool := do
  if ← accept kind then
    return true
  else
    report (.expectedToken kind)
    return false

/-- Repeats a step until it has no further result, at most `limit` times. -/
def iterate (step : α → Parser (Option α)) : Nat → α → Parser α
  | 0, value => return value
  | limit + 1, value => do
      match ← step value with
      | some next => iterate step limit next
      | none => return value

/-- Repeats a step until it has no further result. Every repeated step takes a
token, so the tokens that are left bound the number of steps. -/
def repeatFrom (step : α → Parser (Option α)) (value : α) : Parser α := do
  iterate step ((← get).tokens.length + 1) value

def repeatWhile (step : Parser Bool) : Parser Unit :=
  repeatFrom (fun _ => return if ← step then some () else none) ()

/-- Takes tokens up to the end, a line break, or a token of one of the kinds. -/
def takeUntil (kinds : List Token.Kind) : Parser Unit :=
  repeatWhile do
    if (← atEnd?) || (← atAny? kinds) || (← afterBreak?) then
      return false
    else
      take
      return true

/-- Reports an error and sets at least one token aside, up to a token of one of
the kinds. -/
def recover (cause : SyntaxError.Cause) (kinds : List Token.Kind) :
    Parser Unit := do
  report cause
  if !(← atEnd?) then
    node .error do
      take
      takeUntil kinds

def closers : List Token.Kind :=
  [.rightParen, .rightBracket, .rightBrace, .comma]

/-- Ends a bracketed construct. Stray tokens on the same line are set aside and
reported; that the closing token is missing is not reported here. -/
def close (closer : Token.Kind) : Parser Unit := do
  let kinds := closer :: closers
  if !(← atEnd?) && !(← atAny? kinds) && !(← afterBreak?) then
    report .unexpectedToken
    node .error (takeUntil kinds)
  let _ ← accept closer

end Parser

end PklAnalysis

import PklAnalysis.Node.Declaration

/-!
Parts of expressions.
-/

namespace PklAnalysis.Node

def Kind.isAccess : Kind → Bool
  | .unqualifiedAccessExpr | .qualifiedAccessExpr | .superAccessExpr => true
  | _ => false

def isGlobRead (node : Node) : Bool := node.hasTerminal .readStarKw

/-- Whether `read` gives null for a missing resource. -/
def isNullableRead (node : Node) : Bool := node.hasTerminal .readOrNullKw

def argumentList? (node : Node) : Option Node :=
  node.childOf? .argumentList

def isPropertyAccess (node : Node) : Bool :=
  node.argumentList?.isNone

/-- What a member is taken of, or what is subscripted. -/
def receiver (node : Node) : Required Node :=
  node.required Kind.isExpr "receiver"

def isNullSafe (node : Node) : Bool := node.hasTerminal .questionDot

def subscriptKey? (node : Node) : Option Node :=
  node.exprs[1]?

def operand (node : Node) : Required Node :=
  node.required Kind.isExpr "operand"

def leftOperand (node : Node) : Required Node :=
  node.required Kind.isExpr "left operand"

def rightOperand (node : Node) : Required Node :=
  node.require "right operand" node.exprs[1]?

def operator (node : Node) : Required Terminal :=
  match node.terminals.head? with
  | some terminal => .ok terminal
  | none => .error (.terminal node.kind "operator" node.range)

def testedType (node : Node) : Required Node :=
  node.required Kind.isType "type"

def isCast (node : Node) : Bool := node.hasTerminal .asKw

def thenExpr (node : Node) : Required Node :=
  node.require "then branch" node.exprs[1]?

def elseExpr (node : Node) : Required Node :=
  node.require "else branch" node.exprs[2]?

def letParameter (node : Node) : Required Node :=
  node.required (· = .parameter) "parameter"

/-- Where the parenthesis after the bound value of `let` stands. -/
def letClose? (node : Node) : Option Nat :=
  (node.terminal? .rightParen).map fun terminal => terminal.range.start

/-- The value that `let` binds: the expression before the closing
parenthesis. -/
def letValue (node : Node) : Required Node :=
  node.require "bound value" <|
    match node.letClose? with
    | some close => node.exprs.find? fun expr => expr.range.stop ≤ close
    | none => node.exprs.head?

/-- The expression in which `let` binds: the one after the closing
parenthesis. -/
def letBody (node : Node) : Required Node :=
  node.require "body" <|
    match node.letClose? with
    | some close => node.exprs.find? fun expr => close ≤ expr.range.start
    | none => node.exprs[1]?

def letBodyCovers (letExpr node : Node) : Bool :=
  match letExpr.letBody with
  | .ok body => body.range.covers node.range
  | .error _ => false

def requiredBody (node : Node) : Required Node :=
  node.required (· = .objectBody) "object body"

def amendedExpr (node : Node) : Required Node :=
  node.required Kind.isExpr "amended expression"

/-- An expression without the parentheses around it, opened at most `limit`
times. -/
def unparenthesizedUpTo : Nat → Node → Option Node
  | 0, node => some node
  | limit + 1, node =>
      if node.kind = .parenthesizedExpr then
        node.expr?.bind (unparenthesizedUpTo limit)
      else some node

/-- An expression without the parentheses around it. Empty parentheses hold
none. -/
def unparenthesized? (node : Node) : Option Node :=
  unparenthesizedUpTo node.document.arena.size node

/-- The closing token, if an opening one is there, the closing one is not, and
recovery set no tokens aside here. -/
def missingCloser? (node : Node) (openers : List Token.Kind)
    (closer : Token.Kind) :
    Option Token.Kind :=
  let opened :=
    node.terminals.any fun terminal => openers.contains terminal.kind
  if opened && !node.hasTerminal closer && !node.hasError then some closer
    else none

/-- The delimiter that a bracketed construct lacks. An argument list lacks a
comma when its commas are not one fewer than its arguments. -/
def missingDelimiter? (node : Node) : Option Token.Kind :=
  match node.kind with
  | .parenthesizedExpr | .throwExpr | .traceExpr | .importExpr | .readExpr
  | .ifExpr | .letExpr
  | .stringPart =>
      node.missingCloser? [.leftParen, .interpolationStart] .rightParen
  | .subscriptExpr
  | .superSubscriptExpr => node.missingCloser? [.leftBracket] .rightBracket
  | .argumentList =>
      let commas := node.terminals.countP fun terminal => terminal.kind = .comma
      if !node.exprs.isEmpty && commas + 1 != node.exprs.length then some .comma
      else node.missingCloser? [.leftParen] .rightParen
  | _ => none

end PklAnalysis.Node

import PklAnalysis.Grammar.Declaration
import PklAnalysis.Grammar.Operator

/-!
Expressions: an operand, then suffixes and operators as long as they bind
tightly enough. `if`, `let` and function literals extend as far to the right as
possible.
-/

namespace PklAnalysis.Grammar

open PklAnalysis.Parser

variable (call : Call)

def expressionStarts : List Token.Kind :=
  [.thisKw, .outerKw, .moduleKw, .nullKw, .trueKw, .falseKw, .intNumber,
   .floatNumber, .stringStart, .throwKw, .traceKw, .importKw, .importStarKw,
   .readKw, .readOrNullKw, .readStarKw, .identifier, .newKw, .superKw, .minus,
   .bang, .ifKw, .letKw, .leftParen]

/-- An operand that binds at least as tightly as `power`; a missing one is
reported. -/
def operand (power : Nat) : Parser Unit := do
  if (← call (.expression power)).isNone then
    report .expectedExpression

/-- The rest of a literal after its opening delimiter: runs of characters,
interpolated expressions, and the closing delimiter. -/
def literalRest : Parser Unit := do
  repeatWhile do
    match ← current? with
    | some .stringChars =>
        take
        return true
    | some .interpolationStart =>
        node .stringPart do
          take
          expression call
          close .rightParen
        return true
    | _ => return false
  if !(← accept .stringEnd) then
    report .unterminatedString

def literalKind (delimiter : String) : Node.Kind :=
  if ['"', '"', '"'].isPrefixOf delimiter.toList then .mlStringLiteral else
    .stringLiteral

def stringLiteralRule : Parser (Option Node.Kind) := do
  let kind := literalKind (((← get).current?.map Token.text).getD "")
  node kind do
    take
    literalRest call
  return some kind

/-- The argument list of a call. A comma missing between two arguments is not
reported here. -/
def argumentList : Parser Unit :=
  node .argumentList do
    take
    repeatWhile do
      if ← atAny? expressionStarts then
        expression call
        return (← accept .comma) || !(← afterBreak?)
      else
        return false
    close .rightParen

/-- The argument list after a name, if there is one on the same line. -/
def optionalArguments : Parser Unit := do
  if (← at? .leftParen) && !(← afterBreak?) then
    argumentList call

/-! Expressions that a keyword or an opening parenthesis begins. -/

def keywordCall : Parser Unit := do
  take
  if ← expect .leftParen then
    expression call
    close .rightParen

def importExpr : Parser Unit := do
  take
  if ← expect .leftParen then
    if ← at? .stringStart then
      stringLiteral call
    else
      report .expectedModuleUri
    close .rightParen

def newExpr : Parser Unit := do
  take
  if !(← at? .leftBrace) then
    type call
  if ← at? .leftBrace then
    objectBody call
  else
    report .expectedObjectBody

def superSubscriptExpr : Parser Unit := do
  take
  take
  expression call
  close .rightBracket

def superAccessExpr : Parser Unit := do
  take
  if ← expect .dot then
    let _ ← expect .identifier
    optionalArguments call

def ifExpr : Parser Unit := do
  take
  if ← expect .leftParen then
    expression call
    close .rightParen
  expression call
  if ← expect .elseKw then
    expression call

def letExpr : Parser Unit := do
  take
  if ← expect .leftParen then
    parameter call
    let _ ← expect .equal
    expression call
    close .rightParen
  expression call

def parenthesizedExpr : Parser Unit := do
  take
  expression call
  close .rightParen

def functionLiteral : Parser Unit := do
  parameterList call
  let _ ← expect .arrow
  expression call

/-- How far the search for the arrow of a function literal looks. -/
def functionLookahead : Nat := 512

/-- Whether the tokens go on with a list in parentheses and an arrow directly
after it, when `depth` parentheses are open. Braces and equal signs end the
search, and so do `limit` tokens. -/
def functionAhead (depth : Nat) : Nat → List Token → Bool
  | _, [] => false
  | limit, token :: rest =>
      if token.isTrivia then functionAhead depth limit rest
      else
        match limit with
        | 0 => false
        | limit + 1 =>
            match token.kind with
            | .leftParen => functionAhead (depth + 1) limit rest
            | .rightParen =>
                if depth ≤ 1 then
                  (nth? 0 rest).any fun next => next.kind = .arrow
                else functionAhead (depth - 1) limit rest
            | .leftBrace | .rightBrace | .equal => false
            | _ => functionAhead depth limit rest

def atFunctionLiteral? : Parser Bool :=
  return functionAhead 0 functionLookahead (← get).tokens

/-- A node of a kind over what a parser builds; gives the kind. -/
def built (kind : Node.Kind) (body : Parser Unit) :
    Parser (Option Node.Kind) := do
  node kind body
  return some kind

/-- An operand with what stands before it: the expression without suffixes and
operators. -/
def operandStart : Parser (Option Node.Kind) := do
  match ← current? with
  | some .thisKw => built .thisExpr take
  | some .outerKw => built .outerExpr take
  | some .moduleKw => built .moduleExpr take
  | some .nullKw => built .nullLiteral take
  | some .trueKw => built .trueLiteral take
  | some .falseKw => built .falseLiteral take
  | some .intNumber => built .intLiteral take
  | some .floatNumber => built .floatLiteral take
  | some .stringStart => call .stringLiteral
  | some .throwKw => built .throwExpr (keywordCall call)
  | some .traceKw => built .traceExpr (keywordCall call)
  | some .readKw | some .readOrNullKw | some .readStarKw =>
      built .readExpr (keywordCall call)
  | some .importKw | some .importStarKw => built .importExpr (importExpr call)
  | some .identifier =>
      built .unqualifiedAccessExpr do
        take
        optionalArguments call
  | some .newKw => built .newExpr (newExpr call)
  | some .superKw =>
      if (← peek? 1) = some .leftBracket then
        built .superSubscriptExpr (superSubscriptExpr call)
      else
        built .superAccessExpr (superAccessExpr call)
  | some .minus =>
      built .unaryMinusExpr do
        take
        operand call unaryPower
  | some .bang =>
      built .logicalNotExpr do
        take
        operand call unaryPower
  | some .ifKw => built .ifExpr (ifExpr call)
  | some .letKw => built .letExpr (letExpr call)
  | some .leftParen =>
      if ← atFunctionLiteral? then
        built .functionLiteral (functionLiteral call)
      else
        built .parenthesizedExpr (parenthesizedExpr call)
  | _ =>
      report .expectedExpression
      return none

def isAmendable : Node.Kind → Bool
  | .parenthesizedExpr | .newExpr | .amendExpr => true
  | _ => false

/-- A suffix of the expression after the mark, if there is one: a member, a
subscript, `!!`, or an object body. Suffixes bind tighter than any operator. -/
def suffix (start : Nat) (operandKind : Node.Kind) :
    Parser (Option Node.Kind) := do
  match ← current? with
  | some .dot | some .questionDot =>
      nodeAt start .qualifiedAccessExpr do
        take
        let _ ← expect .identifier
        optionalArguments call
      return some .qualifiedAccessExpr
  | some .leftBracket =>
      if ← afterBreak? then
        return none
      else
        nodeAt start .subscriptExpr do
          take
          expression call
          close .rightBracket
        return some .subscriptExpr
  | some .bangBang =>
      nodeAt start .nonNullExpr take
      return some .nonNullExpr
  | some .leftBrace =>
      if isAmendable operandKind then
        nodeAt start .amendExpr (objectBody call)
        return some .amendExpr
      else
        return none
  | _ => return none

/-- An operator that binds at least as tightly as `power`, with its right
operand. The expression after the mark is its left operand. -/
def operation (start power : Nat) : Parser (Option Node.Kind) := do
  match Operator.current? (← get) with
  | none => return none
  | some operator =>
      if operator.left < power then
        return none
      else
        nodeAt start operator.kind do
          take
          if operator.kind = .typeTestExpr then
            type call
          else
            operand call operator.right
        return some operator.kind

def continuation (start power : Nat) (operandKind : Node.Kind) :
    Parser (Option Node.Kind) := do
  match ← suffix call start operandKind with
  | some kind => return some kind
  | none => operation call start power

/-- An expression whose operators bind at least as tightly as `power`. -/
def expressionRule (power : Nat) : Parser (Option Node.Kind) := do
  let start ← mark
  match ← operandStart call with
  | none => return none
  | some kind => return some (← repeatFrom (continuation call start power) kind)

end PklAnalysis.Grammar

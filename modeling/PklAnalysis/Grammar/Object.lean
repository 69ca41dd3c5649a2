import PklAnalysis.Grammar.Expression

/-!
Object bodies:

ObjectBody = '{' (Parameter (',' Parameter)* '->')? ObjectMember* '}' Entry =
'[' Expression ']' ('=' Expression | ObjectBody+) Spread = ('...' | '...?')
Expression For = 'for' '(' Parameter (',' Parameter)? 'in' Expression ')'
ObjectBody When = 'when' '(' Expression ')' ObjectBody ('else' ObjectBody)?
-/

namespace PklAnalysis.Grammar

open PklAnalysis.Parser

variable (call : Call)

/-- How far the search for the arrow after the parameters of a body looks. -/
def parametersLookahead : Nat := 64

def parameterTokens : List Token.Kind :=
  [.identifier, .underscore, .comma, .colon, .dot, .less, .greater, .question,
   .pipe, .leftParen, .rightParen, .unknownKw, .nothingKw]

/-- Whether an arrow follows within `limit` tokens, with only parameters and
types before it. -/
def arrowAhead : Nat → List Token → Bool
  | _, [] => false
  | limit, token :: rest =>
      if token.isTrivia then arrowAhead limit rest
      else
        match limit with
        | 0 => false
        | limit + 1 =>
            if token.kind = .arrow then true
            else if parameterTokens.contains token.kind then
              arrowAhead limit rest
            else false

def atBodyParameters? : Parser Bool := do
  if ← atAny? [.identifier, .underscore] then
    return arrowAhead parametersLookahead (← get).tokens
  else
    return false

def expectedBody : Parser Unit := do
  if ← at? .leftBrace then
    objectBody call
  else
    report .expectedObjectBody

def objectEntry : Parser Unit :=
  node .objectEntry do
    take
    expression call
    let _ ← expect .rightBracket
    if ← accept .equal then
      expression call
    else if ← at? .leftBrace then
      objectBodies call
    else
      report .expectedValueOrBody

def objectSpread : Parser Unit :=
  node .objectSpread do
    take
    expression call

def objectElement : Parser Unit :=
  node .objectElement (expression call)

def forGenerator : Parser Unit :=
  node .forGenerator do
    take
    if ← expect .leftParen then
      parameter call
      if ← accept .comma then
        parameter call
      let _ ← expect .inKw
      expression call
      let _ ← expect .rightParen
    expectedBody call

def whenGenerator : Parser Unit :=
  node .whenGenerator do
    take
    if ← expect .leftParen then
      expression call
      let _ ← expect .rightParen
    expectedBody call
    if ← accept .elseKw then
      expectedBody call

def modifiedMember : Parser Unit := do
  let start ← mark
  modifiers
  match ← current? with
  | some .functionKw => method call start .objectMethod
  | some .identifier => property call start .objectProperty
  | _ => recover .expectedPropertyOrMethod [.rightBrace]

/-- A member of an object that begins with an identifier: a property if a value,
a type or a body follows, an element otherwise. -/
def namedMember : Parser Unit := do
  match ← peek? 1 with
  | some .equal | some .colon | some .leftBrace =>
      property call (← mark) .objectProperty
  | _ => objectElement call

/-- A member of an object. What is none is reported and set aside. -/
def objectMember : Parser Unit := do
  match ← current? with
  | some .functionKw => method call (← mark) .objectMethod
  | some .identifier => namedMember call
  | some .leftBracket => objectEntry call
  | some .spread | some .questionSpread => objectSpread call
  | some .forKw => forGenerator call
  | some .whenKw => whenGenerator call
  | some kind =>
      if kind.isModifier then
        modifiedMember call
      else if expressionStarts.contains kind then
        objectElement call
      else
        recover .expectedObjectMember [.rightBrace]
  | none => recover .expectedObjectMember [.rightBrace]

def bodyParameters : Parser Unit := do
  repeatWhile do
    parameter call
    accept .comma
  let _ ← expect .arrow

def objectBodyRule : Parser Unit :=
  node .objectBody do
    take
    if ← atBodyParameters? then
      bodyParameters call
    repeatWhile do
      if (← atEnd?) || (← at? .rightBrace) then
        return false
      else
        objectMember call
        return true
    let _ ← expect .rightBrace

end PklAnalysis.Grammar

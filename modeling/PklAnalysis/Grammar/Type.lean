import PklAnalysis.Grammar.Rule

/-!
Types:

    Type      = Nullable ('|' Nullable)*
    Nullable  = Primary '?'*
    Primary   = 'unknown' | 'nothing' | 'module' | StringLiteral
              | Name ('<' Type (',' Type)* '>')?
              | '(' Type ')'
              | '(' (Type (',' Type)*)? ')' '->' Type
-/

namespace PklAnalysis.Grammar

open PklAnalysis.Parser

variable (call : Call)

def typeStarts : List Token.Kind :=
  [.unknownKw, .nothingKw, .moduleKw, .stringStart, .identifier, .leftParen]

def single (kind : Node.Kind) : Parser Unit :=
  node kind take

/-- Identifiers with dots between them. A dot without an identifier after it is
left alone. -/
def qualifiedName : Parser Unit :=
  node .qualifiedIdent do
    let _ ← expect .identifier
    repeatWhile do
      if (← at? .dot) && (← peek? 1) = some .identifier then
        take
        take
        return true
      else
        return false

def typeSequence : Parser Unit := do
  type call
  repeatWhile do
    if ← accept .comma then
      type call
      return true
    else
      return false

def typeArguments : Parser Unit :=
  node .typeArgumentList do
    take
    typeSequence call
    let _ ← expect .greater

def declaredType : Parser Unit :=
  node .declaredType do
    qualifiedName
    if ← at? .less then
      typeArguments call

/-- A type in parentheses, or a function type, which shows only after the
closing one. -/
def parenthesizedOrFunctionType : Parser Unit := do
  let start ← mark
  take
  if !(← at? .rightParen) then
    typeSequence call
  close .rightParen
  if ← at? .arrow then
    nodeAt start .functionType do
      take
      type call
  else
    nodeAt start .parenthesizedType (return ())

def primaryType : Parser Unit := do
  match ← current? with
  | some .unknownKw => single .unknownType
  | some .nothingKw => single .nothingType
  | some .moduleKw => single .moduleType
  | some .stringStart => node .stringLiteralType (stringLiteral call)
  | some .identifier => declaredType call
  | some .leftParen => parenthesizedOrFunctionType call
  | _ => report .expectedType

def nullableType : Parser Unit := do
  let start ← mark
  primaryType call
  repeatWhile do
    if ← at? .question then
      nodeAt start .nullableType take
      return true
    else
      return false

/-- A type; unions nest to the left. -/
def typeRule : Parser Unit := do
  let start ← mark
  nullableType call
  repeatWhile do
    if ← at? .pipe then
      nodeAt start .unionType do
        take
        nullableType call
      return true
    else
      return false

end PklAnalysis.Grammar

import PklAnalysis.Grammar.Type

/-!
Classes, type aliases, methods and properties:

Member = Annotation* Modifier* (Class | TypeAlias | Method | Property) Class =
'class' Name TypeParameters? ('extends' Type)? ('{' Member* '}')? TypeAlias =
'typealias' Name TypeParameters? '=' Type Method = 'function' Name
TypeParameters? Parameters (':' Type)? ('=' Expression)? Property = Name (':'
Type)? ('=' Expression | ObjectBody*)
-/

namespace PklAnalysis.Grammar

open PklAnalysis.Parser

variable (call : Call)

def typeClause : Parser Unit :=
  node .typeClause do
    take
    type call

/-- A colon and a type, if there is a colon. -/
def optionalTypeClause : Parser Unit := do
  if ← at? .colon then
    typeClause call

def parameter : Parser Unit :=
  node .parameter do
    if !(← accept .underscore) then
      node .typedIdentifier do
        let _ ← expect .identifier
        optionalTypeClause call

def parameterList : Parser Unit :=
  node .parameterList do
    take
    repeatWhile do
      if ← atAny? [.identifier, .underscore] then
        parameter call
        accept .comma
      else
        return false
    let _ ← expect .rightParen

def typeParameter : Parser Unit :=
  node .typeParameter do
    if !(← accept .inKw) then
      let _ ← accept .outKw
    let _ ← expect .identifier

/-- Type parameters between angle brackets, if there is an opening one. -/
def optionalTypeParameters : Parser Unit := do
  if ← at? .less then
    node .typeParameterList do
      take
      repeatWhile do
        typeParameter
        accept .comma
      let _ ← expect .greater

def annotations : Parser Unit :=
  repeatWhile do
    if ← at? .atSign then
      node .annotationClause do
        take
        if ← atAny? typeStarts then
          type call
        else
          report .expectedAnnotationType
        if ← at? .leftBrace then
          objectBody call
      return true
    else
      return false

def atModifier? : Parser Bool :=
  return (← current?).any Token.Kind.isModifier

def modifiers : Parser Unit := do
  if ← atModifier? then
    node .modifierList do
      repeatWhile do
        if ← atModifier? then
          take
          return true
        else
          return false

def objectBodies : Parser Unit :=
  repeatWhile do
    if ← at? .leftBrace then
      objectBody call
      return true
    else
      return false

/-- A property from its name on. What stands after the mark belongs to it. -/
def property (start : Nat) (kind : Node.Kind) : Parser Unit :=
  nodeAt start kind do
    take
    optionalTypeClause call
    if ← accept .equal then
      expression call
    else
      objectBodies call

def method (start : Nat) (kind : Node.Kind) : Parser Unit :=
  nodeAt start kind do
    take
    let _ ← expect .identifier
    optionalTypeParameters
    if ← at? .leftParen then
      parameterList call
    else
      report .expectedParameterList
    optionalTypeClause call
    if ← accept .equal then
      expression call

def typeAlias (start : Nat) : Parser Unit :=
  nodeAt start .typeAlias do
    take
    let _ ← expect .identifier
    optionalTypeParameters
    if ← expect .equal then
      type call

def classBody : Parser Unit :=
  node .classBody do
    take
    repeatWhile do
      if (← atEnd?) || (← at? .rightBrace) then
        return false
      else
        member call
        return true
    let _ ← expect .rightBrace

def classDecl (start : Nat) : Parser Unit :=
  nodeAt start .classDecl do
    take
    let _ ← expect .identifier
    optionalTypeParameters
    if ← at? .extendsKw then
      node .classHeaderExtends do
        take
        type call
    if ← at? .leftBrace then
      classBody call

/-- A member after its annotations and modifiers, which stand after the mark. -/
def memberRest (start : Nat) : Parser Unit := do
  match ← current? with
  | none => report .expectedMember
  | some .classKw => classDecl call start
  | some .typealiasKw => typeAlias call start
  | some .functionKw => method call start .classMethod
  | some .identifier => property call start .classProperty
  | some _ => recover .expectedMember [.rightBrace]

def memberRule : Parser Unit := do
  let start ← mark
  annotations call
  modifiers
  memberRest call start

end PklAnalysis.Grammar

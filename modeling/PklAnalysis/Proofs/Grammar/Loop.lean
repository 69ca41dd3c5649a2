import PklAnalysis.Grammar.Parse
import PklAnalysis.Proofs.Grammar.Twin

/-!
The loops of the grammar, each by the step that it repeats.
-/

namespace PklAnalysis.Grammar

open PklAnalysis.Parser

variable (call : Call)

def nextNamePart : Parser Bool := do
  if (← at? .dot) && (← peek? 1) = some .identifier then
    take
    take
    return true
  else
    return false

def nextType : Parser Bool := do
  if ← accept .comma then
    type call
    return true
  else
    return false

def nextQuestion (start : Nat) : Parser Bool := do
  if ← at? .question then
    nodeAt start .nullableType take
    return true
  else
    return false

def nextAlternative (start : Nat) : Parser Bool := do
  if ← at? .pipe then
    nodeAt start .unionType do
      take
      nullableType call
    return true
  else
    return false

def nextParameter : Parser Bool := do
  if ← atAny? [.identifier, .underscore] then
    parameter call
    accept .comma
  else
    return false

def nextTypeParameter : Parser Bool := do
  typeParameter
  accept .comma

def nextAnnotated : Parser Bool := do
  if ← at? .atSign then
    node .annotationClause do
      take
      if ← atAny? typeStarts then
        type call
      else
        report .expectedAnnotationType
      if ← at? .leftBrace then
        objectBody call
    return true
  else
    return false

def nextModifier : Parser Bool := do
  if ← atModifier? then
    take
    return true
  else
    return false

def nextBody : Parser Bool := do
  if ← at? .leftBrace then
    objectBody call
    return true
  else
    return false

def nextClassMember : Parser Bool := do
  if (← atEnd?) || (← at? .rightBrace) then
    return false
  else
    member call
    return true

def nextLiteralPart : Parser Bool := do
  match ← current? with
  | some .stringChars =>
      take
      return true
  | some .interpolationStart =>
      node .stringPart do
        take
        expression call
        close .rightParen
      return true
  | _ => return false

def nextArgument : Parser Bool := do
  if ← atAny? expressionStarts then
    expression call
    return (← accept .comma) || !(← afterBreak?)
  else
    return false

def nextBodyParameter : Parser Bool := do
  parameter call
  accept .comma

def nextObjectMember : Parser Bool := do
  if (← atEnd?) || (← at? .rightBrace) then
    return false
  else
    objectMember call
    return true

def nextImport : Parser Bool := do
  if (← atAny? [.importKw, .importStarKw]) &&
    (← peek? 1) != some .leftParen then
    importClause call
    return true
  else
    return false

inductive Loop
  | strays (kinds : List Token.Kind)
  | nameParts
  | types
  | questions
  | alternatives
  | parameters
  | typeParameters
  | annotations
  | modifiers
  | bodies
  | classMembers
  | literalParts
  | arguments
  | continuations (power : Nat) (operandKind : Node.Kind)
  | bodyParameters
  | objectMembers
  | imports
  | members

/-- One turn of a loop; tells whether to take another. Loops that make nodes of
what stands before them start these at a mark. -/
def Loop.step (start : Nat) : Loop → Parser Bool
  | .strays kinds => nextStray kinds
  | .nameParts => nextNamePart
  | .types => nextType call
  | .questions => nextQuestion start
  | .alternatives => nextAlternative call start
  | .parameters => nextParameter call
  | .typeParameters => nextTypeParameter
  | .annotations => nextAnnotated call
  | .modifiers => nextModifier
  | .bodies => nextBody call
  | .classMembers => nextClassMember call
  | .literalParts => nextLiteralPart call
  | .arguments => nextArgument call
  | .continuations power operandKind =>
      Option.isSome <$> continuation call start power operandKind
  | .bodyParameters => nextBodyParameter call
  | .objectMembers => nextObjectMember call
  | .imports => nextImport call
  | .members => nextMember call

/-- The loops of recovery, types and declarations stand in these productions. -/
theorem productions_of_loops :
    (∀ kinds, takeUntil kinds = repeatWhile (nextStray kinds)) ∧
    (qualifiedName = node .qualifiedIdent do
      let _ ← expect .identifier
      repeatWhile nextNamePart) ∧
    (typeSequence call = do
      type call
      repeatWhile (nextType call)) ∧
    (nullableType call = do
      let start ← mark
      primaryType call
      repeatWhile (nextQuestion start)) ∧
    (typeRule call = do
      let start ← mark
      nullableType call
      repeatWhile (nextAlternative call start)) ∧
    (parameterList call = node .parameterList do
      take
      repeatWhile (nextParameter call)
      let _ ← expect .rightParen) ∧
    (optionalTypeParameters = do
      if ← at? .less then
        node .typeParameterList do
          take
          repeatWhile nextTypeParameter
          let _ ← expect .greater) ∧
    annotations call = repeatWhile (nextAnnotated call) ∧
    (modifiers = do
      if ← atModifier? then
        node .modifierList (repeatWhile nextModifier)) ∧
    objectBodies call = repeatWhile (nextBody call) ∧
    (classBody call = node .classBody do
      take
      repeatWhile (nextClassMember call)
      let _ ← expect .rightBrace) :=
  ⟨fun _ => rfl, rfl, rfl, rfl, rfl, rfl, rfl, rfl, rfl, rfl, rfl⟩

/-- The loops of expressions, objects and modules stand in these productions. -/
theorem productions_of_loops_of_values (power : Nat) :
    (literalRest call = do
      repeatWhile (nextLiteralPart call)
      if !(← accept .stringEnd) then
        report .unterminatedString) ∧
    (argumentList call = node .argumentList do
      take
      repeatWhile (nextArgument call)
      close .rightParen) ∧
    (expressionRule call power = do
      let start ← mark
      match ← operandStart call with
      | none => return none
      | some kind =>
        return some (← repeatFrom (continuation call start power) kind)) ∧
    (bodyParameters call = do
      repeatWhile (nextBodyParameter call)
      let _ ← expect .arrow) ∧
    (objectBodyRule call = node .objectBody do
      take
      if ← atBodyParameters? then
        bodyParameters call
      repeatWhile (nextObjectMember call)
      let _ ← expect .rightBrace) ∧
    imports call = repeatWhile (nextImport call) ∧
    (moduleContents call = do
      moduleHeader call
      imports call
      repeatWhile (nextMember call)) :=
  ⟨rfl, rfl, rfl, rfl, rfl, rfl, rfl⟩

end PklAnalysis.Grammar

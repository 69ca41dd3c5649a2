import PklAnalysis.Grammar.Parse
import PklAnalysis.Proofs.Grammar.Reading

/-!
Every production of the grammar reads tokens and leaves alone what was built
before it, whatever the tokens are, as long as the rules that it refers to do.
-/

namespace PklAnalysis.Grammar

open PklAnalysis.Parser

attribute [grind ←] Keeps.bind keeps_pure keeps_get keeps_current? keeps_peek?
  keeps_at? keeps_atAny?
  keeps_atEnd? keeps_afterBreak? keeps_report keeps_take keeps_accept
    keeps_expect keeps_node
  keeps_nodeAt keeps_repeatWhile keeps_recover keeps_close

variable {call : Call} {start : Nat}

def Call.Keeps (call : Call) : Prop :=
  ∀ rule start, Parser.Keeps start (call rule)

@[grind ←] theorem keeps_type (hcall : call.Keeps) : Keeps start (type call) :=
  (hcall .type start).map _

@[grind ←] theorem keeps_expression (hcall : call.Keeps) :
    Keeps start (expression call) :=
  (hcall (.expression 0) start).map _

@[grind ←] theorem keeps_stringLiteral (hcall : call.Keeps) :
    Keeps start (stringLiteral call) :=
  (hcall .stringLiteral start).map _

@[grind ←] theorem keeps_objectBody (hcall : call.Keeps) :
    Keeps start (objectBody call) :=
  (hcall .objectBody start).map _

@[grind ←] theorem keeps_member (hcall : call.Keeps) :
    Keeps start (member call) :=
  (hcall .member start).map _

@[grind ←] theorem keeps_single (kind : Node.Kind) :
    Keeps start (single kind) :=
  keeps_node fun _ => keeps_take

@[grind ←] theorem keeps_qualifiedName : Keeps start qualifiedName := by
  refine keeps_node fun _ => .bind (keeps_expect _) fun _ =>
    keeps_repeatWhile ?_
  grind

@[grind ←] theorem keeps_typeSequence (hcall : call.Keeps) :
    Keeps start (typeSequence call) := by
  refine .bind (keeps_type hcall) fun _ => keeps_repeatWhile ?_
  grind

@[grind ←] theorem keeps_typeArguments (hcall : call.Keeps) :
    Keeps start (typeArguments call) := by
  refine keeps_node fun _ => ?_
  grind

@[grind ←] theorem keeps_declaredType (hcall : call.Keeps) :
    Keeps start (declaredType call) := by
  refine keeps_node fun _ => ?_
  grind

@[grind ←] theorem keeps_parenthesizedOrFunctionType (hcall : call.Keeps) :
    Keeps start (parenthesizedOrFunctionType call) := by
  refine keeps_mark_bind fun _ => .bind keeps_take fun _ => ?_
  grind

@[grind ←] theorem keeps_primaryType (hcall : call.Keeps) :
    Keeps start (primaryType call) := by
  refine .bind keeps_current? fun found => ?_
  split <;> grind

@[grind ←] theorem keeps_nullableType (hcall : call.Keeps) :
    Keeps start (nullableType call) := by
  refine keeps_mark_bind fun _ => .bind (keeps_primaryType hcall) fun _ =>
    keeps_repeatWhile ?_
  grind

theorem keeps_typeRule (hcall : call.Keeps) : Keeps start (typeRule call) := by
  refine keeps_mark_bind fun _ => .bind (keeps_nullableType hcall) fun _ =>
    keeps_repeatWhile ?_
  grind

@[grind ←] theorem keeps_typeClause (hcall : call.Keeps) :
    Keeps start (typeClause call) :=
  keeps_node fun _ => .bind keeps_take fun _ => keeps_type hcall

@[grind ←] theorem keeps_optionalTypeClause (hcall : call.Keeps) :
    Keeps start (optionalTypeClause call) := by
  refine .bind (keeps_at? _) fun found => ?_
  grind

@[grind ←] theorem keeps_parameter (hcall : call.Keeps) :
    Keeps start (parameter call) := by
  refine keeps_node fun _ => .bind (keeps_accept _) fun found => ?_
  grind

@[grind ←] theorem keeps_parameterList (hcall : call.Keeps) :
    Keeps start (parameterList call) := by
  refine keeps_node fun _ => .bind keeps_take fun _ =>
    .bind (keeps_repeatWhile ?_) fun _ => ?_
  · grind
  · grind

@[grind ←] theorem keeps_typeParameter : Keeps start typeParameter := by
  refine keeps_node fun _ => .bind (keeps_accept _) fun found => ?_
  grind

@[grind ←] theorem keeps_optionalTypeParameters :
    Keeps start optionalTypeParameters := by
  refine .bind (keeps_at? _) fun found => ?_
  split
  · refine keeps_node fun _ => .bind keeps_take fun _ =>
      .bind (keeps_repeatWhile ?_) fun _ => ?_
    · grind
    · grind
  · exact keeps_pure ()

@[grind ←] theorem keeps_annotations (hcall : call.Keeps) :
    Keeps start (annotations call) := by
  refine keeps_repeatWhile (.bind (keeps_at? _) fun found => ?_)
  grind

@[grind ←] theorem keeps_atModifier? : Keeps start atModifier? :=
  keeps_of_unchanged (fun _ => rfl) fun _ => rfl

@[grind ←] theorem keeps_modifiers : Keeps start modifiers := by
  refine .bind keeps_atModifier? fun found => ?_
  grind

@[grind ←] theorem keeps_objectBodies (hcall : call.Keeps) :
    Keeps start (objectBodies call) := by
  refine keeps_repeatWhile (.bind (keeps_at? _) fun found => ?_)
  grind

@[grind ←] theorem keeps_property (hcall : call.Keeps) (kind : Node.Kind) :
    Keeps start (property call start kind) := by
  refine keeps_nodeAt fun _ => .bind keeps_take fun _ => ?_
  grind

@[grind ←] theorem keeps_method (hcall : call.Keeps) (kind : Node.Kind) :
    Keeps start (method call start kind) := by
  refine keeps_nodeAt fun _ => .bind keeps_take fun _ =>
    .bind (keeps_expect _) fun _ => ?_
  refine .bind keeps_optionalTypeParameters fun _ =>
    .bind (keeps_at? _) fun found => ?_
  grind

@[grind ←] theorem keeps_typeAlias (hcall : call.Keeps) :
    Keeps start (typeAlias call start) := by
  refine keeps_nodeAt fun _ => .bind keeps_take fun _ => ?_
  grind

@[grind ←] theorem keeps_classBody (hcall : call.Keeps) :
    Keeps start (classBody call) := by
  refine keeps_node fun _ => .bind keeps_take fun _ =>
    .bind (keeps_repeatWhile ?_) fun _ => ?_
  · grind
  · grind

@[grind ←] theorem keeps_classDecl (hcall : call.Keeps) :
    Keeps start (classDecl call start) := by
  refine keeps_nodeAt fun _ => .bind keeps_take fun _ =>
    .bind (keeps_expect _) fun _ => ?_
  grind

@[grind ←] theorem keeps_memberRest (hcall : call.Keeps) :
    Keeps start (memberRest call start) := by
  refine .bind keeps_current? fun found => ?_
  split <;> grind

theorem keeps_memberRule (hcall : call.Keeps) :
    Keeps start (memberRule call) := by
  refine keeps_mark_bind fun _ => ?_
  grind

@[grind ←] theorem keeps_operand (hcall : call.Keeps) (power : Nat) :
    Keeps start (operand call power) := by
  refine .bind (hcall (.expression power) start) fun found => ?_
  grind

@[grind ←] theorem keeps_literalRest (hcall : call.Keeps) :
    Keeps start (literalRest call) := by
  refine .bind (keeps_repeatWhile (.bind keeps_current? fun found => ?_))
    fun _ => ?_
  · split <;> grind
  · grind

theorem keeps_stringLiteralRule (hcall : call.Keeps) :
    Keeps start (stringLiteralRule call) := by
  refine .bind keeps_get fun state => ?_
  grind

@[grind ←] theorem keeps_argumentList (hcall : call.Keeps) :
    Keeps start (argumentList call) := by
  refine keeps_node fun _ => .bind keeps_take fun _ =>
    .bind (keeps_repeatWhile ?_) fun _ => ?_
  · refine .bind (keeps_atAny? _) fun found => ?_
    grind
  · exact keeps_close _

@[grind ←] theorem keeps_optionalArguments (hcall : call.Keeps) :
    Keeps start (optionalArguments call) := by
  refine .bind (keeps_at? _) fun found => ?_
  grind

@[grind ←] theorem keeps_keywordCall (hcall : call.Keeps) :
    Keeps start (keywordCall call) := by
  refine .bind keeps_take fun _ => ?_
  grind

@[grind ←] theorem keeps_importExpr (hcall : call.Keeps) :
    Keeps start (importExpr call) := by
  refine .bind keeps_take fun _ => .bind (keeps_expect _) fun found => ?_
  grind

@[grind ←] theorem keeps_newExpr (hcall : call.Keeps) :
    Keeps start (newExpr call) := by
  refine .bind keeps_take fun _ => .bind (keeps_at? _) fun found => ?_
  grind

@[grind ←] theorem keeps_superSubscriptExpr (hcall : call.Keeps) :
    Keeps start (superSubscriptExpr call) := by
  refine .bind keeps_take fun _ => ?_
  grind

@[grind ←] theorem keeps_superAccessExpr (hcall : call.Keeps) :
    Keeps start (superAccessExpr call) := by
  refine .bind keeps_take fun _ => ?_
  grind

@[grind ←] theorem keeps_ifExpr (hcall : call.Keeps) :
    Keeps start (ifExpr call) := by
  refine .bind keeps_take fun _ => .bind (keeps_expect _) fun found => ?_
  grind

@[grind ←] theorem keeps_letExpr (hcall : call.Keeps) :
    Keeps start (letExpr call) := by
  refine .bind keeps_take fun _ => .bind (keeps_expect _) fun found => ?_
  grind

@[grind ←] theorem keeps_parenthesizedExpr (hcall : call.Keeps) :
    Keeps start (parenthesizedExpr call) := by
  refine .bind keeps_take fun _ => ?_
  grind

@[grind ←] theorem keeps_functionLiteral (hcall : call.Keeps) :
    Keeps start (functionLiteral call) := by
  refine .bind (keeps_parameterList hcall) fun _ => ?_
  grind

@[grind ←] theorem keeps_atFunctionLiteral? : Keeps start atFunctionLiteral? :=
  keeps_of_unchanged (fun _ => rfl) fun _ => rfl

@[grind ←] theorem keeps_built {body : Parser Unit} (kind : Node.Kind)
    (hbody : ∀ inner, Keeps inner body) : Keeps start (built kind body) :=
  .bind (keeps_node hbody) fun _ => keeps_pure _

theorem keeps_operandStart (hcall : call.Keeps) :
    Keeps start (operandStart call) := by
  refine .bind keeps_current? fun found => ?_
  split
  case h_9 => exact hcall .stringLiteral start
  all_goals grind

theorem keeps_suffix (hcall : call.Keeps) (operandKind : Node.Kind) :
    Keeps start (suffix call start operandKind) := by
  refine .bind keeps_current? fun found => ?_
  split <;> grind

theorem keeps_operation (hcall : call.Keeps) (power : Nat) :
    Keeps start (operation call start power) := by
  refine .bind keeps_get fun state => ?_
  split <;> grind

theorem keeps_continuation (hcall : call.Keeps) (power : Nat)
    (operandKind : Node.Kind) :
    Keeps start (continuation call start power operandKind) := by
  refine .bind (keeps_suffix hcall operandKind) fun found => ?_
  cases found with
  | some kind => exact keeps_pure _
  | none => exact keeps_operation hcall power

theorem keeps_expressionRule (hcall : call.Keeps) (power : Nat) :
    Keeps start (expressionRule call power) := by
  refine keeps_mark_bind fun _ => .bind (keeps_operandStart hcall)
    fun found => ?_
  cases found with
  | none => exact keeps_pure none
  | some kind =>
      refine .bind (keeps_repeatFrom fun kind => ?_) fun _ => keeps_pure _
      exact keeps_continuation hcall power kind

def parametersAhead (state : State) : Bool :=
  (state.peek? 0).any [.identifier, .underscore].contains &&
    arrowAhead parametersLookahead state.tokens

theorem run_atBodyParameters? (state : State) :
    atBodyParameters?.run state = (parametersAhead state, state) := by
  have hlook : atBodyParameters?.run state =
      (if (state.peek? 0).any [.identifier, .underscore].contains then
        return arrowAhead parametersLookahead (← get).tokens
      else return false : Parser Bool).run state := rfl
  rw [hlook, parametersAhead]
  cases (state.peek? 0).any [.identifier, .underscore].contains with
  | true => rfl
  | false => rfl

@[grind ←] theorem keeps_atBodyParameters? : Keeps start atBodyParameters? := by
  refine .bind (keeps_atAny? _) fun found => ?_
  grind

@[grind ←] theorem keeps_expectedBody (hcall : call.Keeps) :
    Keeps start (expectedBody call) := by
  refine .bind (keeps_at? _) fun found => ?_
  grind

@[grind ←] theorem keeps_objectEntry (hcall : call.Keeps) :
    Keeps start (objectEntry call) := by
  refine keeps_node fun _ => .bind keeps_take fun _ =>
    .bind (keeps_expression hcall) fun _ => ?_
  grind

@[grind ←] theorem keeps_objectSpread (hcall : call.Keeps) :
    Keeps start (objectSpread call) :=
  keeps_node fun _ => .bind keeps_take fun _ => keeps_expression hcall

@[grind ←] theorem keeps_objectElement (hcall : call.Keeps) :
    Keeps start (objectElement call) :=
  keeps_node fun _ => keeps_expression hcall

@[grind ←] theorem keeps_forGenerator (hcall : call.Keeps) :
    Keeps start (forGenerator call) := by
  refine keeps_node fun _ => .bind keeps_take fun _ =>
    .bind (keeps_expect _) fun found => ?_
  split
  · refine .bind (keeps_parameter hcall) fun _ =>
      .bind (keeps_accept _) fun another => ?_
    grind
  · exact keeps_expectedBody hcall

@[grind ←] theorem keeps_whenGenerator (hcall : call.Keeps) :
    Keeps start (whenGenerator call) := by
  refine keeps_node fun _ => .bind keeps_take fun _ =>
    .bind (keeps_expect _) fun found => ?_
  grind

@[grind ←] theorem keeps_modifiedMember (hcall : call.Keeps) :
    Keeps start (modifiedMember call) := by
  refine keeps_mark_bind fun _ => .bind keeps_modifiers fun _ =>
    .bind keeps_current? fun found => ?_
  split <;> grind

@[grind ←] theorem keeps_namedMember (hcall : call.Keeps) :
    Keeps start (namedMember call) := by
  refine .bind (keeps_peek? 1) fun found => ?_
  split
  case h_4 => exact keeps_objectElement hcall
  all_goals exact keeps_mark_bind fun _ => keeps_property hcall _

@[grind ←] theorem keeps_objectMember (hcall : call.Keeps) :
    Keeps start (objectMember call) := by
  refine .bind keeps_current? fun found => ?_
  split
  case h_1 => exact keeps_mark_bind fun _ => keeps_method hcall _
  all_goals grind

@[grind ←] theorem keeps_bodyParameters (hcall : call.Keeps) :
    Keeps start (bodyParameters call) := by
  refine .bind (keeps_repeatWhile ?_) fun _ => ?_
  · grind
  · grind

theorem keeps_objectBodyRest (hcall : call.Keeps) : Keeps start (do
    if ← atBodyParameters? then
      bodyParameters call
    repeatWhile do
      if (← atEnd?) || (← at? .rightBrace) then
        return false
      else
        objectMember call
        return true
    let _ ← expect .rightBrace) := by
  have hmembers : Keeps start (do
      repeatWhile do
        if (← atEnd?) || (← at? .rightBrace) then
          return false
        else
          objectMember call
          return true
      let _ ← expect .rightBrace) := by
    refine .bind (keeps_repeatWhile ?_) fun _ => ?_
    · grind
    · grind
  refine .bind keeps_atBodyParameters? fun found => ?_
  grind

theorem keeps_objectBodyRule (hcall : call.Keeps) :
    Keeps start (objectBodyRule call) :=
  keeps_node fun _ => .bind keeps_take fun _ => keeps_objectBodyRest hcall

theorem keeps_parse (hcall : call.Keeps) : Call.Keeps (Rule.parse call) := by
  intro rule start
  cases rule with
  | type => exact .bind (keeps_typeRule hcall) fun _ => keeps_pure none
  | expression power => exact keeps_expressionRule hcall power
  | stringLiteral => exact keeps_stringLiteralRule hcall
  | objectBody =>
      exact .bind (keeps_objectBodyRule hcall) fun _ => keeps_pure none
  | member => exact .bind (keeps_memberRule hcall) fun _ => keeps_pure none

theorem keeps_parseRule (depth : Nat) : Call.Keeps (parseRule depth) := by
  induction depth with
  | zero => exact fun _ _ => keeps_pure none
  | succ depth ih => exact keeps_parse ih

@[grind ←] theorem keeps_moduleUri (hcall : call.Keeps) :
    Keeps start (moduleUri call) := by
  refine keeps_node fun _ => .bind (keeps_at? _) fun found => ?_
  grind

@[grind ←] theorem keeps_extendsAmendsClause (hcall : call.Keeps) :
    Keeps start (extendsAmendsClause call) :=
  keeps_node fun _ => .bind keeps_take fun _ => keeps_moduleUri hcall

@[grind ←] theorem keeps_importClause (hcall : call.Keeps) :
    Keeps start (importClause call) := by
  refine keeps_node fun _ => .bind keeps_take fun _ =>
    .bind (keeps_moduleUri hcall) fun _ => ?_
  grind

theorem keeps_moduleHeader (hcall : call.Keeps) :
    Keeps start (moduleHeader call) := by
  refine keeps_mark_bind fun place => .bind keeps_get fun before => ?_
  refine .bind (keeps_annotations hcall) fun _ =>
    .bind keeps_modifiers fun _ => ?_
  refine .bind keeps_get fun after => .bind (keeps_at? _) fun named => ?_
  grind

theorem keeps_imports (hcall : call.Keeps) : Keeps start (imports call) := by
  refine keeps_repeatWhile (.bind (keeps_atAny? _) fun found => ?_)
  grind

end PklAnalysis.Grammar

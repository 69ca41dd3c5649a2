import PklAnalysis.Proofs.Grammar.OperatorTree
import PklAnalysis.Proofs.Grammar.TriviaIndependence
import PklAnalysis.Proofs.Grammar.Writing

/-!
The tree of a text without errors conforms to the grammar: every production
writes the shape that the grammar has for it.
-/

namespace PklAnalysis.Grammar

open PklAnalysis.Parser
open PklAnalysis.Parser.View

/-- If the parser finds no error, it gives a value and writes trees of a
shape. -/
def Gives (view : View) (parser : Parser (Option α)) (shape : Shape) : Prop :=
  ∀ start, Writes view start .empty parser fun found => if found.isSome then
    shape else .nothing

theorem Gives.adds {view : View} {parser : Parser (Option α)} {shape : Shape}
    (hgives : Gives view parser shape) : Adds view parser shape := by
  refine fun start => (hgives start).mono (fun _ hsees => hsees) le_rfl
    fun found => ?_
  split
  case isTrue => exact le_rfl
  case isFalse => exact Shape.nothing_le

structure Call.Conforms (call : Call) : Prop where
  type : Adds anything (call .type) Shape.type
  expression : ∀ power, Gives anything (call (.expression power)) Shape.expr
  literal : Gives (first [.stringStart]) (call .stringLiteral) Shape.literal
  body : Adds (first [.leftBrace]) (call .objectBody) (.node .objectBody)
  member : Adds anything (call .member) (Shape.nodes Node.Kind.isClassMember)

variable {view : View} {start : Nat} {before shape rest : Shape} {call : Call}

theorem adds_type (hcall : call.Conforms) : Adds view (type call) Shape.type :=
  hcall.type.weaken.map

theorem adds_expression (hcall : call.Conforms) :
    Adds view (expression call) Shape.expr :=
  (hcall.expression 0).adds.weaken.map

theorem adds_stringLiteral (hcall : call.Conforms) :
    Adds (first [.stringStart]) (stringLiteral call) Shape.literal :=
  hcall.literal.adds.map

theorem adds_objectBody (hcall : call.Conforms) :
    Adds (first [.leftBrace]) (objectBody call) (.node .objectBody) :=
  hcall.body.map

theorem adds_member (hcall : call.Conforms) :
    Adds view (member call) (Shape.nodes Node.Kind.isClassMember) :=
  hcall.member.weaken.map

theorem adds_single {kind : Node.Kind} {token : Token.Kind}
    (hshape : (Shape.token token).words ≤ kind.shape.words) :
    Adds (first [token]) (single kind) (.node kind) :=
  adds_node adds_take hshape

theorem adds_qualifiedName :
    Adds view qualifiedName (.node .qualifiedIdent) := by
  let piece : Shape := (Shape.token .dot).seq (.token .identifier)
  have hpiece :
      Adds (fun peek => peek 0 = some .dot ∧ peek 1 = some .identifier)
      (take >>= fun _ => take >>= fun _ => pure true) piece :=
    (adds_take_take_bind (adds_pure true)).mono
      (Shape.seq_mono le_rfl (Shape.seq_empty _).le)
  have hstep : Adds anything (do
      if (← at? .dot) && (← peek? 1) = some .identifier then
        take
        take
        return true
      else
        return false) piece.optional := by
    refine fun start =>
      .look_bind (fun state => decide (state.peek? 0 = some .dot))
        (fun _ => rfl)
      (fun dot peek => decide (peek 0 = some .dot) = dot) (fun _ _ => rfl)
        fun dot => ?_
    refine .look_bind (fun state => state.peek? 1) (fun _ => rfl)
      (fun next peek => decide (peek 0 = some .dot) = dot ∧ peek 1 = next)
      (fun _ hsees => ⟨hsees, rfl⟩) fun next =>
        .ite (fun hboth => ?_) fun _ => ?_
    · rw [Bool.and_eq_true, decide_eq_true_eq] at hboth
      refine (hpiece start).mono (fun peek hsees => ?_) le_rfl fun _ =>
        Shape.le_optional
      exact ⟨of_decide_eq_true (hsees.1.trans hboth.1), hsees.2.trans hboth.2⟩
    · exact ((adds_pure false).mono Shape.empty_le_optional) start
  have hpieces : Adds anything (repeatWhile _) (.many piece) :=
    adds_repeatWhile hstep
  exact adds_node (adds_expect_then hpieces) le_rfl

theorem adds_typeSequence (hcall : call.Conforms) :
    Adds view (typeSequence call) Shape.typeSequence := by
  refine (adds_type hcall).bind fun _ =>
    adds_repeatWhile (adds_accept_bind ?_ (adds_pure false))
  exact (adds_type hcall).give

theorem adds_typeArguments (hcall : call.Conforms) :
    Adds (first [.less]) (typeArguments call) (.node .typeArgumentList) := by
  refine adds_node (adds_take_bind ((adds_typeSequence hcall).bind fun _ => ?_))
    le_rfl
  exact (adds_expect .greater).give

theorem adds_declaredType (hcall : call.Conforms) :
    Adds view (declaredType call) (.node .declaredType) :=
  adds_node (adds_qualifiedName.bind fun _ =>
    adds_option (adds_typeArguments hcall)) le_rfl

theorem adds_parenthesizedOrFunctionType (hcall : call.Conforms) :
    Adds (first [.leftParen]) (parenthesizedOrFunctionType call)
      Shape.type := by
  have hassoc :
      (((Shape.token .leftParen).seq (.optional Shape.typeSequence)).seq
      (.optional (.token .rightParen))).words =
        Shape.parenthesizedTypes.words :=
    Shape.seq_assoc _ _ _
  have hclosed : ∀ {place}, Writes anything place
      ((Shape.token .leftParen).seq (.optional Shape.typeSequence))
      (do
        close .rightParen
        if ← at? .arrow then
          nodeAt place .functionType do
            take
            type call
        else
          nodeAt place .parenthesizedType (return ())) fun _ => Shape.type := by
    refine (adds_close _).writes.bind fun _ => writes_at?_bind ?_ ?_
    · have hfunction :=
        Shape.seq_mono hassoc.le
          (le_refl ((Shape.token .arrow).seq .type).words)
      exact (writes_nodeAt (adds_take_bind (adds_type hcall)) hfunction).relax
        fun _ => Shape.node_le (by decide) rfl
    · exact (writes_nodeAt (adds_pure ())
        ((Shape.seq_empty _).trans hassoc).le).relax
        fun _ => Shape.node_le (by decide) rfl
  refine adds_mark_bind fun place => (adds_take place).bind fun _ =>
    writes_at?_bind ?_ ?_
  · refine hclosed.mono (fun _ _ => trivial) ?_ fun _ => le_rfl
    exact (Shape.seq_empty _).symm.trans_le
      (Shape.seq_mono le_rfl Shape.empty_le_optional)
  · refine ((adds_typeSequence hcall).writes.relax fun _ => ?_).bind
      fun _ => hclosed
    exact Shape.seq_mono le_rfl Shape.le_optional

theorem adds_primaryType (hcall : call.Conforms) :
    Adds view (primaryType call) Shape.type := by
  have htype : ∀ {view kind} {parser : Parser Unit},
      Adds view parser (.node kind) →
      kind ∈ Node.Kind.all → kind.isType = true → Adds view parser Shape.type :=
    fun hnode hmem hkind => hnode.mono (Shape.node_le hmem hkind)
  refine adds_current?_bind fun found => ?_
  split
  case h_1 => exact htype (adds_single le_rfl).at_some (by decide) rfl
  case h_2 => exact htype (adds_single le_rfl).at_some (by decide) rfl
  case h_3 => exact htype (adds_single le_rfl).at_some (by decide) rfl
  case h_4 =>
      exact htype (adds_node (adds_stringLiteral hcall) le_rfl).at_some
        (by decide) rfl
  case h_5 => exact htype (adds_declaredType hcall) (by decide) rfl
  case h_6 => exact (adds_parenthesizedOrFunctionType hcall).at_some
  case h_7 => exact adds_report _

theorem adds_nullableType (hcall : call.Conforms) :
    Adds view (nullableType call) Shape.type := by
  refine adds_mark_bind fun place => (adds_primaryType hcall place).bind
    fun _ => ?_
  refine writes_repeatWhile (writes_at?_bind ?_ (writes_pure false))
  refine (writes_nodeAt adds_take le_rfl).bind fun _ => ?_
  exact (writes_pure true).relax fun _ => Shape.node_le (by decide) rfl

theorem adds_typeRule (hcall : call.Conforms) :
    Adds view (typeRule call) Shape.type := by
  refine adds_mark_bind fun place => (adds_nullableType hcall place).bind
    fun _ => ?_
  refine writes_repeatWhile (writes_at?_bind ?_ (writes_pure false))
  refine (writes_nodeAt (adds_take_bind (adds_nullableType hcall)) le_rfl).bind
    fun _ => ?_
  exact (writes_pure true).relax fun _ => Shape.node_le (by decide) rfl

theorem adds_typeClause (hcall : call.Conforms) :
    Adds (first [.colon]) (typeClause call) (.node .typeClause) :=
  adds_node (adds_take_bind (adds_type hcall)) le_rfl

theorem adds_optionalTypeClause (hcall : call.Conforms) :
    Adds view (optionalTypeClause call) (.optional (.node .typeClause)) :=
  adds_option (adds_typeClause hcall)

theorem adds_parameter (hcall : call.Conforms) :
    Adds view (parameter call) (.node .parameter) := by
  have hname : ∀ {view}, Adds view (node .typedIdentifier do
      let _ ← expect .identifier
      optionalTypeClause call) (.node .typedIdentifier) :=
    adds_node (adds_expect_then (adds_optionalTypeClause hcall)) le_rfl
  exact adds_node (adds_accept_or (adds_pure ()) hname) le_rfl

theorem adds_parameterList (hcall : call.Conforms) :
    Adds (first [.leftParen]) (parameterList call) (.node .parameterList) := by
  refine adds_node
    (adds_take_bind (.bind (adds_repeatWhile (adds_atAny?_bind ?_ ?_)) fun _ =>
      ?_)) le_rfl
  · exact ((adds_parameter hcall).bind fun _ => adds_accept .comma).mono
      Shape.le_optional
  · exact (adds_pure false).mono Shape.empty_le_optional
  · exact (adds_expect .rightParen).give

theorem adds_typeParameter :
    Adds view typeParameter (.node .typeParameter) := by
  have hname : ∀ {view},
      Adds view (do let _ ← expect .identifier) (.token .identifier) :=
    (adds_expect .identifier).give
  refine adds_node
    (adds_accept_bind hname ((adds_accept .outKw).bind fun _ => hname)) ?_
  have hkind : ∀ {kind : Token.Kind}, kind ∈ [.inKw, .outKw] →
      (Shape.token kind).words ≤
        (Shape.tokens [.inKw, .outKw]).optional.words :=
    fun hmem => (Shape.token_le hmem).trans Shape.le_optional
  refine Shape.either_le ?_ ?_
  · exact Shape.seq_mono (hkind (by decide)) le_rfl
  · exact Shape.seq_mono
      (Shape.either_le (hkind (by decide)) Shape.empty_le_optional) le_rfl

theorem adds_optionalTypeParameters :
    Adds view optionalTypeParameters
      (.optional (.node .typeParameterList)) := by
  refine adds_option
    (adds_node (adds_take_bind (.bind (adds_repeatWhile ?_) fun _ => ?_))
      le_rfl)
  · exact (adds_typeParameter.bind fun _ => adds_accept .comma).mono
      Shape.le_optional
  · exact (adds_expect .greater).give

theorem adds_annotations (hcall : call.Conforms) :
    Adds view (annotations call) (.many (.node .annotationClause)) := by
  have hbody : Adds anything (do if ← at? .leftBrace then objectBody call)
      (.optional (.node .objectBody)) := adds_option (adds_objectBody hcall)
  refine adds_repeatWhile
    (adds_at?_bind ?_ ((adds_pure false).mono Shape.empty_le_optional))
  refine Adds.mono
    (.give (adds_node (adds_take_bind (adds_atAny?_bind ?_ ?_)) le_rfl))
      Shape.le_optional
  · exact (adds_type hcall).bind fun _ => hbody
  · exact adds_report_bind hbody

theorem adds_atModifier?_bind {next : Bool → Parser α}
    (hfound : Adds (first (Token.Kind.all.filter Token.Kind.isModifier))
      (next true) shape)
    (hmissed : Adds view (next false) shape) :
    Adds view (atModifier? >>= next) shape := by
  refine fun start =>
    .look_bind (fun state => (state.peek? 0).any Token.Kind.isModifier)
    (fun _ => rfl)
      (fun found peek => (peek 0).any Token.Kind.isModifier = found ∧ view peek)
    (fun _ hsees => ⟨rfl, hsees⟩) fun found => ?_
  cases found with
  | true =>
      refine (hfound.sees fun peek hsees => ?_) start
      have hany := hsees.1
      cases hpeek : peek 0 with
      | none =>
          rw [hpeek] at hany
          cases hany
      | some kind =>
          rw [hpeek] at hany
          refine ⟨kind, List.mem_filter.mpr ⟨?_, hany⟩, hpeek⟩
          cases kind <;> first | decide | cases hany
  | false => exact (hmissed.sees fun _ hsees => hsees.2) start

theorem adds_modifiers :
    Adds view modifiers (.optional (.node .modifierList)) := by
  have hnone : ∀ {view} {value : Bool},
      Adds view (pure value) (Shape.optional Shape.modifier) :=
    (adds_pure _).mono Shape.empty_le_optional
  have hlist : Adds anything (node .modifierList (repeatWhile do
      if ← atModifier? then
        take
        return true
      else
        return false)) (.node .modifierList) :=
    adds_node
      (adds_repeatWhile
        (adds_atModifier?_bind (adds_take.give.mono Shape.le_optional) hnone))
      le_rfl
  exact adds_atModifier?_bind (hlist.weaken.mono Shape.le_optional)
    ((adds_pure ()).mono Shape.empty_le_optional)

theorem adds_objectBodies (hcall : call.Conforms) :
    Adds view (objectBodies call) Shape.objectBodies := by
  refine adds_repeatWhile
    (adds_at?_bind ?_ ((adds_pure false).mono Shape.empty_le_optional))
  exact (adds_objectBody hcall).give.mono Shape.le_optional

theorem writes_property (hcall : call.Conforms) {kind : Node.Kind}
    (hshape : (before.seq Shape.property).words ≤ kind.shape.words) :
    Writes (first [.identifier]) start before (property call start kind)
      fun _ => .node kind := by
  refine writes_nodeAt
    (adds_take_bind ((adds_optionalTypeClause hcall).bind fun _ => ?_)) hshape
  exact adds_accept_bind (adds_expression hcall) (adds_objectBodies hcall)

theorem writes_method (hcall : call.Conforms) {kind : Node.Kind}
    (hshape : (before.seq Shape.method).words ≤ kind.shape.words) :
    Writes (first [.functionKw]) start before (method call start kind) fun _ =>
      .node kind := by
  have hrest : Adds anything (do
      optionalTypeClause call
      if ← accept .equal then
        expression call) _ :=
    (adds_optionalTypeClause hcall).bind fun _ =>
      adds_accept_bind (adds_expression hcall) (adds_pure ())
  refine writes_nodeAt (adds_take_bind (adds_expect_then ?_)) hshape
  refine adds_optionalTypeParameters.bind fun _ =>
    adds_at?_bind ?_ (adds_report_bind hrest)
  exact (adds_parameterList hcall).bind fun _ => hrest

theorem writes_typeAlias (hcall : call.Conforms) :
    Writes (first [.typealiasKw]) start Shape.decoration (typeAlias call start)
      fun _ => .node .typeAlias := by
  refine writes_nodeAt (adds_take_bind (adds_expect_then ?_)) le_rfl
  refine adds_optionalTypeParameters.bind fun _ =>
    adds_expect_bind ?_ (adds_pure ())
  exact adds_type hcall

theorem adds_unlessClosed {step : Parser Bool}
    (hstep : Adds anything step shape) :
    Adds view
      (do if (← atEnd?) || (← at? .rightBrace) then return false else step)
      (.optional shape) := by
  refine adds_look_bind _ (fun _ => rfl) fun _ =>
    adds_look_bind _ (fun _ => rfl) fun _ => ?_
  exact .ite (fun _ => (adds_pure false).mono Shape.empty_le_optional)
    fun _ => hstep.weaken.mono Shape.le_optional

theorem adds_classBody (hcall : call.Conforms) :
    Adds (first [.leftBrace]) (classBody call) (.node .classBody) := by
  refine adds_node (adds_take_bind (.bind (adds_repeatWhile ?_) fun _ => ?_))
    le_rfl
  · exact adds_unlessClosed (adds_member hcall).give
  · exact (adds_expect .rightBrace).give

theorem writes_classDecl (hcall : call.Conforms) :
    Writes (first [.classKw]) start Shape.decoration (classDecl call start)
      fun _ => .node .classDecl := by
  have hbody : Adds anything (do if ← at? .leftBrace then classBody call)
      (.optional (.node .classBody)) := adds_option (adds_classBody hcall)
  refine writes_nodeAt (adds_take_bind (adds_expect_then ?_)) le_rfl
  refine adds_optionalTypeParameters.bind fun _ => adds_option_bind ?_ hbody
  have hextends :
      Adds (first [.extendsKw]) (node .classHeaderExtends do take; type call)
      (.node .classHeaderExtends) :=
      adds_node (adds_take_bind (adds_type hcall)) le_rfl
  exact hextends.bind fun _ => hbody

theorem writes_memberRest (hcall : call.Conforms) :
    Writes view start Shape.decoration (memberRest call start)
      fun _ => Shape.nodes Node.Kind.isClassMember := by
  have hmember : ∀ {view kind} {parser : Parser Unit},
      Writes view start Shape.decoration parser (fun _ => .node kind) →
      kind ∈ Node.Kind.all → kind.isClassMember = true →
      Writes view start Shape.decoration parser fun _ =>
        Shape.nodes Node.Kind.isClassMember :=
    fun hnode hall hkind => hnode.relax fun _ => Shape.node_le hall hkind
  refine writes_current?_bind fun found => ?_
  split
  case h_1 => exact writes_report _
  case h_2 => exact hmember (writes_classDecl hcall).at_some (by decide) rfl
  case h_3 => exact hmember (writes_typeAlias hcall).at_some (by decide) rfl
  case h_4 => exact hmember (writes_method hcall le_rfl).at_some (by decide) rfl
  case h_5 =>
      exact hmember (writes_property hcall le_rfl).at_some (by decide) rfl
  case h_6 => exact writes_recover _ _

theorem writes_decoration (hcall : call.Conforms) {next : Parser α}
    {after : α → Shape}
    (hnext : Writes anything start Shape.decoration next after) :
    Writes view start .empty (do annotations call; modifiers; next) after :=
  (adds_annotations hcall start).bind fun _ => adds_modifiers.writes.bind
    fun _ => hnext

theorem adds_memberRule (hcall : call.Conforms) :
    Adds view (memberRule call) (Shape.nodes Node.Kind.isClassMember) :=
  adds_mark_bind fun _ => writes_decoration hcall (writes_memberRest hcall)

theorem Gives.mono {shape' : Shape} {parser : Parser (Option α)}
    (hgives : Gives view parser shape) (hle : shape.words ≤ shape'.words) :
    Gives view parser shape' := by
  refine fun start => (hgives start).relax fun found => ?_
  split
  case isTrue => exact hle
  case isFalse => exact Shape.nothing_le

theorem gives_of_adds {parser : Parser β} {value : α}
    (hadds : Adds view parser shape) :
    Gives view (do let _ ← parser; return some value) shape :=
  fun start => (hadds start).bind fun _ => writes_give le_rfl

theorem adds_operand (hcall : call.Conforms) (power : Nat) :
    Adds view (operand call power) Shape.expr := by
  have hoperand : Adds anything (operand call power) Shape.expr := by
    refine fun start => (hcall.expression power start).bind fun found => ?_
    cases found with
    | none => exact writes_report _
    | some kind => exact writes_pure ()
  exact hoperand.weaken

theorem adds_literalRest (hcall : call.Conforms) :
    Adds view (literalRest call)
      ((Shape.many ((Shape.token .stringChars).either (.node .stringPart))).seq
      (.token .stringEnd)) := by
  refine .bind (adds_repeatWhile (adds_current?_bind fun found => ?_))
    fun _ => ?_
  · split
    case h_1 =>
        have htake : Adds (first [.stringChars]) (take >>= fun _ => pure true)
            (.token .stringChars) :=
          adds_take.give
        exact (htake.at_some.mono Shape.left_le_either).mono Shape.le_optional
    case h_2 =>
        have hpart : Adds (first [.interpolationStart]) (node .stringPart do
            take
            expression call
            close .rightParen) (.node .stringPart) :=
          adds_node
            (adds_take_bind ((adds_expression hcall).bind fun _ =>
              adds_close _)) le_rfl
        exact (hpart.give.at_some.mono Shape.right_le_either).mono
          Shape.le_optional
    case h_3 => exact (adds_pure false).mono Shape.empty_le_optional
  · exact (adds_accept_or (adds_pure ()) (adds_report _)).mono
      (Shape.either_le le_rfl Shape.nothing_le)

theorem gives_stringLiteralRule (hcall : call.Conforms) :
    Gives (first [.stringStart]) (stringLiteralRule call) Shape.literal := by
  have hkind : ∀ delimiter,
      (literalKind delimiter).shape = Node.Kind.stringLiteral.shape ∧
      (Shape.node (literalKind delimiter)).words ≤ Shape.literal.words := by
    intro delimiter
    rw [literalKind]
    split
    case isTrue => exact ⟨rfl, Shape.node_le (by decide) rfl⟩
    case isFalse => exact ⟨rfl, Shape.node_le (by decide) rfl⟩
  have hliteral : ∀ delimiter,
      Adds (first [.stringStart]) (node (literalKind delimiter) do
      take
      literalRest call) Shape.literal := by
    intro delimiter
    refine Adds.mono (adds_node (adds_take_bind (adds_literalRest hcall)) ?_)
      (hkind delimiter).2
    rw [(hkind delimiter).1]
    exact le_rfl
  let delimiter? : Parser String :=
    return ((← get).current?.map Token.text).getD ""
  have hrule : Gives (first [.stringStart]) (delimiter? >>= fun delimiter =>
      node (literalKind delimiter) (take >>= fun _ => literalRest call) >>=
          fun _ =>
        pure (some (literalKind delimiter))) Shape.literal :=
    fun start => .look_bind _ (fun _ => rfl) (fun _ => first [.stringStart])
      (fun _ hsees => hsees)
      fun delimiter => gives_of_adds (hliteral delimiter) start
  exact hrule

theorem adds_nextArgument (hcall : call.Conforms) :
    Adds anything (nextArgument call)
      (.optional (Shape.expr.seq (.optional (.token .comma)))) := by
  refine adds_atAny?_bind ?_ ((adds_pure false).mono Shape.empty_le_optional)
  have hcomma : Adds anything (do return (← accept .comma) || !(← afterBreak?))
      (.optional (.token .comma)) :=
    fun start => (adds_accept _ start).bind fun _ =>
      .look_bind _ (fun _ => rfl) (fun _ => anything) (fun _ _ => trivial)
        fun _ => writes_pure _
  exact ((adds_expression hcall).bind fun _ => hcomma).mono Shape.le_optional

theorem adds_argumentList (hcall : call.Conforms) :
    Adds (first [.leftParen]) (argumentList call) (.node .argumentList) :=
  adds_node
    (adds_take_bind ((adds_repeatWhile (adds_nextArgument hcall)).bind fun _ =>
      adds_close _)) le_rfl

theorem adds_optionalArguments (hcall : call.Conforms) :
    Adds view (optionalArguments call) Shape.arguments := by
  refine adds_at?_bind ?_ ?_
  · refine adds_look_bind _ (fun _ => rfl) fun _ =>
      .ite (fun _ => ?_) fun _ => ?_
    · exact (adds_argumentList hcall).mono Shape.le_optional
    · exact (adds_pure ()).mono Shape.empty_le_optional
  · exact adds_look_bind _ (fun _ => rfl) fun _ =>
      (adds_pure ()).mono Shape.empty_le_optional

theorem adds_keywordCall (hcall : call.Conforms) (keywords : List Token.Kind) :
    Adds (first keywords) (keywordCall call)
      (Shape.keywordCall keywords Shape.expr) := by
  refine adds_take_bind (adds_expect_bind ?_ (adds_pure ()))
  exact (adds_expression hcall).bind fun _ => adds_close _

theorem adds_importExpr (hcall : call.Conforms) :
    Adds (first [.importKw, .importStarKw]) (importExpr call)
      (Shape.keywordCall [.importKw, .importStarKw] Shape.literal) := by
  refine adds_take_bind (adds_expect_bind (adds_at?_bind ?_ ?_) (adds_pure ()))
  · exact (adds_stringLiteral hcall).bind fun _ => adds_close _
  · exact adds_report_bind (adds_close _)

theorem adds_newExpr (hcall : call.Conforms) :
    Adds (first [.newKw]) (newExpr call) Node.Kind.newExpr.shape := by
  have hbody : ∀ {view}, Adds view
      (do
        if ← at? .leftBrace then objectBody call
        else report .expectedObjectBody)
      (.node .objectBody) :=
      adds_at?_bind (adds_objectBody hcall) (adds_report _)
  refine adds_take_bind (adds_at?_bind (hbody.mono Shape.le_optional_seq) ?_)
  exact ((adds_type hcall).bind fun _ => hbody).mono
    (Shape.seq_mono Shape.le_optional le_rfl)

theorem adds_superSubscriptExpr (hcall : call.Conforms) :
    Adds (fun peek => peek 0 = some .superKw ∧ peek 1 = some .leftBracket)
      (superSubscriptExpr call)
      Node.Kind.superSubscriptExpr.shape :=
  adds_take_take_bind ((adds_expression hcall).bind fun _ => adds_close _)

theorem adds_superAccessExpr (hcall : call.Conforms) :
    Adds (first [.superKw]) (superAccessExpr call)
      Node.Kind.superAccessExpr.shape :=
  adds_take_bind
    (adds_expect_bind (adds_expect_then (adds_optionalArguments hcall))
      (adds_pure ()))

theorem adds_ifExpr (hcall : call.Conforms) :
    Adds (first [.ifKw]) (ifExpr call) Node.Kind.ifExpr.shape := by
  have hrest : Adds anything (do
      expression call
      if ← expect .elseKw then
        expression call) (Shape.expr.seq ((Shape.token .elseKw).seq .expr)) :=
    (adds_expression hcall).bind fun _ =>
      adds_expect_bind (adds_expression hcall) (adds_pure ())
  refine adds_take_bind (adds_expect_bind ?_ hrest)
  exact (adds_expression hcall).bind fun _ => (adds_close _).bind fun _ => hrest

theorem adds_letExpr (hcall : call.Conforms) :
    Adds (first [.letKw]) (letExpr call) Node.Kind.letExpr.shape := by
  refine adds_take_bind (adds_expect_bind ?_ (adds_expression hcall))
  refine (adds_parameter hcall).bind fun _ => adds_expect_then ?_
  exact (adds_expression hcall).bind fun _ => (adds_close _).bind fun _ =>
    adds_expression hcall

theorem adds_parenthesizedExpr (hcall : call.Conforms) :
    Adds (first [.leftParen]) (parenthesizedExpr call)
      Node.Kind.parenthesizedExpr.shape :=
  adds_take_bind ((adds_expression hcall).bind fun _ => adds_close _)

theorem adds_functionLiteral (hcall : call.Conforms) :
    Adds (first [.leftParen]) (functionLiteral call)
      Node.Kind.functionLiteral.shape :=
  (adds_parameterList hcall).bind fun _ =>
    adds_expect_then (adds_expression hcall)

theorem gives_built {kind : Node.Kind} {body : Parser Unit}
    (hbody : Adds view body kind.shape) (hall : kind ∈ Node.Kind.all)
    (hkind : kind.isExpr = true) :
    Gives view (built kind body) Shape.expr :=
  gives_of_adds ((adds_node hbody le_rfl).mono (Shape.node_le hall hkind))

theorem Gives.at_some {kind : Token.Kind} {parser : Parser (Option α)}
    (hgives : Gives (first [kind]) parser shape) :
    Gives (fun peek => peek 0 = some kind) parser shape :=
  fun start => (hgives start).at_some

theorem gives_operandStart (hcall : call.Conforms) :
    Gives view (operandStart call) Shape.expr := by
  have htoken : ∀ {kind token}, Shape.token token = kind.shape →
      kind ∈ Node.Kind.all →
      kind.isExpr = true →
      Gives (fun peek => peek 0 = some token) (built kind take) Shape.expr := by
    intro kind token hshape hall hkind
    have htake : Adds (first [token]) take (Shape.token token) := adds_take
    rw [hshape] at htake
    exact gives_built htake.at_some hall hkind
  have hliteral : Shape.literal.words ≤ Shape.expr.words :=
    Shape.nodes_mono fun kind hkind => by cases kind <;>
      first | rfl | cases hkind
  have hread : ∀ {token}, token ∈ [.readKw, .readOrNullKw, .readStarKw] →
      Gives (fun peek => peek 0 = some token)
        (built .readExpr (keywordCall call)) Shape.expr :=
    fun htoken start =>
      (gives_built (adds_keywordCall hcall _) (by decide) rfl start).at_among
        htoken
  have himport : ∀ {token}, token ∈ [.importKw, .importStarKw] →
      Gives (fun peek => peek 0 = some token)
        (built .importExpr (importExpr call)) Shape.expr :=
    fun htoken start =>
      (gives_built (adds_importExpr hcall) (by decide) rfl start).at_among
        htoken
  refine fun start => writes_current?_bind fun found => ?_
  split
  case h_1 | h_2 | h_3 | h_4 | h_5 | h_6 | h_7 | h_8 =>
      exact htoken rfl (by decide) rfl start
  case h_9 => exact ((hcall.literal.mono hliteral) start).at_some
  case h_10 | h_11 =>
      exact (gives_built (adds_keywordCall hcall _) (by decide) rfl
        start).at_some
  case h_12 | h_13 | h_14 => exact hread (by decide) start
  case h_15 | h_16 => exact himport (by decide) start
  case h_17 =>
      exact (gives_built (adds_take_bind (adds_optionalArguments hcall))
        (by decide) rfl start).at_some
  case h_18 =>
      exact (gives_built (adds_newExpr hcall) (by decide) rfl start).at_some
  case h_19 =>
      refine .look_bind (fun state => state.peek? 1) (fun _ => rfl)
        (fun next peek => peek 0 = some .superKw ∧ peek 1 = next)
          (fun _ hsees => ⟨hsees, rfl⟩)
        fun next => .ite (fun hbracket => ?_) fun _ => ?_
      · rw [hbracket]
        exact gives_built (adds_superSubscriptExpr hcall) (by decide) rfl start
      · refine gives_built ((adds_superAccessExpr hcall).sees fun _ hsees => ?_)
          (by decide) rfl start
        exact ⟨_, List.mem_singleton_self _, hsees.1⟩
  case h_20 | h_21 =>
      exact (gives_built (adds_take_bind (adds_operand hcall _)) (by decide) rfl
        start).at_some
  case h_22 =>
      exact (gives_built (adds_ifExpr hcall) (by decide) rfl start).at_some
  case h_23 =>
      exact (gives_built (adds_letExpr hcall) (by decide) rfl start).at_some
  case h_24 =>
      refine .look_bind _ (fun _ => rfl)
        (fun _ peek => peek 0 = some .leftParen) (fun _ hsees => hsees)
        fun _ => .ite (fun _ => ?_) fun _ => ?_
      · exact (gives_built (adds_functionLiteral hcall) (by decide) rfl
          start).at_some
      · exact (gives_built (adds_parenthesizedExpr hcall) (by decide) rfl
          start).at_some
  case h_25 => exact writes_report_bind (keeps_pure none) (clean_pure none)

theorem writes_exprAt {kind : Node.Kind} {body : Parser Unit} {value : α}
    (hbody : Adds view body rest)
    (hshape : (Shape.expr.seq rest).words ≤ kind.shape.words)
    (hall : kind ∈ Node.Kind.all) (hkind : kind.isExpr = true) :
    Writes view start Shape.expr (do nodeAt start kind body; return value)
      fun _ => Shape.expr :=
  ((writes_nodeAt hbody hshape).relax fun _ => Shape.node_le hall hkind).bind
    fun _ => writes_pure value

theorem writes_suffix (hcall : call.Conforms) (operandKind : Node.Kind) :
    Writes view start Shape.expr (suffix call start operandKind) fun _ =>
      Shape.expr := by
  have hmember : ∀ {token}, token ∈ [.dot, .questionDot] →
      Writes (fun peek => peek 0 = some token) start Shape.expr (do
        nodeAt start .qualifiedAccessExpr do
          take
          let _ ← expect .identifier
          optionalArguments call
        return some Node.Kind.qualifiedAccessExpr) fun _ => Shape.expr := by
    intro token htoken
    refine Writes.at_among (writes_exprAt ?_ le_rfl (by decide) rfl) htoken
    exact adds_take_bind (adds_expect_then (adds_optionalArguments hcall))
  refine writes_current?_bind fun found => ?_
  split
  case h_1 | h_2 => exact hmember (by decide)
  case h_3 =>
      refine .look_bind _ (fun _ => rfl)
        (fun _ peek => peek 0 = some .leftBracket)
        (fun _ hsees => hsees) fun _ => .ite (fun _ => writes_pure none)
          fun _ => ?_
      refine Writes.at_some
        (writes_exprAt (adds_take_bind ?_) le_rfl (by decide) rfl)
      exact (adds_expression hcall).bind fun _ => adds_close _
  case h_4 => exact (writes_exprAt adds_take le_rfl (by decide) rfl).at_some
  case h_5 =>
      refine .ite (fun _ => ?_) fun _ => writes_pure none
      exact (writes_exprAt (adds_objectBody hcall) le_rfl (by decide)
        rfl).at_some
  case h_6 => exact writes_pure none

theorem shape_of_operator {operator : Operator}
    (hmem : operator ∈ Operator.all) :
    operator.kind ∈ Node.Kind.all ∧ operator.kind.isExpr = true ∧
      operator.kind.shape =
      Shape.expr.seq
        (Shape.operator.seq
          (if operator.kind = .typeTestExpr then .type else .expr)) := by
  simp only [Operator.all, List.mem_cons, List.not_mem_nil, or_false] at hmem
  rcases hmem with rfl | rfl | rfl | rfl | rfl | rfl | rfl | rfl | rfl | rfl
  all_goals exact ⟨by decide, rfl, rfl⟩

theorem mem_operators {kind : Token.Kind} {operator : Operator}
    (hread : Operator.ofToken? kind = some operator) :
    kind ∈ Token.Kind.all.filter fun kind =>
      (Operator.ofToken? kind).isSome := by
  refine List.mem_filter.mpr ⟨?_, by rw [hread]; rfl⟩
  cases kind <;> first | decide | cases hread

theorem writes_operation (hcall : call.Conforms) (power : Nat) :
    Writes view start Shape.expr (operation call start power) fun _ =>
      Shape.expr := by
  let seen? : Parser (Option Token.Kind × Bool) :=
    return ((← get).peek? 0, (← get).afterBreak)
  let operator? (seen : Option Token.Kind × Bool) : Option Operator :=
    seen.1.bind fun kind => if kind = .minus && seen.2 then none else
      Operator.ofToken? kind
  let build (operator : Operator) : Parser (Option Node.Kind) := do
    nodeAt start operator.kind do
      take
      if operator.kind = .typeTestExpr then
        type call
      else
        operand call operator.right
    return some operator.kind
  let next (operator? : Option Operator) : Parser (Option Node.Kind) :=
    operator?.elim (return none) fun operator =>
      if operator.left < power then return none else build operator
  have hnext : operation call start power = seen? >>= fun seen =>
      next (operator? seen) := by
    refine congrArg (get >>= ·) (funext fun state => ?_)
    change _ = next (Operator.current? state)
    cases Operator.current? state <;> rfl
  rw [hnext]
  refine .look_bind (fun state => (state.peek? 0, state.afterBreak))
    (fun _ => rfl)
    (fun seen peek => peek 0 = seen.1) (fun _ _ => rfl) fun seen => ?_
  cases hoperator : operator? seen with
  | none => exact writes_pure none
  | some operator =>
      obtain ⟨kind, hkind, hread⟩ := Option.bind_eq_some_iff.mp hoperator
      have hread : Operator.ofToken? kind = some operator := by
        split at hread
        case isTrue => cases hread
        case isFalse => exact hread
      obtain ⟨hall, hexpr, hshape⟩ := shape_of_operator (Operator.mem_all hread)
      refine .ite (fun _ => writes_pure none) fun _ =>
        writes_exprAt ?_ (congrArg Shape.words hshape).ge hall hexpr
      refine Adds.sees (adds_take_bind ?_) fun peek hsees =>
        ⟨kind, mem_operators hread, hsees.trans hkind⟩
      split
      case isTrue => exact adds_type hcall
      case isFalse => exact adds_operand hcall _

theorem gives_expressionRule (hcall : call.Conforms) (power : Nat) :
    Gives view (expressionRule call power) Shape.expr := by
  have hcontinuation : ∀ place kind, Writes anything place Shape.expr
      (continuation call place power kind) fun _ => Shape.expr := by
    intro place kind
    refine (writes_suffix hcall kind).bind fun found => ?_
    cases found with
    | none => exact writes_operation hcall power
    | some kind => exact writes_pure (some kind)
  refine fun start => writes_mark_bind fun place =>
    (gives_operandStart hcall place).bind fun found => ?_
  cases found with
  | none => exact writes_give Shape.nothing_le
  | some kind =>
      exact (writes_repeatFrom (hcontinuation place)).bind fun _ =>
        writes_give le_rfl

theorem adds_expectedBody (hcall : call.Conforms) :
    Adds view (expectedBody call) (.node .objectBody) :=
  adds_at?_bind (adds_objectBody hcall) (adds_report _)

theorem adds_objectEntry (hcall : call.Conforms) :
    Adds (first [.leftBracket]) (objectEntry call) (.node .objectEntry) := by
  refine adds_node
    (adds_take_bind ((adds_expression hcall).bind fun _ => adds_expect_then ?_))
      le_rfl
  exact adds_accept_bind (adds_expression hcall)
    (adds_at?_bind (adds_objectBodies hcall) (adds_report _))

theorem adds_objectSpread (hcall : call.Conforms) :
    Adds (first [.spread, .questionSpread]) (objectSpread call)
      (.node .objectSpread) :=
  adds_node (adds_take_bind (adds_expression hcall)) le_rfl

theorem adds_objectElement (hcall : call.Conforms) :
    Adds view (objectElement call) (.node .objectElement) :=
  adds_node (adds_expression hcall) le_rfl

theorem adds_forGenerator (hcall : call.Conforms) :
    Adds (first [.forKw]) (forGenerator call) (.node .forGenerator) := by
  have hrest : Adds anything (do
      let _ ← expect .inKw
      expression call
      let _ ← expect .rightParen
      expectedBody call) _ :=
    adds_expect_then ((adds_expression hcall).bind fun _ =>
      adds_expect_then (adds_expectedBody hcall))
  refine adds_node
    (adds_take_bind (adds_expect_bind ?_ (adds_expectedBody hcall))) le_rfl
  refine (adds_parameter hcall).bind fun _ => ?_
  refine (adds_accept_bind ((adds_parameter hcall).bind fun _ => hrest)
    hrest).mono ?_
  refine Shape.either_le ?_ Shape.le_optional_seq
  exact (Shape.seq_assoc _ _ _).symm.trans_le
    (Shape.seq_mono Shape.le_optional le_rfl)

theorem adds_whenGenerator (hcall : call.Conforms) :
    Adds (first [.whenKw]) (whenGenerator call) (.node .whenGenerator) := by
  have hrest : Adds anything (do
      expectedBody call
      if ← accept .elseKw then
        expectedBody call) _ :=
    (adds_expectedBody hcall).bind fun _ =>
      adds_accept_bind (adds_expectedBody hcall) (adds_pure ())
  refine adds_node (adds_take_bind (adds_expect_bind ?_ hrest)) le_rfl
  exact (adds_expression hcall).bind fun _ => adds_expect_then hrest

theorem adds_modifiedMember (hcall : call.Conforms) :
    Adds view (modifiedMember call) (Shape.nodes Node.Kind.isObjectMember) := by
  refine adds_mark_bind fun place => (adds_modifiers place).bind fun _ => ?_
  refine writes_current?_bind fun found => ?_
  split
  case h_1 =>
      exact ((writes_method hcall le_rfl).relax fun _ =>
        Shape.node_le (by decide) rfl).at_some
  case h_2 =>
      exact ((writes_property hcall le_rfl).relax fun _ =>
        Shape.node_le (by decide) rfl).at_some
  case h_3 => exact writes_recover _ _

theorem adds_namedMember (hcall : call.Conforms) :
    Adds (first [.identifier]) (namedMember call)
      (Shape.nodes Node.Kind.isObjectMember) := by
  have hproperty :
      Adds (first [.identifier])
        (mark >>= fun place => property call place .objectProperty)
      (Shape.nodes Node.Kind.isObjectMember) := by
    refine adds_mark_bind fun place => ?_
    exact (writes_property hcall
      (Shape.seq_mono Shape.empty_le_optional le_rfl)).relax
      fun _ => Shape.node_le (by decide) rfl
  refine adds_look_bind _ (fun _ => rfl) fun next => ?_
  split
  case h_1 | h_2 | h_3 => exact hproperty
  case h_4 =>
      exact (adds_objectElement hcall).mono (Shape.node_le (by decide) rfl)

theorem adds_objectMember (hcall : call.Conforms) :
    Adds view (objectMember call) (Shape.nodes Node.Kind.isObjectMember) := by
  have hmember : ∀ {view kind} {parser : Parser Unit},
      Adds view parser (.node kind) →
      kind ∈ Node.Kind.all → kind.isObjectMember = true →
      Adds view parser (Shape.nodes Node.Kind.isObjectMember) :=
    fun hnode hall hkind => hnode.mono (Shape.node_le hall hkind)
  have hspread : ∀ {token}, token ∈ [.spread, .questionSpread] →
      Adds (fun peek => peek 0 = some token) (objectSpread call)
        (Shape.nodes Node.Kind.isObjectMember) :=
    fun htoken start =>
      (hmember (adds_objectSpread hcall) (by decide) rfl start).at_among htoken
  refine adds_current?_bind fun found => ?_
  split
  case h_1 =>
      have hmethod :
          Adds (first [.functionKw])
            (mark >>= fun place => method call place .objectMethod)
          (.node .objectMethod) :=
        adds_mark_bind fun _ =>
          writes_method hcall (Shape.seq_mono Shape.empty_le_optional le_rfl)
      exact (hmember hmethod (by decide) rfl).at_some
  case h_2 => exact (adds_namedMember hcall).at_some
  case h_3 => exact (hmember (adds_objectEntry hcall) (by decide) rfl).at_some
  case h_4 | h_5 => exact hspread (by decide)
  case h_6 => exact (hmember (adds_forGenerator hcall) (by decide) rfl).at_some
  case h_7 => exact (hmember (adds_whenGenerator hcall) (by decide) rfl).at_some
  case h_8 =>
      refine .ite (fun _ => adds_modifiedMember hcall) fun _ =>
        .ite (fun _ => ?_) fun _ => ?_
      · exact hmember (adds_objectElement hcall) (by decide) rfl
      · exact fun _ => writes_recover _ _
  case h_9 => exact fun _ => writes_recover _ _

theorem adds_bodyParameters (hcall : call.Conforms) :
    Adds view (bodyParameters call)
      ((Shape.listed (.node .parameter)).seq (.token .arrow)) := by
  refine .bind (adds_repeatWhile ?_) fun _ => (adds_expect .arrow).give
  exact ((adds_parameter hcall).bind fun _ => adds_accept .comma).mono
    Shape.le_optional

theorem adds_objectBodyRule (hcall : call.Conforms) :
    Adds (first [.leftBrace]) (objectBodyRule call) (.node .objectBody) := by
  have hlook : Adds anything atBodyParameters? .empty :=
    adds_atAny?_bind (adds_look_bind _ (fun _ => rfl) fun _ => adds_pure _)
      (adds_pure _)
  have hmembers : Adds anything (do
      repeatWhile do
        if (← atEnd?) || (← at? .rightBrace) then
          return false
        else
          objectMember call
          return true
      let _ ← expect .rightBrace)
      ((Shape.many (Shape.nodes Node.Kind.isObjectMember)).seq
        (.token .rightBrace)) :=
    .bind (adds_repeatWhile (adds_unlessClosed (adds_objectMember hcall).give))
        fun _ =>
      (adds_expect .rightBrace).give
  refine adds_node (adds_take_bind ?_) le_rfl
  refine Adds.mono (hlook.bind fun _ => .ite (fun _ => ?_) fun _ => ?_)
    (Shape.empty_seq _).le
  · exact ((adds_bodyParameters hcall).bind fun _ => hmembers).mono
      (Shape.seq_mono Shape.le_optional le_rfl)
  · exact hmembers.mono Shape.le_optional_seq

theorem conforms_parse (hcall : call.Conforms) :
    Call.Conforms (Rule.parse call) where
  type := (adds_typeRule hcall).give
  expression power := gives_expressionRule hcall power
  literal := gives_stringLiteralRule hcall
  body := (adds_objectBodyRule hcall).give
  member := (adds_memberRule hcall).give

def overflow : Call := fun _ => do
  report .expectedExpression
  return none

theorem conforms_overflow : overflow.Conforms where
  type := adds_report_bind (adds_pure none)
  expression _ _ := writes_report_bind (keeps_pure none) (clean_pure none)
  literal _ := writes_report_bind (keeps_pure none) (clean_pure none)
  body := adds_report_bind (adds_pure none)
  member := adds_report_bind (adds_pure none)

theorem conforms_unroll (depth : Nat) :
    Call.Conforms (unroll Rule.parse overflow depth) := by
  induction depth with
  | zero => exact conforms_overflow
  | succ depth ih => exact conforms_parse ih

theorem adds_moduleUri (hcall : call.Conforms) :
    Adds view (moduleUri call) (.node .moduleUri) :=
  adds_node (adds_at?_bind (adds_stringLiteral hcall) (adds_report _)) le_rfl

theorem adds_extendsAmendsClause (hcall : call.Conforms) :
    Adds (first [.amendsKw, .extendsKw]) (extendsAmendsClause call)
      (.node .extendsAmendsClause) :=
  adds_node (adds_take_bind (adds_moduleUri hcall)) le_rfl

theorem adds_importClause (hcall : call.Conforms) :
    Adds (first [.importKw, .importStarKw]) (importClause call)
      (.node .importClause) := by
  refine adds_node (adds_take_bind ((adds_moduleUri hcall).bind fun _ => ?_))
    le_rfl
  exact adds_accept_bind (adds_expect .identifier).give (adds_pure ())

theorem adds_moduleHeader (hcall : call.Conforms) :
    Adds view (moduleHeader call) Shape.beginning := by
  have hfinished : ∀ {place : Nat} {before : Shape},
      before.words ≤ Node.Kind.moduleHeader.shape.words →
      Writes anything place before (nodeAt place .moduleHeader (return ()))
        fun _ => Shape.beginning := by
    intro place before hle
    refine (writes_nodeAt (adds_pure ())
      ((Shape.seq_empty before).trans_le hle)).relax fun _ => ?_
    exact Shape.left_le_either.trans Shape.right_le_either
  have hclause : ∀ {place : Nat} {before : Shape},
      (before.seq (.node .extendsAmendsClause)).words ≤
        Node.Kind.moduleHeader.shape.words →
      Writes (first [.amendsKw, .extendsKw]) place before (do
        extendsAmendsClause call
        nodeAt place .moduleHeader (return ())) fun _ => Shape.beginning :=
    fun hle => (adds_extendsAmendsClause hcall).writes.bind fun _ =>
      hfinished hle
  refine adds_mark_bind fun place =>
    .look_bind _ (fun _ => rfl) (fun _ => anything)
    (fun _ _ => trivial) fun _ => writes_decoration hcall ?_
  refine .look_bind _ (fun _ => rfl) (fun _ => anything) (fun _ _ => trivial)
    fun _ => ?_
  refine writes_at?_bind ?_ ?_
  · have hdecl : Writes (first [.moduleKw]) place Shape.decoration
        (nodeAt place .moduleDecl do take; qualifiedName) fun _ =>
          .node .moduleDecl :=
      writes_nodeAt (adds_take_bind adds_qualifiedName) le_rfl
    refine hdecl.bind fun _ => writes_atAny?_bind ?_ ?_
    · exact hclause
        ((Shape.seq_mono le_rfl Shape.le_optional).trans Shape.left_le_either)
    · refine hfinished (Shape.left_le_either.trans' ?_)
      exact (Shape.seq_empty _).symm.trans_le
        (Shape.seq_mono le_rfl Shape.empty_le_optional)
  · refine writes_atAny?_bind (hclause Shape.right_le_either) ?_
    refine .ite (fun hderived => nomatch hderived) fun _ =>
        .ite (fun hheader => nomatch hheader) fun _ =>
      .ite (fun _ => ?_) fun _ => ?_
    · exact (writes_memberRest hcall).relax fun _ =>
        Shape.right_le_either.trans Shape.right_le_either
    · exact writes_give Shape.left_le_either

theorem adds_imports (hcall : call.Conforms) :
    Adds view (imports call) (.many (.node .importClause)) := by
  refine adds_repeatWhile (adds_atAny?_bind ?_ ?_)
  · refine adds_look_bind _ (fun _ => rfl) fun _ =>
      .ite (fun _ => ?_) fun _ => ?_
    · exact (adds_importClause hcall).give.mono Shape.le_optional
    · exact (adds_pure false).mono Shape.empty_le_optional
  · exact adds_look_bind _ (fun _ => rfl) fun _ =>
        .ite (fun himport => nomatch himport) fun _ =>
      (adds_pure false).mono Shape.empty_le_optional

theorem adds_moduleContents (hcall : call.Conforms) :
    Adds view (moduleContents call) Node.Kind.root.shape := by
  refine (adds_moduleHeader hcall).bind fun _ => (adds_imports hcall).bind
    fun _ => ?_
  refine adds_repeatWhile (adds_look_bind _ (fun _ => rfl) fun _ =>
    .ite (fun _ => ?_) fun _ => ?_)
  · exact (adds_pure false).mono Shape.empty_le_optional
  · exact (adds_member hcall).give.mono Shape.le_optional

theorem adds_moduleRule (hcall : call.Conforms) :
    Adds view (moduleRule call) (.node .root) := by
  have hskip : Adds anything skipTrivia .empty :=
    fun start => writes_skipTrivia_bind (writes_pure ())
  exact adds_enclose ((adds_moduleContents hcall).bind fun _ => hskip)
    (Shape.seq_empty _).le

theorem conforms_parseTokens (tokens : List Token) (stop : Nat)
    (herrors : (parseTokens tokens stop).errors = []) :
    (parseTokens tokens stop).tree.Conforms := by
  have hoverflow : overflow.Keeps :=
    fun _ _ => (keeps_report _).bind fun _ => keeps_pure none
  have hsimilar : Similar ⟨⟨tokens, stop⟩, ⟨tokens, stop⟩⟩ 0 0
      (finalState tokens stop)
      ((moduleRule (unroll Rule.parse overflow (callDepth tokens))).run
        (.ofTokens tokens stop)).2 := by
    rw [finalState_eq_unroll]
    exact similar_moduleRule rfl keeps_none hoverflow (Nat.le_refl _)
      (Nat.le_refl _)
  have hroot :
      Adds anything (moduleRule (unroll Rule.parse overflow (callDepth tokens)))
        (.node .root) :=
    adds_moduleRule (conforms_unroll (callDepth tokens))
  have hadds :=
    (hroot 0).built (.ofTokens tokens stop) rfl trivial
      (.of_mark (.ofTokens tokens stop))
  generalize ((moduleRule (unroll Rule.parse overflow (callDepth tokens))).run
    (.ofTokens tokens stop)).2 = ideal at hsimilar hadds
  rw [errors_parseTokens, List.reverse_eq_nil_iff] at herrors
  have hnone : ideal.errors = [] := by
    have hsame := hsimilar.errors
    rw [herrors] at hsame
    exact List.forall₂_nil_left_iff.mp hsame
  have hbuilt : ideal.Built 0 (.node .root) := hadds hnone
  obtain ⟨-, hinOrder, hopen, children, htrees, -⟩ :=
    finalState_built tokens stop
  rw [tree_parseTokens hinOrder hopen htrees]
  have htrees' := hsimilar.trees
  rw [htrees, List.drop_zero] at htrees'
  have hconforms : ∀ tree ∈ [Tree.node .root children], tree.Conforms := by
    rw [← Tree.conforms_bareAll, htrees', Tree.conforms_bareAll]
    exact hbuilt.conforms
  exact hconforms _ (List.mem_singleton_self _)

end PklAnalysis.Grammar

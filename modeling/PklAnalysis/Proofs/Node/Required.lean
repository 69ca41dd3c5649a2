import PklAnalysis.Proofs.Node.Contents

/-!
The required parts of the constructs of a text without errors are there, but for
the type in empty parentheses.
-/

namespace PklAnalysis

namespace Node

def Required.missing : Required α → List Missing
  | .ok _ => []
  | .error reason => [reason]

def gapsAs (node : Node) : Kind → List Missing
  | .extendsAmendsClause | .importClause => node.clauseUri.missing
  | .classDecl | .classProperty | .objectProperty | .typeParameter
  | .typedIdentifier =>
      node.name.missing
  | .classHeaderExtends => node.headerSupertype.missing
  | .typeAlias => node.name.missing ++ node.aliasedType.missing
  | .classMethod
  | .objectMethod => node.name.missing ++ node.parameterList.missing
  | .typeClause | .nullableType | .parenthesizedType => node.innerType.missing
  | .objectEntry => node.entryKey.missing
  | .objectElement => node.elementExpr.missing
  | .objectSpread => node.spreadExpr.missing
  | .forGenerator => node.valueParameter.missing ++ node.iterable.missing
  | .whenGenerator => node.condition.missing
  | .stringLiteralType => node.typeLiteral.missing
  | .declaredType => node.typeName.missing
  | .unionType => node.leftType.missing ++ node.rightType.missing
  | .functionType => node.resultType.missing
  | .unqualifiedAccessExpr | .superAccessExpr => node.identifier.missing
  | .qualifiedAccessExpr => node.receiver.missing ++ node.identifier.missing
  | .subscriptExpr => node.receiver.missing
  | .nonNullExpr | .unaryMinusExpr | .logicalNotExpr => node.operand.missing
  | .typeTestExpr => node.operand.missing ++ node.testedType.missing
  | .ifExpr =>
      node.condition.missing ++ node.thenExpr.missing ++ node.elseExpr.missing
  | .letExpr =>
      node.letParameter.missing ++ node.letValue.missing ++ node.letBody.missing
  | .newExpr => node.requiredBody.missing
  | .amendExpr => node.amendedExpr.missing ++ node.requiredBody.missing
  | .functionLiteral => node.parameterList.missing
  | kind =>
      if kind.isBinary then
        node.leftOperand.missing ++ node.operator.missing ++
          node.rightOperand.missing
      else []

def gaps (node : Node) : List Missing :=
  node.gapsAs node.kind

namespace Stands

variable {node : Node} {offset : Nat} {kind : Kind} {trees : List Tree}

theorem exists_child (hstands : node.Stands offset (.node kind trees))
    {before piece after : List Tree} (htrees : trees = before ++ piece ++ after)
    {under : Kind} (hunder : .node under ∈ Tree.symbols piece)
    (herror : under ≠ .error) :
    ∃ child ∈ node.children,
      child.kind = under ∧ offset + Tree.sizeAll before ≤ child.range.start ∧
      child.range.stop ≤ offset + Tree.sizeAll (before ++ piece) := by
  obtain ⟨tree, htree, hsymbol⟩ := List.mem_map.mp hunder
  obtain ⟨left, right, rfl⟩ := List.append_of_mem (List.mem_filter.mp htree).1
  have hnumbered : tree.isNumbered = true := by
    cases tree with
    | token kind text => cases hsymbol
    | node kind children =>
        cases hsymbol
        exact decide_eq_true herror
  have hplaced : (offset + Tree.sizeAll (before ++ left), tree) ∈
      Tree.numbered offset trees := by
    have hsplit : trees = (before ++ left) ++ tree :: (right ++ after) := by
      simp [htrees]
    rw [hsplit, Tree.numbered_append,
      Tree.numbered_cons_of_numbered _ _ hnumbered]
    exact List.mem_append_right _ List.mem_cons_self
  obtain ⟨child, hchild, hat⟩ := exists_left_of_forall₂ hstands.children hplaced
  refine ⟨child, hchild, Symbol.node.inj (hat.symbol_eq.symm.trans hsymbol), ?_,
    ?_⟩
  · rw [hat.range_eq, Tree.sizeAll_append]
    exact Nat.add_le_add_left (Nat.le_add_right _ _) _
  · rw [hat.range_eq, Tree.sizeAll_append, Tree.sizeAll_append,
      Tree.sizeAll_append, Tree.sizeAll]
    simp only [Tree.rangeAt, Range.ofSize]
    omega

theorem start_terminal? {before after : List Tree} {middle : Token.Kind}
    {text : String}
    (hstands : node.Stands offset
      (.node kind (before ++ .token middle text :: after)))
    (hfirst : .token middle ∉ Tree.symbols before)
    (htrivia : middle.isTrivia = false) :
    (node.terminal? middle).map (fun terminal => terminal.range.start) =
      some (offset + Tree.sizeAll before) := by
  have hfound :
      (Slot.terminalsOf (offset + Tree.sizeAll before)
        (.token middle text :: after)).find?
      (fun terminal => terminal.kind = middle) =
        some ⟨middle, text,
          .ofSize (offset + Tree.sizeAll before) text.utf8ByteSize⟩ := by
    simp [Slot.terminalsOf, Tree.place, htrivia]
  rw [terminal?, hstands.terminals_eq, Slot.terminalsOf_append,
    List.find?_append, Slot.find?_terminalsOf offset hfirst, Option.none_or,
    hfound]
  rfl

/-- Around the first token of a kind lie the children whose symbols come before
it and after it. -/
theorem around_terminal (hstands : node.Stands offset (.node kind trees))
    {left right : List Symbol} {middle : Token.Kind}
    (hsymbols : Tree.symbols trees = left ++ .token middle :: right)
    (hfirst : .token middle ∉ left) : ∃ place,
      (node.terminal? middle).map (fun terminal => terminal.range.start) =
        some place ∧
      (∀ under, .node under ∈ left → under ≠ .error →
        ∃ child ∈ node.children,
          child.kind = under ∧ child.range.stop ≤ place) ∧
      ∀ under, .node under ∈ right → under ≠ .error →
        ∃ child ∈ node.children,
          child.kind = under ∧ place ≤ child.range.start := by
  obtain ⟨before, tree, after, htrees, hsymbol, htrivia, rfl, rfl⟩ :=
    Tree.split_symbols_at hsymbols
  obtain ⟨text, rfl⟩ : ∃ text, tree = .token middle text := by
    cases tree with
    | token kind text =>
        cases hsymbol
        exact ⟨text, rfl⟩
    | node kind children => cases hsymbol
  refine ⟨offset + Tree.sizeAll before, ?_, fun under hunder herror => ?_,
    fun under hunder herror => ?_⟩
  · subst htrees
    exact hstands.start_terminal? hfirst htrivia
  · have hsplit : trees = [] ++ before ++ .token middle text :: after := htrees
    obtain ⟨child, hchild, hkind, -, hstop⟩ :=
      hstands.exists_child hsplit hunder herror
    exact ⟨child, hchild, hkind, hstop⟩
  · have hsplit : trees = (before ++ [.token middle text]) ++ after ++ [] := by
      simp [htrees]
    obtain ⟨child, hchild, hkind, hstart, -⟩ :=
      hstands.exists_child hsplit hunder herror
    rw [Tree.sizeAll_append, ← Nat.add_assoc] at hstart
    exact ⟨child, hchild, hkind, Nat.le_trans (Nat.le_add_right _ _) hstart⟩

theorem least_le_length (hstands : node.Stands offset (.node kind trees))
    (hconforms : (Tree.node kind trees).Conforms) (isKind : Kind → Bool)
    (herror : isKind .error = false) :
    kind.shape.least (Symbol.isNode isKind) ≤
      (node.childrenWhere isKind).length := by
  rw [hstands.length_childrenWhere herror]
  exact Shape.least_le_countP _ (Tree.conforms_node.mp hconforms).1

end Stands

theorem missing_require (node : Node) (slot : String) {found? : Option Node}
    (hfound : found?.isSome = true) :
    (node.require slot found?).missing = [] := by
  cases found? with
  | none => cases hfound
  | some found => rfl

theorem symbols_letExpr {word : List Symbol}
    (hword : word ∈ (Kind.shape .letExpr).words) :
    ∃ value, Kind.isExpr value = true ∧ ∃ body, Kind.isExpr body = true ∧
      ∃ close, (close = [.token .rightParen] ∨ close = []) ∧
        word =
          [.token .letKw, .token .leftParen, .node .parameter, .token .equal,
            .node value] ++
          (close ++ [.node body]) := by
  obtain ⟨_, hlet, _,
    ⟨_, hparen, _,
      ⟨_, hparameter, _, ⟨_, hequal, _, ⟨_, hvalue, _, ⟨close, hclose,
    _, hbody, rfl⟩, rfl⟩, rfl⟩, rfl⟩, rfl⟩, rfl⟩ := hword
  obtain ⟨value, -, hvalueKind, rfl⟩ := Shape.mem_nodes.mp hvalue
  obtain ⟨body, -, hbodyKind, rfl⟩ := Shape.mem_nodes.mp hbody
  obtain rfl := Shape.mem_token.mp hlet
  obtain rfl := Shape.mem_token.mp hparen
  obtain rfl := Shape.mem_node.mp hparameter
  obtain rfl := Shape.mem_token.mp hequal
  have hclose' := (Shape.mem_optional.mp hclose).imp_left Shape.mem_token.mp
  exact ⟨value, hvalueKind, body, hbodyKind, close, hclose', rfl⟩

section

variable {node : Node} {offset : Nat} {kind : Kind} {trees : List Tree}
  (hstands : node.Stands offset (.node kind trees))
  (hconforms : (Tree.node kind trees).Conforms)

include hstands hconforms

theorem missing_nth {isKind : Kind → Bool} {index : Nat} (slot : String)
    (hleast : isKind .error = false ∧
      index < kind.shape.least (Symbol.isNode isKind)) :
    (node.require slot (node.childrenWhere isKind)[index]?).missing = [] := by
  have hlength := hstands.least_le_length hconforms isKind hleast.1
  refine missing_require node slot ?_
  rw [List.getElem?_eq_getElem (Nat.lt_of_lt_of_le hleast.2 hlength),
    Option.isSome_some]

theorem missing_required {isKind : Kind → Bool} (slot : String)
    (hleast : isKind .error = false ∧
      0 < kind.shape.least (Symbol.isNode isKind)) :
    (node.required isKind slot).missing = [] := by
  have hfirst := missing_nth hstands hconforms slot hleast
  rw [childrenWhere, ← List.head?_eq_getElem?, List.head?_filter] at hfirst
  exact hfirst

theorem exists_terminal {isKind : Token.Kind → Bool}
    (hleast : 0 < kind.shape.least (Symbol.isToken isKind)) :
    ∃ terminal ∈ node.terminals, isKind terminal.kind = true := by
  have hcount := Shape.least_le_countP (Symbol.isToken isKind)
    (Tree.conforms_node.mp hconforms).1
  rw [← hstands.countP_terminals isKind] at hcount
  exact List.countP_pos_iff.mp (Nat.lt_of_lt_of_le hleast hcount)

theorem missing_identifier
    (hleast : 0 < kind.shape.least (Symbol.isToken (· = .identifier))) :
    node.identifier.missing = [] := by
  obtain ⟨terminal, hterminal, hkind⟩ :=
    exists_terminal hstands hconforms hleast
  rw [identifier, terminal?]
  cases hfound : node.terminals.find? fun terminal => terminal.kind =
    .identifier with
  | none => exact absurd hkind (List.find?_eq_none.mp hfound terminal hterminal)
  | some found => rfl

theorem missing_name
    (hleast : 0 < kind.shape.least (Symbol.isToken (· = .identifier))) :
    node.name.missing = [] := by
  have hidentifier := missing_identifier hstands hconforms hleast
  rw [name]
  cases hfound : node.identifier with
  | error reason =>
      rw [hfound] at hidentifier
      cases hidentifier
  | ok terminal => rfl

theorem missing_operator
    (hleast : 0 < kind.shape.least (Symbol.isToken fun _ => true)) :
    node.operator.missing = [] := by
  obtain ⟨terminal, hterminal, -⟩ := exists_terminal hstands hconforms hleast
  rw [operator]
  cases hterminals : node.terminals with
  | nil =>
      rw [hterminals] at hterminal
      cases hterminal
  | cons first rest => rfl

theorem missing_letParts (hkind : kind = .letExpr) :
    node.letValue.missing = [] ∧ node.letBody.missing = [] := by
  subst hkind
  obtain ⟨value, hvalue, body, hbody, close, hclose, hsymbols⟩ :=
    symbols_letExpr (Tree.conforms_node.mp hconforms).1
  rw [letValue, letBody]
  rcases hclose with rfl | rfl
  case inl =>
      obtain ⟨place, hplace, hbefore, hafter⟩ :=
        hstands.around_terminal hsymbols (by simp)
      have hclose : node.letClose? = some place := hplace
      obtain ⟨bound, hbound, rfl, hstop⟩ :=
        hbefore value (by simp) (by rintro rfl; cases hvalue)
      obtain ⟨inner, hinner, rfl, hstart⟩ :=
        hafter body (by simp) (by rintro rfl; cases hbody)
      rw [hclose]
      refine ⟨missing_require node _
        (List.find?_isSome.mpr ⟨bound, ?_, by simpa using hstop⟩),
        missing_require node _
          (List.find?_isSome.mpr ⟨inner, ?_, by simpa using hstart⟩)⟩
      · exact List.mem_filter.mpr ⟨hbound, hvalue⟩
      · exact List.mem_filter.mpr ⟨hinner, hbody⟩
  case inr =>
      have hclose : node.letClose? = none := by
        rw [letClose?, terminal?, hstands.terminals_eq,
          Slot.find?_terminalsOf offset (by simp [hsymbols]), Option.map_none]
      rw [hclose]
      dsimp only
      rw [List.head?_eq_getElem?]
      exact ⟨missing_nth hstands hconforms _ (by decide),
        missing_nth hstands hconforms _ (by decide)⟩

theorem missing_resultType (hkind : kind = .functionType) :
    node.resultType.missing = [] := by
  subst hkind
  obtain ⟨front, hfront, _, ⟨_, harrow, _, hresult, rfl⟩, hsymbols⟩ :=
    (Tree.conforms_node.mp hconforms).1
  obtain rfl := Shape.mem_token.mp harrow
  obtain ⟨result, -, hresultKind, rfl⟩ := Shape.mem_nodes.mp hresult
  have hfirst : .token .arrow ∉ front := fun hmem =>
    absurd (Shape.may_of_mem (· = .token .arrow) hfront hmem (by decide))
      (by decide)
  obtain ⟨place, hplace, -, hafter⟩ :=
    hstands.around_terminal hsymbols.symm hfirst
  obtain ⟨found, hfound, rfl, hstart⟩ :=
    hafter result (by simp) (by rintro rfl; cases hresultKind)
  have harrow : node.arrowOffset? = some place := hplace
  rw [resultType, harrow]
  refine missing_require node _
    (List.find?_isSome.mpr ⟨found, ?_, by simpa using hstart⟩)
  exact List.mem_filter.mpr ⟨hfound, hresultKind⟩

/-- Every construct but the parentheses around a type has all its required
parts. -/
theorem gapsAs_eq_nil (hkind : kind ≠ .parenthesizedType) :
    node.gapsAs kind = [] := by
  have hrequired {isKind : Kind → Bool} (slot : String)
      (hleast : isKind .error = false ∧
        0 < kind.shape.least (Symbol.isNode isKind)) :
      (node.required isKind slot).missing = [] :=
        missing_required hstands hconforms slot hleast
  have hname := missing_name hstands hconforms
  cases kind
  case extendsAmendsClause | importClause => exact hrequired _ (by decide)
  case classDecl | classProperty | objectProperty | typeParameter |
      typedIdentifier =>
      exact hname (by decide)
  case classMethod | objectMethod | typeAlias =>
      exact List.append_eq_nil_iff.mpr ⟨hname (by decide),
        hrequired _ (by decide)⟩
  case classHeaderExtends | typeClause | nullableType | objectEntry |
      objectElement | objectSpread | whenGenerator | stringLiteralType |
      declaredType | subscriptExpr | nonNullExpr | unaryMinusExpr |
      logicalNotExpr | newExpr | functionLiteral =>
      exact hrequired _ (by decide)
  case parenthesizedType => exact absurd rfl hkind
  case unionType =>
      exact List.append_eq_nil_iff.mpr
        ⟨hrequired _ (by decide), missing_nth hstands hconforms _ (by decide)⟩
  case functionType => exact missing_resultType hstands hconforms rfl
  case unqualifiedAccessExpr | superAccessExpr =>
      exact missing_identifier hstands hconforms (by decide)
  case qualifiedAccessExpr =>
      exact List.append_eq_nil_iff.mpr
        ⟨hrequired _ (by decide),
          missing_identifier hstands hconforms (by decide)⟩
  case typeTestExpr | amendExpr =>
      exact List.append_eq_nil_iff.mpr ⟨hrequired _ (by decide),
        hrequired _ (by decide)⟩
  case forGenerator =>
      have hparameter :=
        hstands.least_le_length hconforms (· = .parameter) (by decide)
      have hpos : 0 < node.directParameters.length :=
        Nat.lt_of_lt_of_le (by decide : 0 < _) hparameter
      have hlast : node.directParameters.getLast?.isSome = true := by
        simpa [List.length_pos_iff] using hpos
      exact List.append_eq_nil_iff.mpr ⟨missing_require node _ hlast,
        hrequired _ (by decide)⟩
  case ifExpr =>
      refine List.append_eq_nil_iff.mpr
        ⟨List.append_eq_nil_iff.mpr ⟨hrequired _ (by decide), ?_⟩, ?_⟩
      · exact missing_nth hstands hconforms _ (by decide)
      · exact missing_nth hstands hconforms _ (by decide)
  case letExpr =>
      obtain ⟨hvalue, hbody⟩ := missing_letParts hstands hconforms rfl
      exact List.append_eq_nil_iff.mpr
        ⟨List.append_eq_nil_iff.mpr ⟨hrequired _ (by decide), hvalue⟩, hbody⟩
  case additiveExpr | multiplicativeExpr | comparisonExpr | equalityExpr |
      exponentiationExpr | logicalAndExpr | logicalOrExpr | nullCoalesceExpr |
      pipeExpr =>
      refine List.append_eq_nil_iff.mpr
        ⟨List.append_eq_nil_iff.mpr ⟨hrequired _ (by decide), ?_⟩, ?_⟩
      · exact missing_operator hstands hconforms (by decide)
      · exact missing_nth hstands hconforms _ (by decide)
  all_goals rfl

end

theorem missing_innerType (node : Node) :
    node.innerType.missing = [] ↔ node.types ≠ [] := by
  rw [innerType, required, child?, types, childrenWhere, ← List.head?_filter]
  cases node.children.filter fun child => child.kind.isType with
  | nil => simp [require, Required.missing]
  | cons first rest => simp [require, Required.missing]

/-- In a document without errors a node has all the parts that its construct
must have. Only parentheses around no type are taken for a type, and lack it. -/
theorem gaps_ne_nil_iff (node : Node) (herrors : node.document.errors = []) :
    node.gaps ≠ [] ↔ node.kind = .parenthesizedType ∧ node.types = [] := by
  by_cases hkind : node.kind = .parenthesizedType
  case pos =>
      rw [gaps, hkind, gapsAs, Ne, missing_innerType, not_not,
        and_iff_right rfl]
  case neg =>
      have hgaps : node.gaps = [] := by
        by_cases herror : node.kind = .error
        case pos =>
            rw [gaps, herror]
            rfl
        case neg =>
            obtain ⟨offset, trees, hstands, hconforms⟩ :=
              stands_of_errors herrors herror
            exact gapsAs_eq_nil hstands hconforms hkind
      exact iff_of_false (not_not.mpr hgaps) fun hboth => hkind hboth.1

/-- A property whose type is a pair of empty parentheses. -/
theorem gaps_empty_parentheses : ∃ node : Node, node.document.text = "x: ()" ∧
    node.document.errors = [] ∧ node.gaps ≠ [] := by
  let uri := "file:///empty.pkl"
  let text := "x: ()"
  let tokens : List Token :=
    [⟨.identifier, "x", 0⟩, ⟨.colon, ":", 1⟩, ⟨.whitespace, " ", 2⟩,
     ⟨.leftParen, "(", 3⟩, ⟨.rightParen, ")", 4⟩]
  have htokens : Token.tokenize text = .ok tokens :=
    Token.ok_of_toOption (by decide +kernel)
  have herrors : (Document.ofTokens uri text tokens htokens).errors = [] := by
    rw [Document.errors_ofTokens]
    decide +kernel
  have hgaps := gaps_ne_nil_iff ⟨.ofTokens uri text tokens htokens, 3⟩ herrors
  refine ⟨⟨.ofTokens uri text tokens htokens, 3⟩, rfl, herrors,
    hgaps.mpr ⟨?_, ?_⟩⟩
  · rw [kind, slot, Document.arena_ofTokens]
    dsimp only
    decide +kernel
  · have hnone :
        (Arena.ofTree
          (Grammar.parseTokens tokens text.utf8ByteSize).tree).childIds 3 =
            [] := by
      decide +kernel
    rw [types, childrenWhere, children, Document.arena_ofTokens, hnone]
    rfl

end Node

end PklAnalysis

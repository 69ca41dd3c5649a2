import Mathlib
import PklAnalysis.Grammar.Expression
import PklAnalysis.Node.Literal
import PklAnalysis.Proofs.Grammar.Trivia

/-!
The grammar as it shows in trees: which tokens and nodes stand under a node of
each kind, as a regular expression. Trees of texts without errors conform to it.
-/

namespace PklAnalysis

inductive Symbol
  | token (kind : Token.Kind)
  | node (kind : Node.Kind)
deriving DecidableEq

namespace Symbol

def token? : Symbol → Option Token.Kind
  | token kind => some kind
  | node _ => none

def node? : Symbol → Option Node.Kind
  | token _ => none
  | node kind => some kind

def isToken (isKind : Token.Kind → Bool) (symbol : Symbol) : Bool :=
  symbol.token?.any isKind

def isNode (isKind : Node.Kind → Bool) (symbol : Symbol) : Bool :=
  symbol.node?.any isKind

theorem mem_filterMap_token? {kind : Token.Kind} {word : List Symbol} :
    kind ∈ word.filterMap token? ↔ token kind ∈ word := by
  rw [List.mem_filterMap]
  constructor
  · rintro ⟨symbol, hsymbol, htoken⟩
    cases symbol with
    | token kind => exact Option.some.inj htoken ▸ hsymbol
    | node kind => cases htoken
  · exact fun hsymbol => ⟨_, hsymbol, rfl⟩

theorem countP_token? (isKind : Token.Kind → Bool) (word : List Symbol) :
    (word.filterMap token?).countP isKind = word.countP (isToken isKind) := by
  rw [List.countP_filterMap]
  exact List.countP_congr fun symbol _ => by cases symbol <;> exact Iff.rfl

theorem countP_node? (isKind : Node.Kind → Bool) (word : List Symbol) :
    (word.filterMap node?).countP isKind = word.countP (isNode isKind) := by
  rw [List.countP_filterMap]
  exact List.countP_congr fun symbol _ => by cases symbol <;> exact Iff.rfl

end Symbol

def Tree.symbol : Tree → Symbol
  | .token kind _ => .token kind
  | .node kind _ => .node kind

/-- Trees side by side without the trivia among them, as symbols. -/
def Tree.symbols (trees : List Tree) : List Symbol :=
  (trees.filter fun tree => !tree.isTrivia).map symbol

inductive Shape
  | empty
  | one (symbols : List Symbol)
  | seq (first rest : Shape)
  | either (left right : Shape)
  | many (shape : Shape)

namespace Shape

open scoped Computability

def words : Shape → Language Symbol
  | empty => 1
  | one symbols => {word | ∃ symbol ∈ symbols, word = [symbol]}
  | seq first rest => first.words * rest.words
  | either left right => left.words + right.words
  | many shape => shape.words∗

theorem mem_empty {word : List Symbol} : word ∈ empty.words ↔ word = [] :=
  Iff.rfl

theorem mem_one {word : List Symbol} {symbols : List Symbol} :
    word ∈ (one symbols).words ↔ ∃ symbol ∈ symbols, word = [symbol] :=
  Iff.rfl

theorem mem_seq {word : List Symbol} {first rest : Shape} :
    word ∈ (seq first rest).words ↔
      ∃ left ∈ first.words, ∃ right ∈ rest.words, left ++ right = word :=
  Language.mem_mul

theorem mem_either {word : List Symbol} {left right : Shape} :
    word ∈ (either left right).words ↔ word ∈ left.words ∨ word ∈ right.words :=
  Iff.rfl

theorem empty_seq (shape : Shape) : (seq empty shape).words = shape.words :=
  one_mul shape.words

theorem seq_empty (shape : Shape) : (seq shape empty).words = shape.words :=
  mul_one shape.words

theorem seq_assoc (first second rest : Shape) :
    (seq (seq first second) rest).words = (seq first (seq second rest)).words :=
  mul_assoc first.words second.words rest.words

theorem seq_mono {first first' rest rest' : Shape}
    (hfirst : first.words ≤ first'.words) (hrest : rest.words ≤ rest'.words) :
    (seq first rest).words ≤ (seq first' rest').words :=
  mul_le_mul' hfirst hrest

theorem left_le_either {left right : Shape} :
    left.words ≤ (either left right).words :=
  fun _ => .inl

theorem right_le_either {left right : Shape} :
    right.words ≤ (either left right).words :=
  fun _ => .inr

theorem either_le {left right shape : Shape} (hleft : left.words ≤ shape.words)
    (hright : right.words ≤ shape.words) :
    (either left right).words ≤ shape.words :=
  fun _ hword => hword.elim (hleft ·) (hright ·)

theorem empty_le_many (shape : Shape) : empty.words ≤ (many shape).words :=
  one_le_kstar

/-- At least so many symbols of every word pass the test. -/
def least (test : Symbol → Bool) : Shape → Nat
  | empty => 0
  | one symbols => if symbols.all test then 1 else 0
  | seq first rest => first.least test + rest.least test
  | either left right => min (left.least test) (right.least test)
  | many _ => 0

def may (test : Symbol → Bool) : Shape → Bool
  | empty => false
  | one symbols => symbols.any test
  | seq first rest => first.may test || rest.may test
  | either left right => left.may test || right.may test
  | many shape => shape.may test

variable (test : Symbol → Bool)

theorem least_le_countP {shape : Shape} {word : List Symbol}
    (hword : word ∈ shape.words) :
    shape.least test ≤ word.countP test := by
  induction shape generalizing word with
  | empty => exact Nat.zero_le _
  | one symbols =>
      obtain ⟨symbol, hsymbol, rfl⟩ := hword
      rw [least, List.countP_singleton]
      split
      case isTrue hall => rw [if_pos (List.all_eq_true.mp hall symbol hsymbol)]
      case isFalse => exact Nat.zero_le _
  | seq first rest ihFirst ihRest =>
      obtain ⟨left, hleft, right, hright, rfl⟩ := mem_seq.mp hword
      rw [least, List.countP_append]
      exact Nat.add_le_add (ihFirst hleft) (ihRest hright)
  | either left right ihLeft ihRight =>
      rcases mem_either.mp hword with hleft | hright
      · exact Nat.le_trans (Nat.min_le_left _ _) (ihLeft hleft)
      · exact Nat.le_trans (Nat.min_le_right _ _) (ihRight hright)
  | many _ _ => exact Nat.zero_le _

theorem may_of_mem {shape : Shape} {word : List Symbol}
    (hword : word ∈ shape.words) {symbol : Symbol} (hsymbol : symbol ∈ word)
    (htest : test symbol = true) :
    shape.may test = true := by
  induction shape generalizing word with
  | empty =>
      rw [mem_empty.mp hword] at hsymbol
      cases hsymbol
  | one symbols =>
      obtain ⟨only, honly, rfl⟩ := hword
      rw [List.mem_singleton.mp hsymbol] at htest
      exact List.any_eq_true.mpr ⟨only, honly, htest⟩
  | seq first rest ihFirst ihRest =>
      obtain ⟨left, hleft, right, hright, rfl⟩ := mem_seq.mp hword
      rw [may, Bool.or_eq_true]
      exact (List.mem_append.mp hsymbol).imp (ihFirst hleft) (ihRest hright)
  | either left right ihLeft ihRight =>
      rw [may, Bool.or_eq_true]
      exact (mem_either.mp hword).imp (ihLeft · hsymbol) (ihRight · hsymbol)
  | many shape ih =>
      obtain ⟨words, rfl, hwords⟩ := Language.mem_kstar.mp hword
      obtain ⟨part, hpart, hsymbol⟩ := List.mem_flatten.mp hsymbol
      exact ih (hwords part hpart) hsymbol

def nothing : Shape :=
  one []

def token (kind : Token.Kind) : Shape :=
  one [.token kind]

def tokens (kinds : List Token.Kind) : Shape :=
  one (kinds.map .token)

def node (kind : Node.Kind) : Shape :=
  one [.node kind]

def nodes (isKind : Node.Kind → Bool) : Shape :=
  one ((Node.Kind.all.filter isKind).map .node)

def optional (shape : Shape) : Shape :=
  either shape empty

theorem mem_token {word : List Symbol} {kind : Token.Kind} :
    word ∈ (token kind).words ↔ word = [.token kind] := by
  rw [token, mem_one]
  simp

theorem mem_node {word : List Symbol} {kind : Node.Kind} :
    word ∈ (node kind).words ↔ word = [.node kind] := by
  rw [node, mem_one]
  simp

theorem mem_nodes {word : List Symbol} {isKind : Node.Kind → Bool} :
    word ∈ (nodes isKind).words ↔
      ∃ kind ∈ Node.Kind.all, isKind kind = true ∧ word = [.node kind] := by
  rw [nodes, mem_one]
  simp [and_assoc]

theorem mem_optional {word : List Symbol} {shape : Shape} :
    word ∈ (optional shape).words ↔ word ∈ shape.words ∨ word = [] :=
  mem_either

theorem nothing_le {shape : Shape} : nothing.words ≤ shape.words := by
  rintro word ⟨symbol, hsymbol, -⟩
  cases hsymbol

theorem le_optional {shape : Shape} : shape.words ≤ (optional shape).words :=
  left_le_either

theorem empty_le_optional {shape : Shape} :
    empty.words ≤ (optional shape).words :=
  right_le_either

theorem many_seq_optional_le (shape : Shape) :
    (seq (many shape) (optional shape)).words ≤ (many shape).words :=
  calc
    (seq (many shape) (optional shape)).words
    _ ≤ (many shape).words * (many shape).words :=
        mul_le_mul_right (either_le le_kstar (empty_le_many shape)) _
    _ = (many shape).words := kstar_mul_kstar shape.words

theorem token_le {kind : Token.Kind} {kinds : List Token.Kind}
    (hkind : kind ∈ kinds) :
    (token kind).words ≤ (tokens kinds).words := by
  rintro word ⟨symbol, hsymbol, rfl⟩
  rw [List.mem_singleton.mp hsymbol]
  exact ⟨_, List.mem_map_of_mem hkind, rfl⟩

theorem node_le {isKind : Node.Kind → Bool} {kind : Node.Kind}
    (hall : kind ∈ Node.Kind.all) (hkind : isKind kind = true) :
    (node kind).words ≤ (nodes isKind).words := by
  rintro word ⟨symbol, hsymbol, rfl⟩
  rw [List.mem_singleton.mp hsymbol]
  exact ⟨_, List.mem_map_of_mem (List.mem_filter.mpr ⟨hall, hkind⟩), rfl⟩

theorem nodes_mono {isKind isKind' : Node.Kind → Bool}
    (himp : ∀ kind, isKind kind = true → isKind' kind = true) :
    (nodes isKind).words ≤ (nodes isKind').words := by
  rintro word ⟨symbol, hsymbol, rfl⟩
  obtain ⟨kind, hkind, rfl⟩ := List.mem_map.mp hsymbol
  obtain ⟨hall, hkind⟩ := List.mem_filter.mp hkind
  exact node_le hall (himp kind hkind) ⟨_, List.mem_singleton_self _, rfl⟩

theorem le_optional_seq {shape rest : Shape} :
    rest.words ≤ (seq (optional shape) rest).words :=
  Eq.trans_le (empty_seq rest).symm (seq_mono right_le_either le_rfl)

def expr : Shape :=
  nodes Node.Kind.isExpr

def type : Shape :=
  nodes Node.Kind.isType

def literal : Shape :=
  nodes Node.Kind.isStringLiteral

def decoration : Shape :=
  seq (many (node .annotationClause)) (optional (node .modifierList))

/-- What a module begins with. The first member comes before the imports if it
has annotations or modifiers. That these do not stand alone is not said here. -/
def beginning : Shape :=
  either decoration
    (either (node .moduleHeader) (nodes Node.Kind.isClassMember))

def objectBodies : Shape :=
  many (node .objectBody)

def arguments : Shape :=
  optional (node .argumentList)

def listed (shape : Shape) : Shape :=
  many (seq shape (optional (token .comma)))

def typeSequence : Shape :=
  seq type (many (seq (token .comma) type))

def parenthesizedTypes : Shape :=
  seq (token .leftParen)
    (seq (optional typeSequence) (optional (token .rightParen)))

def property : Shape :=
  seq (token .identifier) (seq (optional (node .typeClause))
    (either (seq (token .equal) expr) objectBodies))

def method : Shape :=
  seq (token .functionKw)
    (seq (token .identifier) (seq (optional (node .typeParameterList))
    (seq (node .parameterList) (seq (optional (node .typeClause))
      (optional (seq (token .equal) expr))))))

def keywordCall (keywords : List Token.Kind) (argument : Shape) : Shape :=
  seq (tokens keywords)
    (seq (token .leftParen) (seq argument (optional (token .rightParen))))

def modifier : Shape :=
  tokens (Token.Kind.all.filter Token.Kind.isModifier)

def operator : Shape :=
  tokens (Token.Kind.all.filter fun kind =>
    (Grammar.Operator.ofToken? kind).isSome)

end Shape

namespace Node.Kind

open Shape (seq either many empty token tokens node optional expr type literal
  decoration)

/-- What stands under a node of a kind in the tree of a text without errors. -/
def shape : Kind → Shape
  | root =>
      seq Shape.beginning
        (seq (many (node .importClause)) (many (Shape.nodes isClassMember)))
  | moduleHeader =>
      either (seq (node .moduleDecl) (optional (node .extendsAmendsClause)))
        (seq decoration (node .extendsAmendsClause))
  | moduleDecl => seq decoration (seq (token .moduleKw) (node .qualifiedIdent))
  | extendsAmendsClause =>
      seq (tokens [.amendsKw, .extendsKw]) (node .moduleUri)
  | importClause =>
      seq (tokens [.importKw, .importStarKw]) (seq (node .moduleUri)
        (optional (seq (token .asKw) (token .identifier))))
  | moduleUri => literal
  | qualifiedIdent =>
      seq (token .identifier) (many (seq (token .dot) (token .identifier)))
  | classDecl =>
      seq decoration (seq (token .classKw) (seq (token .identifier)
        (seq (optional (node .typeParameterList))
          (seq (optional (node .classHeaderExtends))
          (optional (node .classBody))))))
  | classHeaderExtends => seq (token .extendsKw) type
  | classBody =>
      seq (token .leftBrace)
        (seq (many (Shape.nodes isClassMember)) (token .rightBrace))
  | typeAlias =>
      seq decoration (seq (token .typealiasKw) (seq (token .identifier)
        (seq (optional (node .typeParameterList)) (seq (token .equal) type))))
  | classProperty => seq decoration Shape.property
  | classMethod => seq decoration Shape.method
  | annotationClause =>
      seq (token .atSign) (seq type (optional (node .objectBody)))
  | modifierList => many Shape.modifier
  | typeParameterList =>
      seq (token .less)
        (seq (Shape.listed (node .typeParameter)) (token .greater))
  | typeParameter => seq (optional (tokens [.inKw, .outKw])) (token .identifier)
  | typeArgumentList =>
      seq (token .less) (seq Shape.typeSequence (token .greater))
  | parameterList =>
      seq (token .leftParen)
        (seq (Shape.listed (node .parameter)) (token .rightParen))
  | parameter => either (token .underscore) (node .typedIdentifier)
  | typedIdentifier => seq (token .identifier) (optional (node .typeClause))
  | typeClause => seq (token .colon) type
  | objectBody =>
      seq (token .leftBrace)
        (seq (optional (seq (Shape.listed (node .parameter)) (token .arrow)))
        (seq (many (Shape.nodes isObjectMember)) (token .rightBrace)))
  | objectProperty => seq (optional (node .modifierList)) Shape.property
  | objectMethod => seq (optional (node .modifierList)) Shape.method
  | objectEntry =>
      seq (token .leftBracket) (seq expr (seq (token .rightBracket)
        (either (seq (token .equal) expr) Shape.objectBodies)))
  | objectElement => expr
  | objectSpread => seq (tokens [.spread, .questionSpread]) expr
  | forGenerator =>
      seq (token .forKw) (seq (token .leftParen) (seq (node .parameter)
        (seq (optional (seq (token .comma) (node .parameter)))
          (seq (token .inKw)
          (seq expr (seq (token .rightParen) (node .objectBody)))))))
  | whenGenerator =>
      seq (token .whenKw)
        (seq (token .leftParen) (seq expr (seq (token .rightParen)
        (seq (node .objectBody)
          (optional (seq (token .elseKw) (node .objectBody)))))))
  | unknownType => token .unknownKw
  | nothingType => token .nothingKw
  | moduleType => token .moduleKw
  | stringLiteralType => literal
  | declaredType =>
      seq (node .qualifiedIdent) (optional (node .typeArgumentList))
  | parenthesizedType => Shape.parenthesizedTypes
  | nullableType => seq type (token .question)
  | unionType => seq type (seq (token .pipe) type)
  | functionType => seq Shape.parenthesizedTypes (seq (token .arrow) type)
  | thisExpr => token .thisKw
  | outerExpr => token .outerKw
  | moduleExpr => token .moduleKw
  | nullLiteral => token .nullKw
  | trueLiteral => token .trueKw
  | falseLiteral => token .falseKw
  | intLiteral => token .intNumber
  | floatLiteral => token .floatNumber
  | throwExpr => Shape.keywordCall [.throwKw] expr
  | traceExpr => Shape.keywordCall [.traceKw] expr
  | importExpr => Shape.keywordCall [.importKw, .importStarKw] literal
  | readExpr => Shape.keywordCall [.readKw, .readOrNullKw, .readStarKw] expr
  | unqualifiedAccessExpr => seq (token .identifier) Shape.arguments
  | stringLiteral | mlStringLiteral =>
      seq (token .stringStart)
        (seq (many (either (token .stringChars) (node .stringPart)))
        (token .stringEnd))
  | stringPart =>
      seq (token .interpolationStart) (seq expr (optional (token .rightParen)))
  | newExpr => seq (token .newKw) (seq (optional type) (node .objectBody))
  | amendExpr => seq expr (node .objectBody)
  | superAccessExpr =>
      seq (token .superKw)
        (seq (token .dot) (seq (token .identifier) Shape.arguments))
  | superSubscriptExpr =>
      seq (token .superKw)
        (seq (token .leftBracket) (seq expr (optional (token .rightBracket))))
  | qualifiedAccessExpr =>
      seq expr
        (seq (tokens [.dot, .questionDot])
          (seq (token .identifier) Shape.arguments))
  | subscriptExpr =>
      seq expr
        (seq (token .leftBracket) (seq expr (optional (token .rightBracket))))
  | nonNullExpr => seq expr (token .bangBang)
  | unaryMinusExpr => seq (token .minus) expr
  | logicalNotExpr => seq (token .bang) expr
  | additiveExpr | multiplicativeExpr | comparisonExpr | equalityExpr
  | exponentiationExpr | logicalAndExpr | logicalOrExpr | nullCoalesceExpr
  | pipeExpr =>
      seq expr (seq Shape.operator expr)
  | typeTestExpr => seq expr (seq Shape.operator type)
  | ifExpr =>
      seq (token .ifKw)
        (seq (token .leftParen) (seq expr (seq (optional (token .rightParen))
        (seq expr (seq (token .elseKw) expr)))))
  | letExpr =>
      seq (token .letKw)
        (seq (token .leftParen) (seq (node .parameter) (seq (token .equal)
        (seq expr (seq (optional (token .rightParen)) expr)))))
  | functionLiteral => seq (node .parameterList) (seq (token .arrow) expr)
  | parenthesizedExpr =>
      seq (token .leftParen) (seq expr (optional (token .rightParen)))
  | argumentList =>
      seq (token .leftParen)
        (seq (Shape.listed expr) (optional (token .rightParen)))
  | error => Shape.nothing

end Node.Kind

/-- A property of kinds and children holds of every node in a tree. -/
inductive Tree.Everywhere (holds : Node.Kind → List Tree → Prop) : Tree → Prop
  | token {kind : Token.Kind} {text : String} :
  Everywhere holds (.token kind text)
  | node {kind : Node.Kind} {children : List Tree} (here : holds kind children)
      (below : ∀ child ∈ children, Everywhere holds child) :
        Everywhere holds (.node kind children)

/-- Everywhere in the tree the children of a node have the shape of its kind. -/
abbrev Tree.Conforms : Tree → Prop :=
  Everywhere fun kind children => symbols children ∈ kind.shape.words

namespace Tree

def isType : Tree → Bool
  | .token _ _ => false
  | .node kind _ => kind.isType

theorem isType_eq :
    isType = fun tree => tree.symbol.isNode Node.Kind.isType := by
  funext tree
  cases tree <;> rfl

@[simp] theorem symbols_nil : symbols [] = [] :=
  rfl

@[simp] theorem symbols_append (left right : List Tree) :
    symbols (left ++ right) = symbols left ++ symbols right := by
  rw [symbols, List.filter_append, List.map_append]
  rfl

theorem symbols_of_trivia {trees : List Tree}
    (htrivia : ∀ tree ∈ trees, tree.isTrivia = true) :
    symbols trees = [] := by
  rw [symbols,
    List.filter_eq_nil_iff.mpr fun tree htree => by simp [htrivia tree htree]]
  rfl

theorem symbols_singleton {tree : Tree} (htrivia : tree.isTrivia = false) :
    symbols [tree] = [tree.symbol] := by
  simp [symbols, htrivia]

theorem token_mem_symbols {trees : List Tree} {kind : Token.Kind}
    (htrivia : kind.isTrivia = false) :
    .token kind ∈ symbols trees ↔ ∃ text, token kind text ∈ trees := by
  rw [symbols, List.mem_map]
  constructor
  · rintro ⟨tree, htree, hsymbol⟩
    cases tree with
    | token kind text =>
        cases hsymbol
        exact ⟨text, (List.mem_filter.mp htree).1⟩
    | node kind children => cases hsymbol
  · rintro ⟨text, htext⟩
    exact ⟨token kind text,
      List.mem_filter.mpr ⟨htext, by simp [isTrivia, htrivia]⟩, rfl⟩

theorem split_symbols {trees : List Tree} {left right : List Symbol}
    (hsymbols : symbols trees = left ++ right) :
    ∃ before after, trees = before ++ after ∧
        symbols before = left ∧ symbols after = right := by
  obtain ⟨front, back, hfilter, hfront, hback⟩ :=
    List.map_eq_append_iff.mp hsymbols
  obtain ⟨before, after, htrees, hbefore, hafter⟩ :=
    List.filter_eq_append_iff.mp hfilter
  refine ⟨before, after, htrees, ?_, ?_⟩
  · rw [symbols, hbefore, hfront]
  · rw [symbols, hafter, hback]

theorem split_symbols_at {trees : List Tree} {left right : List Symbol}
    {symbol : Symbol} (hsymbols : symbols trees = left ++ symbol :: right) :
    ∃ before tree after,
        trees = before ++ tree :: after ∧ tree.symbol = symbol ∧
          tree.isTrivia = false ∧
          symbols before = left ∧ symbols after = right := by
  obtain ⟨before, rest, rfl, hbefore, hrest⟩ := split_symbols hsymbols
  obtain ⟨tree, back, hfilter, hsymbol, hback⟩ := List.map_eq_cons_iff.mp hrest
  obtain ⟨trivia, after, rfl, htrivia, htree, hafter⟩ :=
    List.filter_eq_cons_iff.mp hfilter
  refine ⟨before ++ trivia, tree, after, ?_,
    hsymbol, by simpa using htree, ?_, ?_⟩
  · rw [List.append_assoc]
  · have hnone : symbols trivia = [] :=
      symbols_of_trivia fun tree hmem => by simpa using htrivia tree hmem
    rw [symbols_append, hnone, List.append_nil, hbefore]
  · rw [symbols, hafter, hback]

theorem symbols_bareAll (trees : List Tree) :
    symbols (bareAll trees) = symbols trees := by
  induction trees with
  | nil => rfl
  | cons tree rest ih =>
      rw [bareAll, ← List.singleton_append (l := rest), symbols_append]
      cases htrivia : tree.isTrivia with
      | true =>
          rw [if_pos rfl, ih,
            symbols_of_trivia (List.forall_mem_singleton.mpr htrivia)]
          rfl
      | false =>
          have hbare : tree.bare.isTrivia = false ∧
              tree.bare.symbol = tree.symbol := by
            cases tree with
            | token kind text => exact ⟨htrivia, rfl⟩
            | node kind children => exact ⟨rfl, rfl⟩
          rw [if_neg Bool.false_ne_true,
            ← List.singleton_append (l := bareAll rest), symbols_append, ih,
            symbols_singleton htrivia, symbols_singleton hbare.1, hbare.2]

theorem everywhere_node {holds : Node.Kind → List Tree → Prop}
    {kind : Node.Kind} {children : List Tree} :
    (node kind children).Everywhere holds ↔
        holds kind children ∧ ∀ child ∈ children, child.Everywhere holds :=
  ⟨fun hnode => by cases hnode with | node here below => exact ⟨here, below⟩,
    fun hnode => .node hnode.1 hnode.2⟩

theorem conforms_node {kind : Node.Kind} {children : List Tree} :
    (node kind children).Conforms ↔
      symbols children ∈ kind.shape.words ∧ ∀ child ∈ children,
        child.Conforms :=
  everywhere_node

theorem Conforms.kind_ne_error {kind : Node.Kind} {trees : List Tree}
    (hconforms : (node kind trees).Conforms) : kind ≠ .error := by
  rintro rfl
  obtain ⟨symbol, hsymbol, -⟩ := (conforms_node.mp hconforms).1
  cases hsymbol

mutual
theorem conforms_bare : (tree : Tree) → (tree.bare.Conforms ↔ tree.Conforms)
  | .token _ _ => Iff.rfl
  | .node kind children => by
      rw [bare, conforms_node, conforms_node, symbols_bareAll,
        conforms_bareAll children]

theorem conforms_bareAll : (trees : List Tree) →
    ((∀ tree ∈ bareAll trees, tree.Conforms) ↔ ∀ tree ∈ trees, tree.Conforms)
  | [] => Iff.rfl
  | tree :: rest => by
      rw [bareAll, List.forall_mem_cons, ← conforms_bareAll rest]
      cases htrivia : tree.isTrivia with
      | true =>
          have htoken : tree.Conforms := by
            cases tree with
            | token => exact .token
            | node => cases htrivia
          rw [if_pos rfl, and_iff_right htoken]
      | false =>
          rw [if_neg Bool.false_ne_true, List.forall_mem_cons,
            conforms_bare tree]
end

end Tree

end PklAnalysis

import PklAnalysis.Grammar.Expression
import PklAnalysis.Proofs.Grammar.Trivia

/-!
Expressions of identifiers, literals and operators, the trees that they stand
for, and where they need parentheses so that they can be read back.
-/

namespace PklAnalysis.Grammar

namespace Operator

def all : List Operator :=
  [⟨.nullCoalesceExpr, 3, 2⟩, ⟨.pipeExpr, 4, 5⟩, ⟨.logicalOrExpr, 6, 7⟩,
   ⟨.logicalAndExpr, 8, 9⟩, ⟨.equalityExpr, 10, 11⟩, ⟨.typeTestExpr, 12, 13⟩,
   ⟨.comparisonExpr, 14, 15⟩, ⟨.additiveExpr, 16, 17⟩,
   ⟨.multiplicativeExpr, 18, 19⟩, ⟨.exponentiationExpr, 21, 20⟩]

theorem mem_all {kind : Token.Kind} {operator : Operator}
    (hread : ofToken? kind = some operator) :
    operator ∈ all := by
  cases kind <;>
    simp only [ofToken?, Option.some.injEq, reduceCtorEq] at hread <;>
      subst hread <;>
    decide

def groupsRight (operator : Operator) : Bool :=
  operator.right < operator.left

/-- How tightly the left operand has to bind: tighter than the operator, if that
groups to the right, and else at least as tightly. -/
def leftSlot (operator : Operator) : Nat :=
  if operator.groupsRight then operator.left + 1 else operator.left

def rightSlot (operator : Operator) : Nat :=
  if operator.groupsRight then operator.left else operator.left + 1

theorem left_lt_unaryPower {operator : Operator} (hmem : operator ∈ all) :
    operator.left < unaryPower := by
  revert operator
  decide

theorem left_le_leftSlot (operator : Operator) :
    operator.left ≤ operator.leftSlot := by
  rw [leftSlot]
  split <;> omega

theorem left_le_rightSlot (operator : Operator) :
    operator.left ≤ operator.rightSlot := by
  rw [rightSlot]
  split <;> omega

theorem right_le_rightSlot {operator : Operator} (hmem : operator ∈ all) :
    operator.right ≤ operator.rightSlot := by
  revert operator
  decide

/-- The right operand of an operator ends before every operator whose left
operand may be the whole. -/
theorem left_lt_right {outer inner : Operator} (houter : outer ∈ all)
    (hinner : inner ∈ all) (hslot : outer.leftSlot ≤ inner.left) :
    outer.left < inner.right := by
  have hall : ∀ outer ∈ all, ∀ inner ∈ all, outer.leftSlot ≤ inner.left →
      outer.left < inner.right := by
    decide
  exact hall outer houter inner hinner hslot

end Operator

structure Infix where
  token : Token.Kind
  operator : Operator
  read : Operator.ofToken? token = some operator
  binary : operator.kind.isBinary = true

inductive Literal
  | null | true | false | int | float
deriving DecidableEq, Repr

namespace Literal

def token : Literal → Token.Kind
  | null => .nullKw
  | true => .trueKw
  | false => .falseKw
  | int => .intNumber
  | float => .floatNumber

def kind : Literal → Node.Kind
  | null => .nullLiteral
  | true => .trueLiteral
  | false => .falseLiteral
  | int => .intLiteral
  | float => .floatLiteral

end Literal

inductive Sign
  | minus | bang
deriving DecidableEq, Repr

namespace Sign

def token : Sign → Token.Kind
  | minus => .minus
  | bang => .bang

def kind : Sign → Node.Kind
  | minus => .unaryMinusExpr
  | bang => .logicalNotExpr

end Sign

/-- Expressions of identifiers, literals and operators. Parentheses are part of
the expression. -/
inductive Expression
  | identifier (text : String)
  | literal (literal : Literal) (text : String)
  | string (opening : String) (runs : List String) (closing : String)
  | parenthesized (inner : Expression)
  | signed (sign : Sign) (operand : Expression)
  | binary (operator : Infix) (left right : Expression)
  | member (nullSafe : Bool) (receiver : Expression) (name : String)
  | nonNull (receiver : Expression)
  | subscript (receiver index : Expression)

namespace Expression

def spelled (kind : Token.Kind) : Tree :=
  .token kind (kind.spelling?.getD "")

def dot (nullSafe : Bool) : Token.Kind :=
  if nullSafe then .questionDot else .dot

def kind : Expression → Node.Kind
  | identifier _ => .unqualifiedAccessExpr
  | literal value _ => value.kind
  | string opening _ _ => literalKind opening
  | parenthesized _ => .parenthesizedExpr
  | signed sign _ => sign.kind
  | binary operator _ _ => operator.operator.kind
  | member _ _ _ => .qualifiedAccessExpr
  | nonNull _ => .nonNullExpr
  | subscript _ _ => .subscriptExpr

def tree (expression : Expression) : Tree :=
  .node expression.kind <|
    match expression with
    | identifier text => [.token .identifier text]
    | literal value text => [.token value.token text]
    | string opening runs closing =>
        .token .stringStart opening :: runs.map (.token .stringChars) ++
          [.token .stringEnd closing]
    | parenthesized inner =>
        [spelled .leftParen, inner.tree, spelled .rightParen]
    | signed sign operand => [spelled sign.token, operand.tree]
    | binary operator left right =>
        [left.tree, spelled operator.token, right.tree]
    | member nullSafe receiver name =>
        [receiver.tree, spelled (dot nullSafe), .token .identifier name]
    | nonNull receiver => [receiver.tree, spelled .bangBang]
    | subscript receiver index =>
        [receiver.tree, spelled .leftBracket, index.tree, spelled .rightBracket]

/-- How tightly an expression binds. Members, `!!` and subscripts bind tighter
than signs, and these tighter than any operator between two operands. -/
def power : Expression → Nat
  | binary operator _ _ => operator.operator.left
  | signed _ _ => unaryPower
  | _ => unaryPower + 1

/-- Parentheses stand at least wherever an operand binds looser than its place
requires. A member, `!!` or a subscript can be taken of what binds at least as
tightly as `receiver`. -/
def Grouped (receiver : Nat) : Expression → Prop
  | identifier _ | literal _ _ | string _ _ _ => True
  | parenthesized inner => inner.Grouped receiver
  | signed _ operand => unaryPower ≤ operand.power ∧ operand.Grouped receiver
  | binary operator left right =>
      operator.operator.leftSlot ≤ left.power ∧
        operator.operator.rightSlot ≤ right.power ∧
        left.Grouped receiver ∧ right.Grouped receiver
  | member _ operand _ => receiver ≤ operand.power ∧ operand.Grouped receiver
  | nonNull operand => receiver ≤ operand.power ∧ operand.Grouped receiver
  | subscript operand index =>
      receiver ≤ operand.power ∧ operand.Grouped receiver ∧
        index.Grouped receiver

/-- Tokens that carry on the expression before them, however tightly it has to
bind. -/
def suffixes : List Token.Kind :=
  [.dot, .questionDot, .leftBracket, .bangBang, .leftBrace]

/-- An expression that binds at least as tightly as `power` is not carried on by
the next token. -/
structure Ends (power : Nat) (next : Option Token.Kind) : Prop where
  not_suffix : ∀ kind, next = some kind → kind ∉ suffixes
  left_lt : ∀ kind operator,
    next = some kind → Operator.ofToken? kind = some operator →
    operator.left < power

def Closed (next : Option Token.Kind) : Expression → Prop
  | identifier _ | member _ _ _ => next ≠ some .leftParen
  | signed _ operand => Ends unaryPower next ∧ operand.Closed next
  | binary operator _ right =>
      Ends operator.operator.right next ∧ right.Closed next
  | _ => True

/-- An expression ends before an operator of which it may be the left operand,
and before a token that is neither an operator nor a suffix. -/
theorem closed_of_leftSlot {next : Option Token.Kind} {receiver : Nat}
    {expression : Expression} (hgrouped : expression.Grouped receiver)
    (hsuffix : ∀ kind, next = some kind → kind ∉ suffixes)
    (hparen : next ≠ some .leftParen)
    (hslot : ∀ kind operator,
      next = some kind → Operator.ofToken? kind = some operator →
        operator.leftSlot ≤ expression.power) :
    expression.Closed next := by
  induction expression with
  | identifier _ => exact hparen
  | member _ _ _ _ => exact hparen
  | literal _ _ => trivial
  | string _ _ _ => trivial
  | parenthesized _ _ => trivial
  | nonNull _ _ => trivial
  | subscript _ _ _ _ => trivial
  | signed sign operand ih =>
      obtain ⟨hoperand, hgrouped⟩ := hgrouped
      refine ⟨⟨hsuffix, fun kind operator hnext hread => ?_⟩,
        ih hgrouped fun kind operator hnext hread => ?_⟩
      · exact Operator.left_lt_unaryPower (Operator.mem_all hread)
      · exact Nat.le_trans (hslot kind operator hnext hread) hoperand
  | binary inner left right _ ih =>
      obtain ⟨-, hright, -, hgrouped⟩ := hgrouped
      have hinner := Operator.mem_all inner.read
      refine ⟨⟨hsuffix, fun kind operator hnext hread => ?_⟩,
        ih hgrouped fun kind operator hnext hread => ?_⟩
      · exact Operator.left_lt_right (Operator.mem_all hread) hinner
          (hslot kind operator hnext hread)
      · calc
          operator.leftSlot
          _ ≤ inner.operator.left := hslot kind operator hnext hread
          _ ≤ inner.operator.rightSlot := Operator.left_le_rightSlot _
          _ ≤ right.power := hright

theorem closed_of_power {next : Option Token.Kind} {expression : Expression}
    (hpower : unaryPower + 1 ≤ expression.power)
    (hparen : next ≠ some .leftParen) :
    expression.Closed next := by
  cases expression with
  | identifier _ => exact hparen
  | member _ _ _ => exact hparen
  | signed sign operand => exact absurd hpower (Nat.not_succ_le_self _)
  | binary operator left right =>
      have hlt := Operator.left_lt_unaryPower (Operator.mem_all operator.read)
      rw [power] at hpower
      omega
  | _ => trivial

/-! The tokens with which an expression is written. -/

/-- A token that is no trivia, and no arrow, which would end the parameters of a
function. -/
def Plain (kind : Token.Kind) : Prop :=
  kind.isTrivia = false ∧ kind ≠ .arrow

theorem plain_operator (operator : Infix) : Plain operator.token := by
  obtain ⟨token, operator, hread, -⟩ := operator
  cases token <;> first | exact ⟨rfl, nofun⟩ | cases hread

theorem not_suffix_of_read {token : Token.Kind} {operator : Operator}
    (hread : Operator.ofToken? token = some operator) :
    token ∉ suffixes ∧ token ≠ .leftParen := by
  cases token <;> first | decide | cases hread

def PlainTree (tree : Tree) : Prop :=
  ∀ leaf ∈ tree.leaves, Plain leaf.1

theorem plainTree_token {kind : Token.Kind} {text : String}
    (hkind : Plain kind) :
    PlainTree (.token kind text) := by
  intro leaf hleaf
  rw [Tree.leaves, List.mem_singleton] at hleaf
  rwa [hleaf]

theorem plainTree_node {kind : Node.Kind} {children : List Tree}
    (hchildren : ∀ child ∈ children, PlainTree child) :
    PlainTree (.node kind children) := by
  rw [PlainTree, Tree.leaves]
  induction children with
  | nil => exact nofun
  | cons child rest ih =>
      rw [List.forall_mem_cons] at hchildren
      intro leaf hleaf
      rw [Tree.leavesAll, List.mem_append] at hleaf
      exact hleaf.elim (hchildren.1 leaf) (ih hchildren.2 leaf)

theorem plainTree_tree (expression : Expression) :
    PlainTree expression.tree := by
  have hspelled : ∀ {kind}, Plain kind → PlainTree (spelled kind) :=
    plainTree_token
  have hidentifier : ∀ text, PlainTree (.token .identifier text) :=
    fun _ => plainTree_token ⟨rfl, nofun⟩
  induction expression with
  | identifier text =>
      exact plainTree_node (List.forall_mem_singleton.mpr (hidentifier text))
  | literal value text =>
      have hvalue : Plain value.token := by cases value <;> exact ⟨rfl, nofun⟩
      exact plainTree_node
        (List.forall_mem_singleton.mpr (plainTree_token hvalue))
  | string opening runs closing =>
      refine plainTree_node fun child hchild => ?_
      simp only [List.cons_append, List.mem_cons, List.mem_append, List.mem_map,
        List.not_mem_nil, or_false] at hchild
      rcases hchild with rfl | ⟨run, -, rfl⟩ | rfl
      all_goals exact plainTree_token ⟨rfl, nofun⟩
  | parenthesized inner ih =>
      refine plainTree_node ?_
      simp only [List.forall_mem_cons]
      exact ⟨hspelled ⟨rfl, nofun⟩, ih, hspelled ⟨rfl, nofun⟩, nofun⟩
  | signed sign operand ih =>
      have hsign : Plain sign.token := by cases sign <;> exact ⟨rfl, nofun⟩
      refine plainTree_node ?_
      simp only [List.forall_mem_cons]
      exact ⟨hspelled hsign, ih, nofun⟩
  | binary operator left right ihLeft ihRight =>
      refine plainTree_node ?_
      simp only [List.forall_mem_cons]
      exact ⟨ihLeft, hspelled (plain_operator operator), ihRight, nofun⟩
  | member nullSafe receiver name ih =>
      have hdot : Plain (dot nullSafe) := by
        cases nullSafe <;> exact ⟨rfl, nofun⟩
      refine plainTree_node ?_
      simp only [List.forall_mem_cons]
      exact ⟨ih, hspelled hdot, hidentifier name, nofun⟩
  | nonNull receiver ih =>
      refine plainTree_node ?_
      simp only [List.forall_mem_cons]
      exact ⟨ih, hspelled ⟨rfl, nofun⟩, nofun⟩
  | subscript receiver index ihReceiver ihIndex =>
      refine plainTree_node ?_
      simp only [List.forall_mem_cons]
      exact ⟨ihReceiver, hspelled ⟨rfl, nofun⟩, ihIndex,
        hspelled ⟨rfl, nofun⟩, nofun⟩

theorem bareAll_tree (expression : Expression) :
    Tree.bareAll [expression.tree] = [expression.tree] := by
  refine Tree.bareAll_eq_self _ fun leaf hleaf => ?_
  rw [Tree.leavesAll, Tree.leavesAll, List.append_nil] at hleaf
  exact (plainTree_tree expression leaf hleaf).1

/-! Tokens side by side. It does not matter where they start. -/

def bareToken (leaf : Token.Kind × String) : Token :=
  ⟨leaf.1, leaf.2, 0⟩

def spelledToken (kind : Token.Kind) : Token :=
  bareToken (kind, kind.spelling?.getD "")

def tokens (expression : Expression) : List Token :=
  expression.tree.leaves.map bareToken

theorem plain_tokens (expression : Expression) :
    ∀ token ∈ expression.tokens, Plain token.kind :=
  List.forall_mem_map.mpr (plainTree_tree expression)

theorem tokens_of_tree {expression : Expression} {children : List Tree}
    (htree : expression.tree = .node expression.kind children) :
    expression.tokens = (Tree.leavesAll children).map bareToken := by
  rw [tokens, htree, Tree.leaves]

@[simp] theorem tokens_identifier (text : String) :
    (identifier text).tokens = [bareToken (.identifier, text)] :=
  rfl

@[simp] theorem tokens_literal (value : Literal) (text : String) :
    (literal value text).tokens = [bareToken (value.token, text)] :=
  rfl

@[simp] theorem tokens_string (opening : String) (runs : List String)
    (closing : String) :
    (string opening runs closing).tokens = bareToken (.stringStart, opening) ::
      runs.map (fun run => bareToken (.stringChars, run)) ++
        [bareToken (.stringEnd, closing)] := by
  have hruns : ∀ closing,
      Tree.leavesAll (runs.map (.token .stringChars) ++ [closing]) =
      runs.map (.stringChars, ·) ++ closing.leaves := by
    intro closing
    induction runs with
    | nil => simp [Tree.leavesAll]
    | cons run runs ih =>
        rw [List.map_cons, List.cons_append, Tree.leavesAll, ih, Tree.leaves]
        rfl
  rw [tokens_of_tree rfl, List.cons_append, Tree.leavesAll, hruns, Tree.leaves,
    Tree.leaves]
  simp [Function.comp_def]

@[simp] theorem tokens_parenthesized (inner : Expression) :
    (parenthesized inner).tokens =
      spelledToken .leftParen :: inner.tokens ++
        [spelledToken .rightParen] := by
  rw [tokens_of_tree rfl]
  simp [tokens, Tree.leaves, Tree.leavesAll, spelled, spelledToken]

@[simp] theorem tokens_signed (sign : Sign) (operand : Expression) :
    (signed sign operand).tokens =
      spelledToken sign.token :: operand.tokens := by
  rw [tokens_of_tree rfl]
  simp [tokens, Tree.leaves, Tree.leavesAll, spelled, spelledToken]

@[simp] theorem tokens_binary (operator : Infix) (left right : Expression) :
    (binary operator left right).tokens =
      left.tokens ++ spelledToken operator.token :: right.tokens := by
  rw [tokens_of_tree rfl]
  simp [tokens, Tree.leaves, Tree.leavesAll, spelled, spelledToken]

@[simp] theorem tokens_member (nullSafe : Bool) (receiver : Expression)
    (name : String) :
    (member nullSafe receiver name).tokens =
      receiver.tokens ++
        [spelledToken (dot nullSafe), bareToken (.identifier, name)] := by
  rw [tokens_of_tree rfl]
  simp [tokens, Tree.leaves, Tree.leavesAll, spelled, spelledToken]

@[simp] theorem tokens_nonNull (receiver : Expression) :
    (nonNull receiver).tokens =
      receiver.tokens ++ [spelledToken .bangBang] := by
  rw [tokens_of_tree rfl]
  simp [tokens, Tree.leaves, Tree.leavesAll, spelled, spelledToken]

@[simp] theorem tokens_subscript (receiver index : Expression) :
    (subscript receiver index).tokens = receiver.tokens ++
      spelledToken .leftBracket :: index.tokens ++
        [spelledToken .rightBracket] := by
  rw [tokens_of_tree rfl]
  simp [tokens, Tree.leaves, Tree.leavesAll, spelled, spelledToken]

end Expression

end PklAnalysis.Grammar

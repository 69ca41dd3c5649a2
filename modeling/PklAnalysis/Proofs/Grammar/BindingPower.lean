import PklAnalysis.Proofs.Grammar.Nesting
import PklAnalysis.Proofs.Grammar.OperatorTree
import PklAnalysis.Proofs.Grammar.Termination

/-!
In every tree, that of a malformed text included, operands bind at least as
tightly as their operators ask. A node of an operator is wrapped around the
expression before it when the loop after that expression comes to the operator.
So what counts is what the expression read last has left over: an operator that
binds less tightly than its own right side, since its own loop would have taken
another.
-/

namespace PklAnalysis

namespace Grammar.Operator

def ofKind? (kind : Node.Kind) : Option Operator :=
  all.find? fun operator => operator.kind = kind

variable {kind : Node.Kind} {operator : Operator}

theorem ofKind?_kind (hmem : operator ∈ all) :
    ofKind? operator.kind = some operator := by
  revert operator
  decide

theorem ofKind?_eq_some_iff : ofKind? kind = some operator ↔
    operator.kind = kind ∧ ∃ token, ofToken? token = some operator := by
  constructor
  · intro hkind
    have hall : ∀ operator ∈ all, ∃ token ∈ Token.Kind.all,
        ofToken? token = some operator := by decide
    have hfound :=
      List.find?_some (p := fun operator : Operator =>
        decide (operator.kind = kind)) hkind
    obtain ⟨token, -, htoken⟩ := hall operator (List.mem_of_find?_eq_some hkind)
    exact ⟨of_decide_eq_true hfound, token, htoken⟩
  · rintro ⟨rfl, token, htoken⟩
    exact ofKind?_kind (mem_all htoken)

theorem kind_of_ofKind? (hkind : ofKind? kind = some operator) :
    operator.kind = kind :=
  (ofKind?_eq_some_iff.mp hkind).1

theorem mem_all_of_ofKind? (hkind : ofKind? kind = some operator) :
    operator ∈ all := by
  obtain ⟨-, token, htoken⟩ := ofKind?_eq_some_iff.mp hkind
  exact mem_all htoken

theorem isExpr_kind (hmem : operator ∈ all) : operator.kind.isExpr = true := by
  revert operator
  decide

theorem ofKind?_of_not_isOperator (hkind : ¬kind.IsOperator) :
    ofKind? kind = none := by
  cases hfound : ofKind? kind with
  | none => rfl
  | some operator =>
      have hall : ∀ operator ∈ all, operator.kind.IsOperator := by decide
      exact absurd (kind_of_ofKind? hfound ▸
        hall operator (mem_all_of_ofKind? hfound)) hkind

theorem mem_all_of_current? {state : Parser.State}
    (hcurrent : current? state = some operator) :
    operator ∈ all := by
  obtain ⟨token, -, htoken⟩ := Option.bind_eq_some_iff.mp hcurrent
  split at htoken
  case isTrue => cases htoken
  case isFalse => exact mem_all htoken

end Grammar.Operator

namespace Tree

open Grammar

def isExpr : Tree → Bool
  | .token _ _ => false
  | .node kind _ => kind.isExpr

def operator? : Tree → Option Operator
  | .token _ _ => none
  | .node kind _ => Operator.ofKind? kind

def operands (children : List Tree) : List Tree :=
  children.filter isExpr

/-- The right operand of an operator: what a type test tests for, and the second
expression of the others. -/
def rightOperand? (kind : Node.Kind) (children : List Tree) : Option Tree :=
  if kind = .typeTestExpr then children.find? isType else
    (operands children)[1]?

/-- If the right operand of an operator is one of an operator itself, this binds
at least as tightly as the right side of the first. If the left one is, it would
not have taken the first into its own right operand; that is not asked of one
without a right operand, nor of type tests, whose right operand is no
expression. The operand of a sign or a negation is no operator. -/
structure RespectsPowers (kind : Node.Kind) (children : List Tree) : Prop where
  right {outer inner : Operator} {operand : Tree}
    (houter : Operator.ofKind? kind = some outer)
    (hoperand : rightOperand? kind children = some operand)
    (hinner : operand.operator? = some inner) :
    outer.right ≤ inner.left
  left {outer inner : Operator} {operand : Tree}
    (houter : Operator.ofKind? kind = some outer)
    (hoperand : (operands children)[0]? = some operand)
    (hinner : operand.operator? = some inner)
    (htest : inner.kind ≠ .typeTestExpr)
    (hboth : 2 ≤ (operands operand.children).length) :
    outer.left < inner.right
  sign {operand : Tree} (hsign : kind = .unaryMinusExpr ∨
    kind = .logicalNotExpr)
    (hoperand : operand ∈ operands children) : operand.operator? = none

theorem operands_append (left right : List Tree) :
    operands (left ++ right) = operands left ++ operands right :=
  List.filter_append left right

theorem operands_of_isToken {trees : List Tree}
    (htokens : ∀ tree ∈ trees, tree.isToken = true) :
    operands trees = [] := by
  refine List.filter_eq_nil_iff.mpr fun tree htree => ?_
  cases tree with
  | token => exact Bool.false_ne_true
  | node => cases htokens _ htree

theorem operands_node {kind : Node.Kind} (hexpr : kind.isExpr = true)
    (children : List Tree) :
    operands [.node kind children] = [.node kind children] :=
  List.filter_cons_of_pos hexpr

theorem operator?_of_isType {tree : Tree} (htype : tree.isType = true) :
    tree.operator? = none := by
  cases tree with
  | token => rfl
  | node kind children =>
      refine Operator.ofKind?_of_not_isOperator fun hkind => ?_
      have hall : ∀ kind : Node.Kind,
          kind.IsOperator → kind.isType = false := by
        intro kind
        cases kind <;> decide
      exact Bool.false_ne_true ((hall kind hkind).symm.trans htype)

theorem RespectsPowers.of_not_isOperator {kind : Node.Kind}
    (hkind : ¬kind.IsOperator) (children : List Tree) :
    RespectsPowers kind children := by
  have hnone := Operator.ofKind?_of_not_isOperator hkind
  refine ⟨fun houter => ?_, fun houter => ?_, fun hsign => ?_⟩
  · rw [hnone] at houter
    cases houter
  · rw [hnone] at houter
    cases houter
  · rcases hsign with rfl | rfl <;> exact absurd (by decide) hkind

theorem RespectsPowers.of_sign {kind : Node.Kind} {children : List Tree}
    (hsign : kind = .unaryMinusExpr ∨ kind = .logicalNotExpr)
    (hoperands : ∀ operand ∈ operands children, operand.operator? = none) :
    RespectsPowers kind children := by
  have hnone : Operator.ofKind? kind = none := by
    rcases hsign with rfl | rfl <;> rfl
  refine ⟨fun houter => ?_, fun houter => ?_,
    fun _ hoperand => hoperands _ hoperand⟩
  · rw [hnone] at houter
    cases houter
  · rw [hnone] at houter
    cases houter

theorem RespectsPowers.of_operator {operator : Operator}
    (hmem : operator ∈ Operator.all) {children rights : List Tree} {left : Tree}
    (hchildren : operands children = left :: rights)
    (hleft : ∀ inner, left.operator? = some inner → inner.kind ≠ .typeTestExpr →
      2 ≤ (operands left.children).length → operator.left < inner.right)
    (hright : operator.kind ≠ .typeTestExpr → ∀ right ∈ rights, ∀ inner,
      right.operator? = some inner → operator.right ≤ inner.left) :
    RespectsPowers operator.kind children := by
  refine ⟨fun {outer inner operand} houter hoperand hinner => ?_,
    fun {outer inner operand} houter hoperand hinner => ?_, fun hsign => ?_⟩
  · obtain rfl :=
      Option.some.inj ((Operator.ofKind?_kind hmem).symm.trans houter)
    rw [rightOperand?] at hoperand
    split at hoperand
    case isTrue =>
        rw [operator?_of_isType (List.find?_some hoperand)] at hinner
        cases hinner
    case isFalse htest =>
        rw [hchildren] at hoperand
        exact hright htest operand (List.mem_of_getElem? hoperand) inner hinner
  · obtain rfl :=
      Option.some.inj ((Operator.ofKind?_kind hmem).symm.trans houter)
    rw [hchildren] at hoperand
    cases Option.some.inj hoperand
    exact hleft inner hinner
  · have hall : ∀ operator ∈ Operator.all,
        ¬(operator.kind = .unaryMinusExpr ∨
          operator.kind = .logicalNotExpr) := by
      decide
    exact absurd hsign (hall operator hmem)

end Tree

namespace Grammar

open PklAnalysis.Parser

def bindingNodes : Permit where
  allows := Tree.RespectsPowers
  plain hkind := .of_not_isOperator hkind.2.2.1 _
  named _ := .of_not_isOperator (by decide) _
  error _ := .of_not_isOperator (by decide) _

theorem arguments_bindingNodes (children : List Tree) :
    bindingNodes.allows .argumentList children :=
  .of_not_isOperator (by decide) children

/-! Nodes and what is built after a place. -/

variable {start : Nat}

theorem accepts_startAt {builder : Builder}
    (hplace : start ≤ builder.trees.size) (kind : Node.Kind) :
    (builder.startAt start kind).accepts start = true :=
  Builder.accepts_iff.mpr ⟨Nat.le_refl start, hplace⟩

/-- From one state to another tokens are added, and an expression after them if
a kind is given. -/
inductive Yield (gives : Node.Kind → State → Prop) (before : State) :
    Option Node.Kind × State → Prop
  | nothing {after : State} {tokens : List Tree}
  (htokens : ∀ tree ∈ tokens, tree.isToken = true)
      (hbuilt : after.builder.trees.toList =
        before.builder.trees.toList ++ tokens) :
      Yield gives before (none, after)
  | expression {after : State} {tokens children : List Tree} {kind : Node.Kind}
      (htokens : ∀ tree ∈ tokens, tree.isToken = true)
      (hbuilt : after.builder.trees.toList =
        before.builder.trees.toList ++ tokens ++ [.node kind children])
      (hexpr : kind.isExpr = true) (hgives : gives kind after) :
      Yield gives before (some kind, after)

def Yields (gives : Node.Kind → State → Prop)
    (parser : Parser (Option Node.Kind)) : Prop :=
  ∀ state : State, Yield gives state (parser.run state)

variable {gives : Node.Kind → State → Prop}

theorem yields_of_unchanged {first : Parser α}
    {next : α → Parser (Option Node.Kind)}
    (hsame : ∀ state, (first.run state).2 = state)
    (hnext : ∀ value, Yields gives (next value)) :
    Yields gives (first >>= next) := by
  intro state
  have hyield := hnext (first.run state).1 (first.run state).2
  rw [hsame] at hyield
  rwa [run_bind, hsame]

theorem yields_built {kind : Node.Kind} {body : Parser Unit}
    (hexpr : kind.isExpr = true) (hgives : ∀ after, gives kind after)
    (hkeeps : ∀ inner, Keeps inner body) :
    Yields gives (built kind body) := by
  intro state
  obtain ⟨tokens, children, htokens, hbuilt⟩ :=
    exists_added_node kind hkeeps state
  exact .expression htokens hbuilt hexpr (hgives _)

def Single (kind : Node.Kind) (_ : State) : Prop :=
  Operator.ofKind? kind = none

/-- What an expression whose operators bind at least as tightly as `power` is,
and what may follow it. -/
structure Within (power : Nat) (kind : Node.Kind) (after : State) : Prop where
  power_le {operator : Operator}
    (hkind : Operator.ofKind? kind = some operator) : power ≤ operator.left
  left_lt {next : Operator} (hnext : Operator.current? after = some next) :
    next.left < power

theorem Within.single {kind : Node.Kind} {after : State}
    (hwithin : Within unaryPower kind after) :
    Operator.ofKind? kind = none := by
  cases hkind : Operator.ofKind? kind with
  | none => rfl
  | some operator =>
      have hlt :=
        Operator.left_lt_unaryPower (Operator.mem_all_of_ofKind? hkind)
      exact absurd (hwithin.power_le hkind) (Nat.not_le_of_lt hlt)

structure Call.Binds (call : Call) : Prop where
  keeps : call.Keeps
  runs : call.Runs bindingNodes
  expression (power : Nat) : Yields (Within power) (call (.expression power))
  literal : Yields Single (call .stringLiteral)
  body (start : Nat) : Advances start (call .objectBody)

variable {call : Call}

theorem isExpr_literalKind (delimiter : String) :
    (literalKind delimiter).isExpr = true := by
  rw [literalKind]
  split <;> rfl

theorem yields_stringLiteralRule (hcall : call.Keeps) :
    Yields Single (stringLiteralRule call) := by
  refine yields_of_unchanged (fun _ => rfl) fun state => ?_
  have hplain := isPlain_literalKind ((state.current?.map Token.text).getD "")
  refine yields_built (isExpr_literalKind _)
    (fun _ => Operator.ofKind?_of_not_isOperator hplain.2.2.1) ?_
  grind

theorem yields_operandStart (hcall : call.Keeps)
    (hliteral : Yields Single (call .stringLiteral)) :
    Yields Single (operandStart call) := by
  refine yields_of_unchanged (fun _ => rfl) fun found => ?_
  split
  case h_9 => exact hliteral
  case h_19 | h_24 =>
      refine yields_of_unchanged (fun _ => rfl) fun found => ?_
      split <;> exact yields_built rfl (fun _ => rfl) (by grind)
  case h_25 =>
      exact fun state => .nothing (fun _ htree => (List.not_mem_nil htree).elim)
        (List.append_nil _).symm
  all_goals exact yields_built rfl (fun _ => rfl) (by grind)

theorem yield_operand {power : Nat}
    (hcall : Yields (Within power) (call (.expression power))) (state : State) :
    ∃ found,
      Yield (Within power) state
        (found, ((operand call power).run state).2) := by
  have hyield := hcall state
  rw [operand, run_bind]
  generalize (call (.expression power)).run state = result at hyield ⊢
  cases hyield with
  | nothing htokens hbuilt => exact ⟨none, .nothing htokens hbuilt⟩
  | expression htokens hbuilt hexpr hgives =>
      exact ⟨some _, .expression htokens hbuilt hexpr hgives⟩

theorem exists_added_take_operand {power : Nat}
    (hcall : Yields (Within power) (call (.expression power))) (state : State) :
    let after := ((do take; operand call power : Parser Unit).run state).2
    ∃ added, after.builder.trees.toList = state.builder.trees.toList ++ added ∧
      (Tree.operands added = [] ∨
        ∃ kind children, Tree.operands added = [.node kind children] ∧
          Within power kind after) := by
  intro after
  obtain ⟨count, htake⟩ := moves_take state
  obtain ⟨taken, htaken, hbuilt⟩ := state.exists_toList_advanceBy count
  obtain ⟨found, hyield⟩ := yield_operand hcall (take.run state).2
  have hafter : ((operand call power).run (take.run state).2).2 = after := rfl
  rw [hafter] at hyield
  rw [← htake] at hbuilt
  cases hyield with
  | @nothing _ tokens htokens hadded =>
      refine ⟨taken ++ tokens, by rw [hadded, hbuilt, List.append_assoc],
        .inl ?_⟩
      exact Tree.operands_of_isToken
        (List.forall_mem_append.mpr ⟨htaken, htokens⟩)
  | @expression _ tokens children kind htokens hadded hexpr hwithin =>
      refine ⟨taken ++ tokens ++ [.node kind children], ?_,
        .inr ⟨kind, children, ?_, hwithin⟩⟩
      · rw [hadded, hbuilt, List.append_assoc, List.append_assoc,
          List.append_assoc]
      · rw [Tree.operands_append,
          Tree.operands_of_isToken
            (List.forall_mem_append.mpr ⟨htaken, htokens⟩),
          Tree.operands_node hexpr, List.nil_append]

theorem runs_sign (hcall : call.Binds) {kind : Node.Kind}
    (hsign : kind = .unaryMinusExpr ∨ kind = .logicalNotExpr) :
    Parser.Runs bindingNodes (built kind do take; operand call unaryPower) := by
  have hbody : Parser.Runs bindingNodes (do take; operand call unaryPower) :=
    runs_take.bind fun _ => runs_operand hcall.runs unaryPower
  refine .bind (runs_node_of_added hbody fun state _ => ?_) fun _ => runs_pure _
  obtain ⟨added, hadded, hoperands⟩ :=
    exists_added_take_operand (hcall.expression unaryPower) state
  refine ⟨added, .of_sign hsign ?_, hadded⟩
  rcases hoperands with hnone | ⟨operandKind, children, hone, hwithin⟩
  · rw [hnone]
    exact fun _ htree => (List.not_mem_nil htree).elim
  · rw [hone]
    exact List.forall_mem_singleton.mpr hwithin.single

def operatorRest (call : Call) (operator : Operator) : Parser Unit := do
  take
  if operator.kind = .typeTestExpr then
    type call
  else
    operand call operator.right

/-- A turn of the loop after an expression that starts at a place: a suffix, an
operator that binds tightly enough, or the end. -/
inductive Turn (permit : Permit) (call : Call) (start power : Nat)
    (state : State) :
    Option Node.Kind × State → Prop
  | ends
    (hloose : ∀ next, Operator.current? state = some next → next.left < power) :
      Turn permit call start power state (none, state)
  | suffix {kind : Node.Kind} {body : Parser Unit}
      (hcurrent : state.current?.isSome = true)
      (hplain : kind.IsPlain) (hexpr : kind.isExpr = true)
      (hkeeps : Keeps start body)
      (hadvances : Advances start body) (hruns : Parser.Runs permit body) :
      Turn permit call start power state (some kind,
        ((nodeAt start kind body).run state).2)
  | operation {operator : Operator}
      (hcurrent : Operator.current? state = some operator)
      (hpower : power ≤ operator.left) :
      Turn permit call start power state
        (some operator.kind,
          ((nodeAt start operator.kind (operatorRest call operator)).run
            state).2)

variable {permit : Permit}

theorem turn_operation (power : Nat) (state : State) :
    Turn permit call start power state
      ((operation call start power).run state) := by
  have hget : (get : Parser State).run state = (state, state) := rfl
  rw [operation, run_bind, hget]
  dsimp only
  split
  case h_1 hnone =>
      refine .ends fun next hnext => ?_
      rw [hnone] at hnext
      cases hnext
  case h_2 operator hcurrent =>
      split
      case isTrue hlt =>
          refine .ends fun next hnext => ?_
          rw [hcurrent] at hnext
          cases hnext
          exact hlt
      case isFalse hle => exact .operation hcurrent (Nat.le_of_not_lt hle)

theorem exists_turn_nodeAt {power : Nat} {state : State} {kind : Node.Kind}
    {body : Parser Unit} (hcurrent : state.current?.isSome = true)
    (hplain : kind.IsPlain) (hexpr : kind.isExpr = true)
    (hkeeps : Keeps start body) (hadvances : Advances start body)
    (hruns : Parser.Runs permit body) :
    ∃ kind' after,
      (do nodeAt start kind body; return some kind : Parser _).run state =
        (some kind', after) ∧
      Turn permit call start power state (some kind', after) :=
  ⟨kind, _, rfl, .suffix hcurrent hplain hexpr hkeeps hadvances hruns⟩

section

variable (hkeeps : call.Keeps) (hruns : call.Runs permit)
  (hbody : ∀ start, Advances start (call .objectBody))
include hkeeps hruns hbody

theorem turn_suffix (power : Nat) (operandKind : Node.Kind) (state : State) :
    (suffix call start operandKind).run state = (none, state) ∨
      ∃ kind after,
        (suffix call start operandKind).run state = (some kind, after) ∧
        Turn permit call start power state (some kind, after) := by
  have hpeek : current?.run state = (state.peek? 0, state) := rfl
  have hbreak : afterBreak?.run state = (state.afterBreak, state) := rfl
  have hcurrent : ∀ kind, state.peek? 0 = some kind →
      state.current?.isSome = true := fun kind hkind => by
    obtain ⟨token, htoken, -⟩ := Option.map_eq_some_iff.mp hkind
    exact Option.isSome_of_eq_some htoken
  rw [suffix, run_bind, hpeek]
  dsimp only
  split
  case h_1 hkind | h_2 hkind =>
      exact .inr (exists_turn_nodeAt (hcurrent _ hkind) (by decide) rfl
        (by grind)
        (advances_take.bind keeps_take fun _ => by grind) (by grind))
  case h_3 hkind =>
      rw [run_bind, hbreak]
      dsimp only
      split
      case isTrue => exact .inl rfl
      case isFalse =>
          exact .inr (exists_turn_nodeAt (hcurrent _ hkind) (by decide) rfl
            (by grind)
            (advances_take.bind keeps_take fun _ => by grind) (by grind))
  case h_4 hkind =>
      exact .inr (exists_turn_nodeAt (hcurrent _ hkind) (by decide) rfl
        keeps_take advances_take runs_take)
  case h_5 hkind =>
      split
      case isTrue =>
          exact .inr (exists_turn_nodeAt (hcurrent _ hkind) (by decide) rfl
            (keeps_objectBody hkeeps)
            (hbody start) (runs_objectBody hruns))
      case isFalse => exact .inl rfl
  case h_6 => exact .inl rfl

theorem turn_continuation (power : Nat) (operandKind : Node.Kind)
    (state : State) :
    Turn permit call start power state
      ((continuation call start power operandKind).run state) := by
  rw [continuation, run_bind]
  rcases turn_suffix hkeeps hruns hbody power operandKind state with
    hnone | ⟨kind, after, hsome, hturn⟩
  · rw [hnone]
    exact turn_operation power state
  · rw [hsome]
    exact hturn

end

/-- After `outer` stand tokens and one expression. If that is an operator with
both operands, then the next operator is looser than its right side. -/
structure Stands (power : Nat) (outer : List Tree) (kind : Node.Kind)
    (state : State) : Prop where
  expr : kind.isExpr = true
  power_le {operator : Operator}
    (hkind : Operator.ofKind? kind = some operator) : power ≤ operator.left
  built : ∃ tokens children, (∀ tree ∈ tokens, tree.isToken = true) ∧
    state.builder.trees.toList = outer ++ (tokens ++ [.node kind children]) ∧
    ∀ operator next, Operator.ofKind? kind = some operator →
      kind ≠ .typeTestExpr →
      2 ≤ (Tree.operands children).length →
      Operator.current? state = some next → next.left < operator.right

variable {power : Nat} {outer : List Tree} {kind : Node.Kind} {state : State}

theorem Stands.outer_length_le (hstands : Stands power outer kind state) :
    outer.length ≤ state.builder.trees.size := by
  obtain ⟨tokens, children, -, hbuilt, -⟩ := hstands.built
  rw [← Array.length_toList, hbuilt, List.length_append]
  exact Nat.le_add_right _ _

theorem stands_of_single {after : State} {tokens children : List Tree}
    (htokens : ∀ tree ∈ tokens, tree.isToken = true)
    (hexpr : kind.isExpr = true) (hsingle : Operator.ofKind? kind = none)
    (hbuilt : after.builder.trees.toList =
      outer ++ (tokens ++ [.node kind children])) :
    Stands power outer kind after := by
  refine ⟨hexpr, fun hkind => ?_, tokens, children, htokens, hbuilt,
    fun operator next hkind => ?_⟩
  · rw [hsingle] at hkind
    cases hkind
  · rw [hsingle] at hkind
    cases hkind

theorem toList_trees_nodeAt {kind' : Node.Kind} {body : Parser Unit}
    {added : List Tree} (hbuilt : state.builder.trees.toList = outer ++ added)
    (hkeeps : Keeps outer.length body) :
    let inner :=
      (body.run { state with
        builder := state.builder.startAt outer.length kind' }).2
    ((nodeAt outer.length kind' body).run state).2.builder.trees.toList =
      outer ++
        [.node kind' (inner.builder.trees.toList.drop outer.length)] := by
  intro inner
  have hlength : outer.length ≤ state.builder.trees.size := by
    rw [← Array.length_toList, hbuilt, List.length_append]
    exact Nat.le_add_right _ _
  have hreads :=
    hkeeps { state with builder := state.builder.startAt outer.length kind' }
    (accepts_startAt hlength kind')
  have htrees := toList_trees_of_reads state hreads rfl rfl
  rw [hbuilt, List.take_left] at htrees
  exact htrees

theorem Stands.toList_trees_nodeAt {kind' : Node.Kind} {body : Parser Unit}
    (hstands : Stands power outer kind state)
    (hkeeps : Keeps outer.length body) :
    let inner :=
      (body.run { state with
        builder := state.builder.startAt outer.length kind' }).2
    ((nodeAt outer.length kind' body).run state).2.builder.trees.toList =
      outer ++
        [.node kind' (inner.builder.trees.toList.drop outer.length)] := by
  obtain ⟨tokens, children, -, hbuilt, -⟩ := hstands.built
  exact Grammar.toList_trees_nodeAt hbuilt hkeeps

theorem Stands.suffix {kind' : Node.Kind} {body : Parser Unit}
    (hstands : Stands power outer kind state) (hplain : kind'.IsPlain)
    (hexpr : kind'.isExpr = true) (hkeeps : Keeps outer.length body) :
    Stands power outer kind' ((nodeAt outer.length kind' body).run state).2 :=
  stands_of_single (fun _ htree => (List.not_mem_nil htree).elim) hexpr
    (Operator.ofKind?_of_not_isOperator hplain.2.2.1)
      (hstands.toList_trees_nodeAt hkeeps)

theorem keeps_operatorRest (hcall : call.Keeps) (operator : Operator) :
    Keeps start (operatorRest call operator) := by
  refine .bind keeps_take fun _ => ?_
  split <;> grind

theorem exists_added_operatorRest (hcall : call.Binds) (operator : Operator)
    (haccepts : state.builder.accepts start = true) :
    let after := ((operatorRest call operator).run state).2
    ∃ added, after.builder.trees.toList = state.builder.trees.toList ++ added ∧
      (operator.kind ≠ .typeTestExpr → Tree.operands added = [] ∨
        ∃ kind children, Tree.operands added = [.node kind children] ∧
          Within operator.right kind after) := by
  intro after
  by_cases htest : operator.kind = .typeTestExpr
  · obtain ⟨added, hadded⟩ :=
      exists_toList_of_keeps (fun _ => keeps_operatorRest hcall.keeps operator)
        haccepts
    exact ⟨added, hadded, fun hother => absurd htest hother⟩
  · obtain ⟨added, hadded, hoperands⟩ :=
      exists_added_take_operand (hcall.expression operator.right) state
    have hrest : operatorRest call operator =
        (do take; operand call operator.right) := by
      rw [operatorRest, if_neg htest]
    rw [← hrest] at hadded hoperands
    exact ⟨added, hadded, fun _ => hoperands⟩

theorem runs_operatorRest (hcall : call.Binds) (operator : Operator) :
    Parser.Runs bindingNodes (operatorRest call operator) := by
  refine runs_take.bind fun _ => ?_
  split
  · exact runs_type hcall.runs
  · exact runs_operand hcall.runs _

theorem advances_operatorRest (hcall : call.Keeps) (operator : Operator) :
    Advances start (operatorRest call operator) := by
  refine advances_take.bind keeps_take fun _ => ?_
  split <;> grind

theorem Stands.operation (hcall : call.Binds)
    (hstands : Stands power outer kind state) {operator : Operator}
    (hcurrent : Operator.current? state = some operator)
    (hpower : power ≤ operator.left) :
    let after :=
      ((nodeAt outer.length operator.kind (operatorRest call operator)).run
        state).2
    Stands power outer operator.kind after ∧ state.Runs bindingNodes after := by
  intro after
  let opened : State :=
    { state with builder := state.builder.startAt outer.length operator.kind }
  have hmem := Operator.mem_all_of_current? hcurrent
  have hsame : ∀ {other : Operator},
      Operator.ofKind? operator.kind = some other → other = operator :=
    fun hother =>
      Option.some.inj (hother.symm.trans (Operator.ofKind?_kind hmem))
  have haccepts : opened.builder.accepts outer.length = true :=
    accepts_startAt hstands.outer_length_le operator.kind
  obtain ⟨added, hadded, hright⟩ :=
    exists_added_operatorRest hcall operator haccepts
  obtain ⟨tokens, children, htokens, hbuilt, hnext⟩ := hstands.built
  have hopened : opened.builder.trees.toList =
      outer ++ (tokens ++ [.node kind children]) := hbuilt
  have hoperands :
      Tree.operands
        (((operatorRest call operator).run opened).2.builder.trees.toList.drop
      outer.length) = .node kind children :: Tree.operands added := by
    rw [hadded, hopened, List.append_assoc, List.drop_left,
      Tree.operands_append, Tree.operands_append,
      Tree.operands_of_isToken htokens, Tree.operands_node hstands.expr,
      List.nil_append, List.singleton_append]
  refine ⟨⟨Operator.isExpr_kind hmem, fun hkind => hsame hkind ▸ hpower, [], _,
      fun _ htree => (List.not_mem_nil htree).elim,
      hstands.toList_trees_nodeAt (keeps_operatorRest hcall.keeps operator),
        ?_⟩,
    .wrap opened (.of_operator hmem hoperands ?_ ?_) rfl rfl rfl
      (runs_operatorRest hcall operator opened)⟩
  · intro other next hkind htest hboth hafter
    rw [hsame hkind]
    rcases hright htest with hnone | ⟨rightKind, rightChildren, hone, hwithin⟩
    · rw [hoperands, hnone] at hboth
      exact absurd hboth (Nat.not_succ_le_self 1)
    · exact hwithin.left_lt hafter
  · intro inner hinner htest hboth
    have hkind : inner.kind = kind := Operator.kind_of_ofKind? hinner
    exact hnext inner operator hinner (hkind ▸ htest) hboth hcurrent
  · intro htest right hmem inner hinner
    rcases hright htest with hnone | ⟨rightKind, rightChildren, hone, hwithin⟩
    · rw [hnone] at hmem
      cases hmem
    · rw [hone, List.mem_singleton] at hmem
      rw [hmem] at hinner
      exact hwithin.power_le hinner

theorem Stands.continues (hcall : call.Binds)
    (hstands : Stands power outer kind state) {next : Node.Kind}
    (hnext : ((continuation call outer.length power kind).run state).1 =
      some next) :
    let after := ((continuation call outer.length power kind).run state).2
    Stands power outer next after ∧ state.Runs bindingNodes after ∧
      after.tokens.length < state.tokens.length := by
  have haccepts := accepts_startAt hstands.outer_length_le
  have hturn : Turn bindingNodes call outer.length power state _ :=
    turn_continuation hcall.keeps hcall.runs hcall.body power kind state
  generalize (continuation call outer.length power kind).run state =
    result at hturn hnext ⊢
  cases hturn with
  | ends => cases hnext
  | suffix hcurrent hplain hexpr hkeeps hadvances hruns =>
      cases hnext
      exact ⟨hstands.suffix hplain hexpr hkeeps,
        runs_plainAt hplain hruns _ state,
        hadvances { state with
          builder := state.builder.startAt outer.length next } (haccepts next)
          hcurrent⟩
  | @operation operator hcurrent hpower =>
      cases hnext
      obtain ⟨hstands, hruns⟩ := hstands.operation hcall hcurrent hpower
      have hsome : state.current?.isSome = true := by
        obtain ⟨token, htoken, -⟩ := Option.bind_eq_some_iff.mp hcurrent
        obtain ⟨found, hfound, -⟩ := Option.map_eq_some_iff.mp htoken
        exact Option.isSome_of_eq_some hfound
      exact ⟨hstands, hruns, advances_operatorRest hcall.keeps operator
        { state with
          builder := state.builder.startAt outer.length operator.kind }
        (haccepts operator.kind) hsome⟩

theorem ends_continuation (hcall : call.Binds)
    (hnone : ((continuation call start power kind).run state).1 = none) :
    ((continuation call start power kind).run state).2 = state ∧
      ∀ next, Operator.current? state = some next → next.left < power := by
  have hturn : Turn bindingNodes call start power state _ :=
    turn_continuation hcall.keeps hcall.runs hcall.body power kind state
  generalize (continuation call start power kind).run state =
    result at hturn hnone ⊢
  cases hturn with
  | ends hloose => exact ⟨rfl, hloose⟩
  | suffix => cases hnone
  | operation => cases hnone

theorem bound_expressionRule (hcall : call.Binds) (power : Nat)
    (state : State) :
    Yield (Within power) state ((expressionRule call power).run state) ∧
      state.Runs bindingNodes ((expressionRule call power).run state).2 := by
  let skipped := (skipTrivia.run state).2
  have hmark : mark.run state = (skipped.builder.trees.toList.length,
      skipped) :=
    congrArg (·, skipped) Array.length_toList.symm
  obtain ⟨blank, hblank, hskipped⟩ : ∃ blank,
      (∀ tree ∈ blank, tree.isToken = true) ∧
      skipped.builder.trees.toList = state.builder.trees.toList ++ blank :=
    state.exists_toList_advanceBy _
  have hyield := yields_operandStart hcall.keeps hcall.literal skipped
  have hbefore : state.Runs bindingNodes skipped := runs_skipTrivia state
  have hfirst :=
    runs_operandStart hcall.runs (runs_sign hcall (.inl rfl))
      (runs_sign hcall (.inr rfl))
    skipped
  rw [expressionRule, run_bind, hmark]
  dsimp only
  rw [run_bind]
  generalize (operandStart call).run skipped = result at hyield hfirst ⊢
  cases hyield with
  | @nothing after tokens htokens hbuilt =>
      refine ⟨.nothing (List.forall_mem_append.mpr ⟨hblank, htokens⟩) ?_,
        hbefore.trans hfirst⟩
      rw [hbuilt, hskipped, List.append_assoc]
  | @expression after tokens children kind htokens hbuilt hexpr hsingle =>
      rw [List.append_assoc] at hbuilt
      let turn := continuation call skipped.builder.trees.toList.length power
      let holds : Node.Kind → State → Prop := fun kind last =>
        Stands power skipped.builder.trees.toList kind last ∧
          skipped.Runs bindingNodes last
      have hstep : ∀ kind next (last : State),
          holds kind last → ((turn kind).run last).1 = some next →
          holds next ((turn kind).run last).2 ∧
            ((turn kind).run last).2.tokens.length < last.tokens.length := by
        intro kind next last ⟨hstands, hruns⟩ hnext
        obtain ⟨hstands, hmore, hshorter⟩ := hstands.continues hcall hnext
        exact ⟨⟨hstands, hruns.trans hmore⟩, hshorter⟩
      obtain ⟨last, final, ⟨hstands, hruns⟩, hnone, hend⟩ :=
        repeatFrom_ends hstep kind
          ⟨stands_of_single htokens hexpr hsingle hbuilt, hfirst⟩
      obtain ⟨hsame, hloose⟩ := ends_continuation hcall hnone
      rw [hsame] at hend
      dsimp only
      rw [run_bind, hend]
      obtain ⟨tokens, children, htokens, hbuilt, -⟩ := hstands.built
      rw [hskipped, List.append_assoc, ← List.append_assoc blank,
        ← List.append_assoc] at hbuilt
      exact ⟨.expression (List.forall_mem_append.mpr ⟨hblank, htokens⟩) hbuilt
        hstands.expr
        ⟨hstands.power_le, hloose _⟩, hbefore.trans hruns⟩

theorem Call.Binds.parse (hcall : call.Binds) :
    Call.Binds (Rule.parse call) where
  keeps := keeps_parse hcall.keeps
  runs := .of_rules arguments_bindingNodes
    (runs_parse hcall.keeps hcall.runs fun power state =>
      (bound_expressionRule hcall power state).2)
  expression power state := (bound_expressionRule hcall power state).1
  literal := yields_stringLiteralRule hcall.keeps
  body _ :=
    (advances_objectBodyRule hcall.keeps).bind
        (keeps_objectBodyRule hcall.keeps) fun _ =>
    keeps_pure none

/-- Calls that are nested too deep take a token, so that no loop over them has
to be cut short. -/
def taking : Call := fun _ => do
  take
  return none

theorem binds_taking : taking.Binds := by
  have hyields : ∀ {gives : Node.Kind → State → Prop} rule,
      Yields gives (taking rule) := by
    intro gives rule state
    obtain ⟨count, htake⟩ := moves_take state
    obtain ⟨tokens, htokens, hbuilt⟩ := state.exists_toList_advanceBy count
    exact .nothing htokens (by rw [← hbuilt, ← htake]; rfl)
  exact
    { keeps := fun _ _ => .bind keeps_take fun _ => keeps_pure none
      runs :=
        .of_rules arguments_bindingNodes fun _ => .bind runs_take fun _ =>
          runs_pure none
      expression := fun _ => hyields _
      literal := hyields _
      body := fun _ => advances_take.bind keeps_take fun _ => keeps_pure none }

theorem binds_unroll (depth : Nat) :
    Call.Binds (unroll Rule.parse taking depth) := by
  induction depth with
  | zero => exact binds_taking
  | succ depth ih => exact ih.parse

/-- In the tree of any tokens, well-formed or not, operands bind as tightly as
their operators ask. -/
theorem respectsPowers_parseTokens (tokens : List Token) (stop : Nat) :
    (parseTokens tokens stop).tree.Everywhere Tree.RespectsPowers := by
  have hcall := binds_unroll (callDepth tokens)
  have hfinal :=
    run_moduleRule_eq binds_taking.keeps (Nat.le_refl (callDepth tokens)) stop
  have hbelow := permitted_of_moduleRule hcall.runs hfinal
  obtain ⟨-, hinOrder, hopen, children, htrees, -⟩ :=
    finalState_built tokens stop
  rw [tree_parseTokens hinOrder hopen htrees] at hbelow ⊢
  exact Tree.everywhere_node.mpr ⟨.of_not_isOperator (by decide) children,
    hbelow⟩

end Grammar

end PklAnalysis

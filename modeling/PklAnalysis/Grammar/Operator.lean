import PklAnalysis.Grammar.Parser

/-!
Operators between two operands, loosest first:

    ??  |>  ||  &&  == !=  is as  < > <= >=  + -  * / ~/ %  **

`??` and `**` group to the right, all others to the left.
-/

namespace PklAnalysis.Grammar

/-- The node that an operator builds, and how tightly it binds on its two sides.
An operator ends the operand of another whose side binds more tightly. -/
structure Operator where
  kind : Node.Kind
  left : Nat
  right : Nat
deriving DecidableEq, Repr

def Operator.ofToken? : Token.Kind → Option Operator
  | .questionQuestion => some ⟨.nullCoalesceExpr, 3, 2⟩
  | .pipeGreater => some ⟨.pipeExpr, 4, 5⟩
  | .pipePipe => some ⟨.logicalOrExpr, 6, 7⟩
  | .ampAmp => some ⟨.logicalAndExpr, 8, 9⟩
  | .equalEqual | .bangEqual => some ⟨.equalityExpr, 10, 11⟩
  | .isKw | .asKw => some ⟨.typeTestExpr, 12, 13⟩
  | .less | .greater | .lessEqual
  | .greaterEqual => some ⟨.comparisonExpr, 14, 15⟩
  | .plus | .minus => some ⟨.additiveExpr, 16, 17⟩
  | .star | .slash | .tildeSlash
  | .percent => some ⟨.multiplicativeExpr, 18, 19⟩
  | .starStar => some ⟨.exponentiationExpr, 21, 20⟩
  | _ => none

/-- How tightly the operand of a sign or a negation binds: tighter than any
operator. -/
def unaryPower : Nat := 22

/-- The operator at hand. A minus sign that starts a line starts a new
expression instead. -/
def Operator.current? (state : Parser.State) : Option Operator := do
  let kind ← state.peek? 0
  if kind = .minus && state.afterBreak then none else Operator.ofToken? kind

end PklAnalysis.Grammar

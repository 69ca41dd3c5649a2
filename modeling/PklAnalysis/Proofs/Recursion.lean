/-!
Recursion that ends. Calls are unrolled up to a depth of nesting, and a call
nested deeper gives anything whatsoever; a call ends if that never shows once
the depth of nesting is large enough.
-/

namespace PklAnalysis

/-- What calls give that are nested at most so deep, where `stuck` is what a
call gives that is nested deeper. -/
def unroll (step : (ι → α) → ι → α) (stuck : ι → α) : Nat → ι → α
  | 0 => stuck
  | fuel + 1 => step (unroll step stuck fuel)

/-- A call ends with a value, and the calls that it makes are nested less than
`limit` deep. -/
def EndsWithin (step : (ι → α) → ι → α) (limit : Nat) (call : ι) (value : α) :
    Prop :=
  ∀ fuel, limit ≤ fuel → ∀ stuck, unroll step stuck fuel call = value

/-- One call of a recursion that passes its depth on: beyond the greatest depth
a call gives `beyond`, and any other call makes calls one level deeper. A level
knows how many levels are left below it. -/
def depthStep (maxDepth : Nat) (beyond : α) (level : Nat → α → α)
    (rest : Nat → α) (depth : Nat) :
    α :=
  if maxDepth < depth then beyond else
    level (maxDepth - depth) (rest (depth + 1))

def nesting (maxDepth depth : Nat) : Nat :=
  maxDepth + 1 - depth + 1

theorem endsWithin_depthStep {beyond : α} {level : Nat → α → α}
    (values : Nat → α) (hzero : values 0 = beyond)
    (hsucc : ∀ budget, values (budget + 1) = level budget (values budget))
    (maxDepth depth : Nat) :
    EndsWithin (depthStep maxDepth beyond level) (nesting maxDepth depth) depth
      (values (maxDepth + 1 - depth)) := by
  intro fuel
  induction fuel generalizing depth with
  | zero => exact fun hfuel => absurd hfuel (Nat.not_succ_le_zero _)
  | succ fuel ih =>
      intro hfuel stuck
      rw [nesting] at hfuel
      rw [unroll, depthStep]
      split
      case isTrue hbeyond =>
          rw [← hzero]
          congr 1
          omega
      case isFalse hwithin =>
          have hdeeper := ih (depth + 1) (by rw [nesting]; omega) stuck
          have hbudget : maxDepth + 1 - (depth + 1) = maxDepth - depth := by
            omega
          have hlevels : maxDepth + 1 - depth = maxDepth - depth + 1 := by omega
          rw [hdeeper, hbudget, hlevels, hsucc]

end PklAnalysis

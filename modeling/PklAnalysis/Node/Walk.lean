import PklAnalysis.Node.Basic

/-!
Walks from node to node. Sources can send a walk in circles, so a walk remembers
the nodes it has seen and ends when one comes again.
-/

namespace PklAnalysis.Node

/-- The places that a walk reaches from a place, where `nodeOf` tells at which
node a place is and `next?` leads on. The walk ends at the first node in `seen`
and after at most `limit` places. -/
def walk (nodeOf : α → Node) (next? : α → Option α) :
    Nat → List Node → α → List α
  | 0, _, _ => []
  | limit + 1, seen, place =>
      if seen.contains (nodeOf place) then []
      else
        place ::
          match next? place with
          | some next => walk nodeOf next? limit (nodeOf place :: seen) next
          | none => []

end PklAnalysis.Node

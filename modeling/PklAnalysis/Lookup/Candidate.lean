import PklAnalysis.Ty.Basic

/-!
Candidates: the declarations that a name may stand for, in the order in which
they are looked up. Candidates come in groups that are computed only when they
are reached.
-/

namespace PklAnalysis

namespace Lookup

/-- Properties and methods have names of their own: an access with arguments
sees only methods, and any other sees everything but methods. -/
inductive Space
  | property | method
deriving DecidableEq, Repr

end Lookup

/-- A declaration under the name it is looked up by, with what the type
parameters of its owner stand for. -/
structure Candidate where
  name : String
  node : Node
  bindings : Ty.Bindings

/-- A strategy of lookup: what it makes of one more candidate, and whether it
wants another. -/
abbrev Visitor (Found : Type) := Found → Candidate → Found × Bool

namespace Visitor

/-- Keeps the first candidate of a name, and stops there. -/
def firstNamed (name : String) :
    Visitor (Option Candidate) := fun found candidate =>
  if candidate.name = name then (some candidate, false) else (found, true)

/-- Keeps all candidates of a name, no node twice. -/
def elementsNamed (name : String) :
    Visitor (List Candidate) := fun found candidate =>
  if candidate.name = name &&
    !found.any (fun other => other.node = candidate.node) then
    (found ++ [candidate], true)
  else
    (found, true)

def collectAll : Visitor (List Candidate) := fun found candidate =>
  if found.any (fun other => other.name = candidate.name) then (found, true)
  else (found ++ [candidate], true)

variable {Found : Type}

def offerAll (visitor : Visitor Found) (found : Found) :
    List Candidate → Found × Bool
  | [] => (found, true)
  | candidate :: rest =>
      match visitor found candidate with
      | (found, true) => offerAll visitor found rest
      | (found, false) => (found, false)

end Visitor

/-- Groups of candidates, nearest first. -/
abbrev Candidates := List (Unit → List Candidate)

namespace Candidates

def ofNodes (bindings : Ty.Bindings) (nodes : List Node) : List Candidate :=
  nodes.filterMap fun node => node.declarationName?.map fun name =>
    { name, node, bindings }

def toList (candidates : Candidates) : List Candidate :=
  candidates.flatMap fun group => group ()

variable {Found : Type}

/-- Walks through the groups until the visitor wants no more. -/
def walk (visitor : Visitor Found) (found : Found) : Candidates → Found × Bool
  | [] => (found, true)
  | group :: rest =>
      match visitor.offerAll found (group ()) with
      | (found, true) => walk visitor found rest
      | (found, false) => (found, false)

def first? (candidates : Candidates) (name : String) : Option Candidate :=
  (walk (.firstNamed name) none candidates).1

/-- All candidates of a name, nearest first, no node twice. -/
def named (candidates : Candidates) (name : String) : List Candidate :=
  (walk (.elementsNamed name) [] candidates).1

/-- The nearest candidate of each name, in order. -/
def collect (candidates : Candidates) : List Candidate :=
  (walk .collectAll [] candidates).1

end Candidates

end PklAnalysis

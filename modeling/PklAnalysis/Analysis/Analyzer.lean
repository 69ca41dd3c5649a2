import PklAnalysis.Analysis.Diagnostic
import PklAnalysis.Context
import PklAnalysis.Text.Quoted

/-!
Analyzers and their reports. Analyzers look at the nodes of a document one by
one, each node before those below it.
-/

namespace PklAnalysis

/-- What an analyzer says about one node: diagnostics, and whether to look at
the nodes below, or which part of the node is missing. -/
structure Finding where
  diagnostics : List Diagnostic
  outcome : Node.Required Bool

structure Analyzer where
  name : String
  check : Context → Node → Finding

structure Report where
  diagnostics : List Diagnostic
  /-- Why subtrees were left out. -/
  malformed : List Node.Missing
deriving DecidableEq, Repr

namespace Finding

def goOn (diagnostics : List Diagnostic) : Finding :=
  { diagnostics, outcome := .ok true }

def wantsMore (finding : Finding) : Bool :=
  match finding.outcome with
  | .ok more => more
  | .error _ => false

def missing? (finding : Finding) : Option Node.Missing :=
  match finding.outcome with
  | .ok _ => none
  | .error missing => some missing

end Finding

namespace Report

def ofFindings (findings : List Finding) : Report :=
  { diagnostics := findings.flatMap Finding.diagnostics
    malformed := findings.filterMap Finding.missing? }

instance : Append Report where
  append left right :=
    { diagnostics := left.diagnostics ++ right.diagnostics
      malformed := left.malformed ++ right.malformed }

def empty : Report :=
  { diagnostics := [], malformed := [] }

def keys (report : Report) : List String :=
  report.diagnostics.map Diagnostic.key

def has (report : Report) (key : String) : Bool :=
  report.diagnostics.any fun diagnostic => diagnostic.key = key

end Report

namespace Analyzer

variable (analyzers : List Analyzer) (context : Context)

def findings (node : Node) : List Finding :=
  analyzers.map fun analyzer => analyzer.check context node

/-- Whether to go on below a node: some analyzer wishes to, and none failed. -/
def entered (findings : List Finding) : Bool :=
  findings.any Finding.wantsMore && findings.all fun finding =>
    finding.missing?.isNone

/-- The report on the first `limit` of some nodes and the nodes below them. -/
def walk : Nat → List Node → Report
  | 0, _ => .empty
  | _ + 1, [] => .empty
  | limit + 1, node :: rest =>
      let findings := findings analyzers context node
      .ofFindings findings ++
        walk limit (if entered findings then node.children ++ rest else rest)

/-- The report on a node and all nodes below it, unless the question was
cancelled. -/
def run (root : Node) : Except Failure Report := do
  context.check
  return walk analyzers context root.document.arena.size [root]

def describe : String :=
  s!"DiagnosticsRunner \x7b analyzers: [{names}] \x7d"
where
  names : String :=
    String.intercalate ", " (analyzers.map fun analyzer =>
      Text.quoted analyzer.name)

end Analyzer

end PklAnalysis

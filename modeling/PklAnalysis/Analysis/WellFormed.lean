import PklAnalysis.Analysis.Analyzer
import PklAnalysis.Node.Expression

/-!
The analyzer that reports syntax errors and missing delimiters.
-/

namespace PklAnalysis.Analyzer

def parseErrors (node : Node) : List Diagnostic :=
  if node.kind = .root && node.parent?.isNone then
    node.document.errors.map fun error =>
      .within node error.range .error "syntaxError" [error.message]
  else
    []

/-- The delimiter that a node lacks. A missing closing delimiter is reported
where the node ends. -/
def missingDelimiters (node : Node) : List Diagnostic :=
  match node.missingDelimiter? with
  | none => []
  | some .comma => [.about node .error "missingComma" []]
  | some closer =>
      [.within node (.ofSize node.range.stop 0) .error "missingDelimiter"
        closer.spelling?.toList]

def wellFormed : Analyzer :=
  { name := "syntax"
    check := fun _ node => .goOn (parseErrors node ++ missingDelimiters node) }

end PklAnalysis.Analyzer

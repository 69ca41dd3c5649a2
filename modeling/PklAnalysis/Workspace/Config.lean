import PklAnalysis.Analysis.Annotations
import PklAnalysis.Workspace.Log

/-!
Settings of a workspace.
-/

namespace PklAnalysis

/-- Settings: whether to send messages, how deep inference goes, and which
analyzers run. -/
structure Config where
  verbose : Bool
  maxDepth : Nat
  wellFormed : Bool
  annotations : Bool
deriving DecidableEq, Repr

namespace Config

def default : Config :=
  { verbose := false, maxDepth := Context.defaultDepth, wellFormed := true,
    annotations := true }

def analyzers (config : Config) : List Analyzer :=
  (if config.wellFormed then [.wellFormed] else []) ++
    (if config.annotations then [.annotations] else [])

def logger (config : Config) : Logger :=
  { name := "project", verbose := config.verbose }

def describe (config : Config) : String :=
  s!"Config \x7b verbose: {config.verbose}, max_inference_depth: {config.maxDepth}, analyzers: {toggles config} \x7d"
where
  toggles (config : Config) : String :=
    s!"AnalyzerToggles \x7b syntax: {config.wellFormed}, annotation: {config.annotations} \x7d"

end Config

end PklAnalysis

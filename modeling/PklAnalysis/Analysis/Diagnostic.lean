import PklAnalysis.Messages
import PklAnalysis.Node.Basic

/-!
Diagnostics: what is wrong at a place of a document, as a key and arguments of a
message catalog.
-/

namespace PklAnalysis

namespace Diagnostic

inductive Severity
  | error | warning | info | hint
deriving DecidableEq, Repr

def Severity.name : Severity → String
  | .error => "Error"
  | .warning => "Warning"
  | .info => "Info"
  | .hint => "Hint"

def Severity.code : Severity → Nat
  | .error => 1
  | .warning => 2
  | .info => 3
  | .hint => 4

end Diagnostic

structure Diagnostic where
  file : FileId
  range : Range
  span : Span
  severity : Diagnostic.Severity
  key : String
  args : List String
deriving DecidableEq, Repr

namespace Diagnostic

def within (node : Node) (range : Range) (severity : Severity) (key : String)
    (args : List String) : Diagnostic :=
  { file := node.file, range,
    span := node.document.lines.span range, severity, key, args }

def about (node : Node) (severity : Severity) (key : String)
    (args : List String) : Diagnostic :=
  within node node.range severity key args

def message (messages : Messages) (diagnostic : Diagnostic) : String :=
  messages.format diagnostic.key diagnostic.args

end Diagnostic

end PklAnalysis

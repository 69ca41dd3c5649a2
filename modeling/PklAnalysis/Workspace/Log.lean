import PklAnalysis.Text.Quoted

/-!
Messages for the user, tagged with the component that sends them.
-/

namespace PklAnalysis

namespace Log

inductive Level
  | error | warning | info | log
deriving DecidableEq, Repr

def Level.name : Level → String
  | .error => "Error"
  | .warning => "Warning"
  | .info => "Info"
  | .log => "Log"

def Level.code : Level → Nat
  | .error => 1
  | .warning => 2
  | .info => 3
  | .log => 4

structure Message where
  level : Level
  text : String
deriving DecidableEq, Repr

end Log

/-- A component that sends messages, if it is asked to be verbose. -/
structure Logger where
  name : String
  verbose : Bool
deriving DecidableEq, Repr

namespace Logger

/-- The messages that result from sending one: the tagged message, or none. -/
def send (logger : Logger) (level : Log.Level) (text : String) :
    List Log.Message :=
  if logger.verbose then [{ level, text := s!"[{logger.name}] {text}" }] else []

def describe (logger : Logger) : String :=
  s!"ClientLogger \x7b name: {Text.quoted logger.name}, verbose: {logger.verbose} \x7d"

end Logger

end PklAnalysis

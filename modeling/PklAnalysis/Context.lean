import PklAnalysis.Base.Basic
import PklAnalysis.Uri

/-!
The context of a question: the base module, the modules known by uri, whether
the question still matters, and how deep inference may go.
-/

namespace PklAnalysis

/-- Why a question has no answer. -/
inductive Failure
  /-- What the question was about has changed meanwhile. -/
  | cancelled
  | unknownDocument (uri : String)
deriving DecidableEq, Repr

def Failure.message : Failure → String
  | .cancelled => "request cancelled"
  | .unknownDocument uri => s!"unknown document: {uri}"

structure Context where
  base : Base
  /-- Documents by uri; no uri occurs twice. -/
  modules : List (String × Document)
  cancelled : Bool
  maxDepth : Nat

namespace Context

/-- How deep inference goes unless told otherwise. -/
def defaultDepth : Nat := 32

def ofBase (base : Base) : Context :=
  { base, modules := [], cancelled := false, maxDepth := defaultDepth }

/-- Documents by uri with one more; a document of the same uri gives way. -/
def insertModule (modules : List (String × Document)) (document : Document) :
    List (String × Document) :=
  (modules.filter fun entry => entry.1 ≠ document.uri) ++
    [(document.uri, document)]

def withDocument (context : Context) (document : Document) : Context :=
  { context with modules := insertModule context.modules document }

def document? (context : Context) (uri : String) : Option Document :=
  (context.modules.find? fun entry => entry.1 = uri).map Prod.snd

def check (context : Context) : Except Failure Unit :=
  if context.cancelled then .error .cancelled else .ok ()

/-- The root of the module that a reference in a document stands for. -/
def import? (context : Context) (document : Document) (reference : String) :
    Option Node :=
  if reference = Base.uri then some context.base.root
  else (context.document? (Uri.join document.uri reference)).map Document.root

/-- How much depth is left before the first question: nothing is left below
zero. -/
def budget (context : Context) : Nat :=
  context.maxDepth + 1

def documents (context : Context) : List Document :=
  context.base.document :: context.modules.map Prod.snd

def describe (context : Context) : String :=
  s!"Context \x7b modules: {context.modules.length}, cancelled: {context.cancelled}, max_depth: {context.maxDepth} \x7d"

end Context

end PklAnalysis

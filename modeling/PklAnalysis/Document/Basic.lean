import PklAnalysis.Document.Arena
import PklAnalysis.Grammar.Parse
import PklAnalysis.Text.Lines
import PklAnalysis.Text.Quoted

/-!
Documents: a text with its parse. Two documents are equal exactly when their
sources are.
-/

namespace PklAnalysis

/-- The number of a file. The base module is file zero. -/
structure FileId where
  number : Nat
deriving DecidableEq, Repr

namespace FileId

def base : FileId := ⟨0⟩

def text (file : FileId) : String :=
  s!"file#{file.number}"

end FileId

/-- A text with a place in the world. The revision tells apart documents that
were made from the same file at different times. -/
structure Source where
  file : FileId
  revision : Nat
  uri : String
  version : Int
  text : String
deriving DecidableEq, Repr

structure Document where
  source : Source
  parse : Grammar.Parse
  arena : Arena
  lines : Lines
  parse_eq : Grammar.parse source.text = .ok parse
  arena_eq : arena = .ofTree parse.tree
  lines_eq : lines = .ofText source.text

namespace Document

theorem ext_source {left right : Document} (h : left.source = right.source) :
    left = right := by
  obtain ⟨source, parse, arena, lines, parse_eq, arena_eq, lines_eq⟩ := left
  obtain ⟨_, parse', _, _, parse_eq', arena_eq', lines_eq'⟩ := right
  obtain rfl : source = _ := h
  obtain rfl : parse = parse' := Except.ok.inj (parse_eq.symm.trans parse_eq')
  subst arena_eq arena_eq' lines_eq lines_eq'
  rfl

instance : DecidableEq Document := fun left right =>
  if h : left.source = right.source then .isTrue (ext_source h)
  else .isFalse fun same => h (congrArg source same)

/-- The document of a source, unless it has a string literal that cannot be
read. -/
def ofSource (source : Source) : Except Token.Literal.Unreadable Document :=
  match h : Grammar.parse source.text with
  | .error reason => .error reason
  | .ok parse =>
      .ok
        { source
          parse
          arena := .ofTree parse.tree
          lines := .ofText source.text
          parse_eq := h
          arena_eq := rfl
          lines_eq := rfl }

def file (document : Document) : FileId := document.source.file

def uri (document : Document) : String := document.source.uri

def version (document : Document) : Int := document.source.version

def text (document : Document) : String := document.source.text

def errors (document : Document) : List SyntaxError := document.parse.errors

def describe (document : Document) : String :=
  s!"Document \x7b file: FileId({document.file.number}), uri: {Text.quoted document.uri}, version: {document.version}, .. \x7d"

end Document

end PklAnalysis

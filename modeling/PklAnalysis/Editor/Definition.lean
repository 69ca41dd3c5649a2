import PklAnalysis.Editor.Reference

/-!
Where the thing under the cursor is declared.
-/

namespace PklAnalysis

structure Definition where
  file : FileId
  uri : String
  range : Range
  span : Span
  kind : Node.Kind
  name? : Option String
deriving DecidableEq, Repr

namespace Definition

def ofNode (node : Node) : Definition :=
  { file := node.file
    uri := node.document.uri
    range := node.nameRange
    span := node.document.lines.span node.nameRange
    kind := node.kind
    name? := node.declarationName? }

def at? (context : Context) (document : Document) (offset : Nat) :
    Option Definition := do
  let (node, _) ← (← Reference.at? document offset).target? context document
  return ofNode node

end Definition

end PklAnalysis

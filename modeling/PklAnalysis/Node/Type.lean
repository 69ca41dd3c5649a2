import PklAnalysis.Node.Literal

/-!
Parts of types as written in source text.
-/

namespace PklAnalysis.Node

def identifiers (node : Node) : List Terminal :=
  node.terminals.filter fun terminal => terminal.kind = .identifier

def nameParts (node : Node) : List String :=
  node.identifiers.map Terminal.name

def qualifiedText (node : Node) : String :=
  String.intercalate "." node.nameParts

def typeName (node : Node) : Required Node :=
  node.required (· = .qualifiedIdent) "type name"

def types (node : Node) : List Node :=
  node.childrenWhere Kind.isType

def typeArgumentList? (node : Node) : Option Node :=
  node.childOf? .typeArgumentList

def typeArguments (node : Node) : List Node :=
  (node.typeArgumentList?.map types).getD []

/-- The type under a nullable or parenthesized type, or after the colon of a
type clause. -/
def innerType (node : Node) : Required Node :=
  node.required Kind.isType "type"

def leftType (node : Node) : Required Node :=
  node.required Kind.isType "left type"

def rightType (node : Node) : Required Node :=
  node.require "right type" node.types[1]?

/-- The alternatives of a union, where unions directly under unions are opened
at most `limit` deep. -/
def alternativesUpTo : Nat → Node → List Node
  | 0, _ => []
  | limit + 1, node =>
      node.types.flatMap fun member =>
        if member.kind = .unionType then alternativesUpTo limit member else
          [member]

def alternatives (node : Node) : List Node :=
  alternativesUpTo node.document.arena.size node

def arrowOffset? (node : Node) : Option Nat :=
  (node.terminal? .arrow).map fun terminal => terminal.range.start

def parameterTypes (node : Node) : List Node :=
  node.types.filter fun member =>
    node.arrowOffset?.all fun arrow => member.range.start < arrow

def resultType (node : Node) : Required Node :=
  match node.arrowOffset? with
  | none => .error (.terminal node.kind "->" node.range)
  | some arrow =>
      node.require "return type" (node.types.find? fun member =>
        arrow ≤ member.range.start)

def typeLiteral (node : Node) : Required Node :=
  node.required Kind.isStringLiteral "string literal"

def typeLiteralValue? (node : Node) : Option String :=
  node.typeLiteral.toOption.bind stringValue?

end PklAnalysis.Node

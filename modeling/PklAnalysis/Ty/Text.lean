import PklAnalysis.Ty.Basic

/-!
Types as text.
-/

namespace PklAnalysis.Ty

def className (decl : Node) : String :=
  decl.declarationName?.getD "<class>"

/-- The name of a module: the one it declares, or else the last piece of its
uri. -/
def moduleName (root : Node) : String :=
  root.moduleName?.getD (Node.uriStem root.document.uri)

def isNullClass : Ty → Bool
  | .classType decl [] =>
      decl.declarationName? = some "Null" && decl.file = .base
  | _ => false

def needsParens : Ty → Bool
  | .union _ | .function _ _ => true
  | _ => false

def nullableText (ty : Ty) (text : String) : String :=
  if ty.needsParens then s!"({text})?" else s!"{text}?"

/-- A union, given its members and their texts. A union of two types, one of
which is `Null`, is written with a question mark. -/
def unionText : List Ty → List String → String
  | [left, right], [leftText, rightText] =>
      if left.isNullClass then right.nullableText rightText
      else if right.isNullClass then left.nullableText leftText
      else s!"{leftText}|{rightText}"
  | _, texts => String.intercalate "|" texts

mutual
def text : Ty → String
  | .unknown => "unknown"
  | .nothing => "nothing"
  | .classType decl args =>
      match texts args with
      | [] => className decl
      | args => className decl ++ "<" ++ String.intercalate ", " args ++ ">"
  | .moduleType root => moduleName root
  | .union members => unionText members (texts members)
  | .literal text => "\"" ++ text ++ "\""
  | .function params result =>
      "(" ++ String.intercalate ", " (texts params) ++ ") -> " ++ result.text
  | .variable param => param.declarationName?.getD "?"
termination_by structural ty => ty

def texts : List Ty → List String
  | [] => []
  | ty :: rest => ty.text :: texts rest
termination_by structural types => types
end

end PklAnalysis.Ty

import PklAnalysis.Editor.Reference
import PklAnalysis.Ty.Text

/-!
What to show about the thing under the cursor: a signature and the
documentation.
-/

namespace PklAnalysis

structure Hover where
  contents : String
  range : Range
  span : Span
deriving DecidableEq, Repr

namespace Hover

def trimmedText (node : Node) : String :=
  String.ofList (Text.trim node.slot.tree.text.toList)

def classSignature (name : String) (decl : Node) : String :=
  modifier ++ "class " ++ name ++ params ++ parent
where
  modifier : String :=
    if decl.hasModifier .abstractKw then "abstract "
    else if decl.hasModifier .openKw then "open "
    else ""
  params : String :=
    match decl.typeParameters with
    | [] => ""
    | params =>
        "<" ++
          String.intercalate ", " (params.filterMap Node.declarationName?) ++
            ">"
  parent : String :=
    match decl.supertype? with
    | some supertype => " extends " ++ trimmedText supertype
    | none => ""

def typeAliasSignature (name : String) (decl : Node) : String :=
  match decl.aliasedType with
  | .ok aliased => "typealias " ++ name ++ " = " ++ trimmedText aliased
  | .error _ => "typealias " ++ name

variable (context : Context) (bindings : Ty.Bindings)

def typeText (decl : Node) : String :=
  (context.declType bindings decl).text

def methodSignature (name : String) (decl : Node) : String :=
  "function " ++ name ++ "(" ++ String.intercalate ", " params ++ "): " ++
    typeText context bindings decl
where
  params : List String :=
    decl.parameters.map fun param =>
      param.parameterName?.getD "" ++ ": " ++ typeText context bindings param

def importedUri (clause : Node) : String :=
  (clause.clauseUri.toOption.bind Node.uriText?).getD ""

def signature (decl : Node) : String :=
  let name := decl.declarationName?.getD ""
  match decl.kind with
  | .classDecl => classSignature name decl
  | .typeAlias => typeAliasSignature name decl
  | .classMethod | .objectMethod => methodSignature context bindings name decl
  | .classProperty | .objectProperty | .parameter | .typedIdentifier =>
      name ++ ": " ++ typeText context bindings decl
  | .importClause => "import \"" ++ importedUri decl ++ "\" as " ++ name
  | .root => "module " ++ decl.moduleName?.getD decl.document.uri
  | .typeParameter => "type parameter " ++ name
  | kind => kind.name ++ " " ++ name

/-- The signature as code, and the documentation below a line. -/
def contentsOf (decl : Node) : String :=
  let code := "```pkl\n" ++ signature context bindings decl ++ "\n```\n"
  match decl.docComment? with
  | some doc => code ++ "\n---\n\n" ++ doc ++ "\n"
  | none => code

def at? (document : Document) (offset : Nat) : Option Hover := do
  let reference ← Reference.at? document offset
  let (decl, bindings) ← reference.target? context document
  return {
    contents := contentsOf context bindings decl
    range := reference.range
    span := document.lines.span reference.range }

end Hover

end PklAnalysis

import PklAnalysis.Analysis.Analyzer
import PklAnalysis.Analysis.WellFormed
import PklAnalysis.Inference.Subtype

/-!
The analyzer that checks annotations: each must name a class that is not
abstract and extends `Annotation`.
-/

namespace PklAnalysis.Analyzer

def namedClass? (context : Context) (name : Node) : Option Node :=
  (Lookup.typeName? context name).filter fun decl => decl.kind = .classDecl

/-- What is wrong with a class as an annotation. The class is named by `name` in
`type`. -/
def classProblems (context : Context) (type name decl : Node) :
    List Diagnostic :=
  let problem (key : String) : Diagnostic :=
    .about type .error key [name.qualifiedText]
  (if decl.hasModifier .abstractKw then [problem "typeIsAbstract"] else []) ++
    (if context.isSubtype (.ofClass decl) (context.base.type "Annotation") then
      []
      else [problem "notAnnotation"])

def typeProblems (context : Context) (type : Node) : Finding :=
  if type.kind = .declaredType then
    match type.typeName with
    | .error missing => { diagnostics := [], outcome := .error missing }
    | .ok name =>
        match namedClass? context name with
        | none =>
            .goOn [.about type .error "cannotFindType" [name.qualifiedText]]
        | some decl => .goOn (classProblems context type name decl)
  else
    .goOn [.about type .error "annotationHasNoName" []]

def annotations : Analyzer :=
  { name := "annotation"
    check := fun context node =>
      if node.kind = .annotationClause then
        match node.annotationType? with
        | some type => typeProblems context type
        | none => .goOn []
      else
        .goOn [] }

def defaults : List Analyzer :=
  [wellFormed, annotations]

end PklAnalysis.Analyzer

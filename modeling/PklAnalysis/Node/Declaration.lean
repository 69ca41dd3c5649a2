import PklAnalysis.Node.Type

/-!
Parts of declarations: modules, classes, members, parameters and object bodies.
-/

namespace PklAnalysis.Node

def Kind.isProperty : Kind → Bool
  | .classProperty | .objectProperty => true
  | _ => false

def Kind.isMethod : Kind → Bool
  | .classMethod | .objectMethod => true
  | _ => false

def expr? (node : Node) : Option Node :=
  node.child? Kind.isExpr

def exprs (node : Node) : List Node :=
  node.childrenWhere Kind.isExpr

def modifierList? (node : Node) : Option Node :=
  node.childOf? .modifierList

def hasModifier (node : Node) (modifier : Token.Kind) : Bool :=
  node.modifierList?.any fun list => list.hasTerminal modifier

def modifiers (node : Node) : List Token.Kind :=
  node.terminals.map Terminal.kind

def annotations (node : Node) : List Node :=
  node.childrenOf .annotationClause

def header? (node : Node) : Option Node :=
  node.childOf? .moduleHeader

def headerDecl? (node : Node) : Option Node :=
  node.childOf? .moduleDecl

def headerClause? (node : Node) : Option Node :=
  node.childOf? .extendsAmendsClause

def moduleDecl? (node : Node) : Option Node :=
  node.header?.bind headerDecl?

def moduleClause? (node : Node) : Option Node :=
  node.header?.bind headerClause?

def qualifiedName? (node : Node) : Option Node :=
  node.childOf? .qualifiedIdent

def moduleName? (node : Node) : Option String := do
  let name ← (← node.moduleDecl?).qualifiedName?
  return name.qualifiedText

def isAmends (node : Node) : Bool := node.hasTerminal .amendsKw

def isExtends (node : Node) : Bool := node.hasTerminal .extendsKw

def isAmending (node : Node) : Bool :=
  node.moduleClause?.any isAmends

def imports (node : Node) : List Node :=
  node.childrenOf .importClause

def moduleMembers (node : Node) : List Node :=
  node.childrenWhere Kind.isClassMember

def clauseUri (node : Node) : Required Node :=
  node.required (· = .moduleUri) "module uri"

def uriLiteral? (node : Node) : Option Node :=
  node.child? Kind.isStringLiteral

/-- The text of a uri, if it is constant. -/
def uriText? (node : Node) : Option String :=
  node.uriLiteral?.bind stringValue?

def isGlobImport (node : Node) : Bool := node.hasTerminal .importStarKw

def importAlias? (node : Node) : Option Terminal :=
  node.terminal? .identifier

/-- The last piece of a uri, without the ending `.pkl`. -/
def uriStem (uri : String) : String :=
  let last :=
    (Text.splitAt (fun c => c = '/' || c = ':') uri.toList).getLastD []
  String.ofList ((Text.before? ".pkl".toList last).getD last)

/-- The name that an import brings into scope: the one after `as`, or else the
last piece of the uri. -/
def importName? (node : Node) : Option String :=
  match node.importAlias? with
  | some terminal => some terminal.name
  | none => do
      let stem := uriStem (← (← node.clauseUri.toOption).uriText?)
      if stem.isEmpty then none else some stem

def typeParameterList? (node : Node) : Option Node :=
  node.childOf? .typeParameterList

def typeParameters (node : Node) : List Node :=
  (node.typeParameterList?.map fun list => list.childrenOf .typeParameter).getD
    []

def headerExtends? (node : Node) : Option Node :=
  node.childOf? .classHeaderExtends

def headerSupertype (node : Node) : Required Node :=
  node.required Kind.isType "supertype"

def supertype? (node : Node) : Option Node := do
  (← node.headerExtends?).headerSupertype.toOption

def classBody? (node : Node) : Option Node :=
  node.childOf? .classBody

def properties (node : Node) : List Node :=
  node.childrenWhere Kind.isProperty

def methods (node : Node) : List Node :=
  node.childrenWhere Kind.isMethod

def classProperties (node : Node) : List Node :=
  (node.classBody?.map properties).getD []

def classMethods (node : Node) : List Node :=
  (node.classBody?.map methods).getD []

def aliasedType (node : Node) : Required Node :=
  node.required Kind.isType "aliased type"

/-- How the subtypes of a generic type depend on those of an argument. -/
inductive Variance
  | invariant | covariant | contravariant
deriving DecidableEq, Repr

def Variance.name : Variance → String
  | .invariant => "Invariant"
  | .covariant => "Covariant"
  | .contravariant => "Contravariant"

def variance (node : Node) : Variance :=
  if node.hasTerminal .outKw then .covariant
  else if node.hasTerminal .inKw then .contravariant
  else .invariant

def typeClause? (node : Node) : Option Node :=
  node.childOf? .typeClause

def declaredType? (node : Node) : Option Node := do
  (← node.typeClause?).innerType.toOption

def objectBodies (node : Node) : List Node :=
  node.childrenOf .objectBody

def objectBody? (node : Node) : Option Node :=
  node.childOf? .objectBody

def isAmendment (node : Node) : Bool :=
  node.expr?.isNone && !node.objectBodies.isEmpty

def parameterList (node : Node) : Required Node :=
  node.required (· = .parameterList) "parameter list"

def directParameters (node : Node) : List Node :=
  node.childrenOf .parameter

def parameters (node : Node) : List Node :=
  (node.parameterList.toOption.map directParameters).getD []

def typedIdentifier? (node : Node) : Option Node :=
  node.childOf? .typedIdentifier

/-- Whether a parameter binds no name. -/
def isUnderscore (node : Node) : Bool := node.hasTerminal .underscore

def parameterName? (node : Node) : Option String := do
  (← node.typedIdentifier?).name.toOption

def parameterType? (node : Node) : Option Node := do
  (← node.typedIdentifier?).declaredType?

def annotationType? (node : Node) : Option Node :=
  node.child? Kind.isType

def objectMembers (node : Node) : List Node :=
  node.childrenWhere Kind.isObjectMember

def entryKey (node : Node) : Required Node :=
  node.required Kind.isExpr "key"

def entryValue? (node : Node) : Option Node :=
  node.exprs[1]?

def elementExpr (node : Node) : Required Node :=
  node.required Kind.isExpr "element"

def spreadExpr (node : Node) : Required Node :=
  node.required Kind.isExpr "spread operand"

def isNullableSpread (node : Node) : Bool := node.hasTerminal .questionSpread

/-- What a `for` generator iterates over. -/
def iterable (node : Node) : Required Node :=
  node.required Kind.isExpr "iterable"

def keyParameter? (node : Node) : Option Node :=
  match node.directParameters with
  | [key, _] => some key
  | _ => none

def valueParameter (node : Node) : Required Node :=
  node.require "value parameter" node.directParameters.getLast?

def condition (node : Node) : Required Node :=
  node.required Kind.isExpr "condition"

def elseBody? (node : Node) : Option Node :=
  node.objectBodies[1]?

/-- The name that a declaration brings into its scope. A module has the last
part of its name. -/
def declarationName? (node : Node) : Option String :=
  match node.kind with
  | .classDecl | .typeAlias | .classProperty | .classMethod | .objectProperty
  | .objectMethod | .typedIdentifier | .typeParameter => node.name.toOption
  | .parameter => node.parameterName?
  | .importClause => node.importName?
  | .root => do
      let name ← node.moduleName?
      return String.ofList ((Text.splitAt (· = '.') name.toList).getLastD [])
  | _ => none

end PklAnalysis.Node

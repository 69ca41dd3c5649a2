/-!
Kinds of tree nodes: the constructs of the language, and `error` for tokens set
aside by recovery.
-/

namespace PklAnalysis.Node

inductive Kind
  -- modules, classes and their members
  | root | moduleHeader | moduleDecl | extendsAmendsClause | importClause
  | moduleUri | qualifiedIdent | classDecl | classHeaderExtends | classBody
  | typeAlias | classProperty | classMethod | annotationClause | modifierList
  | typeParameterList | typeParameter | typeArgumentList | parameterList
  | parameter | typedIdentifier | typeClause
  -- object bodies
  | objectBody | objectProperty | objectMethod | objectEntry | objectElement
  | objectSpread | forGenerator | whenGenerator
  -- types
  | unknownType | nothingType | moduleType | stringLiteralType | declaredType
  | parenthesizedType | nullableType | unionType | functionType
  -- expressions and their parts
  | thisExpr | outerExpr | moduleExpr | nullLiteral | trueLiteral | falseLiteral
  | intLiteral | floatLiteral | throwExpr | traceExpr | importExpr | readExpr
  | unqualifiedAccessExpr | stringLiteral | mlStringLiteral | stringPart
  | newExpr | amendExpr | superAccessExpr | superSubscriptExpr
  | qualifiedAccessExpr | subscriptExpr | nonNullExpr | unaryMinusExpr
  | logicalNotExpr | additiveExpr | multiplicativeExpr | comparisonExpr
  | equalityExpr | exponentiationExpr | logicalAndExpr | logicalOrExpr
  | nullCoalesceExpr | typeTestExpr | pipeExpr | ifExpr | letExpr
  | functionLiteral | parenthesizedExpr | argumentList
  -- tokens set aside by recovery
  | error
deriving DecidableEq, Repr, Inhabited

namespace Kind

/-- Every kind but `error`. -/
def all : List Kind :=
  [.root, .moduleHeader, .moduleDecl, .extendsAmendsClause, .importClause,
   .moduleUri, .qualifiedIdent, .classDecl, .classHeaderExtends, .classBody,
   .typeAlias, .classProperty, .classMethod, .annotationClause, .modifierList,
   .typeParameterList, .typeParameter, .typeArgumentList, .parameterList,
   .parameter, .typedIdentifier, .typeClause, .objectBody, .objectProperty,
   .objectMethod, .objectEntry, .objectElement, .objectSpread, .forGenerator,
   .whenGenerator, .unknownType, .nothingType, .moduleType, .stringLiteralType,
   .declaredType, .parenthesizedType, .nullableType, .unionType, .functionType,
   .thisExpr, .outerExpr, .moduleExpr, .nullLiteral, .trueLiteral,
   .falseLiteral, .intLiteral, .floatLiteral, .throwExpr, .traceExpr,
   .importExpr, .readExpr, .unqualifiedAccessExpr, .stringLiteral,
   .mlStringLiteral, .stringPart, .newExpr, .amendExpr, .superAccessExpr,
   .superSubscriptExpr, .qualifiedAccessExpr, .subscriptExpr, .nonNullExpr,
   .unaryMinusExpr, .logicalNotExpr, .additiveExpr, .multiplicativeExpr,
   .comparisonExpr, .equalityExpr, .exponentiationExpr, .logicalAndExpr,
   .logicalOrExpr, .nullCoalesceExpr, .typeTestExpr, .pipeExpr, .ifExpr,
   .letExpr, .functionLiteral, .parenthesizedExpr, .argumentList]

def name : Kind → String
  | .root => "Module"
  | .moduleHeader => "ModuleHeader"
  | .moduleDecl => "ModuleDecl"
  | .extendsAmendsClause => "ExtendsAmendsClause"
  | .importClause => "ImportClause"
  | .moduleUri => "ModuleUri"
  | .qualifiedIdent => "QualifiedIdent"
  | .classDecl => "Class"
  | .classHeaderExtends => "ClassHeaderExtends"
  | .classBody => "ClassBody"
  | .typeAlias => "TypeAlias"
  | .classProperty => "ClassProperty"
  | .classMethod => "ClassMethod"
  | .annotationClause => "Annotation"
  | .modifierList => "ModifierList"
  | .typeParameterList => "TypeParameterList"
  | .typeParameter => "TypeParameter"
  | .typeArgumentList => "TypeArgumentList"
  | .parameterList => "ParameterList"
  | .parameter => "Parameter"
  | .typedIdentifier => "TypedIdentifier"
  | .typeClause => "TypeAnnotation"
  | .objectBody => "ObjectBody"
  | .objectProperty => "ObjectProperty"
  | .objectMethod => "ObjectMethod"
  | .objectEntry => "ObjectEntry"
  | .objectElement => "ObjectElement"
  | .objectSpread => "ObjectSpread"
  | .forGenerator => "ForGenerator"
  | .whenGenerator => "WhenGenerator"
  | .unknownType => "UnknownType"
  | .nothingType => "NothingType"
  | .moduleType => "ModuleType"
  | .stringLiteralType => "StringLiteralType"
  | .declaredType => "DeclaredType"
  | .parenthesizedType => "ParenthesizedType"
  | .nullableType => "NullableType"
  | .unionType => "UnionType"
  | .functionType => "FunctionType"
  | .thisExpr => "ThisExpr"
  | .outerExpr => "OuterExpr"
  | .moduleExpr => "ModuleExpr"
  | .nullLiteral => "NullLiteral"
  | .trueLiteral => "TrueLiteral"
  | .falseLiteral => "FalseLiteral"
  | .intLiteral => "IntLiteral"
  | .floatLiteral => "FloatLiteral"
  | .throwExpr => "ThrowExpr"
  | .traceExpr => "TraceExpr"
  | .importExpr => "ImportExpr"
  | .readExpr => "ReadExpr"
  | .unqualifiedAccessExpr => "UnqualifiedAccessExpr"
  | .stringLiteral => "StringLiteral"
  | .mlStringLiteral => "MlStringLiteral"
  | .stringPart => "StringPart"
  | .newExpr => "NewExpr"
  | .amendExpr => "AmendExpr"
  | .superAccessExpr => "SuperAccessExpr"
  | .superSubscriptExpr => "SuperSubscriptExpr"
  | .qualifiedAccessExpr => "QualifiedAccessExpr"
  | .subscriptExpr => "SubscriptExpr"
  | .nonNullExpr => "NonNullExpr"
  | .unaryMinusExpr => "UnaryMinusExpr"
  | .logicalNotExpr => "LogicalNotExpr"
  | .additiveExpr => "AdditiveExpr"
  | .multiplicativeExpr => "MultiplicativeExpr"
  | .comparisonExpr => "ComparisonExpr"
  | .equalityExpr => "EqualityExpr"
  | .exponentiationExpr => "ExponentiationExpr"
  | .logicalAndExpr => "LogicalAndExpr"
  | .logicalOrExpr => "LogicalOrExpr"
  | .nullCoalesceExpr => "NullCoalesceExpr"
  | .typeTestExpr => "TypeTestExpr"
  | .pipeExpr => "PipeExpr"
  | .ifExpr => "IfExpr"
  | .letExpr => "LetExpr"
  | .functionLiteral => "FunctionLiteral"
  | .parenthesizedExpr => "ParenthesizedExpr"
  | .argumentList => "ArgumentList"
  | .error => "Error"

/-- Writes a name of capitalized words in capitals with underscores between the
words. -/
def capitals : List Char → List Char
  | [] => []
  | c :: rest =>
      c.toUpper :: rest.flatMap fun d => if d.isUpper then ['_', d] else
        [d.toUpper]

def listingName (kind : Kind) : String :=
  String.ofList (capitals kind.name.toList)

def isExpr : Kind → Bool
  | .thisExpr | .outerExpr | .moduleExpr | .nullLiteral | .trueLiteral
  | .falseLiteral | .intLiteral | .floatLiteral | .throwExpr | .traceExpr
  | .importExpr | .readExpr | .unqualifiedAccessExpr | .stringLiteral
  | .mlStringLiteral | .newExpr | .amendExpr | .superAccessExpr
  | .superSubscriptExpr | .qualifiedAccessExpr | .subscriptExpr | .nonNullExpr
  | .unaryMinusExpr | .logicalNotExpr | .additiveExpr | .multiplicativeExpr
  | .comparisonExpr | .equalityExpr | .exponentiationExpr | .logicalAndExpr
  | .logicalOrExpr | .nullCoalesceExpr | .typeTestExpr | .pipeExpr | .ifExpr
  | .letExpr | .functionLiteral | .parenthesizedExpr => true
  | _ => false

def isType : Kind → Bool
  | .unknownType | .nothingType | .moduleType | .stringLiteralType
  | .declaredType | .parenthesizedType | .nullableType | .unionType
  | .functionType => true
  | _ => false

def isBinary : Kind → Bool
  | .additiveExpr | .multiplicativeExpr | .comparisonExpr | .equalityExpr
  | .exponentiationExpr | .logicalAndExpr | .logicalOrExpr | .nullCoalesceExpr
  | .pipeExpr => true
  | _ => false

def isClassMember : Kind → Bool
  | .classDecl | .typeAlias | .classProperty | .classMethod => true
  | _ => false

def isObjectMember : Kind → Bool
  | .objectProperty | .objectMethod | .objectEntry | .objectElement
  | .objectSpread | .forGenerator | .whenGenerator => true
  | _ => false

end Kind

end PklAnalysis.Node

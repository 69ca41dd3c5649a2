import PklAnalysis.Node.Expression

/-!
The named parts of every construct, for listings of a tree. A listing names only
the parts that are there, and the required parts that are not.
-/

namespace PklAnalysis.Node

inductive Part
  | node (node : Node)
  | nodes (nodes : List Node)
  | text (text : String)
  | texts (texts : List String)
  | holds
  | missing (reason : Missing)

namespace Part

/-- Parts with their names. -/
abbrev Named := List (String × Part)

def ofNode? (name : String) : Option Node → Named
  | some found => [(name, .node found)]
  | none => []

def ofNodes (name : String) : List Node → Named
  | [] => []
  | found => [(name, .nodes found)]

def ofText? (name : String) : Option String → Named
  | some found => [(name, .text found)]
  | none => []

def ofTexts (name : String) : List String → Named
  | [] => []
  | found => [(name, .texts found)]

def ofBool (name : String) (holds : Bool) : Named :=
  if holds then [(name, .holds)] else []

def ofRequired (name : String) : Required Node → Named
  | .ok found => [(name, .node found)]
  | .error reason => [(name, .missing reason)]

def ofRequiredText (name : String) : Required String → Named
  | .ok found => [(name, .text found)]
  | .error reason => [(name, .missing reason)]

end Part

open PklAnalysis.Node.Part

def modifierParts (node : Node) (modifiers : List (String × Token.Kind)) :
    Named :=
  modifiers.flatMap fun (name, modifier) =>
    ofBool name (node.hasModifier modifier)

def decorationParts (node : Node) : Named :=
  ofNode? "modifiers" node.modifierList? ++
    ofNodes "annotations" node.annotations

def typeParameterParts (node : Node) : Named :=
  ofNode? "type_parameter_list" node.typeParameterList? ++
    ofNodes "type_parameters" node.typeParameters

def declaredNameParts (node : Node) : Named :=
  ofRequiredText "name_" node.name

def moduleParts (node : Node) : Named :=
  ofNode? "header" node.header? ++ ofNodes "imports" node.imports ++
    ofNodes "classes" (node.childrenOf .classDecl) ++
    ofNodes "type_aliases" (node.childrenOf .typeAlias) ++
    ofNodes "properties" node.properties ++ ofNodes "methods" node.methods ++
    ofText? "name" node.moduleName? ++
      ofNode? "extends_amends" node.moduleClause? ++
    ofBool "is_amend" node.isAmending ++ ofNode? "decl" node.moduleDecl? ++
    ofNodes "members" node.moduleMembers

def importParts (node : Node) : Named :=
  ofBool "is_glob" node.isGlobImport ++ ofRequired "uri" node.clauseUri ++
    ofText? "alias" (node.importAlias?.map Terminal.text) ++
    ofText? "binding_name" node.importName?

def classParts (node : Node) : Named :=
  node.decorationParts ++ node.typeParameterParts ++
    ofNode? "header_extends" node.headerExtends? ++
      ofNode? "body" node.classBody? ++
    node.modifierParts
      [("is_abstract", .abstractKw), ("is_open", .openKw),
        ("is_external", .externalKw)] ++
    ofNode? "supertype" node.supertype? ++
      ofNodes "properties" node.classProperties ++
    ofNodes "methods" node.classMethods ++ node.declaredNameParts

def propertyParts (node : Node) : Named :=
  node.decorationParts ++ ofNode? "type_annotation" node.typeClause? ++
    ofNode? "expr" node.expr? ++ ofNodes "object_bodies" node.objectBodies ++
    node.modifierParts
      [("is_local", .localKw), ("is_hidden", .hiddenKw), ("is_fixed", .fixedKw),
       ("is_const", .constKw), ("is_external", .externalKw),
         ("is_abstract", .abstractKw)] ++
    ofNode? "declared_type" node.declaredType? ++
      ofBool "is_amend" node.isAmendment ++
    node.declaredNameParts

def methodParts (node : Node) : Named :=
  node.decorationParts ++ node.typeParameterParts ++
    ofRequired "parameter_list" node.parameterList ++
    ofNode? "type_annotation" node.typeClause? ++ ofNode? "body" node.expr? ++
    node.modifierParts
      [("is_abstract", .abstractKw), ("is_external", .externalKw),
        ("is_local", .localKw)] ++
    ofNodes "parameters" node.parameters ++
      ofNode? "return_type" node.declaredType? ++
    node.declaredNameParts

def objectBodyParts (node : Node) : Named :=
  ofNodes "parameters" node.directParameters ++
    ofNodes "properties" node.properties ++
    ofNodes "methods" node.methods ++
      ofNodes "entries" (node.childrenOf .objectEntry) ++
    ofNodes "elements" (node.childrenOf .objectElement) ++
    ofNodes "for_generators" (node.childrenOf .forGenerator) ++
    ofNodes "when_generators" (node.childrenOf .whenGenerator) ++
    ofNodes "members" node.objectMembers

def forGeneratorParts (node : Node) : Named :=
  ofNodes "parameters" node.directParameters ++
    ofRequired "iterable" node.iterable ++
    ofNode? "body" node.objectBody? ++
      ofNode? "key_parameter" node.keyParameter? ++
    ofRequired "value_parameter" node.valueParameter

def accessParts (node : Node) : Named :=
  ofNode? "argument_list" node.argumentList? ++
    ofRequiredText "identifier" (node.identifier.map Terminal.text) ++
    ofBool "is_property_access" node.isPropertyAccess

def stringLiteralParts (node : Node) : Named :=
  ofNodes "parts" node.parts ++
    ofBool "is_multiline" (node.kind = .mlStringLiteral) ++
    ofText? "value" node.stringValue?

def binaryParts (node : Node) : Named :=
  ofRequired "left" node.leftOperand ++ ofRequired "right" node.rightOperand ++
    ofRequiredText "operator" (node.operator.map Terminal.text)

/-- Sixteen hexadecimal digits of the bits of a floating-point number. -/
def bitsText (bits : Nat) : String :=
  let digits := Nat.toDigits 16 bits
  String.ofList (List.replicate (16 - digits.length) '0' ++ digits)

def declarationParts? (node : Node) : Option Named :=
  match node.kind with
  | .root => node.moduleParts
  | .moduleHeader =>
      some
        (ofNode? "decl" node.headerDecl? ++
          ofNode? "extends_amends" node.headerClause?)
  | .moduleDecl =>
      some
        (ofNode? "qualified_name" node.qualifiedName? ++ node.decorationParts ++
        node.modifierParts [("is_abstract", .abstractKw), ("is_open", .openKw)])
  | .extendsAmendsClause =>
      some
        (ofBool "is_amend" node.isAmends ++ ofBool "is_extend" node.isExtends ++
        ofRequired "uri" node.clauseUri)
  | .importClause => some node.importParts
  | .moduleUri =>
      some
        (ofNode? "string_literal" node.uriLiteral? ++
          ofText? "value" node.uriText?)
  | .qualifiedIdent =>
      some (ofTexts "identifiers" (node.identifiers.map Terminal.text) ++
        ofText? "text" node.qualifiedText)
  | .modifierList =>
      some (ofTexts "modifiers" (node.modifiers.map Token.Kind.name))
  | .classDecl => some node.classParts
  | .classHeaderExtends => some (ofRequired "supertype" node.headerSupertype)
  | .classBody =>
      some
        (ofNodes "properties" node.properties ++ ofNodes "methods" node.methods)
  | .typeAlias =>
      some (node.decorationParts ++ node.typeParameterParts ++
        ofRequired "aliased_type" node.aliasedType)
  | .classProperty | .objectProperty => some node.propertyParts
  | .classMethod | .objectMethod => some node.methodParts
  | .annotationClause =>
      some
        (ofNode? "type_node" node.annotationType? ++
          ofNode? "object_body" node.objectBody?)
  | .typeParameterList =>
      some (ofNodes "parameters" (node.childrenOf .typeParameter))
  | .parameterList => some (ofNodes "parameters" node.directParameters)
  | .typeParameter =>
      some (ofText? "variance" node.variance.name ++ node.declaredNameParts)
  | .parameter =>
      some (ofNode? "typed_identifier" node.typedIdentifier? ++
        ofBool "is_underscore" node.isUnderscore ++
          ofNode? "declared_type" node.parameterType?)
  | .typedIdentifier =>
      some (ofNode? "type_annotation" node.typeClause? ++
        ofNode? "declared_type" node.declaredType? ++ node.declaredNameParts)
  | .typeClause => some (ofRequired "type_node" node.innerType)
  | .objectBody => some node.objectBodyParts
  | .objectEntry =>
      some
        (ofRequired "key" node.entryKey ++
          ofNodes "object_bodies" node.objectBodies ++
        ofNode? "value" node.entryValue?)
  | .objectElement => some (ofRequired "expr" node.elementExpr)
  | .objectSpread =>
      some
        (ofRequired "expr" node.spreadExpr ++
          ofBool "is_nullable" node.isNullableSpread)
  | .forGenerator => some node.forGeneratorParts
  | .whenGenerator =>
      some
        (ofRequired "condition" node.condition ++
          ofNode? "then_body" node.objectBody? ++
        ofNode? "else_body" node.elseBody?)
  | _ => none

def typeParts? (node : Node) : Option Named :=
  match node.kind with
  | .declaredType =>
      some (ofRequired "name" node.typeName ++
        ofNode? "type_argument_list" node.typeArgumentList? ++
        ofNodes "type_arguments" node.typeArguments)
  | .typeArgumentList => some (ofNodes "types" node.types)
  | .nullableType
  | .parenthesizedType => some (ofRequired "inner" node.innerType)
  | .unionType =>
      some
        (ofRequired "left" node.leftType ++ ofRequired "right" node.rightType ++
        ofNodes "members" node.alternatives)
  | .functionType =>
      some (ofNodes "parameter_types" node.parameterTypes ++
        ofRequired "return_type" node.resultType)
  | .stringLiteralType =>
      some
        (ofRequired "literal" node.typeLiteral ++
          ofText? "value" node.typeLiteralValue?)
  | _ => none

def expressionParts (node : Node) : Named :=
  match node.kind with
  | .intLiteral => ofText? "value" (node.intValue?.map fun value => s!"{value}")
  | .floatLiteral => ofText? "value" (node.floatBits?.map bitsText)
  | .stringLiteral | .mlStringLiteral => node.stringLiteralParts
  | .stringPart | .throwExpr | .traceExpr => ofNode? "expr" node.expr?
  | .importExpr =>
      ofNode? "uri" node.uriLiteral? ++ ofBool "is_glob" node.isGlobImport
  | .readExpr =>
      ofNode? "expr" node.expr? ++ ofBool "is_nullable" node.isNullableRead ++
        ofBool "is_glob" node.isGlobRead
  | .unqualifiedAccessExpr | .superAccessExpr => node.accessParts
  | .qualifiedAccessExpr =>
      node.accessParts ++ ofRequired "receiver" node.receiver ++
        ofBool "is_null_safe" node.isNullSafe
  | .superSubscriptExpr => ofNode? "key" node.expr?
  | .subscriptExpr =>
      ofRequired "receiver" node.receiver ++ ofNode? "key" node.subscriptKey?
  | .nonNullExpr | .unaryMinusExpr
  | .logicalNotExpr => ofRequired "expr" node.operand
  | .typeTestExpr =>
      ofRequired "expr" node.operand ++
        ofRequired "type_node" node.testedType ++ ofBool "is_cast" node.isCast
  | .ifExpr =>
      ofRequired "condition" node.condition ++
        ofRequired "then_expr" node.thenExpr ++
        ofRequired "else_expr" node.elseExpr
  | .letExpr =>
      ofRequired "parameter" node.letParameter ++
        ofRequired "var_expr" node.letValue ++ ofRequired "body" node.letBody
  | .newExpr =>
      ofNode? "type_node" (node.child? Kind.isType) ++
        ofRequired "object_body" node.requiredBody
  | .amendExpr =>
      ofRequired "parent_expr" node.amendedExpr ++
        ofRequired "object_body" node.requiredBody
  | .functionLiteral =>
      ofRequired "parameter_list" node.parameterList ++
        ofNode? "body" node.expr? ++ ofNodes "parameters" node.parameters
  | .parenthesizedExpr =>
      ofNode? "expr" node.expr? ++
        ofNode? "unparenthesized" node.unparenthesized?
  | .argumentList => ofNodes "arguments" node.exprs
  | kind => if kind.isBinary then node.binaryParts else []

def namedParts (node : Node) : Named :=
  (node.declarationParts?.or node.typeParts?).getD node.expressionParts

end PklAnalysis.Node

import PklAnalysis.Lookup.Scope

/-!
Types of expressions and declarations. Types depend on what names stand for, and
what names stand for depends on types; declarations may refer to themselves. So
the depth of questions that lead to other questions is limited, and a question
beyond the limit has no answer: the type is unknown, and names stand for
nothing.
-/

namespace PklAnalysis.Inference

open Lookup

/-- The answers to questions that lead to other questions. -/
structure Answers where
  exprType : Ty.Bindings → Node → Ty
  declType : Ty.Bindings → Node → Ty
  /-- The type that a property declares or inherits. -/
  propertyType : Ty.Bindings → Node → Ty
  thisType : Ty.Bindings → Node → Ty
  /-- The type that the place of an expression asks for. -/
  expectedType : Ty.Bindings → Node → Ty
  /-- What an access may refer to, where a receiver type may be given. -/
  candidates : Option Ty → Ty.Bindings → Node → Candidates

variable (context : Context)

/-- The answers when no depth is left. -/
def Answers.none : Answers :=
  { exprType := fun _ _ => .unknown
    declType := fun _ _ => .unknown
    propertyType := fun _ _ => .unknown
    thisType := fun _ _ => .unknown
    expectedType := fun _ _ => context.base.type "Dynamic"
    candidates := fun _ _ _ => [] }

/- The answers one level deeper, and the depth that is left there. -/
variable (deeper : Answers) (budget : Nat)

def deeperType (bindings : Ty.Bindings) (node : Node) : Ty :=
  resolveType context budget bindings node

def exprTypeOf (bindings : Ty.Bindings) : Option Node → Ty
  | some node => deeper.exprType bindings node
  | none => .unknown

/-- The members of a type, where superclasses are resolved two levels deeper. -/
def membersOf (space : Space) (ty : Ty) : Candidates :=
  typeMembers context (budget - 1) space ty

def foundType : Option Candidate → Ty
  | some found => deeper.declType found.bindings found.node
  | none => .unknown

/-- The type of the object that an object body builds. The body of a generator
builds none. -/
def bodyType? (bindings : Ty.Bindings) (body : Node) : Option Ty := do
  let owner ← body.parent?
  match owner.kind with
  | .newExpr =>
      match owner.child? Node.Kind.isType with
      | some type => some (deeperType context budget bindings type)
      | none => some (deeper.expectedType bindings owner)
  | .amendExpr => some (exprTypeOf deeper bindings owner.amendedExpr.toOption)
  | .classProperty
  | .objectProperty => some (deeper.propertyType bindings owner)
  | .objectEntry => some (entryType context (deeper.thisType bindings owner))
  | .annotationClause =>
      match owner.annotationType? with
      | some type => some (deeperType context budget bindings type)
      | none => some .unknown
  | .forGenerator | .whenGenerator => none
  | _ => some (context.base.type "Dynamic")

/-- The type of `this` directly inside a class, a module or an object body. -/
def scopeType? (bindings : Ty.Bindings) (scope : Node) : Option Ty :=
  match scope.kind with
  | .classDecl => some ((Ty.ofClass scope).substitute bindings)
  | .root => some (.moduleType scope)
  | .objectBody => bodyType? context deeper budget bindings scope
  | _ => none

def thisType (bindings : Ty.Bindings) (node : Node) : Ty :=
  ((node :: node.ancestors).findSome?
    (scopeType? context deeper budget bindings)).getD .unknown

/-- The type that the place of an expression asks for: that of the property,
entry or element it is the value of. -/
def expectedType (bindings : Ty.Bindings) (node : Node) : Ty :=
  let wanted : Ty :=
    match node.parent? with
    | none => .unknown
    | some place =>
        match place.kind with
        | .classProperty | .objectProperty => deeper.propertyType bindings place
        | .objectEntry => entryType context (deeper.thisType bindings place)
        | .objectElement => elementType context (deeper.thisType bindings place)
        | _ => .unknown
  if wanted.isUnknown then context.base.type "Dynamic" else wanted

/-- The type that a property declares, or else the first that a member of the
same name declares in the type around it. -/
def propertyType (bindings : Ty.Bindings) (property : Node) : Ty :=
  match property.declaredType? with
  | some declared => deeperType context budget bindings declared
  | none =>
      match property.name.toOption, property.parent? with
      | some name, some scope =>
          let owner := deeper.thisType bindings scope
          let inherited := (membersOf context budget .property owner).named name
          let declared := inherited.findSome? fun candidate =>
            if candidate.node = property then none
            else if candidate.node.kind.isProperty then
              candidate.node.declaredType?.map
                (deeperType context budget candidate.bindings)
            else
              none
          declared.getD .unknown
      | _, _ => .unknown

/-- The type of a parameter: the one it declares, or the one that its place
implies. -/
def parameterType (bindings : Ty.Bindings) (parameter : Node) : Ty :=
  match parameter.parameterType? with
  | some declared => deeperType context budget bindings declared
  | none =>
      match parameter.parent? with
      | none => .unknown
      | some site =>
          match site.kind with
          | .letExpr => exprTypeOf deeper bindings site.letValue.toOption
          | .forGenerator =>
              iterationType context
                (exprTypeOf deeper bindings site.iterable.toOption)
                (site.keyParameter? = some parameter)
          | _ => .unknown

/-- The type of a property: the one it declares or inherits, or else that of its
value. -/
def valueType (bindings : Ty.Bindings) (property : Node) : Ty :=
  let declared := deeper.propertyType bindings property
  if declared.isUnknown then
    match property.expr? with
    | some value => deeper.exprType bindings value
    | none =>
        if property.isAmendment then context.base.type "Dynamic" else .unknown
  else
    declared

/-- A mapping from strings to modules: the type of an import of many modules. -/
def globType : Ty :=
  context.base.generic "Mapping" [context.base.type "String",
    context.base.type "Module"]

def rootType : Option Node → Ty
  | some root => .moduleType root
  | none => .unknown

def declType (bindings : Ty.Bindings) (node : Node) : Ty :=
  match node.kind with
  | .classProperty | .objectProperty => valueType context deeper bindings node
  | .classMethod | .objectMethod =>
      match node.declaredType? with
      | some result => deeperType context budget bindings result
      | none => exprTypeOf deeper bindings node.expr?
  | .parameter => parameterType context deeper budget bindings node
  | .typedIdentifier =>
      match node.declaredType? with
      | some declared => deeperType context budget bindings declared
      | none =>
          match node.parent? with
          | some parent =>
              if parent.kind = .parameter then
                parameterType context deeper budget bindings parent
              else .unknown
          | none => .unknown
  | .classDecl => context.base.generic "Class" [.ofClass node]
  | .typeAlias => context.base.type "TypeAlias"
  | .importClause =>
      if node.isGlobImport then globType context else
        rootType (importTarget? context node)
  | .root => .moduleType node
  | _ => .unknown

/-- What an access may refer to. A receiver is looked into without its null. -/
def candidates (receiver? : Option Ty) (bindings : Ty.Bindings) (node : Node) :
    Candidates :=
  match context.cancelled, accessName? node with
  | false, some (_, space) =>
      let receivers : Receivers :=
        { thisType := deeper.thisType, budget := budget - 1 }
      match node.kind with
      | .qualifiedAccessExpr =>
          match receiver?.or
            (node.receiver.toOption.map (deeper.exprType bindings)) with
          | some receiver =>
              membersOf context budget space (receiver.nonNull context.base)
          | none => []
      | .superAccessExpr => superMembers context receivers space bindings node
      | _ => unqualified context receivers space bindings node
  | _, _ => []

def memberType (name : String) (receiver? : Option Ty) (bindings : Ty.Bindings)
    (node : Node) : Ty :=
  foundType deeper ((deeper.candidates receiver? bindings node).first? name)

/-- The type of an access. A null-safe access to a member of null is null, and
any other may be. -/
def accessType (bindings : Ty.Bindings) (node : Node) : Ty :=
  match accessName? node with
  | none => .unknown
  | some (name, _) =>
      if node.kind = .qualifiedAccessExpr then
        match node.receiver with
        | .error _ => .unknown
        | .ok receiver =>
            let receiverType := deeper.exprType bindings receiver
            if node.isNullSafe then
              if receiverType.isNull context.base then context.base.type "Null"
              else
                (memberType deeper name (receiverType.nonNull context.base)
                  bindings node).nullable
                  context.base
            else
              memberType deeper name receiverType bindings node
      else
        memberType deeper name none bindings node

/-- What an operator, which is a method, gives on a receiver. -/
def operatorType (receiver : Ty) (operator : String) : Ty :=
  foundType deeper ((membersOf context budget .method receiver).first? operator)

/-- Operators that give a truth value on receivers that do not define them. -/
def givesBoolean : Node.Kind → Bool
  | .comparisonExpr | .equalityExpr | .logicalAndExpr | .logicalOrExpr => true
  | _ => false

def binaryType (bindings : Ty.Bindings) (node : Node) : Ty :=
  match node.leftOperand, node.operator with
  | .ok left, .ok operator =>
      let result :=
        operatorType context deeper budget (deeper.exprType bindings left)
          operator.text
      if result.isUnknown && givesBoolean node.kind then
        context.base.type "Boolean" else result
  | _, _ => .unknown

/-- The type of `outer`: that of `this` around the owner of the innermost object
body. -/
def outerType (bindings : Ty.Bindings) (node : Node) : Ty :=
  match ((node.ancestors.find? isObjectBody).bind Node.parent?).bind
    Node.parent? with
  | some scope => deeper.thisType bindings scope
  | none => .unknown

def importType (node : Node) : Ty :=
  if node.isGlobImport then globType context
  else rootType (node.uriText?.bind (context.import? node.document))

def readType (node : Node) : Ty :=
  let resource := context.base.type "Resource"
  if node.isGlobRead then
    context.base.generic "Mapping" [context.base.type "String", resource]
  else if node.isNullableRead then resource.nullable context.base
  else resource

def functionType (bindings : Ty.Bindings) (node : Node) : Ty :=
  .function
    (node.parameters.map fun parameter =>
      match parameter.parameterType? with
      | some declared => deeperType context budget bindings declared
      | none => .unknown)
    (exprTypeOf deeper bindings node.expr?)

def exprType (bindings : Ty.Bindings) (node : Node) : Ty :=
  let base := context.base
  let typeOf := exprTypeOf deeper bindings
  match node.kind with
  | .nullLiteral => base.type "Null"
  | .trueLiteral | .falseLiteral => base.type "Boolean"
  | .intLiteral => base.type "Int"
  | .floatLiteral => base.type "Float"
  | .stringLiteral | .mlStringLiteral => base.type "String"
  | .thisExpr => deeper.thisType bindings node
  | .outerExpr => outerType deeper bindings node
  | .moduleExpr => rootType node.ancestors.getLast?
  | .throwExpr => .nothing
  | .traceExpr | .parenthesizedExpr | .unaryMinusExpr
  | .amendExpr => typeOf node.expr?
  | .importExpr => importType context node
  | .readExpr => readType context node
  | .unqualifiedAccessExpr | .qualifiedAccessExpr | .superAccessExpr =>
      accessType context deeper bindings node
  | .subscriptExpr =>
      match node.receiver with
      | .ok receiver =>
          operatorType context deeper budget
            (deeper.exprType bindings receiver) "[]"
      | .error _ => .unknown
  | .superSubscriptExpr =>
      operatorType context deeper budget (deeper.thisType bindings node) "[]"
  | .nonNullExpr => (typeOf node.expr?).nonNull base
  | .logicalNotExpr =>
      let result : Ty :=
        match node.expr? with
        | some operand =>
            operatorType context deeper budget
              (deeper.exprType bindings operand) "!"
        | none => .unknown
      if result.isUnknown then base.type "Boolean" else result
  | .additiveExpr | .multiplicativeExpr | .exponentiationExpr | .comparisonExpr
  | .equalityExpr | .logicalAndExpr
  | .logicalOrExpr => binaryType context deeper budget bindings node
  | .nullCoalesceExpr =>
      ((typeOf node.expr?).nonNull base).join (typeOf node.exprs[1]?)
  | .pipeExpr => functionResult context (typeOf node.exprs[1]?)
  | .typeTestExpr =>
      if node.isCast then
        match node.testedType with
        | .ok type => deeperType context budget bindings type
        | .error _ => .unknown
      else
        base.type "Boolean"
  | .ifExpr =>
      (typeOf node.thenExpr.toOption).join (typeOf node.elseExpr.toOption)
  | .letExpr => typeOf node.letBody.toOption
  | .functionLiteral => functionType context deeper budget bindings node
  | .newExpr =>
      match node.child? Node.Kind.isType with
      | some type => deeperType context budget bindings type
      | none => deeper.expectedType bindings node
  | _ => .unknown

/-- The answers at one level. Deeper answers are made only when they are asked
for. -/
def Answers.over (deeper : Unit → Answers) (budget : Nat) : Answers :=
  { exprType := fun bindings node =>
      Inference.exprType context (deeper ()) budget bindings node
    declType := fun bindings node =>
      Inference.declType context (deeper ()) budget bindings node
    propertyType := fun bindings node =>
      Inference.propertyType context (deeper ()) budget bindings node
    thisType := fun bindings node =>
      Inference.thisType context (deeper ()) budget bindings node
    expectedType := fun bindings node =>
      Inference.expectedType context (deeper ()) bindings node
    candidates := fun receiver? bindings node =>
      Inference.candidates context (deeper ()) budget receiver? bindings node }

def answers : Nat → Answers
  | 0 => Answers.none context
  | budget + 1 => Answers.over context (fun _ => answers budget) budget

end PklAnalysis.Inference

namespace PklAnalysis.Context

open Inference

/-- The answers with all the depth that a context allows. -/
def answers (context : Context) : Answers :=
  Inference.answers context context.budget

def exprType (context : Context) (bindings : Ty.Bindings) (node : Node) : Ty :=
  context.answers.exprType bindings node

def declType (context : Context) (bindings : Ty.Bindings) (node : Node) : Ty :=
  context.answers.declType bindings node

def thisType (context : Context) (bindings : Ty.Bindings) (node : Node) : Ty :=
  context.answers.thisType bindings node

def resolveType (context : Context) (bindings : Ty.Bindings) (node : Node) :
    Ty :=
  Inference.resolveType context context.budget bindings node

def candidates (context : Context) (receiver? : Option Ty)
    (bindings : Ty.Bindings) (node : Node) :
    Candidates :=
  context.answers.candidates receiver? bindings node

/-! The answers at the first level, by those one level deeper. -/

theorem exprType_eq (context : Context) (bindings : Ty.Bindings) (node : Node) :
    context.exprType bindings node = Inference.exprType context
      (Inference.answers context context.maxDepth) context.maxDepth
        bindings node :=
  rfl

theorem candidates_eq (context : Context) (receiver? : Option Ty)
    (bindings : Ty.Bindings) (node : Node) :
    context.candidates receiver? bindings node = Inference.candidates context
        (Inference.answers context context.maxDepth) context.maxDepth receiver?
          bindings node :=
  rfl

def resolve? (context : Context) (node : Node) : Option Candidate := do
  let (name, _) ← Lookup.accessName? node
  (context.candidates none [] node).first? name

end PklAnalysis.Context

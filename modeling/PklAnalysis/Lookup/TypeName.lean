import PklAnalysis.Context
import PklAnalysis.Node.Walk

/-!
Names of types, and the chains of modules along which they are found.
-/

namespace PklAnalysis.Lookup

variable (context : Context)

def parentModule? (root : Node) : Option Node := do
  let uri ← (← (← root.moduleClause?).clauseUri.toOption).uriText?
  context.import? root.document uri

/-- A module and those it amends or extends in turn, up to the first that comes
again. They are the module itself, open ones and the base module, so the limit
is never reached. A cancelled question sees no modules. -/
def moduleChain (root : Node) : List Node :=
  if context.cancelled then []
  else Node.walk id (parentModule? context) (context.modules.length + 3) [] root

def importTarget? (clause : Node) : Option Node := do
  let uri ← (← clause.clauseUri.toOption).uriText?
  context.import? clause.document uri

def enclosingRoot (node : Node) : Node :=
  (node.ancestors.getLast?).getD node

/-- The module that a name stands for by an import in the module around a node.
Imports of many modules do not count. -/
def importedModule? (node : Node) (name : String) : Option Node := do
  let clause ← (enclosingRoot node).imports.find? fun clause =>
    !clause.isGlobImport && clause.importName? = some name
  importTarget? context clause

def named? (name : String) (nodes : List Node) : Option Node :=
  nodes.find? fun node => node.name.toOption = some name

/-- The class or type alias of a name in a module, without those it amends or
extends. -/
def ownType? (root : Node) (name : String) : Option Node :=
  (named? name (root.childrenOf .classDecl)).or
    (named? name (root.childrenOf .typeAlias))

/-- The class or type alias of a name in a module or one that it amends or
extends. -/
def moduleType? (root : Node) (name : String) : Option Node :=
  (moduleChain context root).findSome? fun root => ownType? root name

/-- What a simple type name stands for in one scope. -/
def scopeType? (scope : Node) (name : String) : Option Node :=
  match scope.kind with
  | .classDecl | .typeAlias | .classMethod
  | .objectMethod => named? name scope.typeParameters
  | .root =>
      (moduleType? context scope name).or (importedModule? context scope name)
  | _ => none

/-- What a simple type name at a node stands for: a type parameter of what is
around it, a type or an import of the module, or a type of the base module. -/
def simpleType? (node : Node) (name : String) : Option Node :=
  (node.ancestors.findSome? fun scope => scopeType? context scope name).or
    ((context.base.class? name).or (context.base.typeAlias? name))

/-- What a type name stands for: a class, a type alias, a type parameter, or the
root of a module. A qualified name stands for a type of an imported module. -/
def typeName? (name : Node) : Option Node :=
  match name.nameParts with
  | [] => none
  | [simple] => simpleType? context name simple
  | [qualifier, member] => do
      moduleType? context (← importedModule? context name qualifier) member
  | _ => none

end PklAnalysis.Lookup

import PklAnalysis.Lookup.TypeName

/-!
Types as written. Resolving a type opens the type aliases in it; since aliases
may refer to themselves, the depth is limited, and what lies deeper is unknown.
-/

namespace PklAnalysis.Inference

open Lookup

variable (context : Context)

/-- One level of resolving a written type, where `resolve` resolves the types
under it. -/
def typeStep (resolve : Ty.Bindings → Node → Ty) (bindings : Ty.Bindings)
    (node : Node) : Ty :=
  match node.kind with
  | .nothingType => .nothing
  | .moduleType =>
      match node.ancestors.getLast? with
      | some root => .moduleType root
      | none => .unknown
  | .stringLiteralType =>
      match node.typeLiteralValue? with
      | some text => .literal text
      | none => context.base.type "String"
  | .nullableType =>
      match node.innerType with
      | .ok inner => (resolve bindings inner).nullable context.base
      | .error _ => .unknown
  | .parenthesizedType =>
      match node.innerType with
      | .ok inner => resolve bindings inner
      | .error _ => .unknown
  | .unionType => .unionOf (node.alternatives.map (resolve bindings))
  | .functionType =>
      .function (node.parameterTypes.map (resolve bindings))
        (match node.resultType with
        | .ok result => resolve bindings result
        | .error _ => .unknown)
  | .declaredType => declared
  | _ => .unknown
where
  declared : Ty :=
    match node.typeName.toOption.bind (typeName? context) with
    | none => .unknown
    | some target =>
        let args := node.typeArguments.map (resolve bindings)
        match target.kind with
        | .classDecl => .classType target args
        | .typeAlias =>
            match target.aliasedType with
            | .ok aliased =>
                resolve (.ofArgs target.typeParameters args) aliased
            | .error _ => .unknown
        | .typeParameter => (bindings.get? target).getD (.variable target)
        | .root => .moduleType target
        | _ => .unknown

/-- What a written type stands for, with a limited depth. -/
def resolveType : Nat → Ty.Bindings → Node → Ty
  | 0 => fun _ _ => .unknown
  | budget + 1 => typeStep context (resolveType budget)

/-- The type that a class extends, where `resolve` resolves written types.
Classes outside the base module extend `Typed` unless they say otherwise. -/
def superclass? (resolve : Ty.Bindings → Node → Ty) (bindings : Ty.Bindings)
    (decl : Node) :
    Option Ty :=
  match decl.supertype? with
  | some supertype => some (resolve bindings supertype)
  | none =>
      if context.base.contains decl then none else
        some (context.base.type "Typed")

def parentClass? (resolve : Ty.Bindings → Node → Ty) :
    Node × List Ty → Option (Node × List Ty) := fun (decl, args) =>
  match superclass? context resolve (.ofArgs decl.typeParameters args) decl with
  | some (.classType parent args) => some (parent, args)
  | _ => none

/-- More classes than a walk along superclasses can reach from a class type:
those in the type, and all nodes of their documents, of the base module and of
all modules. -/
def classLimit (ty : Ty) : Nat :=
  let documents := context.documents ++ ty.decls.map Node.document
  ty.decls.length + documents.foldr (fun document size => document.arena.size +
    size) 0 + 1

/-- A class type's class and its superclasses in turn with their arguments, most
derived first, up to the first that comes again. Other types have none. -/
def classChain (budget : Nat) : Ty → List (Node × List Ty)
  | .classType decl args =>
      Node.walk Prod.fst (parentClass? context (resolveType context budget))
        (classLimit context (.classType decl args)) [] (decl, args)
  | _ => []

/-- The arguments of a class type seen as one of its superclasses. -/
def argsFor? (budget : Nat) (ty : Ty) (target : Node) : Option (List Ty) :=
  ((classChain context budget ty).find? fun entry => entry.1 = target).map
    Prod.snd

/-- The arguments of a class type seen as a class of the base module. The
superclasses are resolved with all the depth there is, less two levels for
getting there. -/
def builtinArgs? (ty : Ty) (name : String) : Option (List Ty) := do
  argsFor? context (context.budget - 2) ty (← context.base.class? name)

def elementType (container : Ty) : Ty :=
  match ["Listing", "Collection"].findSome?
    (builtinArgs? context container) with
  | some args => args.head?.getD .unknown
  | none => .unknown

def mappingArgs? (container : Ty) : Option (List Ty) :=
  ["Mapping", "Map"].findSome? (builtinArgs? context container)

def entryType (container : Ty) : Ty :=
  match mappingArgs? context container with
  | some args => args[1]?.getD .unknown
  | none =>
      let element := elementType context container
      if element.isUnknown then context.base.type "Dynamic" else element

/-- The type of the keys or values when a generator iterates over a
container. -/
def iterationType (container : Ty) (isKey : Bool) : Ty :=
  match mappingArgs? context container with
  | some args => args[if isKey then 0 else 1]?.getD .unknown
  | none =>
      if isKey then context.base.type "Int" else elementType context container

def functionResult (function : Ty) : Ty :=
  match function with
  | .function _ result => result
  | ty => ((builtinArgs? context ty "Function").bind List.head?).getD .unknown

end PklAnalysis.Inference

import PklAnalysis.Base.Source
import PklAnalysis.Ty.Basic

/-!
The base module: a document whose classes the type system refers to by name.
-/

namespace PklAnalysis

namespace Base

/-- Entries with one more; an entry of the same name gives way. -/
def insert (entries : List (String × Node)) (name : String) (node : Node) :
    List (String × Node) :=
  (entries.filter fun entry => entry.1 ≠ name) ++ [(name, node)]

/-- Declarations by name. Of several with one name the last counts. -/
def byName (nodes : List Node) : List (String × Node) :=
  nodes.foldl
    (fun entries node =>
      match node.name with
      | .ok name => insert entries name node
      | .error _ => entries)
    []

def get? (entries : List (String × Node)) (name : String) : Option Node :=
  (entries.find? fun entry => entry.1 = name).map Prod.snd

def requiredClasses : List String :=
  ["Any", "Null", "Boolean", "Number", "Int", "Float", "String", "Annotation",
   "Object", "Dynamic", "Typed", "Module", "Listing", "Mapping", "List", "Set",
   "Map", "Function", "Class", "TypeAlias", "Resource"]

def missing? (classes : List (String × Node)) : Option String :=
  requiredClasses.find? fun name => (get? classes name).isNone

end Base

structure Base where
  document : Document
  classes : List (String × Node)
  typeAliases : List (String × Node)
  classes_eq : classes = Base.byName (document.root.childrenOf .classDecl)
  typeAliases_eq :
    typeAliases = Base.byName (document.root.childrenOf .typeAlias)
  missing_eq : Base.missing? classes = none

namespace Base

def uri : String := "pkl:base"

/-- Why a text is no base module. -/
inductive Failure
  | unreadable (reason : Token.Literal.Unreadable)
  | missingClass (name : String)
deriving Repr

def Failure.message : Failure → String
  | .unreadable _ => "base module cannot be read"
  | .missingClass name => s!"base module is missing builtin `{name}`"

def ofDocument (document : Document)
    (h : missing? (byName (document.root.childrenOf .classDecl)) = none) :
    Base where
  document
  classes := byName (document.root.childrenOf .classDecl)
  typeAliases := byName (document.root.childrenOf .typeAlias)
  classes_eq := rfl
  typeAliases_eq := rfl
  missing_eq := h

def ofText (text : String) : Except Failure Base := do
  let source : Source :=
    { file := .base, revision := 0, uri, version := 0, text }
  let document ← (Document.ofSource source).mapError .unreadable
  match h : missing? (byName (document.root.childrenOf .classDecl)) with
  | some missing => .error (.missingClass missing)
  | none => .ok (ofDocument document h)

/-- The base module that every module sees unless told otherwise. -/
def bundled : Except Failure Base :=
  ofText source

def root (base : Base) : Node := base.document.root

def class? (base : Base) (name : String) : Option Node :=
  get? base.classes name

theorem isSome_class? (base : Base) {name : String}
    (hname : name ∈ requiredClasses) : (base.class? name).isSome = true := by
  have hclass := List.find?_eq_none.mp base.missing_eq name hname
  rwa [Bool.not_eq_true, Option.isNone_eq_false_iff] at hclass

def typeAlias? (base : Base) (name : String) : Option Node :=
  get? base.typeAliases name

def contains (base : Base) (node : Node) : Bool :=
  node.document = base.document

def isClass (base : Base) (node : Node) (name : String) : Bool :=
  base.class? name = some node

def generic (base : Base) (name : String) (args : List Ty) : Ty :=
  match base.class? name with
  | some decl => .classType decl args
  | none => .unknown

def type (base : Base) (name : String) : Ty :=
  base.generic name []

def describe (base : Base) : String :=
  s!"BaseModule \x7b classes: {base.classes.length}, type_aliases: {base.typeAliases.length} \x7d"

end Base

namespace Ty

def isNull (base : Base) : Ty → Bool
  | .classType decl _ => base.isClass decl "Null"
  | _ => false

def isNullable (base : Base) : Ty → Bool
  | .union members => members.any (isNull base)
  | ty => ty.isNull base

def nullable (base : Base) (ty : Ty) : Ty :=
  ty.join (base.type "Null")

def nonNull (base : Base) : Ty → Ty
  | .union members => unionOf (members.filter (!isNull base ·))
  | ty => if ty.isNull base then .nothing else ty

def functionClass (base : Base) (params : List Ty) (result : Ty) : Ty :=
  match params with
  | [] => base.generic "Function0" [result]
  | [param] => base.generic "Function1" [param, result]
  | [param, param'] => base.generic "Function2" [param, param', result]
  | _ => base.generic "Function" [result]

end Ty

end PklAnalysis

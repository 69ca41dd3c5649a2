import PklAnalysis.Inference.Declared
import PklAnalysis.Proofs.Lookup.TypeName
import PklAnalysis.Proofs.Ty.Union

/-!
Walks along superclasses end. The classes that a walk can reach are those in the
type it starts from, and the nodes of finitely many documents: a superclass is
written in the document of the class, and what is written there names classes of
that document or of the context, or is bound to an argument.
-/

namespace PklAnalysis

namespace Ty

def Within (reach : List Node) (ty : Ty) : Prop :=
  ∀ decl ∈ ty.decls, decl ∈ reach

variable {reach : List Node}

theorem within_empty {ty : Ty} (hempty : ty.decls = []) : Within reach ty := by
  intro decl hdecl
  rw [hempty] at hdecl
  cases hdecl

theorem within_declsOf {types : List Ty} :
    (∀ decl ∈ declsOf types, decl ∈ reach) ↔ ∀ ty ∈ types, Within reach ty := by
  induction types with
  | nil => exact iff_of_true nofun nofun
  | cons ty rest ih =>
      have hdecls : declsOf (ty :: rest) = ty.decls ++ declsOf rest := rfl
      rw [hdecls, List.forall_mem_append, List.forall_mem_cons, ih]
      rfl

theorem within_classType {decl : Node} {args : List Ty} :
    Within reach (.classType decl args) ↔ decl ∈ reach ∧ ∀ arg ∈ args,
      Within reach arg := by
  have hdecls : (classType decl args).decls = decl :: declsOf args := rfl
  rw [Within, hdecls, List.forall_mem_cons, within_declsOf]

theorem within_union {members : List Ty} :
    Within reach (.union members) ↔ ∀ member ∈ members,
      Within reach member := by
  have hdecls : (union members).decls = declsOf members := rfl
  rw [Within, hdecls, within_declsOf]

theorem within_function {params : List Ty} {result : Ty}
    (hparams : ∀ param ∈ params, Within reach param)
    (hresult : Within reach result) :
    Within reach (.function params result) := by
  have hdecls : (function params result).decls =
      declsOf params ++ result.decls := rfl
  rw [Within, hdecls, List.forall_mem_append]
  exact ⟨within_declsOf.mpr hparams, hresult⟩

theorem within_of_mem_alternatives {ty alternative : Ty} (hty : Within reach ty)
    (halternative : alternative ∈ ty.alternatives) :
    Within reach alternative := by
  cases ty with
  | nothing => cases halternative
  | union members => exact within_union.mp hty alternative halternative
  | _ =>
      cases List.mem_singleton.mp halternative
      exact hty

theorem within_unionOf {types : List Ty}
    (htypes : ∀ ty ∈ types, Within reach ty) :
    Within reach (unionOf types) := by
  rw [unionOf]
  split
  case isTrue => exact within_empty rfl
  case isFalse =>
      have hall : ∀ ty ∈ distinct (types.flatMap alternatives),
          Within reach ty := by
        intro ty hty
        obtain ⟨outer, houter, hty⟩ := List.mem_flatMap.mp (mem_distinct.mp hty)
        exact within_of_mem_alternatives (htypes outer houter) hty
      rw [ofAlternatives.eq_def]
      split
      case h_1 => exact within_empty rfl
      case h_2 ty heq => exact hall ty (heq ▸ List.mem_cons_self)
      case h_3 => exact within_union.mpr hall

end Ty

namespace Inference

open Lookup Ty

variable {context : Context} {documents : List Document} {reach : List Node}

/-- The nodes hold all classes of the documents, and the documents hold the
nodes and all of the context. -/
structure Reach (context : Context) (documents : List Document)
    (reach : List Node) : Prop where
  context_subset : context.documents ⊆ documents
  document_mem : ∀ node ∈ reach, node.document ∈ documents
  mem_of_class : ∀ node : Node, node.document ∈ documents →
    node.kind = .classDecl → node ∈ reach

theorem Reach.within_type (hreach : Reach context documents reach)
    (name : String) :
    Within reach (context.base.type name) := by
  rw [Base.type, Base.generic]
  split
  case h_1 decl hdecl =>
      have hmember := Base.mem_of_class? hdecl
      have hdocument : decl.document = context.base.document :=
        Node.document_of_mem_childrenOf hmember
      refine within_classType.mpr ⟨hreach.mem_of_class decl ?_ ?_, List.forall_mem_nil _⟩
      · rw [hdocument]
        exact hreach.context_subset List.mem_cons_self
      · exact Node.kind_of_mem_childrenOf hmember
  case h_2 => exact within_empty rfl

theorem Reach.within_nullable (hreach : Reach context documents reach) {ty : Ty}
    (hty : Within reach ty) : Within reach (ty.nullable context.base) := by
  refine within_unionOf fun member hmember => ?_
  rcases List.mem_cons.mp hmember with rfl | hnull
  · exact hty
  · cases List.mem_singleton.mp hnull
    exact hreach.within_type "Null"

def BindingsWithin (reach : List Node) (bindings : Bindings) : Prop :=
  ∀ binding ∈ bindings, Within reach binding.2

theorem bindingsWithin_ofArgs {params : List Node} {args : List Ty}
    (hargs : ∀ arg ∈ args, Within reach arg) :
    BindingsWithin reach (.ofArgs params args) :=
  fun _ hbinding => hargs _ (List.of_mem_zip hbinding).2

def Resolves (documents : List Document) (reach : List Node)
    (resolve : Bindings → Node → Ty) :
    Prop :=
  ∀ bindings node, BindingsWithin reach bindings → node.document ∈ documents →
    Within reach (resolve bindings node)

theorem Reach.within_declared (hreach : Reach context documents reach)
    {resolve : Bindings → Node → Ty}
    (hresolve : Resolves documents reach resolve) {bindings : Bindings}
    {node : Node} (hbindings : BindingsWithin reach bindings)
    (hnode : node.document ∈ documents) :
    Within reach (typeStep.declared context resolve bindings node) := by
  have hargs : ∀ arg ∈ node.typeArguments.map (resolve bindings),
      Within reach arg := by
    intro arg harg
    obtain ⟨written, hwritten, rfl⟩ := List.mem_map.mp harg
    refine hresolve bindings written hbindings ?_
    rwa [Node.document_of_mem_typeArguments hwritten]
  rw [typeStep.declared]
  split
  case h_1 => exact within_empty rfl
  case h_2 target heq =>
      obtain ⟨name, hname, htarget⟩ := Option.bind_eq_some_iff.mp heq
      have hdocument := Node.document_of_typeName (toOption_eq_some.mp hname)
      have htarget :=
        document_of_typeName? hreach.context_subset (hdocument ▸ hnode) htarget
      split
      case h_1 hkind =>
          exact within_classType.mpr ⟨hreach.mem_of_class target htarget hkind,
            hargs⟩
      case h_2 =>
          split
          case h_1 aliased heq =>
              refine hresolve _ aliased (bindingsWithin_ofArgs hargs) ?_
              rwa [Node.document_of_aliasedType heq]
          case h_2 => exact within_empty rfl
      case h_3 =>
          cases hbound : bindings.get? target with
          | none => exact within_empty rfl
          | some ty =>
              obtain ⟨binding, hbinding, rfl⟩ :=
                Option.map_eq_some_iff.mp hbound
              exact hbindings binding (List.mem_of_find?_eq_some hbinding)
      case h_4 => exact within_empty rfl
      case h_5 => exact within_empty rfl

theorem Reach.resolves_typeStep (hreach : Reach context documents reach)
    {resolve : Bindings → Node → Ty}
    (hresolve : Resolves documents reach resolve) :
    Resolves documents reach (typeStep context resolve) := by
  intro bindings node hbindings hnode
  have hinner : ∀ inner : Node, inner.document = node.document →
      Within reach (resolve bindings inner) := fun inner hdocument =>
    hresolve bindings inner hbindings (hdocument ▸ hnode)
  rw [typeStep]
  split
  case h_1 => exact within_empty rfl
  case h_2 =>
      split
      case h_1 => exact within_empty rfl
      case h_2 => exact within_empty rfl
  case h_3 =>
      split
      case h_1 => exact within_empty rfl
      case h_2 => exact hreach.within_type "String"
  case h_4 =>
      split
      case h_1 inner heq =>
          exact hreach.within_nullable
            (hinner inner (Node.document_of_innerType heq))
      case h_2 => exact within_empty rfl
  case h_5 =>
      split
      case h_1 inner heq => exact hinner inner (Node.document_of_innerType heq)
      case h_2 => exact within_empty rfl
  case h_6 =>
      refine within_unionOf fun ty hty => ?_
      obtain ⟨member, hmember, rfl⟩ := List.mem_map.mp hty
      exact hinner member (Node.document_of_mem_alternatives hmember)
  case h_7 =>
      refine within_function (fun ty hty => ?_) ?_
      · obtain ⟨param, hparam, rfl⟩ := List.mem_map.mp hty
        exact hinner param (Node.document_of_mem_parameterTypes hparam)
      · split
        case h_1 result heq =>
            exact hinner result (Node.document_of_resultType heq)
        case h_2 => exact within_empty rfl
  case h_8 => exact hreach.within_declared hresolve hbindings hnode
  case h_9 => exact within_empty rfl

theorem Reach.resolves_resolveType (hreach : Reach context documents reach)
    (budget : Nat) :
    Resolves documents reach (resolveType context budget) := by
  induction budget with
  | zero => exact fun _ _ _ _ => within_empty rfl
  | succ budget ih => exact hreach.resolves_typeStep ih

theorem Reach.within_parentClass? (hreach : Reach context documents reach)
    {budget : Nat} {place next : Node × List Ty}
    (hplace : Within reach (.classType place.1 place.2))
    (hnext : parentClass? context (resolveType context budget) place =
      some next) :
    Within reach (.classType next.1 next.2) := by
  obtain ⟨hdecl, hargs⟩ := within_classType.mp hplace
  have hsuper : ∀ ty,
      superclass? context (resolveType context budget)
        (.ofArgs place.1.typeParameters place.2) place.1 = some ty →
        Within reach ty := by
    intro ty hty
    rw [superclass?] at hty
    split at hty
    case h_1 supertype hsupertype =>
        cases hty
        refine hreach.resolves_resolveType budget _ _
          (bindingsWithin_ofArgs hargs) ?_
        rw [Node.document_of_supertype? hsupertype]
        exact hreach.document_mem _ hdecl
    case h_2 =>
        split at hty
        case isTrue => cases hty
        case isFalse =>
            cases hty
            exact hreach.within_type "Typed"
  rw [parentClass?] at hnext
  split at hnext
  case h_1 parent args hparent =>
      cases hnext
      exact hsuper _ hparent
  case h_2 => cases hnext

def reachedDocuments (context : Context) (ty : Ty) : List Document :=
  context.documents ++ ty.decls.map Node.document

def numberedNodes (documents : List Document) : List Node :=
  documents.flatMap fun document => (List.range document.arena.size).map
    (Node.mk document)

def reachedNodes (context : Context) (ty : Ty) : List Node :=
  ty.decls ++ numberedNodes (reachedDocuments context ty)

theorem length_numberedNodes (documents : List Document) :
    (numberedNodes documents).length =
      documents.foldr (fun document size => document.arena.size + size) 0 := by
  induction documents with
  | nil => rfl
  | cons document rest ih =>
      have hcons : numberedNodes (document :: rest) =
          (List.range document.arena.size).map (Node.mk document) ++
            numberedNodes rest := rfl
      rw [hcons, List.length_append, List.length_map, List.length_range,
        List.foldr_cons, ih]

theorem length_reachedNodes (context : Context) (ty : Ty) :
    (reachedNodes context ty).length < classLimit context ty := by
  rw [reachedNodes, List.length_append, length_numberedNodes]
  exact Nat.lt_succ_self _

theorem index_lt_of_kind {node : Node} (hkind : node.kind = .classDecl) :
    node.index < node.document.arena.size := by
  refine Nat.lt_of_not_le fun habsent => ?_
  have hslot : node.slot = .absent := by
    rw [Node.slot, Arena.slot, Array.getD_eq_getD_getElem?,
      Array.getElem?_eq_none habsent, Option.getD_none]
  rw [Node.kind, hslot] at hkind
  cases hkind

theorem reach_reachedNodes (context : Context) (ty : Ty) :
    Reach context (reachedDocuments context ty) (reachedNodes context ty) where
  context_subset := List.subset_append_left _ _
  document_mem := by
    intro node hnode
    cases List.mem_append.mp hnode with
    | inl hdecl => exact List.mem_append_right _ (List.mem_map_of_mem hdecl)
    | inr hnumbered =>
        obtain ⟨document, hdocument, hnode⟩ := List.mem_flatMap.mp hnumbered
        obtain ⟨index, -, rfl⟩ := List.mem_map.mp hnode
        exact hdocument
  mem_of_class := by
    intro node hdocument hkind
    refine List.mem_append_right _
      (List.mem_flatMap.mpr ⟨node.document, hdocument, ?_⟩)
    exact List.mem_map.mpr ⟨node.index,
      List.mem_range.mpr (index_lt_of_kind hkind), rfl⟩

theorem confined_parentClass? (context : Context) (budget : Nat) (ty : Ty) :
    Node.Confined Prod.fst (parentClass? context (resolveType context budget))
      (reachedNodes context ty)
      (fun place => Within (reachedNodes context ty)
        (.classType place.1 place.2)) where
  node := fun _ hplace => (within_classType.mp hplace).1
  next :=
    fun _ _ hplace hnext => (reach_reachedNodes context ty).within_parentClass?
      hplace hnext

theorem within_reachedNodes (context : Context) (ty : Ty) :
    Within (reachedNodes context ty) ty :=
  fun _ hdecl => List.mem_append_left _ hdecl

theorem endsWithin_classChain (context : Context) (budget : Nat) (decl : Node)
    (args : List Ty) :
    EndsWithin
      (Node.walkStep Prod.fst
        (parentClass? context (resolveType context budget)))
      (classLimit context (.classType decl args)) ([], decl, args)
      (classChain context budget (.classType decl args)) :=
  (confined_parentClass? context budget _).endsWithin_walk
    (within_reachedNodes context _)
    (length_reachedNodes context _)

theorem nodup_classChain (context : Context) (budget : Nat) (ty : Ty) :
    ((classChain context budget ty).map Prod.fst).Nodup := by
  rw [classChain.eq_def]
  split
  case h_1 => exact (Node.nodup_walk _ [] _).1
  case h_2 => exact List.nodup_nil

end Inference

end PklAnalysis

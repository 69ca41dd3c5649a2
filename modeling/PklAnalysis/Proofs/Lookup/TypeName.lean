import PklAnalysis.Lookup.TypeName
import PklAnalysis.Proofs.Base
import PklAnalysis.Proofs.Node.Relatives
import PklAnalysis.Proofs.Node.Walk

/-!
What names of types stand for lies in the document of the name, in a module of
the context, or in the base module. Chains of modules end.
-/

namespace PklAnalysis

namespace Lookup

variable {context : Context} {node root found : Node} {name : String}

theorem document_mem_of_import? {document : Document} {reference : String}
    (hfound : context.import? document reference = some found) :
    ∃ document ∈ context.documents, found = document.root := by
  rw [Context.import?] at hfound
  split at hfound
  case isTrue =>
      cases hfound
      exact ⟨_, List.mem_cons_self, rfl⟩
  case isFalse =>
      obtain ⟨document, hdocument, rfl⟩ := Option.map_eq_some_iff.mp hfound
      obtain ⟨entry, hentry, rfl⟩ := Option.map_eq_some_iff.mp hdocument
      have hmember := List.mem_of_find?_eq_some hentry
      exact ⟨entry.2, List.mem_cons_of_mem _ (List.mem_map_of_mem hmember), rfl⟩

theorem document_mem_of_parentModule?
    (hfound : parentModule? context root = some found) :
    ∃ document ∈ context.documents, found = document.root := by
  simp only [parentModule?, Option.bind_eq_bind, Option.bind_eq_some_iff]
    at hfound
  obtain ⟨clause, _, uri, _, reference, _, hfound⟩ := hfound
  exact document_mem_of_import? hfound

def reachedModules (context : Context) (root : Node) : List Node :=
  root :: context.documents.map Document.root

theorem mem_reachedModules (root : Node) {place next : Node}
    (hparent : parentModule? context place = some next) :
    next ∈ reachedModules context root := by
  obtain ⟨document, hdocument, rfl⟩ := document_mem_of_parentModule? hparent
  exact List.mem_cons_of_mem _ (List.mem_map_of_mem hdocument)

theorem confined_parentModule? (context : Context) (root : Node) :
    Node.Confined id (parentModule? context) (reachedModules context root)
      (· ∈ reachedModules context root) where
  node := fun _ hplace => hplace
  next := fun _ _ _ hparent => mem_reachedModules root hparent

theorem length_reachedModules (context : Context) (root : Node) :
    (reachedModules context root).length < context.modules.length + 3 := by
  simp only [reachedModules, Context.documents, List.length_cons,
    List.length_map]
  omega

/-- One step along a chain of modules. A cancelled question stops everywhere. -/
def moduleStep (context : Context) (rest : List Node × Node → List Node)
    (call : List Node × Node) :
    List Node :=
  if context.cancelled then [] else
    Node.walkStep id (parentModule? context) rest call

theorem endsWithin_moduleChain (context : Context) (root : Node) :
    EndsWithin (moduleStep context) (context.modules.length + 3) ([], root)
      (moduleChain context root) := by
  cases hcancelled : context.cancelled with
  | true =>
      intro fuel hfuel stuck
      obtain ⟨fuel, rfl⟩ :=
        Nat.exists_eq_succ_of_ne_zero (Nat.ne_of_gt (Nat.lt_of_lt_of_le
        (Nat.succ_pos _) hfuel))
      rw [unroll, moduleStep, moduleChain, if_pos hcancelled, if_pos hcancelled]
  | false =>
      have hstep :
          moduleStep context = Node.walkStep id (parentModule? context) := by
        funext rest call
        rw [moduleStep, hcancelled]
        rfl
      rw [hstep, moduleChain, hcancelled]
      exact (confined_parentModule? context root).endsWithin_walk
        List.mem_cons_self
        (length_reachedModules context root)

theorem nodup_moduleChain (context : Context) (root : Node) :
    (moduleChain context root).Nodup := by
  rw [moduleChain]
  split
  case isTrue => exact List.nodup_nil
  case isFalse =>
      have hnodup :
          ((Node.walk id (parentModule? context) (context.modules.length + 3) []
          root).map id).Nodup := (Node.nodup_walk _ [] root).1
      rwa [List.map_id] at hnodup

theorem moduleChain_of_not_cancelled (hcancelled : context.cancelled = false)
    (root : Node) :
    moduleChain context root =
      Node.walk id (parentModule? context) (context.modules.length + 3)
      [] root := by
  rw [moduleChain, hcancelled]
  rfl

theorem closed_moduleChain {place next : Node}
    (hplace : place ∈ moduleChain context root)
    (hparent : parentModule? context place = some next) :
    next ∈ moduleChain context root := by
  cases hcancelled : context.cancelled with
  | true =>
      rw [moduleChain, if_pos hcancelled] at hplace
      cases hplace
  | false =>
      rw [moduleChain_of_not_cancelled hcancelled] at hplace ⊢
      have hagain :=
        (confined_parentModule? context root).closed_walk List.mem_cons_self
        (length_reachedModules context root) hplace hparent
      rwa [List.map_id] at hagain

theorem forall_mem_moduleChain {holds : Node → Prop} (hroot : holds root)
    (hdocuments : ∀ document ∈ context.documents, holds document.root) :
    ∀ reached ∈ moduleChain context root, holds reached := by
  intro reached hreached
  rw [moduleChain] at hreached
  split at hreached
  case isTrue => cases hreached
  case isFalse =>
      refine Node.forall_mem_walk (fun place next _ hparent => ?_) hroot reached
        hreached
      obtain ⟨document, hdocument, rfl⟩ := document_mem_of_parentModule? hparent
      exact hdocuments document hdocument

theorem mem_moduleChain_trans {inner outer : Node}
    (hinner : inner ∈ moduleChain context root)
    (houter : outer ∈ moduleChain context inner) :
    outer ∈ moduleChain context root := by
  rw [moduleChain] at houter
  split at houter
  case isTrue => cases houter
  case isFalse =>
      exact Node.forall_mem_walk
        (fun _ _ hplace hparent => closed_moduleChain hplace hparent) hinner
        outer houter

variable {documents : List Document}

theorem document_of_mem_moduleChain {reached : Node}
    (hcontext : context.documents ⊆ documents)
    (hroot : root.document ∈ documents)
    (hreached : reached ∈ moduleChain context root) :
    reached.document ∈ documents := by
  have hall : ∀ reached ∈ moduleChain context root,
      reached.document ∈ documents :=
    forall_mem_moduleChain hroot fun _ hdocument => hcontext hdocument
  exact hall reached hreached

theorem mem_of_named? {nodes : List Node}
    (hfound : named? name nodes = some found) :
    found ∈ nodes :=
  List.mem_of_find?_eq_some hfound

theorem document_of_moduleType? (hcontext : context.documents ⊆ documents)
    (hroot : root.document ∈ documents)
    (hfound : moduleType? context root name = some found) :
    found.document ∈ documents := by
  obtain ⟨owner, howner, hfound⟩ := List.exists_of_findSome?_eq_some hfound
  have hdocument := document_of_mem_moduleChain hcontext hroot howner
  cases Option.or_eq_some_iff.mp hfound with
  | inl hclass => rwa [Node.document_of_mem_childrenOf (mem_of_named? hclass)]
  | inr halias => rwa [Node.document_of_mem_childrenOf (mem_of_named? halias.2)]

theorem document_of_importedModule? (hcontext : context.documents ⊆ documents)
    (hfound : importedModule? context node name = some found) :
    found.document ∈ documents := by
  obtain ⟨clause, _, hfound⟩ := Option.bind_eq_some_iff.mp hfound
  simp only [importTarget?, Option.bind_eq_bind, Option.bind_eq_some_iff]
    at hfound
  obtain ⟨uri, _, reference, _, hfound⟩ := hfound
  obtain ⟨document, hdocument, rfl⟩ := document_mem_of_import? hfound
  exact hcontext hdocument

theorem document_of_scopeType? (hcontext : context.documents ⊆ documents)
    (hnode : node.document ∈ documents)
    (hfound : scopeType? context node name = some found) :
    found.document ∈ documents := by
  rw [scopeType?] at hfound
  split at hfound
  case h_6 => cases hfound
  case h_5 =>
      cases Option.or_eq_some_iff.mp hfound with
      | inl htype => exact document_of_moduleType? hcontext hnode htype
      | inr himport => exact document_of_importedModule? hcontext himport.2
  all_goals rwa [Node.document_of_mem_typeParameters (mem_of_named? hfound)]

theorem document_of_simpleType? (hcontext : context.documents ⊆ documents)
    (hnode : node.document ∈ documents)
    (hfound : simpleType? context node name = some found) :
    found.document ∈ documents := by
  have hbase : context.base.root.document ∈ documents :=
    hcontext List.mem_cons_self
  cases Option.or_eq_some_iff.mp hfound with
  | inl hscope =>
      obtain ⟨scope, hscope, hfound⟩ := List.exists_of_findSome?_eq_some hscope
      rw [← Node.document_of_mem_ancestors hscope] at hnode
      exact document_of_scopeType? hcontext hnode hfound
  | inr hbuiltin =>
      cases Option.or_eq_some_iff.mp hbuiltin.2 with
      | inl hclass =>
          rwa [Node.document_of_mem_childrenOf (Base.mem_of_class? hclass)]
      | inr halias =>
          rwa [Node.document_of_mem_childrenOf
              (Base.mem_of_typeAlias? halias.2)]

theorem document_of_typeName? (hcontext : context.documents ⊆ documents)
    (hnode : node.document ∈ documents)
    (hfound : typeName? context node = some found) :
    found.document ∈ documents := by
  rw [typeName?] at hfound
  split at hfound
  case h_1 => cases hfound
  case h_2 => exact document_of_simpleType? hcontext hnode hfound
  case h_3 =>
      obtain ⟨root, hroot, hfound⟩ := Option.bind_eq_some_iff.mp hfound
      exact document_of_moduleType? hcontext
        (document_of_importedModule? hcontext hroot) hfound
  case h_4 => cases hfound

end Lookup

end PklAnalysis

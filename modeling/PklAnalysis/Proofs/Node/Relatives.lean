import PklAnalysis.Node.Declaration
import PklAnalysis.Proofs.Token.Initial

/-!
The relatives of a node, and the parts of the construct that it stands for,
belong to the same document.
-/

namespace PklAnalysis.Node

theorem document_of_mem_children {node child : Node}
    (hchild : child ∈ node.children) :
    child.document = node.document := by
  obtain ⟨index, -, rfl⟩ := List.mem_map.mp hchild
  rfl

theorem document_of_parent? {node parent : Node}
    (hparent : node.parent? = some parent) :
    parent.document = node.document := by
  obtain ⟨index, -, rfl⟩ := Option.map_eq_some_iff.mp hparent
  rfl

theorem document_of_mem_ancestorsUpTo {limit : Nat} {node above : Node}
    (habove : above ∈ ancestorsUpTo limit node) :
    above.document = node.document := by
  induction limit generalizing node with
  | zero => cases habove
  | succ limit ih =>
      rw [ancestorsUpTo] at habove
      cases hparent : node.parent? with
      | none =>
          rw [hparent] at habove
          cases habove
      | some parent =>
          rw [hparent] at habove
          have hdocument := document_of_parent? hparent
          cases List.mem_cons.mp habove with
          | inl hhead => rw [hhead, hdocument]
          | inr htail => rw [ih htail, hdocument]

theorem document_of_mem_ancestors {node above : Node}
    (habove : above ∈ node.ancestors) :
    above.document = node.document :=
  document_of_mem_ancestorsUpTo habove

theorem document_of_child? {node child : Node} {isKind : Kind → Bool}
    (hchild : node.child? isKind = some child) :
    child.document = node.document :=
  document_of_mem_children (List.mem_of_find?_eq_some hchild)

theorem document_of_childOf? {node child : Node} {kind : Kind}
    (hchild : node.childOf? kind = some child) :
    child.document = node.document :=
  document_of_child? hchild

theorem document_of_mem_childrenWhere {node child : Node} {isKind : Kind → Bool}
    (hchild : child ∈ node.childrenWhere isKind) :
    child.document = node.document :=
  document_of_mem_children (List.mem_filter.mp hchild).1

theorem document_of_mem_childrenOf {node child : Node} {kind : Kind}
    (hchild : child ∈ node.childrenOf kind) : child.document = node.document :=
  document_of_mem_childrenWhere hchild

theorem kind_of_mem_childrenOf {node child : Node} {kind : Kind}
    (hchild : child ∈ node.childrenOf kind) : child.kind = kind := by
  simpa using (List.mem_filter.mp hchild).2

theorem eq_some_of_require {node child : Node} {slot : String}
    {found? : Option Node} (hchild : node.require slot found? = .ok child) :
    found? = some child := by
  cases found? with
  | none => cases hchild
  | some found => rw [Except.ok.inj hchild]

theorem document_of_required {node child : Node} {isKind : Kind → Bool}
    {slot : String} (hchild : node.required isKind slot = .ok child) :
    child.document = node.document :=
  document_of_child? (eq_some_of_require hchild)

theorem document_of_typeName {node name : Node}
    (hname : node.typeName = .ok name) :
    name.document = node.document :=
  document_of_required hname

theorem document_of_innerType {node inner : Node}
    (hinner : node.innerType = .ok inner) :
    inner.document = node.document :=
  document_of_required hinner

theorem document_of_mem_types {node type : Node} (htype : type ∈ node.types) :
    type.document = node.document :=
  document_of_mem_childrenWhere htype

theorem document_of_mem_typeArguments {node type : Node}
    (htype : type ∈ node.typeArguments) :
    type.document = node.document := by
  rw [typeArguments] at htype
  cases hlist : node.typeArgumentList? with
  | none => simp [hlist] at htype
  | some list =>
      simp only [hlist, Option.map_some, Option.getD_some] at htype
      rw [document_of_mem_types htype, document_of_childOf? hlist]

theorem document_of_mem_alternativesUpTo {limit : Nat} {node type : Node}
    (htype : type ∈ node.alternativesUpTo limit) :
    type.document = node.document := by
  induction limit generalizing node with
  | zero => cases htype
  | succ limit ih =>
      obtain ⟨member, hmember, htype⟩ := List.mem_flatMap.mp htype
      have hdocument := document_of_mem_types hmember
      split at htype
      case isTrue => rw [ih htype, hdocument]
      case isFalse => rw [List.mem_singleton.mp htype, hdocument]

theorem document_of_mem_alternatives {node type : Node}
    (htype : type ∈ node.alternatives) :
    type.document = node.document :=
  document_of_mem_alternativesUpTo htype

theorem document_of_mem_parameterTypes {node type : Node}
    (htype : type ∈ node.parameterTypes) :
    type.document = node.document :=
  document_of_mem_types (List.mem_filter.mp htype).1

theorem document_of_resultType {node type : Node}
    (htype : node.resultType = .ok type) :
    type.document = node.document := by
  rw [resultType] at htype
  split at htype
  case h_1 => cases htype
  case h_2 =>
      exact document_of_mem_types
        (List.mem_of_find?_eq_some (eq_some_of_require htype))

theorem document_of_aliasedType {node type : Node}
    (htype : node.aliasedType = .ok type) :
    type.document = node.document :=
  document_of_required htype

theorem document_of_mem_typeParameters {node param : Node}
    (hparam : param ∈ node.typeParameters) :
    param.document = node.document := by
  rw [typeParameters] at hparam
  cases hlist : node.typeParameterList? with
  | none => simp [hlist] at hparam
  | some list =>
      simp only [hlist, Option.map_some, Option.getD_some] at hparam
      rw [document_of_mem_childrenOf hparam, document_of_childOf? hlist]

theorem document_of_supertype? {node type : Node}
    (htype : node.supertype? = some type) :
    type.document = node.document := by
  obtain ⟨header, hheader, htype⟩ := Option.bind_eq_some_iff.mp htype
  rw [document_of_required (toOption_eq_some.mp htype),
    document_of_childOf? hheader]

end PklAnalysis.Node

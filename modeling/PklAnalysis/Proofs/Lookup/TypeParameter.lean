import PklAnalysis.Proofs.Document.Parents
import PklAnalysis.Proofs.Lookup.TypeName

/-!
Type parameters belong to one declaration, and a name sees those of the
declarations around it. A type alias stands in no other declaration, so the type
that it stands for sees no parameters but its own.
-/

namespace PklAnalysis

def Node.Kind.bindsTypes : Kind → Bool
  | .classDecl | .typeAlias | .classMethod | .objectMethod => true
  | _ => false

namespace Node

def Sees (node param : Node) : Prop :=
  ∃ scope ∈ node.ancestors,
    scope.kind.bindsTypes = true ∧ param ∈ scope.typeParameters

section

variable {node child param : Node}

theorem sees_of_mem_children (hchild : child ∈ node.children) :
    child.Sees param ↔
      node.kind.bindsTypes = true ∧ param ∈ node.typeParameters ∨
        node.Sees param := by
  simp only [Sees, ancestors_of_mem_children hchild, List.mem_cons,
    or_and_right, exists_or, exists_eq_left]

theorem Sees.of_mem_children (hsees : child.Sees param)
    (hkind : node.kind.bindsTypes = false) (hchild : child ∈ node.children) :
    node.Sees param := by
  refine ((sees_of_mem_children hchild).mp hsees).resolve_left fun hbound => ?_
  rw [hkind] at hbound
  cases hbound.1

theorem mem_children_of_required {isKind : Kind → Bool} {slot : String}
    (hchild : node.required isKind slot = .ok child) : child ∈ node.children :=
  List.mem_of_find?_eq_some (eq_some_of_require hchild)

theorem mem_children_of_mem_types (hchild : child ∈ node.types) :
    child ∈ node.children :=
  (List.mem_filter.mp hchild).1

theorem mem_children_of_resultType (hchild : node.resultType = .ok child) :
    child ∈ node.children := by
  rw [resultType] at hchild
  split at hchild
  case h_1 => cases hchild
  case h_2 =>
      exact mem_children_of_mem_types
        (List.mem_of_find?_eq_some (eq_some_of_require hchild))

theorem Sees.of_mem_typeArguments (hsees : child.Sees param)
    (hkind : node.kind.bindsTypes = false)
    (hchild : child ∈ node.typeArguments) :
    node.Sees param := by
  rw [typeArguments] at hchild
  cases hlist : node.typeArgumentList? with
  | none => simp [hlist] at hchild
  | some list =>
      simp only [hlist, Option.map_some, Option.getD_some] at hchild
      have hfound := List.find?_some hlist
      have hlistKind : list.kind.bindsTypes = false := by
        rw [of_decide_eq_true hfound]; rfl
      exact (hsees.of_mem_children hlistKind
        (mem_children_of_mem_types hchild)).of_mem_children hkind
        (List.mem_of_find?_eq_some hlist)

theorem Sees.of_mem_alternatives (hsees : child.Sees param)
    (hkind : node.kind.bindsTypes = false)
    (hchild : child ∈ node.alternatives) :
    node.Sees param := by
  rw [alternatives] at hchild
  generalize node.document.arena.size = limit at hchild
  induction limit generalizing node with
  | zero => cases hchild
  | succ limit ih =>
      obtain ⟨member, hmember, hchild⟩ := List.mem_flatMap.mp hchild
      have hbelow := mem_children_of_mem_types hmember
      split at hchild
      case isTrue hunion =>
          exact (ih (by rw [hunion]; rfl) hchild).of_mem_children hkind hbelow
      case isFalse =>
          cases List.mem_singleton.mp hchild
          exact hsees.of_mem_children hkind hbelow

theorem eq_of_mem_typeParameters {left right : Node}
    (hleft : param ∈ left.typeParameters)
    (hright : param ∈ right.typeParameters) : left = right := by
  have howner : ∀ decl : Node, param ∈ decl.typeParameters →
      param.parent?.bind parent? = some decl := by
    intro decl hparam
    rw [typeParameters] at hparam
    cases hlist : decl.typeParameterList? with
    | none => simp [hlist] at hparam
    | some list =>
        simp only [hlist, Option.map_some, Option.getD_some] at hparam
        have hlist := parent?_of_mem_children (List.mem_of_find?_eq_some hlist)
        have hparam := parent?_of_mem_children (List.mem_filter.mp hparam).1
        rw [hparam, Option.bind_some, hlist]
  exact Option.some.inj ((howner left hleft).symm.trans (howner right hright))

theorem kind_of_mem_typeParameters {decl : Node}
    (hparam : param ∈ decl.typeParameters) :
    param.kind = .typeParameter := by
  rw [typeParameters] at hparam
  cases hlist : decl.typeParameterList? with
  | none => simp [hlist] at hparam
  | some list =>
      simp only [hlist, Option.map_some, Option.getD_some] at hparam
      exact kind_of_mem_childrenOf hparam

end

def IsModuleType (node : Node) : Prop :=
  ∃ root : Node,
    root.kind = .root ∧
      (node ∈ root.childrenOf .classDecl ∨ node ∈ root.childrenOf .typeAlias)

theorem IsModuleType.not_sees {node param : Node} (htype : node.IsModuleType) :
    ¬ node.Sees param := by
  obtain ⟨root, hroot, hnode⟩ := htype
  have hchild : node ∈ root.children := by
    cases hnode with
    | inl hclass => exact (List.mem_filter.mp hclass).1
    | inr halias => exact (List.mem_filter.mp halias).1
  rintro ⟨scope, hscope, hkind, -⟩
  rw [ancestors_of_mem_children hchild, ancestors_of_kind_root hroot] at hscope
  cases List.mem_singleton.mp hscope
  rw [hroot] at hkind
  cases hkind

end Node

namespace Lookup

variable {context : Context} {root found name : Node} {text : String}

/-! What names of types stand for. -/

theorem kind_of_mem_moduleChain (hroot : root.kind = .root) {reached : Node}
    (hreached : reached ∈ moduleChain context root) : reached.kind = .root := by
  have hall : ∀ reached ∈ moduleChain context root, reached.kind = .root :=
    forall_mem_moduleChain hroot fun document _ => Node.kind_root document
  exact hall reached hreached

theorem isModuleType_of_moduleType? (hroot : root.kind = .root)
    (hfound : moduleType? context root text = some found) :
    found.IsModuleType := by
  obtain ⟨owner, howner, hfound⟩ := List.exists_of_findSome?_eq_some hfound
  refine ⟨owner, kind_of_mem_moduleChain hroot howner, ?_⟩
  cases Option.or_eq_some_iff.mp hfound with
  | inl hclass => exact .inl (mem_of_named? hclass)
  | inr halias => exact .inr (mem_of_named? halias.2)

theorem kind_of_importedModule?
    (hfound : importedModule? context name text = some found) :
    found.kind = .root := by
  obtain ⟨clause, _, hfound⟩ := Option.bind_eq_some_iff.mp hfound
  simp only [importTarget?, Option.bind_eq_bind, Option.bind_eq_some_iff]
    at hfound
  obtain ⟨uri, _, reference, _, hfound⟩ := hfound
  obtain ⟨document, -, rfl⟩ := document_mem_of_import? hfound
  exact Node.kind_root document

/-- A simple name of a type stands for a type parameter that it sees, a class or
type alias of a module, or a module. -/
theorem simpleType?_cases
    (hfound : simpleType? context name text = some found) :
    name.Sees found ∨ found.IsModuleType ∨ found.kind = .root := by
  cases Option.or_eq_some_iff.mp hfound with
  | inl hscope =>
      obtain ⟨scope, hscope, hfound⟩ := List.exists_of_findSome?_eq_some hscope
      rw [scopeType?] at hfound
      split at hfound
      case h_6 => cases hfound
      case h_5 hkind =>
          cases Option.or_eq_some_iff.mp hfound with
          | inl htype =>
              exact .inr (.inl (isModuleType_of_moduleType? hkind htype))
          | inr himport => exact .inr (.inr (kind_of_importedModule? himport.2))
      all_goals
        rename_i hkind
        exact .inl ⟨scope, hscope, by rw [hkind]; rfl, mem_of_named? hfound⟩
  | inr hbuiltin =>
      refine .inr (.inl ⟨context.base.root, Node.kind_root _, ?_⟩)
      cases Option.or_eq_some_iff.mp hbuiltin.2 with
      | inl hclass => exact .inl (Base.mem_of_class? hclass)
      | inr halias => exact .inr (Base.mem_of_typeAlias? halias.2)

theorem typeName?_cases (hfound : typeName? context name = some found) :
    name.Sees found ∨ found.IsModuleType ∨ found.kind = .root := by
  rw [typeName?] at hfound
  split at hfound
  case h_1 => cases hfound
  case h_2 => exact simpleType?_cases hfound
  case h_3 =>
      obtain ⟨root, hroot, hfound⟩ := Option.bind_eq_some_iff.mp hfound
      exact .inr
        (.inl (isModuleType_of_moduleType? (kind_of_importedModule? hroot)
          hfound))
  case h_4 => cases hfound

theorem sees_of_typeName? (hfound : typeName? context name = some found)
    (hkind : found.kind = .typeParameter) : name.Sees found := by
  rcases typeName?_cases hfound with hsees | ⟨root, -, hclass | halias⟩ | hroot
  · exact hsees
  · rw [Node.kind_of_mem_childrenOf hclass] at hkind
    cases hkind
  · rw [Node.kind_of_mem_childrenOf halias] at hkind
    cases hkind
  · rw [hroot] at hkind
    cases hkind

theorem mem_typeParameters_of_typeAlias {aliased param : Node}
    (hfound : typeName? context name = some found)
    (hkind : found.kind = .typeAlias)
    (haliased : found.aliasedType = .ok aliased) (hsees : aliased.Sees param) :
    param ∈ found.typeParameters := by
  have hmodule : found.IsModuleType := by
    rcases typeName?_cases hfound with hsees | hmodule | hroot
    · obtain ⟨scope, -, -, hparam⟩ := hsees
      rw [Node.kind_of_mem_typeParameters hparam] at hkind
      cases hkind
    · exact hmodule
    · rw [hroot] at hkind
      cases hkind
  have hbelow :=
    (Node.sees_of_mem_children (Node.mem_children_of_required haliased)).mp
      hsees
  exact (hbelow.resolve_right hmodule.not_sees).2

end Lookup

end PklAnalysis

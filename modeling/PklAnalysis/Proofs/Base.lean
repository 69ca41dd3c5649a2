import PklAnalysis.Base.Basic
import PklAnalysis.Proofs.Grammar.Parses
import PklAnalysis.Proofs.Node.Contents

/-!
Base modules. What is found by a name is declared at the top of the base module,
and the required classes are always found.
-/

namespace PklAnalysis.Base

theorem mem_insert {entries : List (String × Node)} {name : String}
    {node : Node} {entry : String × Node}
    (hentry : entry ∈ insert entries name node) :
    entry ∈ entries ∨ entry.2 = node := by
  cases List.mem_append.mp hentry with
  | inl hmember => exact .inl (List.mem_filter.mp hmember).1
  | inr hmember => exact .inr (by rw [List.mem_singleton.mp hmember])

theorem mem_byName {nodes : List Node} {entry : String × Node}
    (hentry : entry ∈ byName nodes) :
    entry.2 ∈ nodes := by
  have hall : ∀ entry ∈ byName nodes, entry.2 ∈ nodes := by
    refine List.foldlRecOn
      (motive := fun entries : List (String × Node) => ∀ entry ∈ entries,
        entry.2 ∈ nodes)
      nodes _ ?_ ?_
    · intro entry hentry
      cases hentry
    · intro entries hentries node hnode entry hentry
      split at hentry
      case h_1 =>
          cases mem_insert hentry with
          | inl hmember => exact hentries entry hmember
          | inr hsame => exact hsame ▸ hnode
      case h_2 => exact hentries entry hentry
  exact hall entry hentry

theorem mem_of_get? {nodes : List Node} {name : String} {node : Node}
    (hnode : get? (byName nodes) name = some node) : node ∈ nodes := by
  obtain ⟨entry, hentry, rfl⟩ := Option.map_eq_some_iff.mp hnode
  exact mem_byName (List.mem_of_find?_eq_some hentry)

variable {base : Base} {name : String} {node : Node}

theorem mem_of_class? (hnode : base.class? name = some node) :
    node ∈ base.root.childrenOf .classDecl := by
  rw [class?, base.classes_eq] at hnode
  exact mem_of_get? hnode

theorem mem_of_typeAlias? (hnode : base.typeAlias? name = some node) :
    node ∈ base.root.childrenOf .typeAlias := by
  rw [typeAlias?, base.typeAliases_eq] at hnode
  exact mem_of_get? hnode

theorem type_of_class? {decl : Node} (hclass : base.class? name = some decl) :
    base.type name = .classType decl [] := by
  rw [type, generic, hclass]

theorem null_mem_requiredClasses : "Null" ∈ requiredClasses := by decide

theorem isNull_type (base : Base) : (base.type "Null").isNull base = true := by
  obtain ⟨decl, hclass⟩ :=
    Option.isSome_iff_exists.mp (base.isSome_class? null_mem_requiredClasses)
  rw [type_of_class? hclass, Ty.isNull, isClass, hclass, decide_eq_true rfl]

/-- Classes without bodies, one on a line. -/
def classText (names : List String) : String :=
  names.foldr (fun name more => "class " ++ name ++ "\n" ++ more) ""

def classChars (names : List String) : List Char :=
  names.flatMap fun name => "class ".toList ++ name.toList ++ ['\n']

theorem classText_eq (names : List String) :
    classText names = .ofList (classChars names) := by
  induction names with
  | nil => rfl
  | cons name rest ih =>
      refine String.toList_inj.mp ?_
      rw [classText, List.foldr_cons, ← classText, ih]
      simp [classChars]

def classTokens : Nat → List String → List Token
  | _, [] => []
  | offset, name :: rest =>
      let stop := offset + 6 + name.utf8ByteSize
      [⟨.classKw, "class", offset⟩, ⟨.whitespace, " ", offset + 5⟩,
        ⟨.identifier, name, offset + 6⟩, ⟨.whitespace, "\n", stop⟩] ++
          classTokens (stop + 1) rest

def plainText : String :=
  classText requiredClasses

theorem tokenize_plainText :
    Token.tokenize plainText = .ok (classTokens 0 requiredClasses) := by
  rw [plainText, classText_eq]
  exact Token.ok_of_toOption (by decide +kernel)

def plainTree : Tree :=
  .node .root <| requiredClasses.flatMap fun name =>
    [.node .classDecl [.token .classKw "class", .token .whitespace " ",
      .token .identifier name], .token .whitespace "\n"]

theorem parse_plainText : Grammar.parse plainText = .ok ⟨plainTree, []⟩ := by
  let parse := Grammar.parseTokens (classTokens 0 requiredClasses)
    plainText.utf8ByteSize
  have htree : parse.tree = plainTree := by decide +kernel
  have herrors : parse.errors = [] := by decide +kernel
  rw [Grammar.parse_of_tokenize tokenize_plainText, ← htree, ← herrors]

def plainDocument : Document where
  source := { file := .base, revision := 0, uri, version := 0, text := plainText }
  parse := ⟨plainTree, []⟩
  arena := .ofTree plainTree
  lines := .ofText plainText
  parse_eq := parse_plainText
  arena_eq := rfl
  lines_eq := rfl

/-- A base module with the required classes only. The tree and the classes are
written out, so that they are there without parsing. -/
def plain : Base where
  document := plainDocument
  classes := requiredClasses.zipIdx.map fun (name, place) =>
    (name, ⟨plainDocument, place + 1⟩)
  typeAliases := []
  classes_eq := by decide +kernel
  typeAliases_eq := by decide +kernel
  missing_eq := by decide +kernel

end PklAnalysis.Base

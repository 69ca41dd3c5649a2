import PklAnalysis.Proofs.Grammar.Parses

/-!
Types as they are written: the tokens, the trees that they stand for, and where
parentheses are needed so that they can be read back.
-/

namespace PklAnalysis.Grammar

open PklAnalysis.Parser

def word (kind : Token.Kind) : Leaf :=
  (kind, kind.spelling?.getD "")

def tokenTree (leaf : Leaf) : Tree :=
  .token leaf.1 leaf.2

def listed (comma : β) (write : α → List β) : List α → List β
  | [] => []
  | first :: rest => write first ++ rest.flatMap fun item => comma :: write item

theorem length_le_listed {comma : β} {write : α → List β} {items : List α}
    {item : α} (hitem : item ∈ items) :
    (write item).length ≤ (listed comma write items).length := by
  obtain ⟨before, after, rfl⟩ := List.append_of_mem hitem
  cases before with
  | nil =>
      rw [List.nil_append, listed, List.length_append]
      exact Nat.le_add_right _ _
  | cons first before =>
      rw [List.cons_append, listed, List.flatMap_append, List.flatMap_cons]
      simp only [List.length_append, List.length_cons]
      omega

/-- Types of names, literals and keywords. Parentheses are part of the type. -/
inductive WrittenType
  | unknown
  | nothing
  | module
  | literal (opening : String) (runs : List String) (closing : String)
  | named (first : String) (others : List String) (arguments : List WrittenType)
  | nullable (inner : WrittenType)
  | union (left right : WrittenType)
  | function (parameters : List WrittenType) (result : WrittenType)
  | parenthesized (inner : WrittenType)

namespace WrittenType

def literalLeaves (opening : String) (runs : List String) (closing : String) :
    List Leaf :=
  (.stringStart, opening) :: runs.map (fun run => (.stringChars, run)) ++
    [(.stringEnd, closing)]

def nameLeaves (first : String) (others : List String) : List Leaf :=
  (.identifier, first) :: others.flatMap fun part =>
    [word .dot, (.identifier, part)]

def argumentLeaves : List (List Leaf) → List Leaf
  | [] => []
  | arguments =>
      word .less :: listed (word .comma) id arguments ++ [word .greater]

mutual

def print : WrittenType → List Leaf
  | unknown => [word .unknownKw]
  | nothing => [word .nothingKw]
  | module => [word .moduleKw]
  | literal opening runs closing => literalLeaves opening runs closing
  | named first others arguments =>
      nameLeaves first others ++ argumentLeaves (printEach arguments)
  | nullable inner => inner.print ++ [word .question]
  | union left right => left.print ++ word .pipe :: right.print
  | function parameters result =>
      word .leftParen :: listed (word .comma) id (printEach parameters) ++
        word .rightParen :: word .arrow :: result.print
  | parenthesized inner => word .leftParen :: inner.print ++ [word .rightParen]

def printEach : List WrittenType → List (List Leaf)
  | [] => []
  | type :: rest => type.print :: printEach rest

end

/-- The tree of a type on its own, or of the union with the alternatives before
it. -/
def alternative : Option Tree → Tree → Tree
  | none, tree => tree
  | some left, right => .node .unionType [left, tokenTree (word .pipe), right]

def argumentTrees : List Tree → List Tree
  | [] => []
  | trees =>
      [.node .typeArgumentList
        (tokenTree (word .less) ::
          listed (tokenTree (word .comma)) ([·]) trees ++
          [tokenTree (word .greater)])]

mutual

/-- The tree of a type, or of the union with what comes before it. Unions nest
to the left. -/
def treeAfter (before : Option Tree) : WrittenType → Tree
  | union left right => right.treeAfter (some (left.treeAfter before))
  | unknown =>
      alternative before (.node .unknownType [tokenTree (word .unknownKw)])
  | nothing =>
      alternative before (.node .nothingType [tokenTree (word .nothingKw)])
  | module =>
      alternative before (.node .moduleType [tokenTree (word .moduleKw)])
  | literal opening runs closing =>
      alternative before (.node .stringLiteralType
        [.node (literalKind opening)
          ((literalLeaves opening runs closing).map tokenTree)])
  | named first others arguments =>
      alternative before (.node .declaredType
        (.node .qualifiedIdent ((nameLeaves first others).map tokenTree) ::
          argumentTrees (treesOf arguments)))
  | nullable inner =>
      alternative before
        (.node .nullableType [inner.treeAfter none, tokenTree (word .question)])
  | function parameters result =>
      alternative before (.node .functionType
        (tokenTree (word .leftParen) ::
          listed (tokenTree (word .comma)) ([·]) (treesOf parameters) ++
          [tokenTree (word .rightParen), tokenTree (word .arrow),
            result.treeAfter none]))
  | parenthesized inner =>
      alternative before (.node .parenthesizedType
        [tokenTree (word .leftParen), inner.treeAfter none,
          tokenTree (word .rightParen)])

def treesOf : List WrittenType → List Tree
  | [] => []
  | type :: rest => type.treeAfter none :: treesOf rest

end

def tree (type : WrittenType) : Tree :=
  type.treeAfter none

theorem printEach_eq (types : List WrittenType) :
    printEach types = types.map print := by
  induction types with
  | nil => rfl
  | cons type rest ih => rw [printEach, ih, List.map_cons]

theorem length_print_le_listed {types : List WrittenType} {type : WrittenType}
    (htype : type ∈ types) :
    type.print.length ≤ (listed (word .comma) id (printEach types)).length := by
  have hprinted : type.print ∈ types.map print := List.mem_map_of_mem htype
  have hlength : (id type.print).length ≤
      (listed (word .comma) id (types.map print)).length :=
    length_le_listed hprinted
  rw [printEach_eq]
  exact hlength

theorem length_listed_le_argumentLeaves (arguments : List (List Leaf)) :
    (listed (word .comma) id arguments).length ≤
      (argumentLeaves arguments).length := by
  cases arguments with
  | nil => exact Nat.le_refl _
  | cons =>
      simp only [argumentLeaves, List.cons_append, List.length_cons,
        List.length_append]
      omega

theorem treesOf_eq (types : List WrittenType) :
    treesOf types = types.map tree := by
  induction types with
  | nil => rfl
  | cons type rest ih => rw [treesOf, ih, List.map_cons, tree]

def alternatives : WrittenType → List WrittenType
  | union left right => left.alternatives ++ right.alternatives
  | type => [type]

def IsUnion : WrittenType → Prop
  | union _ _ => True
  | _ => False

/-- Whether the last alternative is a function, whose result goes on over
alternatives after it. -/
def EndsInFunction : WrittenType → Prop
  | union _ right => right.EndsInFunction
  | function _ _ => True
  | _ => False

mutual

/-- Parentheses stand around unions and functions under a question mark, and
around functions that other alternatives come after. -/
def Grouped : WrittenType → Prop
  | unknown | nothing | module | literal _ _ _ => True
  | named _ _ arguments => GroupedEach arguments
  | nullable inner => ¬inner.IsUnion ∧ ¬inner.EndsInFunction ∧ inner.Grouped
  | union left right => ¬left.EndsInFunction ∧ left.Grouped ∧ right.Grouped
  | function parameters result => GroupedEach parameters ∧ result.Grouped
  | parenthesized inner => inner.Grouped

def GroupedEach : List WrittenType → Prop
  | [] => True
  | type :: rest => type.Grouped ∧ GroupedEach rest

end

@[elab_as_elim]
theorem inductionUnion {motive : WrittenType → Prop}
    (union : ∀ left right, motive left → motive right →
      motive (.union left right))
    (single : ∀ type, ¬type.IsUnion → motive type) :
    (type : WrittenType) → motive type
  | .union left right =>
      union left right (inductionUnion union single left)
        (inductionUnion union single right)
  | .unknown => single _ not_false
  | .nothing => single _ not_false
  | .module => single _ not_false
  | .literal _ _ _ => single _ not_false
  | .named _ _ _ => single _ not_false
  | .nullable _ => single _ not_false
  | .function _ _ => single _ not_false
  | .parenthesized _ => single _ not_false

theorem alternatives_of_not_isUnion {type : WrittenType}
    (hsingle : ¬type.IsUnion) :
    type.alternatives = [type] := by
  cases type with
  | union => exact absurd trivial hsingle
  | _ => rfl

theorem treeAfter_of_not_isUnion {type : WrittenType} (hsingle : ¬type.IsUnion)
    (before : Option Tree) :
    type.treeAfter before = alternative before type.tree := by
  cases type with
  | union => exact absurd trivial hsingle
  | _ => rfl

theorem exists_alternatives (type : WrittenType) :
    ∃ first rest, type.alternatives = first :: rest ∧
      type.print = first.print ++ rest.flatMap fun part =>
        word .pipe :: part.print := by
  induction type using inductionUnion with
  | union left right ihLeft ihRight =>
      obtain ⟨first, rest, hleft, hprint⟩ := ihLeft
      obtain ⟨first', rest', hright, hprint'⟩ := ihRight
      refine ⟨first,
        rest ++ first' :: rest', by rw [alternatives, hleft, hright,
          List.cons_append], ?_⟩
      rw [print, hprint, hprint', List.flatMap_append, List.flatMap_cons]
      simp only [List.append_assoc, List.cons_append]
  | single type hsingle =>
      exact ⟨type, [], alternatives_of_not_isUnion hsingle,
        (List.append_nil _).symm⟩

theorem treeAfter_some (type : WrittenType) (left : Tree) :
    type.treeAfter (some left) =
      type.alternatives.foldl
        (fun left part => alternative (some left) part.tree) left := by
  induction type using inductionUnion generalizing left with
  | union first second ihFirst ihSecond =>
      rw [treeAfter, ihFirst, ihSecond, alternatives, List.foldl_append]
  | single type hsingle =>
      rw [treeAfter_of_not_isUnion hsingle, alternatives_of_not_isUnion hsingle]
      rfl

theorem tree_eq {type first : WrittenType} {rest : List WrittenType}
    (halternatives : type.alternatives = first :: rest) : type.tree =
      rest.foldl (fun left part => alternative (some left) part.tree)
        first.tree := by
  induction type using inductionUnion generalizing first rest with
  | union left right ihLeft _ =>
      obtain ⟨other, others, hleft, -⟩ := left.exists_alternatives
      rw [alternatives, hleft, List.cons_append] at halternatives
      obtain ⟨rfl, rfl⟩ := List.cons.inj halternatives
      rw [tree, treeAfter, treeAfter_some, List.foldl_append, ← ihLeft hleft,
        tree]
  | single type hsingle =>
      rw [alternatives_of_not_isUnion hsingle] at halternatives
      obtain ⟨rfl, rfl⟩ := List.cons.inj halternatives
      rfl

theorem not_isUnion_of_mem_alternatives {type part : WrittenType}
    (hpart : part ∈ type.alternatives) :
    ¬part.IsUnion := by
  induction type using inductionUnion with
  | union left right ihLeft ihRight =>
      exact (List.mem_append.mp hpart).elim ihLeft ihRight
  | single type hsingle =>
      rw [alternatives_of_not_isUnion hsingle, List.mem_singleton] at hpart
      exact hpart ▸ hsingle

theorem length_print_le_of_mem_alternatives {type part : WrittenType}
    (hpart : part ∈ type.alternatives) :
    part.print.length ≤ type.print.length := by
  induction type using inductionUnion with
  | union left right ihLeft ihRight =>
      rw [print, List.length_append, List.length_cons]
      rcases List.mem_append.mp hpart with hpart | hpart
      · exact Nat.le_add_right_of_le (ihLeft hpart)
      · exact Nat.le_add_left_of_le (Nat.le_succ_of_le (ihRight hpart))
  | single type hsingle =>
      rw [alternatives_of_not_isUnion hsingle, List.mem_singleton] at hpart
      exact hpart ▸ Nat.le_refl _

theorem not_endsInFunction {type : WrittenType} (hgrouped : type.Grouped) :
    (∀ part ∈ type.alternatives.dropLast, ¬part.EndsInFunction) ∧
      (¬type.EndsInFunction → ∀ part ∈ type.alternatives,
        ¬part.EndsInFunction) := by
  induction type using inductionUnion with
  | union left right ihLeft ihRight =>
      rw [Grouped] at hgrouped
      obtain ⟨first, rest, hright, -⟩ := right.exists_alternatives
      have hleft := (ihLeft hgrouped.2.1).2 hgrouped.1
      have hsome : right.alternatives ≠ [] := hright ▸ List.cons_ne_nil _ _
      rw [alternatives, List.dropLast_append_of_ne_nil hsome]
      refine ⟨List.forall_mem_append.mpr ⟨hleft, (ihRight hgrouped.2.2).1⟩,
        fun hend => ?_⟩
      exact List.forall_mem_append.mpr ⟨hleft, (ihRight hgrouped.2.2).2 hend⟩
  | single type hsingle =>
      rw [alternatives_of_not_isUnion hsingle]
      exact ⟨nofun, fun hend => List.forall_mem_singleton.mpr hend⟩

end WrittenType

end PklAnalysis.Grammar

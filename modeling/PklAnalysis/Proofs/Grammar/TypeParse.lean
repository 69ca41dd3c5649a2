import PklAnalysis.Proofs.Grammar.WrittenType

/-!
Types are read back as they were written, whatever trivia stand among their
tokens.
-/

namespace PklAnalysis.Grammar

open PklAnalysis.Parser
open WrittenType

variable {call : Call} {depth : Nat} {rest : List Leaf}

def Before (kinds : List Token.Kind) (rest : List Leaf) : Prop :=
  ∀ kind ∈ kinds, firstKind rest ≠ some kind

theorem Before.mono {kinds kinds' : List Token.Kind}
    (hbefore : Before kinds rest) (hsub : kinds' ⊆ kinds) :
    Before kinds' rest :=
  fun kind hkind => hbefore kind (hsub hkind)

theorem Before.append {kinds kinds' : List Token.Kind}
    (hbefore : Before kinds rest) (hbefore' : Before kinds' rest) :
    Before (kinds ++ kinds') rest :=
  fun kind hkind => (List.mem_append.mp hkind).elim (hbefore kind)
    (hbefore' kind)

theorem before_nil (kinds : List Token.Kind) : Before kinds [] := by
  intro kind _ hfirst
  cases hfirst

theorem before_cons {kinds : List Token.Kind} {leaf : Leaf}
    (hleaf : leaf.1 ∉ kinds) :
    Before kinds (leaf :: rest) :=
  fun _ hkind hfirst => hleaf (Option.some.inj hfirst ▸ hkind)

def typeCarriers : List Token.Kind :=
  [.dot, .less, .question, .pipe, .arrow]

theorem parses_single (kind : Node.Kind) (leaf : Leaf) (rest : List Leaf) :
    Parses (single kind) () [leaf] [.node kind [tokenTree leaf]] rest :=
  (parses_take leaf rest).node kind

theorem map_tokenTree_nameLeaves (first : String) (others : List String) :
    (nameLeaves first others).map tokenTree = .token .identifier first ::
      others.flatMap fun part =>
        [tokenTree (word .dot), .token .identifier part] := by
  rw [nameLeaves, List.map_cons, List.map_flatMap]
  rfl

theorem parses_qualifiedName (first : String) (others : List String)
    (hrest : Before [.dot] rest) :
    Parses qualifiedName () (nameLeaves first others)
      [.node .qualifiedIdent ((nameLeaves first others).map tokenTree)]
        rest := by
  have hmore : ∀ part rest,
      Parses nextNamePart true [word .dot, (.identifier, part)]
      [tokenTree (word .dot), .token .identifier part] rest := by
    intro part rest
    refine parses_of_at rfl ((parses_peek? 1 _).look ?_)
    exact (parses_take _ _).bind ((parses_take _ _).bind (parses_pure true _))
  have hlast : Parses nextNamePart false [] [] rest := by
    refine parses_of_not_at (hrest _ List.mem_cons_self)
      ((parses_peek? 1 _).look ?_)
    exact parses_pure false _
  rw [map_tokenTree_nameLeaves]
  refine Parses.node ((parses_expect .identifier first _).bind ?_) _
  exact parses_repeatWhile _ _ (fun _ _ => List.cons_ne_nil _ _)
    (fun part _ _ => hmore part _) hlast

theorem parses_literalRest (runs : List String) (closing : String)
    (rest : List Leaf) :
    Parses (literalRest call) ()
      (runs.map (fun run => (.stringChars, run)) ++ [(.stringEnd, closing)])
      (runs.map (.token .stringChars) ++ [.token .stringEnd closing]) rest := by
  have hmore : ∀ run rest,
      Parses (nextLiteralPart call) true [(.stringChars, run)]
      [.token .stringChars run] rest := fun run rest =>
    (parses_current? _).look ((parses_take _ _).last (parses_pure true _))
  have hlast : Parses (nextLiteralPart call) false [] []
      ((.stringEnd, closing) :: rest) :=
    (parses_current? _).look (parses_pure false _)
  have hruns :=
    parses_repeatWhile (fun run => [(.stringChars, run)])
      (fun run => [.token .stringChars run])
    (fun run _ => List.cons_ne_nil _ _)
      (fun run (more : List String) (_ : _ <:+ runs) => hmore run _) hlast
  rw [← List.map_eq_flatMap, ← List.map_eq_flatMap] at hruns
  exact hruns.bind
    ((parses_accept .stringEnd closing rest).last (parses_pure () rest))

theorem parses_stringLiteralRule (opening : String) (runs : List String)
    (closing : String) (rest : List Leaf) :
    Parses (stringLiteralRule call) (some (literalKind opening))
      (literalLeaves opening runs closing)
      [.node (literalKind opening)
        ((literalLeaves opening runs closing).map tokenTree)] rest := by
  have hbody :
      Parses (do take; literalRest call) () (literalLeaves opening runs closing)
      ((literalLeaves opening runs closing).map tokenTree) rest := by
    rw [literalLeaves, List.cons_append, List.map_cons, List.map_append,
      List.map_map]
    exact (parses_take (.stringStart, opening) _).bind
      (parses_literalRest runs closing rest)
  intro state hahead
  have htext : (state.current?.map Token.text).getD "" = opening := by
    rw [map_text_current?, hahead]
    rfl
  obtain ⟨after, hrun, hafter⟩ := hbody.node (literalKind opening) state hahead
  refine ⟨after, ?_, hafter⟩
  have hget : (get : Parser State).run state = (state, state) := rfl
  rw [stringLiteralRule, run_bind, hget]
  dsimp only
  rw [htext, run_bind, hrun]
  rfl

theorem parses_stringLiteral (opening : String) (runs : List String)
    (closing : String) (rest : List Leaf) :
    Parses (stringLiteral (parseRule (depth + 1))) ()
      (literalLeaves opening runs closing)
      [.node (literalKind opening)
        ((literalLeaves opening runs closing).map tokenTree)] rest :=
  (parses_stringLiteralRule opening runs closing rest).discard

/-- A type is read as such by calls that may nest so deep. -/
def IsRead (depth : Nat) (type : WrittenType) : Prop :=
  ∀ rest, Before typeCarriers rest →
    Parses (Grammar.type (parseRule depth)) () type.print [type.tree] rest

theorem parses_typeSequence {first : WrittenType} {others : List WrittenType}
    (hread : ∀ type ∈ first :: others, IsRead depth type)
    (hrest : Before (.comma :: typeCarriers) rest) :
    Parses (typeSequence (parseRule depth)) ()
      (listed (word .comma) id (printEach (first :: others)))
      (listed (tokenTree (word .comma)) ([·]) (treesOf (first :: others)))
        rest := by
  have hcomma : ∀ (others : List WrittenType) {rest}, Before typeCarriers rest →
      Before typeCarriers
        (others.flatMap (fun type => word .comma :: type.print) ++ rest) := by
    intro others rest hrest
    cases others with
    | nil => exact hrest
    | cons type others => exact before_cons (by decide)
  have hmore : ∀ type ∈ others, ∀ rest, Before typeCarriers rest →
      Parses (nextType (parseRule depth)) true (word .comma :: type.print)
        [tokenTree (word .comma), type.tree] rest := by
    intro type htype rest hrest
    refine (parses_accept .comma _ _).bind ?_
    exact (hread type (List.mem_cons_of_mem _ htype) rest hrest).last
      (parses_pure true rest)
  have hlast : Parses (nextType (parseRule depth)) false [] [] rest := by
    refine (parses_accept_of_ne (hrest _ List.mem_cons_self)).look ?_
    exact parses_pure false _
  have hcarriers := hrest.mono (List.subset_cons_self _ _)
  have hloop :=
    parses_repeatWhile (fun type : WrittenType => word .comma :: type.print)
    (fun type => [tokenTree (word .comma), type.tree])
      (fun _ _ => List.cons_ne_nil _ _)
    (fun type more (hsuffix : type :: more <:+ others) => hmore type
      (hsuffix.subset List.mem_cons_self) _ (hcomma more hcarriers)) hlast
  have hall :=
    (hread first List.mem_cons_self _ (hcomma others hcarriers)).bind hloop
  rw [printEach_eq, treesOf_eq]
  simp only [List.map_cons, listed, List.flatMap_map, id]
  exact hall

theorem parses_declaredType (first : String) (others : List String)
    {arguments : List WrittenType}
    (hread : ∀ type ∈ arguments, IsRead depth type)
    (hrest : Before [.dot, .less] rest) :
    Parses (declaredType (parseRule depth)) ()
      (named first others arguments).print
      [(named first others arguments).tree] rest := by
  have hdot : Before [.dot] (argumentLeaves (printEach arguments) ++ rest) := by
    cases arguments with
    | nil => exact hrest.mono (by decide)
    | cons => exact before_cons (by decide)
  refine Parses.node ((parses_qualifiedName first others hdot).bind ?_) _
  cases arguments with
  | nil =>
      refine parses_of_not_at (hrest _ (by decide)) ?_
      exact parses_pure () rest
  | cons argument arguments =>
      have hsequence : Parses (typeSequence (parseRule depth)) () _ _
          ([word .greater] ++ rest) :=
        parses_typeSequence hread (before_cons (by decide))
      have hgreater := parses_expect .greater (word .greater).2 rest
      refine parses_of_at rfl
        (Parses.node ((parses_take (word .less) _).bind (hsequence.bind ?_)) _)
      exact hgreater.last (parses_pure () rest)

theorem exists_print : (type : WrittenType) →
    ∃ kind text leaves, type.print = (kind, text) :: leaves ∧ kind ∈ typeStarts
  | .unknown | .nothing | .module | .literal _ _ _ | .named _ _ _ | .function _
    _ | .parenthesized _ =>
      ⟨_, _, _, rfl, by decide⟩
  | .nullable inner => by
      obtain ⟨kind, text, leaves, hprint, hkind⟩ := exists_print inner
      exact ⟨kind, text,
        leaves ++ [word .question], by rw [print, hprint,
          List.cons_append], hkind⟩
  | .union left right => by
      obtain ⟨kind, text, leaves, hprint, hkind⟩ := exists_print left
      exact ⟨kind, text,
        leaves ++ word .pipe :: right.print, by rw [print, hprint,
          List.cons_append],
        hkind⟩

def closeTypes (call : Call) (start : Nat) : Parser Unit := do
  close .rightParen
  if ← at? .arrow then
    nodeAt start .functionType do
      take
      type call
  else
    nodeAt start .parenthesizedType (return ())

theorem parses_parentheses {inner : List WrittenType} {leaves : List Leaf}
    {trees : List Tree} (hread : ∀ type ∈ inner, IsRead depth type)
    (hclose : ParsesOnto
      (tokenTree (word .leftParen) ::
        listed (tokenTree (word .comma)) ([·]) (treesOf inner))
          (closeTypes (parseRule depth)) () (word .rightParen :: leaves)
            trees rest) :
    Parses (parenthesizedOrFunctionType (parseRule depth)) ()
      (word .leftParen ::
        (listed (word .comma) id (printEach inner) ++ word .rightParen ::
          leaves))
      trees rest := by
  refine parses_mark_bind (((parses_take (word .leftParen) _).onto []).bind ?_)
  cases inner with
  | nil => exact parsesOnto_of_at rfl hclose
  | cons first others =>
      have hsequence : Parses (typeSequence (parseRule depth)) () _ _
          (word .rightParen :: leaves ++ rest) :=
          parses_typeSequence hread (before_cons (by decide))
      obtain ⟨kind, text, leaves', hprint, hkind⟩ := exists_print first
      refine parsesOnto_of_not_at (fun hparen => ?_)
        ((hsequence.onto _).bind hclose)
      rw [printEach, hprint] at hparen
      obtain rfl : kind = .rightParen := Option.some.inj hparen
      exact absurd hkind (by decide)

theorem parses_parenthesized {inner : WrittenType} (hread : IsRead depth inner)
    (hrest : Before [.arrow] rest) :
    Parses (parenthesizedOrFunctionType (parseRule depth)) ()
      (parenthesized inner).print
      [(parenthesized inner).tree] rest := by
  have hclose : ParsesOnto (tokenTree (word .leftParen) ::
        listed (tokenTree (word .comma)) ([·]) (treesOf [inner]))
      (closeTypes (parseRule depth)) () [word .rightParen]
        [(parenthesized inner).tree] rest := by
    have hparen : Parses (close .rightParen) () _ _ ([] ++ rest) :=
      parses_close .rightParen (word .rightParen).2 rest
    refine (hparen.onto _).bind
      (parsesOnto_of_not_at (hrest _ List.mem_cons_self) ?_)
    exact (parses_pure () rest).nodeAt .parenthesizedType _
  have hall := parses_parentheses (List.forall_mem_singleton.mpr hread) hclose
  rw [print]
  simpa [listed, printEach] using hall

theorem parses_function {parameters : List WrittenType} {result : WrittenType}
    (hread : ∀ type ∈ parameters, IsRead depth type)
    (hresult : IsRead depth result) (hrest : Before typeCarriers rest) :
    Parses (parenthesizedOrFunctionType (parseRule depth)) ()
      (function parameters result).print
      [(function parameters result).tree] rest := by
  have hparen :=
    parses_close .rightParen (word .rightParen).2
      (word .arrow :: result.print ++ rest)
  have hbody : Parses (do take; type (parseRule depth)) ()
      (word .arrow :: result.print)
      [tokenTree (word .arrow), result.tree] rest :=
      (parses_take _ _).bind (hresult rest hrest)
  refine parses_parentheses hread
    ((hparen.onto _).bind (parsesOnto_of_at rfl ?_))
  have hnode := hbody.nodeAt .functionType (tokenTree (word .leftParen) ::
    listed (tokenTree (word .comma)) ([·]) (treesOf parameters) ++
      [tokenTree (word .rightParen)])
  rwa [List.append_assoc] at hnode

def questioned : Nat → Tree → Tree
  | 0, tree => tree
  | count + 1, tree =>
      questioned count (.node .nullableType [tree, tokenTree (word .question)])

/-- An alternative is read as such by calls that may nest so deep as it has
tokens, also if question marks come after it. -/
def IsReadAt (type : WrittenType) : Prop :=
  ∀ {depth count rest}, type.print.length ≤ depth →
    (type.EndsInFunction → count = 0) →
    Before [.dot, .less, .question, .arrow] rest →
    (type.EndsInFunction → Before [.pipe] rest) →
    Parses (nullableType (parseRule depth)) ()
      (type.print ++ List.replicate count (word .question))
        [questioned count type.tree] rest

theorem parsesOnto_questions (count : Nat) (tree : Tree)
    (hrest : Before [.question] rest) :
    ParsesOnto [tree] (fun start => repeatWhile (nextQuestion start)) ()
      (List.replicate count (word .question)) [questioned count tree] rest := by
  let grow (first : List Tree) (_ : Unit) : List Tree :=
    [.node .nullableType (first ++ [tokenTree (word .question)])]
  have hmore : ∀ first rest,
      ParsesOnto first nextQuestion true [word .question]
        (grow first ()) rest :=
    fun first rest =>
      parsesOnto_of_at rfl
        (((parses_take _ rest).nodeAt .nullableType first).last
          (parses_pure true rest))
  have hlast : ∀ first, ParsesOnto first nextQuestion false [] first rest :=
    fun first =>
    parsesOnto_of_not_at (hrest _ List.mem_cons_self)
      (parsesOnto_pure first false rest)
  have hgrown : ∀ tree, (List.replicate count ()).foldl grow [tree] =
      [questioned count tree] := by
    induction count with
    | zero => exact fun _ => rfl
    | succ count ih =>
        exact fun tree =>
          ih (.node .nullableType [tree, tokenTree (word .question)])
  have hloop := parsesOnto_repeatWhile (fun _ : Unit => [word .question]) grow
    (fun _ _ => List.cons_ne_nil _ _)
      (fun _ (more : List Unit) (_ : _ <:+ List.replicate count ()) first =>
      hmore first _) hlast [tree]
  rw [hgrown, ← List.map_eq_flatMap, List.map_replicate] at hloop
  exact hloop

theorem isReadAt_of_primary {type : WrittenType}
    (hprimary : ∀ {depth rest}, type.print.length ≤ depth →
      Before [.dot, .less, .arrow] rest →
        (type.EndsInFunction → Before [.question, .pipe] rest) →
          Parses (primaryType (parseRule depth)) () type.print
            [type.tree] rest) : IsReadAt type := by
  intro depth count rest hdepth hcount hrest hpipe
  have hread : Parses (primaryType (parseRule depth)) () type.print [type.tree]
      (List.replicate count (word .question) ++ rest) := by
    cases count with
    | zero =>
        exact hprimary hdepth (hrest.mono (by decide)) fun hend =>
          (hrest.append (hpipe hend)).mono (by decide)
    | succ count =>
        exact hprimary hdepth (before_cons (by decide)) fun hend =>
          absurd (hcount hend) (Nat.succ_ne_zero _)
  exact parses_mark_bind
    ((hread.onto []).bind
      (parsesOnto_questions count _ (hrest.mono (by decide))))

theorem isReadAt_nullable {inner : WrittenType} (hread : IsReadAt inner)
    (hinner : ¬inner.EndsInFunction) :
    IsReadAt (.nullable inner) := by
  intro depth count rest hdepth _ hrest _
  have hprint :
      (nullable inner).print ++ List.replicate count (word .question) =
      inner.print ++ List.replicate (count + 1) (word .question) := by
    rw [print, List.append_assoc, List.replicate_succ, List.singleton_append]
  have hlength : inner.print.length ≤ depth := by
    rw [print, List.length_append] at hdepth
    omega
  rw [hprint]
  exact hread hlength (fun hend => absurd hend hinner) hrest fun hend =>
    absurd hend hinner

theorem parses_typeRule {type : WrittenType}
    (hread : ∀ part ∈ type.alternatives, IsReadAt part)
    (hgrouped : type.Grouped) (hdepth : type.print.length ≤ depth)
    (hrest : Before typeCarriers rest) :
    Parses (typeRule (parseRule depth)) () type.print [type.tree] rest := by
  let spell (part : WrittenType) : List Leaf := word .pipe :: part.print
  let grow (first : List Tree) (part : WrittenType) : List Tree :=
    [.node .unionType (first ++ [tokenTree (word .pipe), part.tree])]
  have hpart : ∀ part more, part :: more <:+ type.alternatives →
      Parses (nullableType (parseRule depth)) () part.print [part.tree]
        (more.flatMap spell ++ rest) := by
    intro part more hsuffix
    have hmem := hsuffix.subset List.mem_cons_self
    have hlength := (length_print_le_of_mem_alternatives hmem).trans hdepth
    have hlast : part.print ++ List.replicate 0 (word .question) = part.print :=
      List.append_nil _
    rw [← hlast]
    cases more with
    | nil =>
        exact hread part hmem hlength (fun _ => rfl) (hrest.mono (by decide))
          fun _ => hrest.mono (by decide)
    | cons next more =>
        have hend : ¬part.EndsInFunction := by
          refine (not_endsInFunction hgrouped).1 part ?_
          obtain ⟨before, hbefore⟩ := hsuffix
          rw [← hbefore, List.dropLast_append_of_ne_nil (List.cons_ne_nil _ _)]
          exact List.mem_append_right _ List.mem_cons_self
        exact hread part hmem hlength (fun _ => rfl) (before_cons (by decide))
            fun hfunction =>
          absurd hfunction hend
  have hlast : ∀ first,
      ParsesOnto first (nextAlternative (parseRule depth)) false []
        first rest :=
    fun first => parsesOnto_of_not_at (hrest _ (by decide))
      (parsesOnto_pure first false rest)
  have hgrown : ∀ (parts : List WrittenType) tree, parts.foldl grow [tree] =
      [parts.foldl (fun left part => alternative (some left) part.tree)
        tree] := by
    intro parts
    induction parts with
    | nil => exact fun _ => rfl
    | cons part parts ih =>
        exact fun tree => ih (alternative (some tree) part.tree)
  obtain ⟨first, others, halternatives, hprint⟩ := type.exists_alternatives
  have hloop :=
    parsesOnto_repeatWhile spell grow (fun _ _ => List.cons_ne_nil _ _)
    (fun part more (hsuffix : part :: more <:+ others) first => ?_) hlast
      [first.tree]
  · rw [hgrown, ← tree_eq halternatives] at hloop
    rw [hprint]
    have hfirst := hpart first others (halternatives ▸ List.suffix_refl _)
    exact parses_mark_bind ((hfirst.onto []).bind hloop)
  · have hnext :=
      hpart part more (halternatives ▸ hsuffix.trans (List.suffix_cons _ _))
    have hbody : Parses (do take; nullableType (parseRule depth)) ()
        (spell part)
        [tokenTree (word .pipe), part.tree] (more.flatMap spell ++ rest) :=
        (parses_take _ _).bind hnext
    exact parsesOnto_of_at rfl
      ((hbody.nodeAt .unionType first).last (parses_pure true _))

theorem IsRead.of_alternatives {type : WrittenType}
    (hread : ∀ part ∈ type.alternatives, IsReadAt part)
    (hgrouped : type.Grouped) (hdepth : type.print.length < depth) :
    IsRead depth type := by
  obtain ⟨depth, rfl⟩ := Nat.exists_eq_add_of_le' (Nat.zero_lt_of_lt hdepth)
  intro rest hrest
  have hrule := parses_typeRule hread hgrouped (Nat.le_of_lt_succ hdepth) hrest
  exact (hrule.last (parses_pure none rest)).discard

mutual

theorem isReadAt_of_grouped : (type : WrittenType) → type.Grouped →
    ∀ part ∈ type.alternatives, IsReadAt part
  | .unknown, _ =>
      List.forall_mem_singleton.mpr <| isReadAt_of_primary fun _ _ _ => by
        exact (parses_current? _).look
          (parses_single .unknownType (word .unknownKw) _)
  | .nothing, _ =>
      List.forall_mem_singleton.mpr <| isReadAt_of_primary fun _ _ _ => by
        exact (parses_current? _).look
          (parses_single .nothingType (word .nothingKw) _)
  | .module, _ =>
      List.forall_mem_singleton.mpr <| isReadAt_of_primary fun _ _ _ => by
        exact (parses_current? _).look
          (parses_single .moduleType (word .moduleKw) _)
  | .literal opening runs closing, _ =>
      List.forall_mem_singleton.mpr <|
          isReadAt_of_primary fun {depth rest} hdepth _ _ => by
        have hpositive : 0 < (literalLeaves opening runs closing).length :=
          Nat.succ_pos _
        obtain ⟨depth, rfl⟩ :=
          Nat.exists_eq_add_of_le' (Nat.lt_of_lt_of_le hpositive hdepth)
        exact (parses_current? _).look
          ((parses_stringLiteral opening runs closing rest).node _)
  | .named first others arguments, hgrouped =>
      List.forall_mem_singleton.mpr <|
          isReadAt_of_primary fun {depth rest} hdepth hrest _ => by
        have hread : ∀ type ∈ arguments, IsRead depth type := by
          intro type htype
          refine isRead_of_groupedEach arguments hgrouped type htype depth ?_
          rw [print, nameLeaves, List.cons_append, List.length_cons,
            List.length_append] at hdepth
          calc
            type.print.length
            _ ≤ (argumentLeaves (printEach arguments)).length :=
              (length_print_le_listed htype).trans
                (length_listed_le_argumentLeaves _)
            _ < depth := by omega
        refine (parses_current? _).look ?_
        exact parses_declaredType first others hread (hrest.mono (by decide))
  | .nullable inner, hgrouped => by
      rw [Grouped] at hgrouped
      have hinner : inner ∈ inner.alternatives := by
        rw [alternatives_of_not_isUnion hgrouped.1]
        exact List.mem_singleton_self inner
      exact List.forall_mem_singleton.mpr
        (isReadAt_nullable (isReadAt_of_grouped inner hgrouped.2.2 inner hinner)
          hgrouped.2.1)
  | .union left right, hgrouped => by
      rw [Grouped] at hgrouped
      exact List.forall_mem_append.mpr
        ⟨isReadAt_of_grouped left hgrouped.2.1,
          isReadAt_of_grouped right hgrouped.2.2⟩
  | .function parameters result, hgrouped =>
      List.forall_mem_singleton.mpr <|
          isReadAt_of_primary fun {depth rest} hdepth hrest hend => by
        rw [Grouped] at hgrouped
        rw [print] at hdepth
        simp only [List.cons_append, List.length_cons, List.length_append]
          at hdepth
        have hread : ∀ type ∈ parameters, IsRead depth type := by
          intro type htype
          have hlength := length_print_le_listed htype
          exact isRead_of_groupedEach parameters hgrouped.1 type htype depth
            (by omega)
        have hresult : IsRead depth result :=
          .of_alternatives (isReadAt_of_grouped result hgrouped.2) hgrouped.2
            (by omega)
        refine (parses_current? _).look (parses_function hread hresult ?_)
        exact (hrest.append (hend trivial)).mono (by decide)
  | .parenthesized inner, hgrouped =>
      List.forall_mem_singleton.mpr <|
          isReadAt_of_primary fun {depth rest} hdepth hrest _ => by
        rw [print] at hdepth
        simp only [List.cons_append, List.length_cons, List.length_append]
          at hdepth
        have hread : IsRead depth inner :=
          .of_alternatives (isReadAt_of_grouped inner hgrouped) hgrouped
            (by omega)
        refine (parses_current? _).look ?_
        exact parses_parenthesized hread (hrest.mono (by decide))

theorem isRead_of_groupedEach : (types : List WrittenType) → GroupedEach types →
    ∀ type ∈ types, ∀ depth, type.print.length < depth → IsRead depth type
  | [], _ => nofun
  | type :: rest, hgrouped => by
      rw [GroupedEach] at hgrouped
      refine List.forall_mem_cons.mpr ⟨fun depth hdepth => ?_,
        isRead_of_groupedEach rest hgrouped.2⟩
      exact .of_alternatives (isReadAt_of_grouped type hgrouped.1)
        hgrouped.1 hdepth

end

end PklAnalysis.Grammar

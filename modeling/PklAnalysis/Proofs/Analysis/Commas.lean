import PklAnalysis.Proofs.Analysis.Delimiters
import PklAnalysis.Proofs.Grammar.ArgumentList
import PklAnalysis.Proofs.Node.Range

/-!
What the analyzer of syntax errors says about the commas of argument lists. It
only counts them. Since every comma comes after an argument of its own, it finds
a comma missing where neighbours have none between them, unless a comma after
the last argument makes up for one.
-/

namespace PklAnalysis

namespace Range

def isBetween (range left right : Range) : Bool :=
  left.stop ≤ range.start && range.stop ≤ right.start

/-- The arguments that come one after the other without a comma between them. -/
def bareNeighbours (commas arguments : List Range) : List (Range × Range) :=
  (arguments.zip arguments.tail).filter fun pair =>
    !commas.any (·.isBetween pair.1 pair.2)

def hasTrailing (commas arguments : List Range) : Bool :=
  arguments.getLast?.any fun last => commas.any fun comma =>
    last.stop ≤ comma.start

/-- Commas among arguments from a place on, each after an argument of its
own. -/
inductive Spaced : Nat → List Range → List Range → Prop
  | nil {place : Nat} : Spaced place [] []
  | bare {place : Nat} {commas arguments : List Range} {argument : Range}
      (hplace : place ≤ argument.start)
      (hrest : Spaced argument.stop commas arguments) :
      Spaced place commas (argument :: arguments)
  | followed {place : Nat} {commas arguments : List Range}
      {argument comma : Range}
      (hplace : place ≤ argument.start) (hafter : argument.stop ≤ comma.start)
      (htext : comma.start < comma.stop)
      (hrest : Spaced comma.stop commas arguments) :
      Spaced place (comma :: commas) (argument :: arguments)

namespace Spaced

variable {place : Nat} {commas arguments : List Range}
  {argument comma next : Range}

theorem bounds (hspaced : Spaced place commas arguments) :
    (∀ argument ∈ arguments, place ≤ argument.start) ∧
      ∀ comma ∈ commas, place ≤ comma.start ∧ comma.start < comma.stop := by
  induction hspaced with
  | nil => exact ⟨nofun, nofun⟩
  | @bare place commas arguments argument hplace hrest ih =>
      have hargument := argument.start_le_stop
      refine ⟨List.forall_mem_cons.mpr ⟨hplace, fun later hlater => ?_⟩,
        fun comma hcomma => ?_⟩
      · have hbound := ih.1 later hlater
        omega
      · have hbound := ih.2 comma hcomma
        omega
  | @followed place commas arguments argument comma hplace hafter htext
      hrest ih =>
      have hargument := argument.start_le_stop
      refine ⟨List.forall_mem_cons.mpr ⟨hplace, fun later hlater => ?_⟩,
        List.forall_mem_cons.mpr ⟨⟨by omega, htext⟩, fun later hlater => ?_⟩⟩
      · have hbound := ih.1 later hlater
        omega
      · have hbound := ih.2 later hlater
        omega

theorem stop_le_of_mem (hspaced : Spaced place commas (argument :: arguments))
    (hcomma : comma ∈ commas) :
    argument.stop ≤ comma.start ∧ comma.start < comma.stop := by
  cases hspaced with
  | bare hplace hrest => exact hrest.bounds.2 comma hcomma
  | @followed _ _ _ _ first hplace hafter htext hrest =>
      rcases List.mem_cons.mp hcomma with rfl | hcomma
      · exact ⟨hafter, htext⟩
      · have hbound := hrest.bounds.2 comma hcomma
        omega

end Spaced

variable {place : Nat} {commas arguments : List Range}
  {argument comma next : Range}

theorem isBetween_eq_false (hargument : comma.start < argument.stop)
    (right : Range) :
    comma.isBetween argument right = false := by
  rw [isBetween, decide_eq_false (Nat.not_le_of_lt hargument), Bool.false_and]

theorem bareNeighbours_cons_of_lt
    (hbefore : ∀ argument ∈ arguments, comma.start < argument.stop) :
    bareNeighbours (comma :: commas) arguments =
      bareNeighbours commas arguments := by
  refine List.filter_congr fun pair hpair => ?_
  rw [List.any_cons, isBetween_eq_false (hbefore _ (List.of_mem_zip hpair).1),
    Bool.false_or]

theorem hasTrailing_cons_of_lt
    (hbefore : ∀ argument ∈ arguments, comma.start < argument.stop) :
    hasTrailing (comma :: commas) arguments = hasTrailing commas arguments := by
  rw [hasTrailing, hasTrailing]
  cases hlast : arguments.getLast? with
  | none => rfl
  | some last =>
      have hlt := hbefore last (List.mem_of_getLast? hlast)
      rw [Option.any_some, Option.any_some, List.any_cons,
        decide_eq_false (Nat.not_le_of_lt hlt), Bool.false_or]

theorem bareNeighbours_cons_cons :
    bareNeighbours commas (argument :: next :: arguments) =
      (if commas.any (·.isBetween argument next) then [] else
        [(argument, next)]) ++ bareNeighbours commas (next :: arguments) := by
  rw [bareNeighbours, List.tail_cons, List.zip_cons_cons, List.filter_cons]
  cases commas.any (·.isBetween argument next) <;> rfl

theorem Spaced.length_eq (hspaced : Spaced place commas arguments)
    (hsome : arguments ≠ []) :
    commas.length + (bareNeighbours commas arguments).length + 1 =
      arguments.length + if hasTrailing commas arguments then 1 else 0 := by
  induction hspaced with
  | nil => exact absurd rfl hsome
  | @bare place commas arguments argument hplace hrest ih =>
      cases arguments with
      | nil =>
          cases hrest
          rfl
      | cons next arguments =>
          have hnone : commas.any (·.isBetween argument next) = false := by
            refine List.any_eq_false.mpr fun comma hcomma hbetween => ?_
            have hbound := hrest.stop_le_of_mem hcomma
            have hnext := next.start_le_stop
            rw [isBetween, Bool.and_eq_true, decide_eq_true_eq,
              decide_eq_true_eq] at hbetween
            omega
          have hlast : hasTrailing commas (argument :: next :: arguments) =
            hasTrailing commas (next :: arguments) := rfl
          have hlater := ih (List.cons_ne_nil _ _)
          rw [bareNeighbours_cons_cons, hnone, hlast, List.length_append,
            List.length_cons]
          simp only [Bool.false_eq_true, if_false, List.length_cons,
            List.length_nil] at hlater ⊢
          omega
  | @followed place commas arguments argument comma hplace hafter htext
      hrest ih =>
      have hbefore : ∀ later ∈ arguments, comma.start < later.stop := by
        intro later hlater
        have hbound := hrest.bounds.1 later hlater
        have hstop := later.start_le_stop
        omega
      cases arguments with
      | nil =>
          cases hrest
          have htrailing : hasTrailing [comma] [argument] = true := by
            simp [hasTrailing, hafter]
          rw [htrailing]
          rfl
      | cons next arguments =>
          have hsome : (comma :: commas).any (·.isBetween argument next) =
              true := by
            have hbound := hrest.bounds.1 next List.mem_cons_self
            simp [isBetween, hafter, hbound]
          have hlast :
              hasTrailing (comma :: commas) (argument :: next :: arguments) =
            hasTrailing (comma :: commas) (next :: arguments) := rfl
          have hlater := ih (List.cons_ne_nil _ _)
          rw [bareNeighbours_cons_cons, hsome, if_pos rfl, List.nil_append,
            hlast, bareNeighbours_cons_of_lt hbefore,
            hasTrailing_cons_of_lt hbefore, List.length_cons, List.length_cons]
          omega

end Range

namespace Tree

def rangesOf (test : Symbol → Bool) (offset : Nat) (trees : List Tree) :
    List Range :=
  ((place offset trees).filter fun placed => test placed.2.symbol).map
      fun placed =>
    placed.2.rangeAt placed.1

theorem rangesOf_cons (test : Symbol → Bool) (offset : Nat) (tree : Tree)
    (rest : List Tree) :
    rangesOf test offset (tree :: rest) =
      if test tree.symbol then tree.rangeAt offset ::
        rangesOf test (offset + tree.size) rest
      else rangesOf test (offset + tree.size) rest := by
  rw [rangesOf, place, List.filter_cons]
  split <;> rfl

def commaRanges (offset : Nat) (trees : List Tree) : List Range :=
  rangesOf (· = .token .comma) offset trees

def argumentRanges (offset : Nat) (trees : List Tree) : List Range :=
  rangesOf (Symbol.isNode Node.Kind.isExpr) offset trees

theorem commasFollow_symbols_cons (pending : Bool) (tree : Tree)
    (rest : List Tree) :
    Symbol.commasFollow pending (symbols (tree :: rest)) =
      if tree.symbol = .token .comma then pending &&
        Symbol.commasFollow false (symbols rest)
      else Symbol.commasFollow (pending || tree.symbol.isNode Node.Kind.isExpr)
        (symbols rest) := by
  rw [← List.singleton_append, symbols_append]
  cases htrivia : tree.isTrivia with
  | false =>
      rw [symbols_singleton htrivia, List.singleton_append, Symbol.commasFollow]
  | true =>
      rw [symbols_of_trivia (List.forall_mem_singleton.mpr htrivia),
        List.nil_append]
      cases tree with
      | node kind children => cases htrivia
      | token kind text =>
          have hcomma : (token kind text).symbol ≠ .token .comma := by
            rintro hsame
            cases hsame
            cases htrivia
          rw [if_neg hcomma]
          exact congrArg (Symbol.commasFollow · _) (Bool.or_false pending).symm

theorem spaced_of_commasFollow {place offset : Nat} {trees : List Tree}
    (pending : Option Range)
    (hpending : ∀ argument ∈ pending,
      place ≤ argument.start ∧ argument.stop ≤ offset)
    (hplace : place ≤ offset)
    (htext : ∀ text, .token .comma text ∈ trees → text ≠ "")
    (hfollow : Symbol.commasFollow pending.isSome (symbols trees) = true) :
    Range.Spaced place (commaRanges offset trees)
      (pending.toList ++ argumentRanges offset trees) := by
  induction trees generalizing place offset pending with
  | nil =>
      cases pending with
      | none => exact .nil
      | some argument => exact .bare (hpending argument rfl).1 .nil
  | cons tree rest ih =>
      have hrest :=
        fun text htoken => htext text (List.mem_cons_of_mem tree htoken)
      rw [commasFollow_symbols_cons] at hfollow
      rw [commaRanges, argumentRanges, rangesOf_cons, rangesOf_cons]
      by_cases hcomma : tree.symbol = .token .comma
      case pos =>
          obtain ⟨text, rfl⟩ : ∃ text, tree = .token .comma text := by
            cases tree with
            | token kind text =>
                cases hcomma
                exact ⟨text, rfl⟩
            | node kind children => cases hcomma
          rw [if_pos hcomma, Bool.and_eq_true] at hfollow
          obtain ⟨argument, rfl⟩ := Option.isSome_iff_exists.mp hfollow.1
          obtain ⟨hstart, hstop⟩ := hpending argument rfl
          have hpositive : 0 < text.utf8ByteSize :=
            Nat.pos_of_ne_zero
              (String.utf8ByteSize_eq_zero_iff.not.mpr
                (htext text List.mem_cons_self))
          let stop := offset + text.utf8ByteSize
          have hafter : Range.Spaced stop (commaRanges stop rest)
              (argumentRanges stop rest) :=
            ih none nofun (Nat.le_refl _) hrest hfollow.2
          exact .followed hstart hstop
            (Nat.lt_add_of_pos_right hpositive) hafter
      case neg =>
          rw [if_neg hcomma] at hfollow
          rw [decide_eq_false hcomma, if_neg Bool.false_ne_true]
          cases hargument : tree.symbol.isNode Node.Kind.isExpr with
          | true =>
              rw [hargument, Bool.or_true] at hfollow
              let stop := offset + tree.size
              have hafter : ∀ place ≤ offset,
                  Range.Spaced place (commaRanges stop rest)
                  (tree.rangeAt offset :: argumentRanges stop rest) := by
                intro place hplace
                refine ih (some (tree.rangeAt offset))
                  (fun argument hsame => ?_)
                  (Nat.le_add_right_of_le hplace) hrest hfollow
                cases hsame
                exact ⟨hplace, Nat.le_refl _⟩
              cases pending with
              | none => exact hafter place hplace
              | some argument =>
                  obtain ⟨hstart, hstop⟩ := hpending argument rfl
                  exact .bare hstart (hafter argument.stop hstop)
          | false =>
              rw [hargument, Bool.or_false] at hfollow
              refine ih pending (fun argument hsame => ?_)
                (Nat.le_add_right_of_le hplace) hrest hfollow
              obtain ⟨hstart, hstop⟩ := hpending argument hsame
              exact ⟨hstart, Nat.le_add_right_of_le hstop⟩

end Tree

theorem Slot.map_range_commas (offset : Nat) (trees : List Tree) :
    ((terminalsOf offset trees).filter fun terminal => terminal.kind =
      .comma).map Terminal.range = Tree.commaRanges offset trees := by
  induction trees generalizing offset with
  | nil => rfl
  | cons tree rest ih =>
      have hcons : terminalsOf offset (tree :: rest) =
          terminalsOf offset [tree] ++ terminalsOf (offset + tree.size) rest :=
        terminalsOf_append offset [tree] rest
      rw [Tree.commaRanges, Tree.rangesOf_cons, hcons, List.filter_append,
        List.map_append, ih]
      cases tree with
      | node kind children => rfl
      | token kind text =>
          by_cases hcomma : kind = .comma
          case pos =>
              subst hcomma
              rfl
          case neg => cases htrivia : kind.isTrivia <;>
              simp [terminalsOf, Tree.place, Tree.symbol, Tree.commaRanges,
                htrivia, hcomma]

theorem Document.everywhere_commasFollow (document : Document) :
    document.parse.tree.Everywhere Tree.CommasFollow := by
  obtain ⟨tokens, stop, hparse⟩ := document.parse_eq_parseTokens
  rw [hparse]
  exact Grammar.commasFollow_parseTokens tokens stop

namespace Node

def commas (list : Node) : List Terminal :=
  list.terminals.filter fun terminal => terminal.kind = .comma

def bareNeighbours (list : Node) : List (Node × Node) :=
  (list.exprs.zip list.exprs.tail).filter fun pair =>
    !list.commas.any fun comma => comma.range.isBetween pair.1.range
      pair.2.range

def hasTrailingComma (list : Node) : Bool :=
  list.exprs.getLast?.any fun last => list.commas.any fun comma =>
    last.range.stop ≤ comma.range.start

theorem length_bareNeighbours (list : Node) : list.bareNeighbours.length =
    (Range.bareNeighbours (list.commas.map Terminal.range)
      (list.exprs.map range)).length := by
  rw [bareNeighbours, Range.bareNeighbours, ← List.map_tail, List.zip_map,
    ← List.countP_eq_length_filter, ← List.countP_eq_length_filter,
    List.countP_map]
  refine List.countP_congr fun pair _ => ?_
  rw [Function.comp_apply, List.any_map]
  exact Iff.rfl

theorem hasTrailingComma_eq (list : Node) : list.hasTrailingComma =
    Range.hasTrailing (list.commas.map Terminal.range)
      (list.exprs.map range) := by
  rw [hasTrailingComma, Range.hasTrailing, List.getLast?_map, Option.any_map]
  refine congrArg list.exprs.getLast?.any (funext fun last => ?_)
  rw [List.any_map]
  rfl

namespace Stands

variable {node : Node} {offset : Nat} {kind : Kind} {trees : List Tree}

theorem map_range_commas (hstands : node.Stands offset (.node kind trees)) :
    node.commas.map Terminal.range = Tree.commaRanges offset trees := by
  rw [commas, hstands.terminals_eq, Slot.map_range_commas]

theorem map_range_exprs (hstands : node.Stands offset (.node kind trees)) :
    node.exprs.map range = Tree.argumentRanges offset trees := by
  have hchildren := hstands.children
  have hexprs : Tree.argumentRanges offset trees =
      ((Tree.numbered offset trees).filter fun placed =>
      placed.2.symbol.isNode Kind.isExpr).map fun placed =>
        placed.2.rangeAt placed.1 := by
    rw [Tree.argumentRanges, Tree.rangesOf, Tree.numbered, List.filter_filter]
    refine congrArg _ (List.filter_congr fun placed _ => ?_)
    obtain ⟨start, tree⟩ := placed
    cases tree with
    | token kind text => rfl
    | node kind children => cases kind <;> rfl
  rw [exprs, childrenWhere, hexprs]
  generalize node.children = nodes,
    Tree.numbered offset trees = placed at hchildren
  induction hchildren with
  | nil => rfl
  | @cons child place nodes placed hchild _ ih =>
      rw [List.filter_cons, List.filter_cons, hchild.symbol_eq]
      cases hexpr : child.kind.isExpr <;>
        simp [Symbol.isNode, Symbol.node?, hexpr, ih, hchild.range_eq]

end Stands

theorem missingCloser?_ne_comma (node : Node) (openers : List Token.Kind)
    {closer : Token.Kind} (hcloser : closer ≠ .comma) :
    node.missingCloser? openers closer ≠ some .comma := by
  rw [missingCloser?]
  split
  case isTrue => exact fun hsame => hcloser (Option.some.inj hsame)
  case isFalse => exact (Option.some_ne_none Token.Kind.comma).symm

theorem kind_of_missingDelimiter?_comma {node : Node}
    (hcomma : node.missingDelimiter? = some .comma) :
    node.kind = .argumentList := by
  rw [missingDelimiter?] at hcomma
  split at hcomma
  case h_11 hkind => exact hkind
  case h_12 => cases hcomma
  all_goals exact absurd hcomma (node.missingCloser?_ne_comma _ (by decide))

theorem missingDelimiter?_argumentList {list : Node}
    (hkind : list.kind = .argumentList) :
    list.missingDelimiter? = some .comma ↔
      list.exprs ≠ [] ∧ list.commas.length + 1 ≠ list.exprs.length := by
  have hcloser :=
    list.missingCloser?_ne_comma [.leftParen]
      (by decide : Token.Kind.rightParen ≠ .comma)
  rw [missingDelimiter?, hkind, commas, ← List.countP_eq_length_filter]
  simp [hcloser]

/-- The analyzer counts commas and arguments, so it misses that neighbours have
no comma between them if a comma comes last. -/
theorem missingDelimiter?_eq_comma_iff {list : Node}
    (hkind : list.kind = .argumentList) :
    list.missingDelimiter? = some .comma ↔
      list.bareNeighbours.length ≠ if list.hasTrailingComma then 1 else 0 := by
  have hlt : list.index < list.document.arena.size := by
    by_contra hle
    rw [kind, slot_of_not_lt_size hle] at hkind
    cases hkind
  obtain ⟨offset, tree, hstands, hwithin⟩ := stands_of_lt_size hlt
  cases tree with
  | token kind text => cases hstands
  | node kind trees =>
      obtain rfl := hstands.kind_eq.symm.trans hkind
      have hfollow :=
        (Tree.everywhere_node.mp
          (hwithin _ list.document.everywhere_commasFollow)).1 rfl
      have htext :=
        (Tree.everywhere_node.mp (hwithin _ list.document.everywhere_hasText)).1
      have hspaced := Tree.spaced_of_commasFollow none
        (fun range hrange => absurd hrange (Option.not_mem_none range))
          (Nat.le_refl offset)
        (htext .comma) hfollow
      rw [Option.toList_none, List.nil_append, ← hstands.map_range_commas,
        ← hstands.map_range_exprs]
        at hspaced
      rw [missingDelimiter?_argumentList hkind, length_bareNeighbours,
        hasTrailingComma_eq]
      by_cases hnone : list.exprs = []
      case pos => simp [hnone, Range.bareNeighbours, Range.hasTrailing]
      case neg =>
          have hlength := hspaced.length_eq (List.map_eq_nil_iff.not.mpr hnone)
          rw [List.length_map, List.length_map] at hlength
          rw [and_iff_right hnone]
          generalize Range.hasTrailing _ _ = trailing at hlength ⊢
          cases trailing <;>
            simp only [if_true, if_false, Bool.false_eq_true] at hlength ⊢ <;>
              omega

end Node

namespace Analyzer

theorem diagnostics_of_run {analyzer : Analyzer} {context : Context}
    {node : Node} {report : Report}
    (hgoes : ∀ node, (analyzer.check context node).outcome = .ok true)
    (hrun : run [analyzer] context node = .ok report) :
    report.diagnostics = node.descendants.flatMap fun node =>
      (analyzer.check context node).diagnostics := by
  rw [run, Context.check] at hrun
  split at hrun
  case isTrue => cases hrun
  case isFalse =>
      rw [← Except.ok.inj hrun]
      exact diagnostics_walk hgoes _ _

theorem filter_missingDelimiters (node : Node) :
    (missingDelimiters node).filter
      (fun diagnostic => diagnostic.key = "missingComma") =
      if node.missingDelimiter? = some .comma then
        [.about node .error "missingComma" []] else [] := by
  rw [missingDelimiters]
  split
  case h_1 hnone =>
      rw [hnone, if_neg (Option.some_ne_none Token.Kind.comma).symm,
        List.filter_nil]
  case h_2 hcomma =>
      rw [hcomma, if_pos rfl]
      rfl
  case h_3 closer hcloser hother =>
      rw [hother, if_neg fun hsame => hcloser (Option.some.inj hsame)]
      rfl

theorem filter_wellFormed (context : Context) (node : Node) :
    (wellFormed.check context node).diagnostics.filter
      (fun diagnostic => diagnostic.key = "missingComma") =
      if node.kind = .argumentList ∧
        node.bareNeighbours.length ≠
          (if node.hasTrailingComma then 1 else 0) then
          [.about node .error "missingComma" []] else [] := by
  have hparse :
      (parseErrors node).filter (fun diagnostic => diagnostic.key =
        "missingComma") = [] := by
    rw [parseErrors]
    split
    case isTrue =>
        exact List.filter_eq_nil_iff.mpr (List.forall_mem_map.mpr fun _ _ =>
          Bool.false_ne_true)
    case isFalse => rfl
  have hcheck : (wellFormed.check context node).diagnostics =
      parseErrors node ++ missingDelimiters node := rfl
  rw [hcheck, List.filter_append, hparse, List.nil_append,
    filter_missingDelimiters]
  by_cases hkind : node.kind = .argumentList
  case pos =>
      simp only [Node.missingDelimiter?_eq_comma_iff hkind, hkind, true_and]
  case neg =>
      rw [if_neg fun hcomma =>
          hkind (Node.kind_of_missingDelimiter?_comma hcomma),
        if_neg fun hboth => hkind hboth.1]

/-- The analyzer of syntax errors reports that a comma is missing in those
argument lists in which some neighbours have none between them, if no comma
comes last. If one does, it stays silent where there is one such pair, and it
reports the list where there is none. -/
theorem missingComma_of_run (document : Document) (context : Context)
    (report : Report)
    (hrun : run [wellFormed] context document.root = .ok report) :
    report.diagnostics.filter
      (fun diagnostic => diagnostic.key = "missingComma") =
      (document.root.descendants.filter fun node => node.kind = .argumentList ∧
        node.bareNeighbours.length ≠ if node.hasTrailingComma then 1 else 0).map
          fun list => .about list .error "missingComma" [] := by
  rw [diagnostics_of_run (fun _ => rfl) hrun, List.filter_flatMap]
  generalize document.root.descendants = nodes
  induction nodes with
  | nil => rfl
  | cons node rest ih =>
      rw [List.flatMap_cons, ih, List.filter_cons, filter_wellFormed]
      by_cases hflagged : node.kind = .argumentList ∧
          node.bareNeighbours.length ≠ if node.hasTrailingComma then 1 else 0
      case pos =>
          rw [if_pos hflagged, if_pos (decide_eq_true hflagged), List.map_cons,
            List.singleton_append]
      case neg =>
          rw [if_neg hflagged, if_neg (mt of_decide_eq_true hflagged),
            List.nil_append]

def commaDocument : Document :=
  .ofTokens "file:///commas.pkl" "x=f(a b)\ny=f(a b,)\nz=f(a,)"
    [⟨.identifier, "x", 0⟩, ⟨.equal, "=", 1⟩, ⟨.identifier, "f", 2⟩,
     ⟨.leftParen, "(", 3⟩, ⟨.identifier, "a", 4⟩, ⟨.whitespace, " ", 5⟩,
     ⟨.identifier, "b", 6⟩, ⟨.rightParen, ")", 7⟩, ⟨.whitespace, "\n", 8⟩,
     ⟨.identifier, "y", 9⟩, ⟨.equal, "=", 10⟩, ⟨.identifier, "f", 11⟩,
     ⟨.leftParen, "(", 12⟩, ⟨.identifier, "a", 13⟩, ⟨.whitespace, " ", 14⟩,
     ⟨.identifier, "b", 15⟩, ⟨.comma, ",", 16⟩, ⟨.rightParen, ")", 17⟩,
     ⟨.whitespace, "\n", 18⟩, ⟨.identifier, "z", 19⟩, ⟨.equal, "=", 20⟩,
     ⟨.identifier, "f", 21⟩, ⟨.leftParen, "(", 22⟩, ⟨.identifier, "a", 23⟩,
     ⟨.comma, ",", 24⟩, ⟨.rightParen, ")", 25⟩]
    (Token.ok_of_toOption (by decide +kernel))

theorem missingComma_of_run_commaDocument : ∃ context report,
    run [wellFormed] context commaDocument.root = .ok report ∧
      report.diagnostics.filter
        (fun diagnostic => diagnostic.key = "missingComma") =
        (commaDocument.root.descendants.filter fun node =>
          node.kind = .argumentList ∧
          node.bareNeighbours.length ≠ if node.hasTrailingComma then 1
            else 0).map
            (fun list => .about list .error "missingComma" []) ∧
      report.diagnostics.map (fun diagnostic => diagnostic.range.start) =
        [3, 22] := by
  let report :=
    walk [wellFormed] (.ofBase .plain) commaDocument.arena.size
      [commaDocument.root]
  have hrun : run [wellFormed] (.ofBase .plain) commaDocument.root =
      .ok report := rfl
  have hranges :
      report.diagnostics.map (fun diagnostic => diagnostic.range.start) =
        [3, 22] := by
    decide +kernel
  exact ⟨.ofBase .plain, report, hrun,
    missingComma_of_run commaDocument (.ofBase .plain) report hrun, hranges⟩

end Analyzer

end PklAnalysis

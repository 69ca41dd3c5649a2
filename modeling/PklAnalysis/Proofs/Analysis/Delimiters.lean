import PklAnalysis.Analysis.WellFormed
import PklAnalysis.Proofs.Base
import PklAnalysis.Proofs.Node.Contents

/-!
Missing closing delimiters do not stay unnoticed: where the analyzer of syntax
errors is quiet, every node that holds an opening delimiter holds the closing
one as well. It knows nothing of the parentheses of types, though.
-/

namespace PklAnalysis

namespace Node

def delimiters : List (Token.Kind × Token.Kind) :=
  [(.leftParen, .rightParen), (.leftBracket, .rightBracket),
   (.leftBrace, .rightBrace), (.interpolationStart, .rightParen)]

/-- If one of the trees is an opening delimiter, another is the closing one. -/
def Closed (trees : List Tree) : Prop :=
  ∀ delimiter ∈ delimiters, (∃ text, Tree.token delimiter.1 text ∈ trees) →
    ∃ text, Tree.token delimiter.2 text ∈ trees

def Kind.isWatched (kind : Kind) (delimiter : Token.Kind × Token.Kind) : Bool :=
  match kind with
  | .parenthesizedExpr | .throwExpr | .traceExpr | .importExpr | .readExpr
  | .ifExpr | .letExpr
  | .stringPart => delimiter.2 = .rightParen
  | .subscriptExpr | .superSubscriptExpr => delimiter.2 = .rightBracket
  | .argumentList => delimiter.1 = .leftParen
  | _ => false

/-- A node of a kind that cannot hold the opening delimiter, or must hold the
closing one. -/
def Kind.isBalanced (kind : Kind) (delimiter : Token.Kind × Token.Kind) :
    Bool :=
  !kind.shape.may (· = .token delimiter.1) ||
    0 < kind.shape.least (· = .token delimiter.2)

/-- What the grammar does not close is watched, but for the parentheses of
types. -/
theorem balanced_or_watched {kind : Kind}
    (hparenthesized : kind ≠ .parenthesizedType)
    (hfunction : kind ≠ .functionType) (herror : kind ≠ .error) :
    ∀ delimiter ∈ delimiters,
      kind.isBalanced delimiter || kind.isWatched delimiter := by
  cases kind
  case parenthesizedType => exact absurd rfl hparenthesized
  case functionType => exact absurd rfl hfunction
  case error => exact absurd rfl herror
  all_goals decide

theorem hasTerminal_iff {node : Node} {kind : Token.Kind} :
    node.hasTerminal kind = true ↔ kind ∈ node.terminals.map Terminal.kind := by
  rw [hasTerminal, terminal?, List.find?_isSome, List.mem_map]
  simp

theorem hasTerminal_of_missingCloser? {node : Node} {openers : List Token.Kind}
    {opener closer : Token.Kind}
    (hnone : node.missingCloser? openers closer = none)
    (herror : node.hasError = false) (hopener : openers.contains opener = true)
    (hopened : node.hasTerminal opener = true) :
    node.hasTerminal closer = true := by
  rw [missingCloser?] at hnone
  have hany :
      (node.terminals.any fun terminal => openers.contains terminal.kind) =
        true := by
    obtain ⟨terminal, hterminal, rfl⟩ :=
      List.mem_map.mp (hasTerminal_iff.mp hopened)
    exact List.any_eq_true.mpr ⟨terminal, hterminal, hopener⟩
  rw [hany, herror] at hnone
  simpa using hnone

theorem hasTerminal_of_isWatched {node : Node}
    {delimiter : Token.Kind × Token.Kind} (hdelimiter : delimiter ∈ delimiters)
    (hwatched : node.kind.isWatched delimiter = true)
    (hnone : node.missingDelimiter? = none) (herror : node.hasError = false)
    (hopened : node.hasTerminal delimiter.1 = true) :
    node.hasTerminal delimiter.2 = true := by
  have hround : ∀ delimiter ∈ delimiters, delimiter.2 = .rightParen →
      [Token.Kind.leftParen, .interpolationStart].contains delimiter.1 =
        true := by decide
  have hsquare : ∀ delimiter ∈ delimiters, delimiter.2 = .rightBracket →
      [Token.Kind.leftBracket].contains delimiter.1 = true := by decide
  have harguments : ∀ delimiter ∈ delimiters, delimiter.1 = .leftParen →
      delimiter.2 = .rightParen := by decide
  rw [missingDelimiter?] at hnone
  cases hkind : node.kind <;> rw [hkind] at hwatched hnone <;>
    dsimp only [Kind.isWatched] at hwatched
  case parenthesizedExpr | throwExpr | traceExpr | importExpr | readExpr |
      ifExpr | letExpr | stringPart =>
      have hcloser := of_decide_eq_true hwatched
      rw [hcloser]
      exact hasTerminal_of_missingCloser? hnone herror
        (hround _ hdelimiter hcloser) hopened
  case subscriptExpr | superSubscriptExpr =>
      have hcloser := of_decide_eq_true hwatched
      rw [hcloser]
      exact hasTerminal_of_missingCloser? hnone herror
        (hsquare _ hdelimiter hcloser) hopened
  case argumentList =>
      have hopener := of_decide_eq_true hwatched
      rw [harguments _ hdelimiter hopener]
      dsimp only at hnone
      split at hnone
      case isTrue => cases hnone
      case isFalse =>
          refine hasTerminal_of_missingCloser? hnone herror ?_ hopened
          rw [hopener]
          rfl
  all_goals cases hwatched

theorem Stands.hasError_eq_false {node : Node} {offset : Nat} {kind : Kind}
    {trees : List Tree} (hstands : node.Stands offset (.node kind trees))
    (hconforms : (Tree.node kind trees).Conforms) :
    node.hasError = false := by
  rw [hstands.hasError_eq]
  refine List.any_eq_false.mpr fun tree htree herror => ?_
  have hbelow := (Tree.conforms_node.mp hconforms).2 tree htree
  cases tree with
  | token kind text => cases herror
  | node kind children =>
      have hkind : kind = .error := by cases kind <;> first | rfl | cases herror
      exact hbelow.kind_ne_error hkind

theorem Stands.closed {node : Node} {offset : Nat} {kind : Kind}
    {trees : List Tree} (hstands : node.Stands offset (.node kind trees))
    (hconforms : (Tree.node kind trees).Conforms)
    (hnone : node.missingDelimiter? = none)
    (hparenthesized : kind ≠ .parenthesizedType)
    (hfunction : kind ≠ .functionType) : Closed trees := by
  intro delimiter hdelimiter hopened
  have htrivia : ∀ delimiter ∈ delimiters,
      delimiter.1.isTrivia = false ∧ delimiter.2.isTrivia = false := by decide
  obtain ⟨hopenerTrivia, hcloserTrivia⟩ := htrivia delimiter hdelimiter
  have hshape := (Tree.conforms_node.mp hconforms).1
  have hcases :=
    balanced_or_watched hparenthesized hfunction hconforms.kind_ne_error _
      hdelimiter
  rw [← Tree.token_mem_symbols hopenerTrivia] at hopened
  rw [← Tree.token_mem_symbols hcloserTrivia]
  rw [Bool.or_eq_true, Kind.isBalanced, Bool.or_eq_true] at hcases
  rcases hcases with (hnever | hsurely) | hwatched
  · have hmay :=
      Shape.may_of_mem (· = .token delimiter.1) hshape hopened (by simp)
    rw [hmay] at hnever
    cases hnever
  · have hcount := Shape.least_le_countP (· = .token delimiter.2) hshape
    obtain ⟨symbol, hsymbol, hsame⟩ := List.countP_pos_iff.mp
      (Nat.lt_of_lt_of_le (of_decide_eq_true hsurely) hcount)
    exact of_decide_eq_true hsame ▸ hsymbol
  · rw [← hstands.mem_kinds_terminals, ← Node.hasTerminal_iff] at hopened ⊢
    exact hasTerminal_of_isWatched hdelimiter (hstands.kind_eq ▸ hwatched) hnone
      (hstands.hasError_eq_false hconforms) hopened

end Node

namespace Analyzer

theorem diagnostics_walk {analyzer : Analyzer} {context : Context}
    (hgoes : ∀ node, (analyzer.check context node).outcome = .ok true)
    (limit : Nat) (nodes : List Node) :
    (walk [analyzer] context limit nodes).diagnostics =
        (Node.preorder limit nodes).flatMap fun node =>
          (analyzer.check context node).diagnostics := by
  induction limit generalizing nodes with
  | zero => rfl
  | succ limit ih =>
      cases nodes with
      | nil => rfl
      | cons node rest =>
          have hentered : entered (findings [analyzer] context node) =
              true := by
            simp [entered, findings, Finding.wantsMore, Finding.missing?,
              hgoes node]
          have hfound :
              (Report.ofFindings
                (findings [analyzer] context node)).diagnostics =
              (analyzer.check context node).diagnostics := List.append_nil _
          rw [walk, hentered, if_pos rfl, Node.preorder, List.flatMap_cons,
            ← ih, ← hfound]
          rfl

/-- Where the analyzer of syntax errors is quiet, no node with an opening
delimiter lacks the closing one, but for types in parentheses and function
types. -/
theorem closed_of_quiet (document : Document) (context : Context)
    (report : Report)
    (hrun : run [wellFormed] context document.root = .ok report)
    (hquiet : report.diagnostics = []) :
    document.parse.tree.Everywhere fun kind children =>
      kind ≠ .parenthesizedType → kind ≠ .functionType →
        Node.Closed children := by
  have hreport :
      report =
        walk [wellFormed] context document.arena.size [document.root] := by
    rw [run, Context.check] at hrun
    split at hrun
    case isTrue => cases hrun
    case isFalse => exact (Except.ok.inj hrun).symm
  rw [hreport, diagnostics_walk fun _ => rfl, List.flatMap_eq_nil_iff] at hquiet
  have hdescendants : ∀ node ∈ document.root.descendants,
      parseErrors node = [] ∧ missingDelimiters node = [] :=
    fun node hnode => List.append_eq_nil_iff.mp (hquiet node hnode)
  have herrors : document.errors = [] := by
    have hroot := (hdescendants _ (Node.root_mem_descendants document)).1
    rw [parseErrors, Node.kind_root, Node.parent?_root] at hroot
    exact List.map_eq_nil_iff.mp hroot
  refine Node.everywhere_of_descendants herrors ?_
  intro node hnode offset kind trees hstands hconforms hparenthesized hfunction
  refine hstands.closed hconforms ?_ hparenthesized hfunction
  have hquiet := (hdescendants node hnode).2
  rw [missingDelimiters] at hquiet
  split at hquiet
  case h_1 hnone => exact hnone
  case h_2 => cases hquiet
  case h_3 => cases hquiet

def openType : Document :=
  .ofTokens "file:///open.pkl" "p: (Int\nq = f(1)"
    [⟨.identifier, "p", 0⟩, ⟨.colon, ":", 1⟩, ⟨.whitespace, " ", 2⟩,
     ⟨.leftParen, "(", 3⟩, ⟨.identifier, "Int", 4⟩, ⟨.whitespace, "\n", 7⟩,
     ⟨.identifier, "q", 8⟩, ⟨.whitespace, " ", 9⟩, ⟨.equal, "=", 10⟩,
     ⟨.whitespace, " ", 11⟩, ⟨.identifier, "f", 12⟩, ⟨.leftParen, "(", 13⟩,
     ⟨.intNumber, "1", 14⟩, ⟨.rightParen, ")", 15⟩]
    (Token.ok_of_toOption (by decide +kernel))

theorem closed_of_quiet_open_type : ∃ document context report,
    run [wellFormed] context document.root = .ok report ∧
      report.diagnostics = [] ∧
      (document.parse.tree.Everywhere fun kind children =>
        kind ≠ .parenthesizedType → kind ≠ .functionType →
          Node.Closed children) ∧
      ∃ node : Node,
        node.document = document ∧ node.hasTerminal .leftParen = true ∧
        node.hasTerminal .rightParen = false := by
  let report :=
    walk [wellFormed] (.ofBase .plain) openType.arena.size [openType.root]
  have hrun : run [wellFormed] (.ofBase .plain) openType.root = .ok report :=
    rfl
  have hquiet : report.diagnostics = [] := by decide +kernel
  refine ⟨openType, .ofBase .plain, report, hrun, hquiet,
    closed_of_quiet openType (.ofBase .plain) report hrun hquiet, ⟨openType, 4⟩,
      rfl, ?_, ?_⟩
  · decide +kernel
  · decide +kernel

end Analyzer

end PklAnalysis

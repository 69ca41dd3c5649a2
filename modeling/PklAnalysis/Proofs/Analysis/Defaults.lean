import PklAnalysis.Analysis.Annotations
import PklAnalysis.Proofs.Analysis.Calls

/-!
What the default analyzers leave out, which is nothing: whatever the text is,
they have an answer at every node and go on below it, and the syntax errors come
before all that they report besides.
-/

namespace PklAnalysis

theorem Document.everywhere_hasName (document : Document) :
    document.parse.tree.Everywhere Tree.HasName := by
  obtain ⟨tokens, stop, hparse⟩ := document.parse_eq_parseTokens
  obtain ⟨children, htree⟩ := document.tree_eq_node
  have hchildren := Grammar.named_parseTokens tokens stop
  rw [← hparse, htree] at hchildren
  rw [htree]
  exact .node nofun hchildren

namespace Node

variable {node : Node}

theorem exists_typeName (hkind : node.kind = .declaredType) :
    ∃ name, node.typeName = .ok name := by
  by_cases hlt : node.index < node.document.arena.size
  case neg =>
      rw [kind, slot_of_not_lt_size hlt] at hkind
      cases hkind
  case pos =>
      obtain ⟨offset, tree, hstands, hwithin⟩ := stands_of_lt_size hlt
      cases tree with
      | token kind text => cases hstands
      | node kind trees =>
          have hnamed :=
            (Tree.everywhere_node.mp
              (hwithin _ node.document.everywhere_hasName)).1
          obtain ⟨parts, hname⟩ := hnamed (hstands.kind_eq.symm.trans hkind)
          obtain ⟨start, hplaced⟩ := Tree.exists_mem_numbered (by decide) hname
          obtain ⟨child, hchild, hunder⟩ :=
            exists_left_of_forall₂ hstands.children hplaced
          have hfound : (node.child? (· = .qualifiedIdent)).isSome = true :=
            List.find?_isSome.mpr ⟨child, hchild, decide_eq_true hunder.kind_eq⟩
          obtain ⟨name, hname⟩ := Option.isSome_iff_exists.mp hfound
          exact ⟨name, by rw [typeName, required, hname]; rfl⟩

theorem mem_descendants_root {node : Node}
    (hlt : node.index < node.document.arena.size) :
    node ∈ node.document.root.descendants := by
  rw [mem_descendants_iff]
  induction node using inductionAbove with
  | top node hnone =>
      obtain ⟨spots, -, hintact⟩ :=
        node.document.expands_arena.intact node.document.intact_fresh
      have hindex : node.index = 0 := by
        by_contra hne
        obtain ⟨parent, hparent, -⟩ := hintact.exists_parent hlt hne
        rw [parent?, slot, hparent] at hnone
        cases hnone
      cases node
      cases hindex
      exact .inl rfl
  | below node parent hparent ih =>
      have hdocument := document_of_parent? hparent
      have hbounds := index_lt_of_mem_children (mem_children_of_parent? hparent)
      rw [← hdocument]
      exact (isUnder_of_parent? hparent).mpr
        (.inr (ih (Nat.lt_trans hbounds.1 hbounds.2)))

end Node

namespace Analyzer

variable {context : Context} {node : Node}

theorem outcome_typeProblems (type : Node) :
    (typeProblems context type).outcome = .ok true := by
  rw [typeProblems]
  split
  case isFalse => rfl
  case isTrue hkind =>
      obtain ⟨name, hname⟩ := Node.exists_typeName hkind
      rw [hname]
      dsimp only
      split <;> rfl

theorem outcome_defaults {analyzer : Analyzer} (hanalyzer : analyzer ∈ defaults)
    (node : Node) :
    (analyzer.check context node).outcome = .ok true := by
  rcases List.mem_cons.mp hanalyzer with rfl | hanalyzer
  · rfl
  · obtain rfl := List.mem_singleton.mp hanalyzer
    rw [annotations]
    dsimp only
    split
    case isFalse => rfl
    case isTrue =>
        split
        case h_1 type htype => exact outcome_typeProblems type
        case h_2 => rfl

theorem enters_defaults (node : Node) : enters defaults context node = true :=
  enters_iff.mpr ⟨⟨wellFormed, List.mem_cons_self, rfl⟩,
    fun _ hanalyzer => ⟨true, outcome_defaults hanalyzer node⟩⟩

theorem visited_defaults (root : Node) :
    visited defaults context root = root.descendants :=
  List.filter_eq_self.mpr fun _ _ => decide_eq_true fun above _ _ =>
    enters_defaults above

theorem malformed_defaults (root : Node) :
    (record defaults context root).1.malformed = [] := by
  rw [report_eq_ofFindings, calls_eq]
  refine List.filterMap_eq_nil_iff.mpr fun finding hfinding => ?_
  obtain ⟨call, hcall, rfl⟩ := List.mem_map.mp hfinding
  obtain ⟨node, -, hcall⟩ := List.mem_flatMap.mp hcall
  have hfound := List.mem_map_of_mem (f := Call.finding) hcall
  rw [map_finding_callsAt] at hfound
  obtain ⟨analyzer, hanalyzer, hcheck⟩ := List.mem_map.mp hfound
  rw [← hcheck, Finding.missing?, outcome_defaults hanalyzer]

/-- What the default analyzers report at a node besides syntax errors. -/
def remarks (context : Context) (node : Node) : List Diagnostic :=
  missingDelimiters node ++ (annotations.check context node).diagnostics

theorem diagnostics_defaults (root : Node) :
    (record defaults context root).1.diagnostics =
      root.descendants.flatMap fun node => parseErrors node ++
        remarks context node := by
  rw [report_eq_ofFindings, calls_eq, visited_defaults, List.map_flatMap,
    Report.ofFindings, List.flatMap_assoc]
  refine List.flatMap_congr fun node _ => ?_
  rw [map_finding_callsAt]
  simp [findings, defaults, wellFormed, Finding.goOn, remarks]

theorem key_of_mem_missingDelimiters {diagnostic : Diagnostic}
    (hmem : diagnostic ∈ missingDelimiters node) :
    diagnostic.key ≠ "syntaxError" := by
  rw [missingDelimiters] at hmem
  split at hmem
  case h_1 => cases hmem
  case h_2 | h_3 =>
      obtain rfl := List.mem_singleton.mp hmem
      exact of_decide_eq_false rfl

theorem key_of_mem_typeProblems {type : Node} {diagnostic : Diagnostic}
    (hmem : diagnostic ∈ (typeProblems context type).diagnostics) :
    diagnostic.key ≠ "syntaxError" := by
  have hone : ∀ {key args}, key ≠ "syntaxError" →
      diagnostic ∈ [Diagnostic.about type .error key args] →
      diagnostic.key ≠ "syntaxError" := by
    intro key args hkey hmem
    obtain rfl := List.mem_singleton.mp hmem
    exact hkey
  rw [typeProblems] at hmem
  split at hmem
  case isFalse => exact hone (by decide) hmem
  case isTrue =>
      split at hmem
      case h_1 => cases hmem
      case h_2 =>
          split at hmem
          case h_1 => exact hone (by decide) hmem
          case h_2 =>
              rcases List.mem_append.mp hmem with hmem | hmem
              · split at hmem
                case isTrue => exact hone (by decide) hmem
                case isFalse => cases hmem
              · split at hmem
                case isTrue => cases hmem
                case isFalse => exact hone (by decide) hmem

theorem key_of_mem_remarks {diagnostic : Diagnostic}
    (hmem : diagnostic ∈ remarks context node) :
    diagnostic.key ≠ "syntaxError" := by
  rcases List.mem_append.mp hmem with hmem | hmem
  · exact key_of_mem_missingDelimiters hmem
  · rw [annotations] at hmem
    dsimp only at hmem
    split at hmem
    case isFalse => cases hmem
    case isTrue =>
        split at hmem
        case h_1 type htype => exact key_of_mem_typeProblems hmem
        case h_2 => cases hmem

theorem parseErrors_root (document : Document) : parseErrors document.root =
    document.errors.map fun error =>
      .within document.root error.range .error "syntaxError"
        [error.message] := by
  rw [parseErrors, Node.kind_root, Node.parent?_root]
  rfl

theorem parseErrors_of_mem_ancestors {above : Node}
    (habove : above ∈ node.ancestors) :
    parseErrors node = [] := by
  have hkind : node.kind ≠ .root := by
    intro hkind
    rw [Node.ancestors_of_kind_root hkind] at habove
    cases habove
  rw [parseErrors, decide_eq_false hkind]
  rfl

/-- Whatever the text is, the default analyzers find no part of the document
missing and look at all nodes. What they report begins with the syntax errors,
each with its range and its message, and holds no others. -/
theorem run_defaults (document : Document) (context : Context)
    (hgoes : context.cancelled = false) :
    ∃ report others, run defaults context document.root = .ok report ∧
      report.malformed = [] ∧
      (calls defaults context document.root).map
        (fun call => (call.place, call.node)) =
        document.root.descendants.flatMap (fun node => [(0, node), (1, node)]) ∧
      (∀ index < document.arena.size,
        ⟨document, index⟩ ∈ document.root.descendants) ∧
      report.diagnostics = document.errors.map (fun error =>
        .within document.root error.range .error "syntaxError"
          [error.message]) ++ others ∧
      ∀ diagnostic ∈ others, diagnostic.key ≠ "syntaxError" := by
  let below := document.root.children.flatMap Node.descendants
  have habove : ∀ node ∈ below, document.root ∈ node.ancestors := by
    have hnodup := Node.nodup_descendants document.root
    intro node hnode
    have hunder : node ∈ document.root.descendants := by
      rw [Node.descendants_eq]
      exact List.mem_cons_of_mem _ hnode
    rw [Node.descendants_eq, List.nodup_cons] at hnodup
    refine (Node.mem_descendants_iff.mp hunder).resolve_left ?_
    rintro rfl
    exact hnodup.1 hnode
  refine ⟨_, remarks context document.root ++ below.flatMap (remarks context),
    run_eq_record hgoes _,
    malformed_defaults _, ?_, fun index hlt => Node.mem_descendants_root hlt,
      ?_, ?_⟩
  · rw [calls_eq, visited_defaults, List.map_flatMap]
    rfl
  · rw [diagnostics_defaults, Node.descendants_eq, List.flatMap_cons,
      parseErrors_root, List.append_assoc]
    refine congrArg _ (congrArg _ (List.flatMap_congr fun node hnode => ?_))
    rw [parseErrors_of_mem_ancestors (habove node hnode), List.nil_append]
  · refine List.forall_mem_append.mpr ⟨fun _ => key_of_mem_remarks,
      fun diagnostic hmem => ?_⟩
    obtain ⟨node, -, hmem⟩ := List.mem_flatMap.mp hmem
    exact key_of_mem_remarks hmem

def openName : Document :=
  .ofTokens "file:///open.pkl" "@a. ]"
    [⟨.atSign, "@", 0⟩, ⟨.identifier, "a", 1⟩, ⟨.dot, ".", 2⟩,
     ⟨.whitespace, " ", 3⟩, ⟨.rightBracket, "]", 4⟩]
    (Token.ok_of_toOption (by decide +kernel))

theorem run_defaults_openName : ∃ (context : Context) (report : Report),
    context.cancelled = false ∧
      run defaults context openName.root = .ok report ∧
      report.malformed = [] ∧ report.keys = ["syntaxError", "cannotFindType"] ∧
      (calls defaults context openName.root).length = 8 := by
  obtain ⟨report, others, hrun, hmalformed, hcalls, -, -, -⟩ :=
    run_defaults openName (.ofBase .plain) rfl
  have hreport :
      report =
        walk defaults (.ofBase .plain) openName.arena.size [openName.root] :=
    (Except.ok.inj hrun).symm
  refine ⟨.ofBase .plain, report, rfl, hrun, hmalformed, ?_, ?_⟩
  · rw [hreport]
    decide +kernel
  · rw [← List.length_map, hcalls]
    decide +kernel

end Analyzer

end PklAnalysis

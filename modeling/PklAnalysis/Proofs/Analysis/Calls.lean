import PklAnalysis.Analysis.Analyzer
import PklAnalysis.Proofs.Base
import PklAnalysis.Proofs.Node.Preorder

/-!
Which analyzers are called, at which nodes and in which order: each of them once
at every node that has none above it where they do not go on. What is reported
is what these calls found, and whether an analyzer fails at a node makes no
difference but below that node.
-/

namespace PklAnalysis.Analyzer

variable {analyzers others : List Analyzer} {context : Context}
  {node root failing : Node}

def enters (analyzers : List Analyzer) (context : Context) (node : Node) :
    Bool :=
  entered (findings analyzers context node)

theorem enters_iff : enters analyzers context node = true ↔
    (∃ analyzer ∈ analyzers, (analyzer.check context node).outcome = .ok true) ∧
      ∀ analyzer ∈ analyzers, ∃ more,
        (analyzer.check context node).outcome = .ok more := by
  have hwants : ∀ finding : Finding, finding.wantsMore = true ↔
      finding.outcome = .ok true := by
    intro finding
    rw [Finding.wantsMore]
    cases finding.outcome <;> simp
  have hanswers : ∀ finding : Finding, finding.missing?.isNone = true ↔
      ∃ more, finding.outcome = .ok more := by
    intro finding
    rw [Finding.missing?]
    cases finding.outcome <;> simp
  rw [enters, entered, findings, Bool.and_eq_true, List.any_map, List.all_map,
    List.any_eq_true, List.all_eq_true]
  simp only [Function.comp_apply, hwants, hanswers]

/-- The nodes that have none above them, up to `root`, where the analyzers do
not go on. -/
def visited (analyzers : List Analyzer) (context : Context) (root : Node) :
    List Node :=
  root.descendants.filter fun node =>
    ∀ above ∈ node.ancestors, above ∈ root.descendants →
      enters analyzers context above = true

structure Call where
  place : Nat
  node : Node
  finding : Finding

def walkM [Monad m] (checks : List (Node → m Finding)) :
    Nat → List Node → m Report
  | 0, _ => return .empty
  | _ + 1, [] => return .empty
  | limit + 1, node :: rest => do
      let findings ← checks.mapM fun check => check node
      let below ← walkM checks limit
        (if entered findings then node.children ++ rest else rest)
      return .ofFindings findings ++ below

def called (context : Context) (node : Node) (analyzer : Analyzer × Nat) :
    Call :=
  { place := analyzer.2, node, finding := analyzer.1.check context node }

/-- An analyzer that leaves a record of its calls. -/
def recorded (context : Context) (analyzer : Analyzer × Nat) (node : Node) :
    StateM (List Call) Finding := do
  let call := called context node analyzer
  modify fun calls => calls ++ [call]
  return call.finding

/-- The report of a run that is not cancelled, and the calls that it makes. -/
def record (analyzers : List Analyzer) (context : Context) (root : Node) :
    Report × List Call :=
  (walkM (analyzers.zipIdx.map (recorded context)) root.document.arena.size
    [root]).run []

def calls (analyzers : List Analyzer) (context : Context) (root : Node) :
    List Call :=
  (record analyzers context root).2

def callsAt (analyzers : List Analyzer) (context : Context) (node : Node) :
    List Call :=
  analyzers.zipIdx.map (called context node)

theorem run_mapM_recorded (places : Nat) (node : Node) (calls : List Call) :
    (List.mapM (fun check : Node → StateM (List Call) Finding => check node)
      ((analyzers.zipIdx places).map (recorded context))).run calls =
      (findings analyzers context node,
        calls ++ (analyzers.zipIdx places).map (called context node)) := by
  induction analyzers generalizing places calls with
  | nil => exact congrArg (Prod.mk _) (List.append_nil calls).symm
  | cons analyzer rest ih =>
      have hfirst : (recorded context (analyzer, places) node).run calls =
          (analyzer.check context node,
            calls ++ [called context node (analyzer, places)]) := rfl
      rw [List.zipIdx_cons, List.map_cons, List.mapM_cons, StateT.run_bind,
        hfirst]
      change StateT.run (List.mapM _ _ >>= fun findings => _) _ = _
      rw [StateT.run_bind, ih]
      exact congrArg (Prod.mk _) (List.append_assoc calls [_] _)

theorem run_walkM_recorded (limit : Nat) (nodes : List Node)
    (calls : List Call) :
    (walkM (analyzers.zipIdx.map (recorded context)) limit nodes).run calls =
      (walk analyzers context limit nodes,
       calls ++ (Node.listing (enters analyzers context) limit nodes).flatMap
        (callsAt analyzers context)) := by
  induction limit generalizing nodes calls with
  | zero => exact congrArg (Prod.mk _) (List.append_nil calls).symm
  | succ limit ih =>
      cases nodes with
      | nil => exact congrArg (Prod.mk _) (List.append_nil calls).symm
      | cons node rest =>
          rw [walkM, StateT.run_bind, run_mapM_recorded]
          change StateT.run
            (walkM _ limit (if enters analyzers context node then _ else _) >>=
              fun below => _)
            (calls ++ callsAt analyzers context node) = _
          rw [StateT.run_bind, ih, List.append_assoc, Node.listing,
            List.flatMap_cons]
          rfl

theorem record_eq (root : Node) : record analyzers context root =
    (walk analyzers context root.document.arena.size [root],
     (visited analyzers context root).flatMap (callsAt analyzers context)) := by
  rw [record, run_walkM_recorded, List.nil_append, Node.listing_eq_reached,
    Node.reached_eq_filter]
  rfl

theorem calls_eq (root : Node) : calls analyzers context root =
    (visited analyzers context root).flatMap (callsAt analyzers context) :=
  congrArg Prod.snd (record_eq root)

theorem map_finding_callsAt (node : Node) :
    (callsAt analyzers context node).map Call.finding =
      findings analyzers context node := by
  rw [callsAt, List.map_map, findings]
  conv_rhs => rw [← List.zipIdx_map_fst 0 analyzers, List.map_map]
  rfl

theorem ofFindings_append (left right : List Finding) :
    Report.ofFindings (left ++ right) =
      .ofFindings left ++ .ofFindings right := by
  rw [Report.ofFindings, List.flatMap_append, List.filterMap_append]
  rfl

theorem walk_eq_ofFindings (limit : Nat) (nodes : List Node) :
    walk analyzers context limit nodes = .ofFindings
      (((Node.listing (enters analyzers context) limit nodes).flatMap
        (callsAt analyzers context)).map
        Call.finding) := by
  induction limit generalizing nodes with
  | zero => rfl
  | succ limit ih =>
      cases nodes with
      | nil => rfl
      | cons node rest =>
          rw [walk, ih, Node.listing, List.flatMap_cons, List.map_append,
            ofFindings_append, map_finding_callsAt]
          rfl

/-- The report of a run is what its calls found. -/
theorem report_eq_ofFindings (root : Node) : (record analyzers context root).1 =
    .ofFindings ((calls analyzers context root).map Call.finding) := by
  rw [calls_eq, record_eq, walk_eq_ofFindings, Node.listing_eq_reached,
    Node.reached_eq_filter]
  rfl

theorem run_eq_record (hgoes : context.cancelled = false) (root : Node) :
    run analyzers context root = .ok (record analyzers context root).1 := by
  rw [run, Context.check, hgoes, record_eq]
  rfl

theorem mem_visited_iff :
    node ∈ visited analyzers context root ↔ node ∈ root.descendants ∧
      ∀ above ∈ node.ancestors, above ∈ root.descendants →
        (∃ analyzer ∈ analyzers,
          (analyzer.check context above).outcome = .ok true) ∧
          ∀ analyzer ∈ analyzers, ∃ more,
            (analyzer.check context above).outcome = .ok more := by
  simp only [visited, List.mem_filter, decide_eq_true_eq, enters_iff]

theorem nodup_visited (root : Node) : (visited analyzers context root).Nodup :=
  (Node.nodup_descendants root).filter _

theorem node_of_mem_callsAt {call : Call}
    (hcall : call ∈ callsAt analyzers context node) :
    call.node = node := by
  obtain ⟨analyzer, -, rfl⟩ := List.mem_map.mp hcall
  rfl

theorem nodup_calls (root : Node) :
    ((calls analyzers context root).map fun call =>
      (call.place, call.node)).Nodup := by
  rw [calls_eq, List.map_flatMap, List.nodup_flatMap]
  constructor
  · intro node _
    refine .of_map Prod.fst ?_
    rw [List.map_map, callsAt, List.map_map]
    change ((analyzers.zipIdx).map Prod.snd).Nodup
    rw [List.zipIdx_map_snd]
    exact List.nodup_range' 1 Nat.one_pos
  · refine (nodup_visited root).imp fun hne pair hpair hpair' => hne ?_
    obtain ⟨call, hcall, rfl⟩ := List.mem_map.mp hpair
    obtain ⟨other, hother, hsame⟩ := List.mem_map.mp hpair'
    rw [← node_of_mem_callsAt hcall, ← node_of_mem_callsAt hother]
    exact (congrArg Prod.snd hsame).symm

def outside (failing : Node) (calls : List Call) : List Call :=
  calls.filter fun call => call.node ∉ failing.descendants

theorem callsAt_eq (node : Node) : callsAt analyzers context node =
    (findings analyzers context node).zipIdx.map fun (finding, place) =>
      { place, node, finding } := by
  rw [findings, List.zipIdx_map, List.map_map]
  rfl

theorem callsAt_congr
    (hsame : findings others context node = findings analyzers context node) :
    callsAt others context node = callsAt analyzers context node := by
  rw [callsAt_eq, callsAt_eq, hsame]

theorem outside_flatMap_callsAt (nodes : List Node) :
    outside failing (nodes.flatMap (callsAt analyzers context)) =
      (nodes.filter (· ∉ failing.descendants)).flatMap
        (callsAt analyzers context) := by
  induction nodes with
  | nil => rfl
  | cons node rest ih =>
      rw [List.flatMap_cons, outside, List.filter_append, ← outside, ← outside,
        ih, List.filter_cons]
      by_cases hbelow : node ∈ failing.descendants
      case pos =>
          have hnone : outside failing (callsAt analyzers context node) = [] :=
            List.filter_eq_nil_iff.mpr fun call hcall => by
              rw [node_of_mem_callsAt hcall]
              simpa using hbelow
          rw [hnone, List.nil_append, if_neg (by simpa using hbelow)]
      case neg =>
          have hall : outside failing (callsAt analyzers context node) =
              callsAt analyzers context node :=
            List.filter_eq_self.mpr fun call hcall => by
              rw [node_of_mem_callsAt hcall]
              simpa using hbelow
          rw [hall, if_pos (by simpa using hbelow), List.flatMap_cons]

/-- What analyzers find in the tree under a node is of no consequence
elsewhere. -/
theorem outside_calls_congr
    (hsame : ∀ node, node ∉ failing.descendants →
      findings others context node = findings analyzers context node)
    (root : Node) :
    outside failing (calls others context root) =
      outside failing (calls analyzers context root) := by
  have hvisited :
      (visited others context root).filter (· ∉ failing.descendants) =
      (visited analyzers context root).filter (· ∉ failing.descendants) := by
    rw [visited, visited, List.filter_filter, List.filter_filter]
    refine List.filter_congr fun node _ => ?_
    by_cases hbelow : node ∈ failing.descendants
    case pos => simp [hbelow]
    case neg =>
        have henters : ∀ above ∈ node.ancestors,
            enters others context above = enters analyzers context above := by
          intro above habove
          refine congrArg entered (hsame above fun hmem => hbelow ?_)
          rw [Node.mem_descendants_iff] at hmem ⊢
          exact hmem.of_mem_ancestors habove
        have hiff : (∀ above ∈ node.ancestors, above ∈ root.descendants →
              enters others context above = true) ↔
            ∀ above ∈ node.ancestors, above ∈ root.descendants →
              enters analyzers context above = true :=
          forall₂_congr fun above habove => by rw [henters above habove]
        rw [decide_eq_decide.mpr hiff]
  rw [calls_eq, calls_eq, outside_flatMap_callsAt, outside_flatMap_callsAt,
    hvisited]
  refine List.flatMap_congr fun node hnode => callsAt_congr (hsame node ?_)
  exact of_decide_eq_true (List.mem_filter.mp hnode).2

/-- A run calls each analyzer once at every node that has none above it where
the analyzers do not go on: node by node as they are in the document, and at
each node in the order of the analyzers. It reports what these calls found. What
analyzers find in the tree under a node, also if it is that they fail, changes
no call elsewhere. -/
theorem run_of_calls (analyzers : List Analyzer) (context : Context)
    (root : Node) (hgoes : context.cancelled = false) :
    (∃ report, run analyzers context root = .ok report ∧
      record analyzers context root = (report, calls analyzers context root) ∧
      report.diagnostics =
        (calls analyzers context root).flatMap (fun call =>
          call.finding.diagnostics) ∧
      report.malformed = (calls analyzers context root).filterMap fun call =>
        call.finding.missing?) ∧
    calls analyzers context root =
      (visited analyzers context root).flatMap (callsAt analyzers context) ∧
    ((calls analyzers context root).map fun call =>
      (call.place, call.node)).Nodup ∧
    (visited analyzers context root).Sublist root.descendants ∧
    (∀ node, node ∈ visited analyzers context root ↔ node ∈ root.descendants ∧
      ∀ above ∈ node.ancestors, above ∈ root.descendants →
        (∃ analyzer ∈ analyzers,
          (analyzer.check context above).outcome = .ok true) ∧
          ∀ analyzer ∈ analyzers, ∃ more,
            (analyzer.check context above).outcome = .ok more) ∧
    ∀ (failing : Node) (others : List Analyzer),
      (∀ node, node ∉ failing.descendants →
        findings others context node = findings analyzers context node) →
      outside failing (calls others context root) =
        outside failing (calls analyzers context root) := by
  refine ⟨⟨(record analyzers context root).1, run_eq_record hgoes root, rfl, ?_,
    ?_⟩, calls_eq root,
    nodup_calls root, List.filter_sublist, fun _ => mem_visited_iff,
    fun failing others hsame => outside_calls_congr hsame root⟩
  · rw [report_eq_ofFindings, Report.ofFindings, List.flatMap_map]
  · rw [report_eq_ofFindings, Report.ofFindings, List.filterMap_map]
    rfl

def twoProperties : Document :=
  .ofTokens "file:///two.pkl" "a=1\nb=2"
    [⟨.identifier, "a", 0⟩, ⟨.equal, "=", 1⟩, ⟨.intNumber, "1", 2⟩,
     ⟨.whitespace, "\n", 3⟩, ⟨.identifier, "b", 4⟩, ⟨.equal, "=", 5⟩,
     ⟨.intNumber, "2", 6⟩]
    (Token.ok_of_toOption (by decide +kernel))

def literals : Analyzer :=
  { name := "literals"
    check :=
      fun _ node => .goOn (if node.kind = .intLiteral then
        [.about node .hint "literal" []] else []) }

def picky (fails : Node → Bool) : Analyzer :=
  { name := "picky"
    check := fun _ node =>
      { diagnostics := []
        outcome :=
          if fails node then .error (.child node.kind "type" node.range) else
            .ok false } }

/-- The literal of the first property is left out, and that of the second one is
not. -/
theorem run_of_calls_twoProperties :
    ∃ (context : Context) (first : Node) (report : Report),
      context.cancelled = false ∧ first ∈ twoProperties.root.children ∧
      run [literals, picky (· = first)] context twoProperties.root =
        .ok report ∧
      report.malformed.length = 1 ∧ report.diagnostics.length = 1 ∧
      (calls [literals, picky (· = first)] context twoProperties.root).map
        (fun call => (call.place, call.node.range.start)) =
        [(0, 0), (1, 0), (0, 0), (1, 0), (0, 4), (1, 4), (0, 6), (1, 6)] ∧
      outside first
        (calls [literals, picky fun _ => false] context twoProperties.root) =
        outside first
          (calls [literals, picky (· = first)] context twoProperties.root) := by
  let first : Node := ⟨twoProperties, 1⟩
  obtain ⟨⟨report, hrun, hrecord, -, -⟩, hcalls, -, -, -, houtside⟩ :=
    run_of_calls [literals, picky (· = first)] (.ofBase .plain)
      twoProperties.root rfl
  have hreport :
      report =
        walk [literals, picky (· = first)] (.ofBase .plain)
          twoProperties.arena.size
      [twoProperties.root] :=
        congrArg Prod.fst (hrecord.symm.trans (record_eq _))
  refine ⟨.ofBase .plain, first, report, rfl, ?_, hrun, ?_, ?_, ?_,
    houtside first _ fun node hnode => ?_⟩
  · decide +kernel
  · rw [hreport]
    decide +kernel
  · rw [hreport]
    decide +kernel
  · rw [hcalls]
    decide +kernel
  · have hne : node ≠ first := by
      rintro rfl
      exact hnode (Node.mem_descendants_iff.mpr (.inl rfl))
    simp [findings, picky, hne]

end PklAnalysis.Analyzer

import ProofLedger.Proofs.Derivation.Coherence

/-!
# No error is lost

Every error of a context shows in the derived graph: the node of a block that contains it has an
error, and if no block contains it there is a node of its own. Conversely a node has an error
only because of such a diagnostic, so the root, which aggregates its children, tells whether
there is any error and, if not, whether anything is still open.
-/

namespace ProofLedger.Derivation

variable {c : SourceContext} {now : Instant}

theorem mem_errorsOf {e : Diagnostic} :
    e ∈ errorsOf c ↔ e ∈ c.diagnostics ∧ e.severity.isError = true := by
  rw [errorsOf, sortDiagnostics, List.mem_filter, List.mem_mergeSort]

theorem mem_uncovered {e : Diagnostic} :
    e ∈ uncovered c ↔ (e ∈ c.diagnostics ∧ e.severity.isError = true) ∧
      ∀ b ∈ blocksOf c.sourceText, b.declaration.containsLine e.line = false := by
  rw [uncovered, List.mem_filter, mem_errorsOf, isCovered, Bool.not_eq_true', List.any_eq_false]
  simp only [Bool.not_eq_true]

-- ── The statuses of obligations ───────────────────────────────────────────────

theorem blockStatus_eq_error_iff {b : Block} {error : Option Diagnostic} :
    blockStatus b error = .error ↔ error.isSome = true := by
  rw [blockStatus]
  cases error with
  | some e => exact iff_of_true rfl rfl
  | none => cases b.hasPlaceholder <;> cases b.declaration.hasBody <;> decide

/-- A block has an error exactly if one of the errors lies in it. -/
theorem status_blockNode_eq_error_iff {b : Block} :
    (blockNode b (errorsOf c)).status = .error ↔
      ∃ e ∈ errorsOf c, b.declaration.containsLine e.line = true := by
  rw [show (blockNode b (errorsOf c)).status =
    blockStatus b (errorIn? b.declaration (errorsOf c)) from rfl, blockStatus_eq_error_iff,
    errorIn?, List.find?_isSome]

/-- Without an error a block is open exactly if it has a placeholder or no body. -/
theorem isOpen_blockStatus {b : Block} :
    (blockStatus b none).isOpen = true ↔
      b.hasPlaceholder = true ∨ b.declaration.hasBody = false := by
  unfold blockStatus
  cases b.hasPlaceholder <;> cases b.declaration.hasBody <;> simp [NodeStatus.isOpen]

/-- Without errors all obligations are blocks, with the statuses of their texts. -/
theorem Obliges.of_no_errors {i : Identity} {goal : Option Goal} {n : GraphNode}
    (h : Obliges c i goal n) (hnone : errorsOf c = []) :
    ∃ b ∈ blocksOf c.sourceText, n.status = blockStatus b none := by
  cases h with
  | @block b hb => exact ⟨b, hb, by rw [hnone]; rfl⟩
  | error he =>
    have hmem := List.mem_of_mem_filter he
    rw [hnone] at hmem
    cases hmem

-- ── The root ──────────────────────────────────────────────────────────────────

/-- The root has the aggregated status of nodes that stand for all obligations. -/
theorem root_derive (now : Instant) (h : Text.isBlankText c.sourceText = false)
    (hdigests : Identity.Distinguished (identitiesOf c)) :
    ∃ root statuses, (derive c now).graph.root? = some root ∧
      root.status = NodeStatus.aggregate statuses ∧
      ∀ s, s ∈ statuses ↔ ∃ i goal n, Obliges c i goal n ∧ n.status = s := by
  have hgathers := gathers_attached c
  generalize hattached : (obligations c).foldl (fun g o => g.attachToRoot o.2)
    (Graph.rootOnly c.fileKey) = attached at hgathers
  have hderived : (derive c now).graph = attached.refreshRootStatus := by
    rw [graph_derive h, buildGraph, hattached]
  obtain ⟨r, -, hroot⟩ := hgathers.get?_refresh_root
  refine ⟨{ r with status := NodeStatus.aggregate (attached.rootChildren.map (·.status)) },
    attached.rootChildren.map (·.status), ?_, rfl, fun s => ?_⟩
  · rw [Graph.root?, (gathers_derive now h).rootId, hderived]
    exact hroot
  · rw [List.mem_map]
    constructor
    · rintro ⟨n, hn, rfl⟩
      obtain ⟨id, hid, hget⟩ := hgathers.mem_rootChildren.mp hn
      have hkept : (derive c now).graph.nodes.get? id = some n := by
        rw [hderived, hgathers.get?_refresh hid, hget]
      obtain ⟨i, goal, m, hi, -, rfl⟩ := obliges_of_get? h hkept hid
      exact ⟨i, goal, m, hi, rfl⟩
    · rintro ⟨i, goal, n, hi, rfl⟩
      obtain ⟨goal', m, hm, hget⟩ := get?_of_obliges now h hdigests hi
      rw [hderived] at hget
      refine ⟨m.underRoot, hgathers.mem_rootChildren.mpr ⟨i.nodeId, i.nodeId_ne_root, ?_⟩,
        (hi.agree hm).2.symm⟩
      rw [← hgathers.get?_refresh i.nodeId_ne_root]
      exact hget

/-- Some obligation has an error exactly if the context has one. -/
theorem exists_error_iff :
    (∃ i goal n, Obliges c i goal n ∧ n.status = .error) ↔
      ∃ e ∈ c.diagnostics, e.severity.isError = true := by
  constructor
  · rintro ⟨i, goal, n, hblock | herror, hstatus⟩
    · obtain ⟨e, he, -⟩ := status_blockNode_eq_error_iff.mp hstatus
      exact ⟨e, mem_errorsOf.mp he⟩
    · exact ⟨_, (mem_uncovered.mp herror).1⟩
  · rintro ⟨e, he, herror⟩
    by_cases hcovered : ∃ b ∈ blocksOf c.sourceText, b.declaration.containsLine e.line = true
    · obtain ⟨b, hb, hline⟩ := hcovered
      exact ⟨_, _, _, .block hb,
        status_blockNode_eq_error_iff.mpr ⟨e, mem_errorsOf.mpr ⟨he, herror⟩, hline⟩⟩
    · refine ⟨_, _, _, .error (mem_uncovered.mpr ⟨⟨he, herror⟩, fun b hb => ?_⟩), rfl⟩
      exact Bool.eq_false_iff.mpr fun hline => hcovered ⟨b, hb, hline⟩

/-- The node that is kept for a block is its own. -/
theorem node?_of_block (now : Instant) (h : Text.isBlankText c.sourceText = false)
    (hdigests : Identity.Distinguished (identitiesOf c)) {b : Block}
    (hb : b ∈ blocksOf c.sourceText) :
    (derive c now).graph.node? (declarationIdentity b.declaration).nodeId =
      some (blockNode b (errorsOf c)).underRoot := by
  obtain ⟨goal, m, hm, hget⟩ := get?_of_obliges now h hdigests (.block hb)
  obtain ⟨-, rfl⟩ := hm.eq_of_block hb
  exact hget

/-- For an error outside of all blocks the node of such an error is kept. -/
theorem node?_of_uncovered (now : Instant) (h : Text.isBlankText c.sourceText = false)
    (hdigests : Identity.Distinguished (identitiesOf c)) {e : Diagnostic} (he : e ∈ uncovered c) :
    ∃ e', (derive c now).graph.node? (diagnosticIdentity e).nodeId =
      some (diagnosticNode e').underRoot := by
  obtain ⟨goal, m, hm, hget⟩ := get?_of_obliges now h hdigests (.error he)
  obtain ⟨e', rfl⟩ := hm.eq_of_error
  exact ⟨e', hget⟩

/-- Without errors the root is open exactly if some block is. -/
theorem status_root_of_no_errors {statuses : List NodeStatus}
    (hstatuses : ∀ s, s ∈ statuses ↔ ∃ i goal n, Obliges c i goal n ∧ n.status = s)
    (hnone : ∀ e ∈ c.diagnostics, e.severity.isError = false) :
    NodeStatus.aggregate statuses =
      if ∃ b ∈ blocksOf c.sourceText, b.hasPlaceholder = true ∨ b.declaration.hasBody = false
      then .inProgress else .resolved := by
  have herrors : errorsOf c = [] := by
    refine List.eq_nil_iff_forall_not_mem.mpr fun e he => ?_
    obtain ⟨hmem, herror⟩ := mem_errorsOf.mp he
    rw [hnone e hmem] at herror
    cases herror
  have hno : .error ∉ statuses := by
    intro hmem
    obtain ⟨e, he, herror⟩ := exists_error_iff.mp ((hstatuses _).mp hmem)
    rw [hnone e he] at herror
    cases herror
  have hopen : (∃ s ∈ statuses, s.isOpen = true) ↔
      ∃ b ∈ blocksOf c.sourceText, b.hasPlaceholder = true ∨ b.declaration.hasBody = false := by
    constructor
    · rintro ⟨s, hs, hopen⟩
      obtain ⟨i, goal, n, hi, rfl⟩ := (hstatuses s).mp hs
      obtain ⟨b, hb, hstatus⟩ := hi.of_no_errors herrors
      exact ⟨b, hb, isOpen_blockStatus.mp (hstatus ▸ hopen)⟩
    · rintro ⟨b, hb, hopen⟩
      refine ⟨blockStatus b none, (hstatuses _).mpr ⟨_, _, _, .block hb, ?_⟩,
        isOpen_blockStatus.mpr hopen⟩
      rw [herrors]
      rfl
  rw [NodeStatus.aggregate_of_no_error hno]
  exact if_congr hopen rfl rfl

/-- Every error of a context shows in the derived graph, and the root sums up. -/
theorem derive_reports_errors (c : SourceContext) (now : Instant)
    (hblank : Text.isBlankText c.sourceText = false)
    (hlines : (Text.lines c.sourceText.toList).length < 2 ^ 32)
    (hdigests : Identity.Distinguished (identitiesOf c)) :
    (∀ e ∈ c.diagnostics, e.severity.isError = true →
      (∀ b ∈ blocksOf c.sourceText, b.declaration.containsLine e.line = true →
        ∃ n, (derive c now).graph.node? (declarationIdentity b.declaration).nodeId = some n ∧
          n.label = b.declaration.label ∧ n.status = .error ∧
          n.range.any (·.containsLine e.line) = true) ∧
      ((∀ b ∈ blocksOf c.sourceText, b.declaration.containsLine e.line = false) →
        ∃ n, (derive c now).graph.node? (diagnosticIdentity e).nodeId = some n ∧
          n.kind = .diagnostic ∧ n.status = .error)) ∧
    ∃ root, (derive c now).graph.root? = some root ∧
      (root.status = .error ↔ ∃ e ∈ c.diagnostics, e.severity.isError = true) ∧
      ((∀ e ∈ c.diagnostics, e.severity.isError = false) →
        root.status =
          if ∃ b ∈ blocksOf c.sourceText, b.hasPlaceholder = true ∨ b.declaration.hasBody = false
          then .inProgress else .resolved) := by
  obtain ⟨root, statuses, hroot, hstatus, hstatuses⟩ := root_derive now hblank hdigests
  refine ⟨fun e he herror => ⟨fun b hb hline => ?_, fun hnone => ?_⟩, root, hroot, ?_, ?_⟩
  · obtain ⟨r, hrange, hin⟩ := range_of_mem_blocksOf hb hlines
    refine ⟨_, node?_of_block now hblank hdigests hb, rfl, ?_, ?_⟩
    · exact status_blockNode_eq_error_iff.mpr ⟨e, mem_errorsOf.mpr ⟨he, herror⟩, hline⟩
    · change (SourceRange.ofLines? b.declaration.startLine.toUInt32
        b.declaration.endLine.toUInt32).any (·.containsLine e.line) = true
      rw [hrange]
      exact hin e.line hline
  · obtain ⟨e', hget⟩ :=
      node?_of_uncovered now hblank hdigests (mem_uncovered.mpr ⟨⟨he, herror⟩, hnone⟩)
    exact ⟨_, hget, rfl, rfl⟩
  · rw [hstatus, NodeStatus.aggregate_eq_error_iff, hstatuses, exists_error_iff]
  · intro hnone
    rw [hstatus]
    exact status_root_of_no_errors hstatuses hnone

/-- The error in the theorem shows there, the one that is reported twice on its own. -/
theorem derive_reports_errors_noisyContext :
    Text.isBlankText noisyContext.sourceText = false ∧
      (Text.lines noisyContext.sourceText.toList).length < 2 ^ 32 ∧
      Identity.Distinguished (identitiesOf noisyContext) ∧
      ∀ now, (∃ n, (derive noisyContext now).graph.node?
          (Identity.declaration 1 "True").nodeId = some n ∧ n.status = .error) ∧
        (∃ n, (derive noisyContext now).graph.node?
          (Identity.diagnostic 9 "x y").nodeId = some n ∧ n.kind = .diagnostic) ∧
        ∃ root, (derive noisyContext now).graph.root? = some root ∧ root.status = .error := by
  have hblank : Text.isBlankText noisyContext.sourceText = false := by decide +kernel
  refine ⟨hblank, length_lines_noisyContext, distinguished_noisyContext, fun now => ?_⟩
  obtain ⟨hshown, root, hroot, hstatus, -⟩ := derive_reports_errors noisyContext now hblank
    length_lines_noisyContext distinguished_noisyContext
  have hblock : ∃ b ∈ blocksOf noisyContext.sourceText,
      b.declaration.containsLine 1 = true ∧
        declarationIdentity b.declaration = .declaration 1 "True" := by
    decide +kernel
  have houtside : ∀ b ∈ blocksOf noisyContext.sourceText,
      b.declaration.containsLine 9 = false := by
    decide +kernel
  have hmessage : diagnosticIdentity ⟨"x  y", .error, ⟨⟨9, 1⟩, ⟨9, 1⟩⟩, none⟩ =
      .diagnostic 9 "x y" := by
    decide +kernel
  refine ⟨?_, ?_, root, hroot, hstatus.mpr ?_⟩
  · obtain ⟨b, hb, hline, hidentity⟩ := hblock
    obtain ⟨n, hn, -, herror, -⟩ :=
      (hshown _ (List.mem_cons_self ..) rfl).1 b hb hline
    exact ⟨n, hidentity ▸ hn, herror⟩
  · obtain ⟨n, hn, hkind, -⟩ :=
      (hshown _ (List.mem_cons_of_mem _ (List.mem_cons_self ..)) rfl).2 houtside
    exact ⟨n, hmessage ▸ hn, hkind⟩
  · exact ⟨_, List.mem_cons_self .., rfl⟩

end ProofLedger.Derivation

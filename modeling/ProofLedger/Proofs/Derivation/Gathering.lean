import Mathlib.Data.List.Induction
import ProofLedger.Derivation
import ProofLedger.Proofs.Graph.Consistency

/-!
# Graphs of a root and its children

A derived graph is made by attaching nodes to a root. What it holds is described by `Gathers`:
below the root there is nothing but attached nodes, each of them or a later one of its id, and
every edge leads from the root to one of them. Attaching one more node keeps that
(`Gathers.attach`). Such a graph is consistent whatever the nodes are, as long as none has the id
of the root.
-/

namespace ProofLedger

/-- A node as a child of the root. -/
def GraphNode.underRoot (n : GraphNode) : GraphNode :=
  { n with parentId := some Graph.rootNodeId }

namespace Graph

/-- A graph of a root and some nodes below it; of those with the same id one is kept. -/
structure Gathers (ns : List GraphNode) (g : Graph) : Prop where
  rootId : g.rootId = rootNodeId
  /-- the root is its own node and belongs to no other and to no goal -/
  root : ∃ r, g.nodes.get? rootNodeId = some r ∧ r.nodeId = rootNodeId ∧ r.parentId = none ∧
    r.goalId = none
  /-- what is stored beside the root is one of the nodes -/
  child : ∀ id n, g.nodes.get? id = some n → id ≠ rootNodeId →
    ∃ m ∈ ns, m.nodeId = id ∧ n = m.underRoot
  /-- for every node one of its id is stored -/
  present : ∀ m ∈ ns, m.nodeId ≠ rootNodeId ∧ g.nodes.contains m.nodeId = true
  edges : ∀ e ∈ g.edges, ∃ m ∈ ns, e = ⟨rootNodeId, m.nodeId⟩

variable {ns : List GraphNode} {g : Graph}

theorem gathers_rootOnly (label : String) : Gathers [] (rootOnly label) where
  rootId := rfl
  root := ⟨_, Table.get?_insert_self _ _ _, rfl, rfl, rfl⟩
  child id n hget hne := by
    rw [rootOnly, Table.get?_insert_ne _ hne.symm, Table.get?_empty] at hget
    cases hget
  present m hm := by cases hm
  edges e he := by cases he

/-- One more node is attached. -/
theorem Gathers.attach (h : Gathers ns g) {n : GraphNode} (hn : n.nodeId ≠ rootNodeId) :
    Gathers (ns ++ [n]) (g.attachToRoot n) where
  rootId := h.rootId
  root := by
    obtain ⟨r, hget, hr⟩ := h.root
    exact ⟨r, (Table.get?_insert_ne _ hn _).trans hget, hr⟩
  child id m hget hne := by
    by_cases hid : n.nodeId = id
    · subst hid
      rw [attachToRoot, Table.get?_insert_self, h.rootId] at hget
      exact ⟨n, List.mem_append_right _ (List.mem_singleton_self n), rfl,
        (Option.some.inj hget).symm⟩
    · rw [attachToRoot, Table.get?_insert_ne _ hid] at hget
      obtain ⟨k, hk, hkm⟩ := h.child id m hget hne
      exact ⟨k, List.mem_append_left _ hk, hkm⟩
  present m hm := by
    rcases List.mem_append.mp hm with hm | hm
    · obtain ⟨hne, hold⟩ := h.present m hm
      refine ⟨hne, ?_⟩
      by_cases hid : n.nodeId = m.nodeId
      · rw [attachToRoot, hid]
        exact congrArg Option.isSome (Table.get?_insert_self _ _ _)
      · exact (congrArg Option.isSome (Table.get?_insert_ne _ hid _)).trans hold
    · rw [List.mem_singleton.mp hm]
      exact ⟨hn, congrArg Option.isSome (Table.get?_insert_self _ _ _)⟩
  edges e he := by
    have hcases : e ∈ g.edges ∨ e = ⟨g.rootId, n.nodeId⟩ := by
      rw [attachToRoot] at he
      simp only at he
      split at he
      · exact .inl he
      · exact (List.mem_append.mp he).imp_right List.mem_singleton.mp
    rcases hcases with hold | rfl
    · obtain ⟨m, hm, hem⟩ := h.edges e hold
      exact ⟨m, List.mem_append_left _ hm, hem⟩
    · exact ⟨n, List.mem_append_right _ (List.mem_singleton_self n), by rw [h.rootId]⟩

/-- All nodes are attached, one after the other. -/
theorem gathers_foldl (label : String) {ns : List GraphNode}
    (hns : ∀ n ∈ ns, n.nodeId ≠ rootNodeId) :
    Gathers ns (ns.foldl attachToRoot (rootOnly label)) := by
  induction ns using List.reverseRecOn with
  | nil => exact gathers_rootOnly label
  | append_singleton ns n ih =>
    rw [List.foldl_concat]
    exact (ih fun m hm => hns m (List.mem_append_left _ hm)).attach
      (hns n (List.mem_append_right _ (List.mem_singleton_self n)))

-- ── Consistency ───────────────────────────────────────────────────────────────

theorem Gathers.contains_root (h : Gathers ns g) : g.nodes.contains rootNodeId = true := by
  obtain ⟨r, hget, -⟩ := h.root
  exact congrArg Option.isSome hget

/-- All links leave the root, and none enters it. -/
theorem Gathers.leads (h : Gathers ns g) {parent child : String} (hlead : g.Leads parent child) :
    parent = rootNodeId ∧ child ≠ rootNodeId := by
  rcases hlead with hedge | ⟨n, hget, hp⟩
  · obtain ⟨m, hm, he⟩ := h.edges _ hedge
    cases he
    exact ⟨rfl, (h.present m hm).1⟩
  · have hne : child ≠ rootNodeId := by
      rintro rfl
      obtain ⟨r, hr, -, hnone, -⟩ := h.root
      rw [hr] at hget
      cases hget
      rw [hnone] at hp
      cases hp
    obtain ⟨m, -, -, rfl⟩ := h.child child n hget hne
    exact ⟨(Option.some.inj hp).symm, hne⟩

theorem Gathers.consistent (h : Gathers ns g) : g.Consistent where
  root := h.rootId ▸ h.contains_root
  keyed id n hget := by
    by_cases hid : id = rootNodeId
    · subst hid
      obtain ⟨r, hr, hself, -⟩ := h.root
      rw [hr] at hget
      cases hget
      exact hself
    · obtain ⟨m, -, hm, rfl⟩ := h.child id n hget hid
      exact hm
  parented id n hget hne := by
    obtain ⟨m, -, -, rfl⟩ := h.child id n hget (h.rootId ▸ hne)
    exact fun hno => nomatch hno
  parents id n parent hget hp := by
    rw [(h.leads (.inr ⟨n, hget, hp⟩)).1]
    exact h.contains_root
  edges e he := by
    obtain ⟨m, hm, rfl⟩ := h.edges e he
    exact ⟨h.contains_root, (h.present m hm).2⟩
  acyclic id hcycle := by
    -- the first step of a cycle would leave the root and the last one enter it
    obtain ⟨next, hfirst, -⟩ := Relation.TransGen.head'_iff.mp hcycle
    obtain ⟨last, -, hlast⟩ := Relation.TransGen.tail'_iff.mp hcycle
    exact (h.leads hlast).2 (h.leads hfirst).1

-- ── The status of the root ────────────────────────────────────────────────────

/-- Refreshing the root concerns no other node. -/
theorem Gathers.get?_refresh (h : Gathers ns g) {id : String} (hid : id ≠ rootNodeId) :
    g.refreshRootStatus.nodes.get? id = g.nodes.get? id := by
  obtain ⟨r, hr, -⟩ := h.root
  have hroot : g.root? = some r := by rw [root?, h.rootId, hr]
  rw [refreshRootStatus, hroot]
  exact Table.get?_insert_ne _ (h.rootId ▸ hid.symm) _

/-- The refreshed root has the aggregated status of the children. -/
theorem Gathers.get?_refresh_root (h : Gathers ns g) : ∃ r,
    g.nodes.get? rootNodeId = some r ∧ g.refreshRootStatus.nodes.get? rootNodeId =
      some { r with status := NodeStatus.aggregate (g.rootChildren.map (·.status)) } := by
  obtain ⟨r, hr, -⟩ := h.root
  have hroot : g.root? = some r := by rw [root?, h.rootId, hr]
  refine ⟨r, hr, ?_⟩
  rw [refreshRootStatus, hroot, ← h.rootId]
  exact Table.get?_insert_self _ _ _

theorem refreshRootStatus_rootId : g.refreshRootStatus.rootId = g.rootId := by
  unfold refreshRootStatus
  split <;> rfl

theorem refreshRootStatus_edges : g.refreshRootStatus.edges = g.edges := by
  unfold refreshRootStatus
  split <;> rfl

/-- Refreshing the status of the root keeps the shape of the graph. -/
theorem Gathers.refresh (h : Gathers ns g) : Gathers ns g.refreshRootStatus where
  rootId := refreshRootStatus_rootId.trans h.rootId
  root := by
    obtain ⟨r, hr, hget⟩ := h.get?_refresh_root
    obtain ⟨r', hr', hfields⟩ := h.root
    rw [hr] at hr'
    cases hr'
    exact ⟨_, hget, hfields⟩
  child id n hget hid := h.child id n (h.get?_refresh hid ▸ hget) hid
  present m hm := by
    obtain ⟨hne, hold⟩ := h.present m hm
    exact ⟨hne, (congrArg Option.isSome (h.get?_refresh hne)).trans hold⟩
  edges e he := h.edges e (refreshRootStatus_edges ▸ he)

/-- The children of the root are all nodes beside it. -/
theorem Gathers.mem_rootChildren (h : Gathers ns g) {n : GraphNode} :
    n ∈ g.rootChildren ↔ ∃ id, id ≠ rootNodeId ∧ g.nodes.get? id = some n := by
  rw [rootChildren, List.mem_filter, beq_iff_eq, h.rootId, Table.mem_values]
  constructor
  · rintro ⟨⟨id, hget⟩, hparent⟩
    exact ⟨id, (h.leads (.inr ⟨n, hget, hparent⟩)).2, hget⟩
  · rintro ⟨id, hid, hget⟩
    obtain ⟨m, -, -, rfl⟩ := h.child id n hget hid
    exact ⟨⟨id, hget⟩, rfl⟩

end Graph

namespace NodeStatus

/-- A parent has an error exactly if a child has. -/
theorem aggregate_eq_error_iff {children : List NodeStatus} :
    aggregate children = .error ↔ .error ∈ children := by
  unfold aggregate
  by_cases herror : NodeStatus.error ∈ children
  · simp [herror]
  · by_cases hopen : children.any isOpen <;> simp [herror, hopen]

/-- Without an error a parent is open exactly if a child is, and else it is resolved. -/
theorem aggregate_of_no_error {children : List NodeStatus} (h : .error ∉ children) :
    aggregate children = if ∃ s ∈ children, s.isOpen = true then .inProgress else .resolved := by
  unfold aggregate
  rw [if_neg (by simpa using h)]
  simp only [List.any_eq_true]

end NodeStatus

end ProofLedger

import ProofLedger.Proofs.Derivation.Gathering

/-!
# Nodes attached one after the other

A node may be attached under an id that is taken. Then it replaces the node of that id, while its
edge is there already and stays where it is. So the edges follow the first attachments
(`edges_attachAll`) and the nodes the last ones (`get?_attachAll`), and the children of the root
are the same whether they are read off the edges or off the nodes (`mem_attachedChildren`). Both
are inductions on the nodes, the last one being attached last.
-/

namespace ProofLedger.Graph

variable {ns : List GraphNode} {n : GraphNode} {id : String}

/-- A root to which some nodes were attached, one after the other. -/
def attachAll (label : String) (ns : List GraphNode) : Graph :=
  ns.foldl attachToRoot (rootOnly label)

/-- The ids of some nodes, each where it comes first. -/
def idsOf (ns : List GraphNode) : List String := (ns.map (·.nodeId)).eraseDups

/-- The last of some nodes that has an id, as a child of the root. -/
def lastOf? (ns : List GraphNode) (id : String) : Option GraphNode :=
  (ns.reverse.find? (·.nodeId == id)).map GraphNode.underRoot

/-- For each id, in the order of the first attachments, the node that was attached last. -/
def attachedChildren (ns : List GraphNode) : List GraphNode := (idsOf ns).filterMap (lastOf? ns)

-- ── Ids and last nodes ────────────────────────────────────────────────────────

theorem mem_idsOf : id ∈ idsOf ns ↔ ∃ m ∈ ns, m.nodeId = id := by
  rw [idsOf, List.mem_eraseDups, List.mem_map]

theorem idsOf_concat (ns : List GraphNode) (n : GraphNode) : idsOf (ns ++ [n]) =
    if n.nodeId ∈ idsOf ns then idsOf ns else idsOf ns ++ [n.nodeId] := by
  rw [idsOf, List.map_append, List.map_singleton, List.eraseDups_append, ← idsOf]
  by_cases h : n.nodeId ∈ idsOf ns
  · have hknown := mem_idsOf.mp h
    simp [List.removeAll, h, hknown]
  · have hnew := mt mem_idsOf.mpr h
    simp [List.removeAll, List.eraseDups_cons, h, hnew]

theorem nodup_idsOf (ns : List GraphNode) : (idsOf ns).Nodup := by
  induction ns using List.reverseRecOn with
  | nil => exact List.nodup_nil
  | append_singleton ns n ih =>
    rw [idsOf_concat]
    split
    · exact ih
    · next hnew =>
      exact List.nodup_append.mpr ⟨ih, List.nodup_singleton _, fun a ha b hb hab =>
        hnew (List.mem_singleton.mp hb ▸ hab ▸ ha)⟩

theorem lastOf?_concat (ns : List GraphNode) (n : GraphNode) (id : String) :
    lastOf? (ns ++ [n]) id = if n.nodeId = id then some n.underRoot else lastOf? ns id := by
  rw [lastOf?, List.reverse_concat, List.find?_cons]
  by_cases h : n.nodeId = id
  · rw [if_pos h, h, BEq.rfl]
    rfl
  · rw [if_neg h, beq_eq_false_iff_ne.mpr h]
    rfl

/-- The last node of an id is one of the nodes. -/
theorem lastOf?_eq_some (h : lastOf? ns id = some n) :
    ∃ m ∈ ns, m.nodeId = id ∧ n = m.underRoot := by
  obtain ⟨m, hfind, rfl⟩ := Option.map_eq_some_iff.mp h
  have hid := List.find?_some hfind
  exact ⟨m, List.mem_reverse.mp (List.mem_of_find?_eq_some hfind), beq_iff_eq.mp hid, rfl⟩

/-- Every id has a last node. -/
theorem exists_lastOf? (h : id ∈ idsOf ns) : ∃ n, lastOf? ns id = some n ∧ n.nodeId = id := by
  obtain ⟨m, hm, hid⟩ := mem_idsOf.mp h
  cases hlast : lastOf? ns id with
  | none =>
    have hno := List.find?_eq_none.mp (Option.map_eq_none_iff.mp hlast) m (List.mem_reverse.mpr hm)
    exact absurd (beq_iff_eq.mpr hid) hno
  | some n =>
    obtain ⟨m, -, hmid, rfl⟩ := lastOf?_eq_some hlast
    exact ⟨_, rfl, hmid⟩

theorem map_nodeId_attachedChildren (ns : List GraphNode) :
    (attachedChildren ns).map (·.nodeId) = idsOf ns := by
  have hids : ∀ id ∈ idsOf ns, (lastOf? ns id).map (·.nodeId) = some id := by
    intro id hid
    obtain ⟨n, hlast, hn⟩ := exists_lastOf? hid
    rw [hlast, Option.map_some, hn]
  rw [attachedChildren, List.map_filterMap, List.filterMap_congr hids, List.filterMap_some]

-- ── Nodes and edges ───────────────────────────────────────────────────────────

variable (label : String)

theorem attachAll_concat (ns : List GraphNode) (n : GraphNode) :
    attachAll label (ns ++ [n]) = (attachAll label ns).attachToRoot n :=
  List.foldl_concat _ _ _ _

theorem rootId_attachAll (ns : List GraphNode) : (attachAll label ns).rootId = rootNodeId := by
  induction ns using List.reverseRecOn with
  | nil => rfl
  | append_singleton ns n ih =>
    rw [attachAll_concat]
    exact ih

/-- There is one edge for each id, where the id comes first. -/
theorem edges_attachAll (ns : List GraphNode) :
    (attachAll label ns).edges = (idsOf ns).map fun id => ⟨rootNodeId, id⟩ := by
  induction ns using List.reverseRecOn with
  | nil => rfl
  | append_singleton ns n ih =>
    have hknown : (attachAll label ns).edges.contains ⟨rootNodeId, n.nodeId⟩ = true ↔
        n.nodeId ∈ idsOf ns := by
      rw [ih, List.contains_iff_mem, List.mem_map]
      simp
    rw [attachAll_concat, attachToRoot, idsOf_concat]
    simp only [rootId_attachAll, hknown]
    split
    · exact ih
    · rw [ih, List.map_append]
      rfl

/-- Under each id there is the node that was attached last. -/
theorem get?_attachAll (ns : List GraphNode) (hid : id ≠ rootNodeId) :
    (attachAll label ns).nodes.get? id = lastOf? ns id := by
  induction ns using List.reverseRecOn with
  | nil => exact Table.get?_insert_ne _ hid.symm _
  | append_singleton ns n ih =>
    rw [attachAll_concat, attachToRoot, lastOf?_concat, rootId_attachAll]
    by_cases hn : n.nodeId = id
    · subst hn
      rw [if_pos rfl, Table.get?_insert_self]
      rfl
    · rw [if_neg hn, Table.get?_insert_ne _ hn, ih]

/-- The root stays as it is. -/
theorem root?_attachAll (hns : ∀ m ∈ ns, m.nodeId ≠ rootNodeId) :
    (attachAll label ns).root? =
      some { nodeId := rootNodeId, label, kind := .root, status := .resolved } := by
  rw [root?, rootId_attachAll]
  induction ns using List.reverseRecOn with
  | nil => exact Table.get?_insert_self _ _ _
  | append_singleton ns n ih =>
    rw [attachAll_concat, attachToRoot,
      Table.get?_insert_ne _ (hns n (List.mem_append_right _ (List.mem_singleton_self n)))]
    exact ih fun m hm => hns m (List.mem_append_left _ hm)

-- ── Children ──────────────────────────────────────────────────────────────────

variable {label}

/-- The edges lead to the last nodes of the ids. -/
theorem childrenOf_attachAll (hns : ∀ m ∈ ns, m.nodeId ≠ rootNodeId) :
    (attachAll label ns).childrenOf rootNodeId = attachedChildren ns := by
  have hget : ∀ id ∈ idsOf ns, (attachAll label ns).nodes.get? id = lastOf? ns id := by
    intro id hid
    obtain ⟨m, hm, rfl⟩ := mem_idsOf.mp hid
    exact get?_attachAll label ns (hns m hm)
  have hall : ∀ e ∈ (attachAll label ns).edges, (e.source == rootNodeId) = true := by
    intro e he
    rw [edges_attachAll] at he
    obtain ⟨id, -, rfl⟩ := List.mem_map.mp he
    exact BEq.rfl
  rw [childrenOf, List.filter_eq_self.mpr hall, edges_attachAll, List.filterMap_map,
    attachedChildren]
  exact List.filterMap_congr hget

/-- The last nodes of the ids are the nodes whose parent is the root. -/
theorem mem_attachedChildren (hns : ∀ m ∈ ns, m.nodeId ≠ rootNodeId) :
    n ∈ attachedChildren ns ↔
      n ∈ (attachAll label ns).nodes.values ∧ n.parentId = some rootNodeId := by
  have hgathers : Gathers ns (attachAll label ns) := gathers_foldl label hns
  have hchildren := hgathers.mem_rootChildren (n := n)
  rw [rootChildren, List.mem_filter, beq_iff_eq, rootId_attachAll] at hchildren
  rw [hchildren, attachedChildren, List.mem_filterMap]
  constructor
  · rintro ⟨id, hid, hlast⟩
    obtain ⟨m, hm, rfl⟩ := mem_idsOf.mp hid
    exact ⟨m.nodeId, hns m hm, (get?_attachAll label ns (hns m hm)).trans hlast⟩
  · rintro ⟨id, hid, hget⟩
    rw [get?_attachAll label ns hid] at hget
    obtain ⟨m, hm, hmid, -⟩ := lastOf?_eq_some hget
    exact ⟨id, mem_idsOf.mpr ⟨m, hm, hmid⟩, hget⟩

-- ── The status of the root ────────────────────────────────────────────────────

/-- The status that some nodes together give to their parent. -/
theorem aggregate_eq_ite (children : List GraphNode) :
    NodeStatus.aggregate (children.map (·.status)) =
      if ∃ m ∈ children, m.status = .error then .error
      else if ∃ m ∈ children, m.status.isOpen = true then .inProgress
      else .resolved := by
  by_cases herror : ∃ m ∈ children, m.status = .error
  · rw [if_pos herror, NodeStatus.aggregate_eq_error_iff]
    exact List.mem_map.mpr herror
  · rw [if_neg herror, NodeStatus.aggregate_of_no_error (mt List.mem_map.mp herror)]
    simp only [List.mem_map, exists_exists_and_eq_and]

/-- Refreshing the root gives it the status of its children and changes nothing else. -/
theorem refreshRootStatus_attachAll (hns : ∀ m ∈ ns, m.nodeId ≠ rootNodeId) {root : GraphNode}
    (hroot : (attachAll label ns).root? = some root) :
    (attachAll label ns).refreshRootStatus = { attachAll label ns with
      nodes := (attachAll label ns).nodes.insert rootNodeId { root with
        status :=
          if ∃ m ∈ attachedChildren ns, m.status = .error then .error
          else if ∃ m ∈ attachedChildren ns, m.status.isOpen = true then .inProgress
          else .resolved } } := by
  have hchildren : ∀ m, m ∈ (attachAll label ns).rootChildren ↔ m ∈ attachedChildren ns := by
    intro m
    rw [mem_attachedChildren hns, rootChildren, List.mem_filter, beq_iff_eq, rootId_attachAll]
  rw [refreshRootStatus, hroot, aggregate_eq_ite]
  simp only [hchildren, rootId_attachAll]

/-- Nodes attached to a root make a consistent graph. It has one edge for each id, in the order in
    which the ids come first; the children of the root are in that order too, each as it was
    attached last, and they are the nodes whose parent is the root. Refreshing the root gives it
    the status of its children and changes nothing else. -/
theorem attached_in_order (label : String) (ns : List GraphNode)
    (hns : ∀ m ∈ ns, m.nodeId ≠ rootNodeId) :
    let g := attachAll label ns
    let children := g.childrenOf rootNodeId
    g.validated? = some g ∧
      g.edges = (idsOf ns).map (fun id => ⟨rootNodeId, id⟩) ∧
      (children = (idsOf ns).filterMap (lastOf? ns) ∧ children.map (·.nodeId) = idsOf ns ∧
        (idsOf ns).Nodup) ∧
      (∀ n, n ∈ children ↔ n ∈ g.nodes.values ∧ n.parentId = some rootNodeId) ∧
      ∃ root, g.root? = some root ∧ g.refreshRootStatus = { g with
        nodes := g.nodes.insert rootNodeId { root with
          status :=
            if ∃ m ∈ children, m.status = .error then .error
            else if ∃ m ∈ children, m.status.isOpen = true then .inProgress
            else .resolved } } := by
  intro g children
  have hgathers : Gathers ns g := gathers_foldl label hns
  have hconsistent : g.isConsistent = true := isConsistent_iff.mpr hgathers.consistent
  have hchildren : children = attachedChildren ns := childrenOf_attachAll hns
  have hroot := root?_attachAll label hns
  rw [hchildren]
  exact ⟨if_pos hconsistent, edges_attachAll label ns,
    ⟨rfl, map_nodeId_attachedChildren ns, nodup_idsOf ns⟩,
    fun n => mem_attachedChildren hns, _, hroot, refreshRootStatus_attachAll hns hroot⟩

/-- A node that is attached again, with its error mended, after another one. -/
def mendedNodes : List GraphNode :=
  [{ nodeId := "b", label := "first", kind := .theorem_, status := .error },
    { nodeId := "a", label := "second", kind := .lemma_, status := .placeholder },
    { nodeId := "b", label := "mended", kind := .theorem_, status := .resolved }]

/-- The mended node keeps its place, and its error no longer counts. -/
theorem attached_in_order_mendedNodes :
    (∀ m ∈ mendedNodes, m.nodeId ≠ rootNodeId) ∧
      let g := attachAll "Main.lean" mendedNodes
      g.validated? = some g ∧ g.edges = [⟨rootNodeId, "b"⟩, ⟨rootNodeId, "a"⟩] ∧
        (g.childrenOf rootNodeId).map (·.label) = ["mended", "second"] ∧
        g.refreshRootStatus.root?.map (·.status) = some .inProgress := by
  have hns : ∀ m ∈ mendedNodes, m.nodeId ≠ rootNodeId := by decide
  obtain ⟨hvalid, hedges, ⟨hchildren, -⟩, -, root, -, hrefresh⟩ :=
    attached_in_order "Main.lean" mendedNodes hns
  refine ⟨hns, hvalid, hedges.trans (by decide +kernel), ?_, ?_⟩
  · rw [hchildren]
    decide +kernel
  · rw [hrefresh, hchildren, root?, rootId_attachAll, Table.get?_insert_self]
    dsimp only [Option.map_some]
    decide +kernel

end ProofLedger.Graph

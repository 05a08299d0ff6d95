import Mathlib.Data.Set.Finite.List
import Mathlib.Order.WellFounded
import Mathlib.Data.Fintype.Order
import ProofLedger.Graph
import ProofLedger.Proofs.Graph.Search

/-!
# Consistent graphs

The check of a graph (`Graph.isConsistent`) accepts exactly the graphs described by
`Graph.Consistent`. Since such a graph has finitely many nodes and no path along its links
returns to where it began, its nodes can be visited parents first: so only the root can be
without a parent, it is without one, and from every node the parents lead up to it.
-/

namespace ProofLedger.Graph

/-- A parent leads to a child if an edge joins them or if the child says so. -/
def Leads (g : Graph) (parent child : String) : Prop :=
  ⟨parent, child⟩ ∈ g.edges ∨ ∃ n, g.nodes.get? child = some n ∧ n.parentId = some parent

/-- A graph that can be trusted. -/
structure Consistent (g : Graph) : Prop where
  /-- the root exists -/
  root : g.nodes.contains g.rootId = true
  /-- every node is stored under its own id -/
  keyed : ∀ id n, g.nodes.get? id = some n → n.nodeId = id
  /-- only the root may have no parent -/
  parented : ∀ id n, g.nodes.get? id = some n → id ≠ g.rootId → n.parentId ≠ none
  /-- every parent exists -/
  parents : ∀ id n parent, g.nodes.get? id = some n → n.parentId = some parent →
    g.nodes.contains parent = true
  /-- every edge joins nodes that exist -/
  edges : ∀ e ∈ g.edges, g.nodes.contains e.source = true ∧ g.nodes.contains e.target = true
  /-- no path from parents to children returns to where it began -/
  acyclic : ∀ id, ¬ Relation.TransGen g.Leads id id

-- ── The check ─────────────────────────────────────────────────────────────────

theorem nodeFits_iff {g : Graph} {id : String} {n : GraphNode} :
    g.nodeFits id n = true ↔ n.nodeId = id ∧ (id ≠ g.rootId → n.parentId ≠ none) ∧
      ∀ parent, n.parentId = some parent → g.nodes.contains parent = true := by
  rw [nodeFits, Bool.and_eq_true, beq_iff_eq, eq_comm]
  refine and_congr_right fun _ => ?_
  cases n.parentId with
  | none => simp
  | some parent => simp

theorem all_nodeFits_iff {g : Graph} :
    (g.nodes.entries.all fun e => g.nodeFits e.1 e.2) = true ↔
      ∀ id n, g.nodes.get? id = some n → g.nodeFits id n = true := by
  rw [List.all_eq_true]
  constructor
  · intro h id n hget
    exact h (id, n) (Table.mem_entries.mpr hget)
  · rintro h ⟨id, n⟩ hmem
    exact h id n (Table.mem_entries.mp hmem)

/-- The links that are searched are those that lead from parents to children. -/
theorem link_links_iff {g : Graph} (hkeyed : ∀ id n, g.nodes.get? id = some n → n.nodeId = id)
    {parent child : String} : Search.Link g.links parent child ↔ g.Leads parent child := by
  simp only [Search.Link, links, Leads, List.mem_append, List.mem_map, List.mem_filterMap,
    Option.map_eq_some_iff, Prod.mk.injEq]
  refine or_congr ?_ ?_
  · constructor
    · rintro ⟨⟨source, target⟩, hmem, rfl, rfl⟩
      exact hmem
    · intro hmem
      exact ⟨⟨parent, child⟩, hmem, rfl, rfl⟩
  · constructor
    · rintro ⟨n, hmem, p, hp, rfl, rfl⟩
      obtain ⟨id, hget⟩ := Table.mem_values.mp hmem
      exact ⟨n, hkeyed id n hget ▸ hget, hp⟩
    · rintro ⟨n, hget, hp⟩
      exact ⟨n, Table.mem_values.mpr ⟨child, hget⟩, parent, hp, rfl, hkeyed child n hget⟩

/-- With every link between nodes that exist, the search finds a cycle if there is one. -/
theorem findCycle?_eq_none_iff {g : Graph}
    (hkeyed : ∀ id n, g.nodes.get? id = some n → n.nodeId = id)
    (hleads : ∀ parent child, g.Leads parent child → g.nodes.contains parent = true) :
    g.findCycle? = none ↔ ∀ id, ¬ Relation.TransGen g.Leads id id := by
  have hlink : Search.Link g.links = g.Leads := by
    funext parent child
    exact propext (link_links_iff hkeyed)
  rw [findCycle?, Search.run_eq_none_iff, hlink]
  rintro ⟨parent, child⟩ hmem
  exact Table.mem_keys.mpr (hleads parent child ((link_links_iff hkeyed).mp hmem))

/-- The check accepts exactly the consistent graphs. -/
theorem isConsistent_iff {g : Graph} : g.isConsistent = true ↔ g.Consistent := by
  rw [isConsistent, Bool.and_eq_true, Bool.and_eq_true, Bool.and_eq_true, all_nodeFits_iff,
    Option.isNone_iff_eq_none]
  simp only [nodeFits_iff, List.all_eq_true, Bool.and_eq_true]
  constructor
  · rintro ⟨⟨⟨hroot, hnodes⟩, hedges⟩, hcycle⟩
    have hkeyed : ∀ id n, g.nodes.get? id = some n → n.nodeId = id :=
      fun id n hget => (hnodes id n hget).1
    have hparents : ∀ id n parent, g.nodes.get? id = some n → n.parentId = some parent →
        g.nodes.contains parent = true := fun id n parent hget => (hnodes id n hget).2.2 parent
    refine ⟨hroot, hkeyed, fun id n hget => (hnodes id n hget).2.1, hparents, hedges,
      (findCycle?_eq_none_iff hkeyed ?_).mp hcycle⟩
    rintro parent child (hedge | ⟨n, hget, hp⟩)
    · exact (hedges _ hedge).1
    · exact hparents child n parent hget hp
  · intro h
    refine ⟨⟨⟨h.root, fun id n hget => ⟨h.keyed id n hget, h.parented id n hget,
      fun parent => h.parents id n parent hget⟩⟩, h.edges⟩, ?_⟩
    refine (findCycle?_eq_none_iff h.keyed ?_).mpr h.acyclic
    rintro parent child (hedge | ⟨n, hget, hp⟩)
    · exact (h.edges _ hedge).1
    · exact h.parents child n parent hget hp

-- ── The way up ────────────────────────────────────────────────────────────────

/-- The parent of the node of an id. -/
def parentOf? (g : Graph) (id : String) : Option String := (g.nodes.get? id).bind (·.parentId)

/-- What is reached from an id by following so many parents. -/
def ancestor? (g : Graph) : Nat → String → Option String
  | 0, id => some id
  | generations + 1, id => (g.parentOf? id).bind (g.ancestor? generations)

/-- From parents to children the nodes of a consistent graph are well-founded. -/
theorem Consistent.wellFounded {g : Graph} (h : g.Consistent) :
    WellFounded fun a b : {id // id ∈ g.nodes.keys} => g.Leads a.1 b.1 := by
  have hfinite : Finite {id // id ∈ g.nodes.keys} := (List.finite_toSet g.nodes.keys).to_subtype
  let before : {id // id ∈ g.nodes.keys} → {id // id ∈ g.nodes.keys} → Prop :=
    fun a b => Relation.TransGen g.Leads a.1 b.1
  have htrans : IsTrans _ before := ⟨fun _ _ _ => Relation.TransGen.trans⟩
  have hirrefl : Std.Irrefl before := ⟨fun a => h.acyclic a.1⟩
  exact Subrelation.wf (fun hlead => Relation.TransGen.single hlead)
    (Finite.wellFounded_of_trans_of_irrefl before)

theorem parentOf?_eq_some {g : Graph} {id parent : String} :
    g.parentOf? id = some parent ↔ ∃ n, g.nodes.get? id = some n ∧ n.parentId = some parent :=
  Option.bind_eq_some_iff

theorem Consistent.parentOf?_isSome {g : Graph} (h : g.Consistent) {id : String}
    (hid : g.nodes.contains id = true) (hne : id ≠ g.rootId) : ∃ parent,
      g.parentOf? id = some parent ∧ g.nodes.contains parent = true ∧ g.Leads parent id := by
  obtain ⟨n, hget⟩ := Table.contains_iff.mp hid
  obtain ⟨parent, hparent⟩ := Option.ne_none_iff_exists'.mp (h.parented id n hget hne)
  exact ⟨parent, parentOf?_eq_some.mpr ⟨n, hget, hparent⟩, h.parents id n parent hget hparent,
    .inr ⟨n, hget, hparent⟩⟩

/-- The root of a consistent graph has no parent: some node has none, and no other can. -/
theorem Consistent.parentOf?_root {g : Graph} (h : g.Consistent) :
    g.parentOf? g.rootId = none := by
  obtain ⟨⟨first, hmem⟩, -, hfirst⟩ := h.wellFounded.has_min Set.univ
    ⟨⟨g.rootId, Table.mem_keys.mpr h.root⟩, trivial⟩
  have hnone : g.parentOf? first = none := by
    cases hparent : g.parentOf? first with
    | none => rfl
    | some parent =>
      obtain ⟨n, hget, hp⟩ := parentOf?_eq_some.mp hparent
      exact absurd (.inr ⟨n, hget, hp⟩)
        (hfirst ⟨parent, Table.mem_keys.mpr (h.parents first n parent hget hp)⟩ trivial)
  by_cases hroot : first = g.rootId
  · exact hroot ▸ hnone
  · obtain ⟨parent, hparent, -⟩ := h.parentOf?_isSome (Table.mem_keys.mp hmem) hroot
    rw [hnone] at hparent
    cases hparent

/-- From every node of a consistent graph the parents lead to the root. -/
theorem Consistent.exists_ancestor {g : Graph} (h : g.Consistent) (id : {id // id ∈ g.nodes.keys}) :
    ∃ generations, g.ancestor? generations id.1 = some g.rootId := by
  induction id using h.wellFounded.induction with
  | _ id ih =>
    obtain ⟨id, hmem⟩ := id
    by_cases hroot : id = g.rootId
    · exact ⟨0, congrArg some hroot⟩
    · obtain ⟨parent, hparent, hknown, hleads⟩ := h.parentOf?_isSome (Table.mem_keys.mp hmem) hroot
      obtain ⟨generations, hup⟩ := ih ⟨parent, Table.mem_keys.mpr hknown⟩ hleads
      refine ⟨generations + 1, ?_⟩
      change (g.parentOf? id).bind (g.ancestor? generations) = some g.rootId
      rw [hparent]
      exact hup

/-- A graph is validated, unchanged, exactly if it is consistent; the search that decides this
    ends on every graph; and in a validated graph the root has no parent and is reached from
    every node by following parents. -/
theorem validated_iff_consistent (g : Graph) :
    (g.validated? = some g ↔ g.Consistent) ∧ (¬ g.Consistent → g.validated? = none) ∧
      Search.Ends g.links (.ofStarts g.nodes.keys) g.findCycle? ∧
      ∀ g', g.validated? = some g' →
        (∀ root, g'.root? = some root → root.parentId = none) ∧
          ∀ id, g'.nodes.contains id = true →
            ∃ generations, g'.ancestor? generations id = some g'.rootId := by
  have hiff : g.validated? = some g ↔ g.Consistent := by
    rw [← isConsistent_iff, validated?]
    cases g.isConsistent <;> simp
  refine ⟨hiff, fun hno => ?_, Search.ends_run _, fun g' hg' => ?_⟩
  · have hfalse : g.isConsistent = false := by
      rw [← Bool.not_eq_true, isConsistent_iff]
      exact hno
    rw [validated?, hfalse, if_neg Bool.false_ne_true]
  · have hsame : g = g' := by
      rw [validated?] at hg'
      split at hg'
      · exact Option.some.inj hg'
      · cases hg'
    subst hsame
    have h : g.Consistent := hiff.mp hg'
    refine ⟨fun root hroot => ?_, fun id hid => h.exists_ancestor ⟨id, Table.mem_keys.mpr hid⟩⟩
    have hnone := h.parentOf?_root
    rwa [parentOf?, show g.nodes.get? g.rootId = some root from hroot, Option.bind_some] at hnone

end ProofLedger.Graph

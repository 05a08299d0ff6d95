import Mathlib.Logic.Relation
import Mathlib.Data.List.Chain
import ProofLedger.Graph.Search

/-!
# What the search for a cycle finds

The search is right in both directions. If it reports a cycle, the reported nodes form one, since
every visit was begun over a link from the one around it. If it reports none, the nodes whose
visits are over stand in an order in which every link leads to a node whose visit was over
before (`Grounded`), and along such an order no path returns to where it began.

Both follow from one invariant (`Steady`), which is stated with the target that is being looked
at: between steps there is none, and within a step a target that is no longer pending is either
entered or its visit is over.
-/

namespace ProofLedger.Search

variable {links : List (String × String)}

/-- A link leads from one node to another. -/
def Link (links : List (String × String)) (source target : String) : Prop :=
  (source, target) ∈ links

theorem mem_targets {source target : String} :
    target ∈ targets links source ↔ Link links source target := by
  simp only [targets, Link, List.mem_map, List.mem_filter, beq_iff_eq]
  constructor
  · rintro ⟨⟨a, b⟩, ⟨hmem, rfl⟩, rfl⟩
    exact hmem
  · intro hmem
    exact ⟨(source, target), ⟨hmem, rfl⟩, rfl⟩

-- ── Termination ───────────────────────────────────────────────────────────────

/-- A search comes to a verdict after finitely many steps: a cycle, or none. -/
inductive Ends (links : List (String × String)) : Search → Option (List String) → Prop
  | finished {s : Search} : s.step links = .finished → Ends links s none
  | cycle {s : Search} {nodes : List String} :
    s.step links = .cycle nodes → Ends links s (some nodes)
  | going {s t : Search} {verdict : Option (List String)} :
    s.step links = .going t → Ends links t verdict → Ends links s verdict

/-- Every search ends, and with the verdict of its run. -/
theorem ends_run (s : Search) : Ends links s (s.run links) := by
  induction hwork : s.work links using Nat.strongRecOn generalizing s with
  | _ _ ih =>
    subst hwork
    rw [run]
    split
    next t hstep => exact .going hstep (ih _ (work_lt_of_step hstep) t rfl)
    next nodes hstep => exact .cycle hstep
    next hstep => exact .finished hstep

-- ── Cycles ────────────────────────────────────────────────────────────────────

/-- Nodes each linked to the next and the last to the first. -/
def IsCycle (links : List (String × String)) (nodes : List String) : Prop :=
  ∃ first, nodes.head? = some first ∧ (nodes ++ [first]).IsChain (Link links)

theorem transGen_of_isChain {first last : String} {inner : List String}
    (h : (first :: inner ++ [last]).IsChain (Link links)) :
    Relation.TransGen (Link links) first last := by
  induction inner generalizing first with
  | nil => exact .single (List.isChain_cons_cons.mp h).1
  | cons next inner ih =>
    obtain ⟨hlink, hrest⟩ := List.isChain_cons_cons.mp h
    exact .head hlink (ih hrest)

/-- A cycle leads from its first node back to it. -/
theorem IsCycle.transGen {nodes : List String} (h : IsCycle links nodes) :
    ∃ node, Relation.TransGen (Link links) node node := by
  obtain ⟨first, hfirst, hchain⟩ := h
  cases nodes with
  | nil => cases hfirst
  | cons node inner =>
    cases hfirst
    exact ⟨_, transGen_of_isChain hchain⟩

-- ── Visits that are over ──────────────────────────────────────────────────────

/-- Nodes, the last visited first, each of which links only to nodes further on. -/
inductive Grounded (links : List (String × String)) : List String → Prop
  | nil : Grounded links []
  | cons {node : String} {past : List String} :
    node ∉ past → (∀ t, Link links node t → t ∈ past) → Grounded links past →
      Grounded links (node :: past)

/-- No link leads out of grounded nodes. -/
theorem Grounded.closed {past : List String} (h : Grounded links past) {source target : String}
    (hlink : Link links source target) (hsource : source ∈ past) : target ∈ past := by
  induction h with
  | nil => cases hsource
  | cons _ htargets _ ih =>
    rcases List.mem_cons.mp hsource with rfl | hsource
    · exact List.mem_cons_of_mem _ (htargets _ hlink)
    · exact List.mem_cons_of_mem _ (ih hsource)

theorem Grounded.closed_transGen {past : List String} (h : Grounded links past)
    {source target : String} (hpath : Relation.TransGen (Link links) source target)
    (hsource : source ∈ past) : target ∈ past := by
  induction hpath with
  | single hlink => exact h.closed hlink hsource
  | tail _ hlink ih => exact h.closed hlink ih

/-- No path from a grounded node leads back to it. -/
theorem Grounded.irreflexive {past : List String} (h : Grounded links past) {node : String}
    (hnode : node ∈ past) : ¬ Relation.TransGen (Link links) node node := by
  induction h with
  | nil => cases hnode
  | cons hfresh htargets hpast ih =>
    rcases List.mem_cons.mp hnode with rfl | hnode
    · -- the first step leads among the earlier nodes, and there the path stays
      intro hpath
      obtain ⟨next, hlink, hrest⟩ := Relation.TransGen.head'_iff.mp hpath
      have hnext : next ∈ _ := htargets _ hlink
      rcases Relation.reflTransGen_iff_eq_or_transGen.mp hrest with rfl | hrest
      · exact hfresh hnext
      · exact hfresh (hpast.closed_transGen hrest hnext)
    · exact ih hnode

-- ── The invariant ─────────────────────────────────────────────────────────────

/-- What is known of the visits under way when the innermost looks at a target, if it does:
    all targets of their nodes are over, pending or being looked at, and nothing else is pending
    or looked at. Each visit looks at the node of the next inner one. -/
def UnderWay (links : List (String × String)) (past : List String) :
    Option String → List Visit → Prop
  | _, [] => True
  | looked, v :: outer =>
    (∀ t, Link links v.node t → t ∈ past ∨ t ∈ v.pending ∨ looked = some t) ∧
      (∀ t, t ∈ v.pending ∨ looked = some t → Link links v.node t) ∧
      UnderWay links past (some v.node) outer

theorem UnderWay.mono {past past' : List String} (h : past ⊆ past') {looked : Option String}
    {stack : List Visit} (hstack : UnderWay links past looked stack) :
    UnderWay links past' looked stack := by
  induction stack generalizing looked with
  | nil => trivial
  | cons v outer ih =>
    obtain ⟨htargets, hlinks, houter⟩ := hstack
    exact ⟨fun t ht => (htargets t ht).imp (fun hpast => h hpast) id, hlinks, ih houter⟩

/-- Looking at a target whose visit is over, one has it behind. -/
theorem UnderWay.pass {past : List String} {target : String} (h : target ∈ past)
    {stack : List Visit} (hstack : UnderWay links past (some target) stack) :
    UnderWay links past none stack := by
  cases stack with
  | nil => trivial
  | cons v outer =>
    obtain ⟨htargets, hlinks, houter⟩ := hstack
    refine ⟨fun t ht => ?_, fun t ht => hlinks t (ht.imp_right (fun hno => nomatch hno)), houter⟩
    rcases htargets t ht with hpast | hpending | heq
    · exact .inl hpast
    · exact .inr (.inl hpending)
    · exact .inl (Option.some.inj heq ▸ h)

/-- The path from a node under way to the innermost one can be followed, and on to what is
    looked at. -/
theorem UnderWay.isChain {past : List String} {target looked : String} {stack : List Visit}
    (h : UnderWay links past (some looked) stack) (hmem : target ∈ stack.map (·.node)) :
    (cycleFrom target (stack.map (·.node)) ++ [looked]).IsChain (Link links) ∧
      (cycleFrom target (stack.map (·.node))).head? = some target := by
  induction stack generalizing looked with
  | nil => cases hmem
  | cons v outer ih =>
    obtain ⟨-, hlinks, houter⟩ := h
    have hlast : Link links v.node looked := hlinks looked (.inr rfl)
    by_cases hv : v.node = target
    · have hcycle : cycleFrom target ((v :: outer).map (·.node)) = [target] := by
        simp [cycleFrom, hv]
      rw [hcycle]
      exact ⟨List.isChain_pair.mpr (hv ▸ hlast), rfl⟩
    · have hcycle : cycleFrom target ((v :: outer).map (·.node)) =
          cycleFrom target (outer.map (·.node)) ++ [v.node] := by
        simp [cycleFrom, hv]
      have hinner : target ∈ outer.map (·.node) := by
        rcases List.mem_cons.mp hmem with heq | hinner
        · exact absurd heq.symm hv
        · exact hinner
      obtain ⟨hchain, hhead⟩ := ih houter hinner
      rw [hcycle]
      refine ⟨List.IsChain.append hchain (List.isChain_singleton _) ?_, ?_⟩
      · intro x hx y hy
        simp only [List.getLast?_append, List.getLast?_singleton, Option.some_or,
          Option.mem_def, Option.some.injEq, List.head?_cons] at hx hy
        subst hx; subst hy
        exact hlast
      · rw [List.head?_append, hhead, Option.some_or]

theorem UnderWay.look {past : List String} {node target : String} {pending : List String}
    {outer : List Visit} (h : UnderWay links past none (⟨node, target :: pending⟩ :: outer)) :
    UnderWay links past (some target) (⟨node, pending⟩ :: outer) := by
  obtain ⟨htargets, hlinks, houter⟩ := h
  refine ⟨fun t ht => ?_, fun t ht => hlinks t (.inl (List.mem_cons.mpr ?_)), houter⟩
  · rcases htargets t ht with hpast | hpending | hno
    · exact .inl hpast
    · rcases List.mem_cons.mp hpending with rfl | hpending
      · exact .inr (.inr rfl)
      · exact .inr (.inl hpending)
    · cases hno
  · exact ht.symm.imp_left fun heq => (Option.some.inj heq).symm

/-- What holds of a search that has to cover some nodes, when the visits of `past` are over and
    the innermost visit looks at a target or at none. -/
structure Steady (links : List (String × String)) (all past : List String)
    (looked : Option String) (s : Search) : Prop where
  /-- what is over is in order -/
  grounded : Grounded links past
  /-- the stack is a path, with every target accounted for -/
  underWay : UnderWay links past looked s.stack
  /-- no visit is begun twice -/
  nodup : (s.path ++ past).Nodup
  /-- what was visited is under way or over -/
  visited : ∀ n, n ∈ s.visited ↔ n ∈ s.path ∨ n ∈ past
  /-- every node to cover was visited or is still to be started from -/
  covers : ∀ n ∈ all, n ∈ s.visited ∨ n ∈ s.starts

theorem steady_ofStarts (starts : List String) :
    Steady links starts [] none (ofStarts starts) where
  grounded := .nil
  underWay := trivial
  nodup := List.nodup_nil
  visited _ := by simp [ofStarts, path]
  covers _ hn := .inr hn

/-- Whatever is looked at and was not visited can be entered. -/
theorem Steady.enter {all past : List String} {s : Search} {node : String}
    (h : Steady links all past (some node) s) (hfresh : node ∉ s.visited) :
    Steady links all past none (enter links s node) where
  grounded := h.grounded
  underWay := by
    refine ⟨fun t ht => .inr (.inl (mem_targets.mpr ht)), fun t ht => ?_, h.underWay⟩
    rcases ht with hpending | hno
    · exact mem_targets.mp hpending
    · cases hno
  nodup := by
    refine List.nodup_cons.mpr ⟨fun hmem => hfresh ?_, h.nodup⟩
    exact (h.visited node).mpr (List.mem_append.mp hmem)
  visited n := by
    have hold := h.visited n
    simp only [Search.enter, path, List.map_cons, List.mem_cons] at hold ⊢
    rw [hold, or_assoc]
  covers n hn := (h.covers n hn).imp_left (List.mem_cons_of_mem _)

/-- The innermost visit ends when it has no pending targets. -/
theorem Steady.leave {all past : List String} {starts visited : List String} {node : String}
    {outer : List Visit} (h : Steady links all past none ⟨starts, visited, ⟨node, []⟩ :: outer⟩) :
    Steady links all (node :: past) none ⟨starts, visited, outer⟩ := by
  obtain ⟨htargets, -, houter⟩ := h.underWay
  have hperm : (outer.map (·.node) ++ node :: past).Perm
      (node :: outer.map (·.node) ++ past) := List.perm_middle
  have hnodup : (outer.map (·.node) ++ node :: past).Nodup := hperm.nodup_iff.mpr h.nodup
  exact {
    grounded := by
      refine .cons ?_ (fun t ht => ?_) h.grounded
      · exact fun hmem => (List.nodup_cons.mp h.nodup).1 (List.mem_append_right _ hmem)
      · rcases htargets t ht with hpast | hpending | hno
        · exact hpast
        · cases hpending
        · cases hno
    underWay := (houter.mono (List.subset_cons_self _ _)).pass List.mem_cons_self
    nodup := hnodup
    visited := fun n => by
      rw [h.visited n]
      simp only [path, List.map_cons, List.mem_cons]
      tauto
    covers := h.covers }

/-- The innermost visit turns to its next target. -/
theorem Steady.look {all past : List String} {starts visited pending : List String}
    {node target : String} {outer : List Visit}
    (h : Steady links all past none ⟨starts, visited, ⟨node, target :: pending⟩ :: outer⟩) :
    Steady links all past (some target) ⟨starts, visited, ⟨node, pending⟩ :: outer⟩ :=
  ⟨h.grounded, h.underWay.look, h.nodup, h.visited, h.covers⟩

/-- A step keeps the invariant. -/
theorem Steady.step {all past : List String} {s t : Search} (h : Steady links all past none s)
    (hstep : s.step links = .going t) : ∃ past', Steady links all past' none t := by
  cases move_of_step hstep with
  | @skip start starts visited hseen =>
    refine ⟨past, h.grounded, h.underWay, h.nodup, h.visited, fun n hn => ?_⟩
    rcases h.covers n hn with hold | hstart
    · exact .inl hold
    · rcases List.mem_cons.mp hstart with rfl | hstart
      · exact .inl (List.contains_iff_mem.mp hseen)
      · exact .inr hstart
  | @start start starts visited hfresh =>
    -- with no visit under way, a start counts as looked at before it is dropped
    have hlooked : Steady links all past (some start) ⟨start :: starts, visited, []⟩ :=
      ⟨h.grounded, trivial, h.nodup, h.visited, h.covers⟩
    have henter := hlooked.enter (by simpa using hfresh)
    refine ⟨past, henter.grounded, henter.underWay, henter.nodup, henter.visited,
      fun n hn => ?_⟩
    rcases h.covers n hn with hold | hstart
    · exact .inl (List.mem_cons_of_mem _ hold)
    · rcases List.mem_cons.mp hstart with rfl | hstart
      · exact .inl List.mem_cons_self
      · exact .inr hstart
  | leave => exact ⟨_, h.leave⟩
  | descend hfresh => exact ⟨past, h.look.enter (by simpa using hfresh)⟩
  | @pass starts visited pending node target outer hseen hpath =>
    -- what was visited and is not on the path is over
    have hoff : target ∉ path ⟨starts, visited, ⟨node, target :: pending⟩ :: outer⟩ := by
      simpa [path] using hpath
    have hpast : target ∈ past :=
      ((h.visited target).mp (List.contains_iff_mem.mp hseen)).resolve_left hoff
    have hlooked := h.look
    exact ⟨past, hlooked.grounded, hlooked.underWay.pass hpast, hlooked.nodup, hlooked.visited,
      hlooked.covers⟩

-- ── The verdict ───────────────────────────────────────────────────────────────

/-- A search without a verdict of a cycle has grounded all nodes it had to cover. -/
theorem Steady.finished {all past : List String} {s : Search}
    (h : Steady links all past none s) (hstep : s.step links = .finished) : all ⊆ past := by
  obtain ⟨hstack, hstarts⟩ := of_step_finished hstep
  intro n hn
  rcases h.covers n hn with hseen | hstart
  · exact ((h.visited n).mp hseen).resolve_left (by simp [path, hstack])
  · simp [hstarts] at hstart

theorem Steady.cycle {all past : List String} {s : Search} (h : Steady links all past none s)
    {nodes : List String} (hstep : s.step links = .cycle nodes) : IsCycle links nodes := by
  obtain ⟨node, target, pending, outer, hstack, hmem, rfl⟩ := of_step_cycle hstep
  have hunderWay := h.underWay
  rw [hstack] at hunderWay
  rw [path, hstack] at hmem ⊢
  obtain ⟨hchain, hhead⟩ := hunderWay.look.isChain hmem
  exact ⟨target, hhead, hchain⟩

/-- What a verdict claims: that the nodes to cover are grounded, or that some nodes form a
    cycle. -/
def Claim (links : List (String × String)) (all : List String) : Option (List String) → Prop
  | none => ∃ past, Grounded links past ∧ all ⊆ past
  | some nodes => IsCycle links nodes

/-- The verdict of a search is right. -/
theorem Steady.ends {all past : List String} {s : Search} (h : Steady links all past none s)
    {verdict : Option (List String)} (hends : Ends links s verdict) :
    Claim links all verdict := by
  induction hends generalizing past with
  | finished hstep => exact ⟨past, h.grounded, h.finished hstep⟩
  | cycle hstep => exact h.cycle hstep
  | going hstep _ ih =>
    obtain ⟨past', hnext⟩ := h.step hstep
    exact ih hnext

/-- What the search reports is a cycle. -/
theorem isCycle_of_run {starts nodes : List String}
    (h : (ofStarts starts).run links = some nodes) : IsCycle links nodes := by
  have hclaim : Claim links starts ((ofStarts starts).run links) :=
    (steady_ofStarts starts).ends (ends_run (ofStarts starts))
  rwa [h] at hclaim

/-- If the search reports nothing, no start lies on a cycle. -/
theorem irreflexive_of_run {starts : List String} (h : (ofStarts starts).run links = none)
    {node : String} (hnode : node ∈ starts) : ¬ Relation.TransGen (Link links) node node := by
  have hclaim : Claim links starts ((ofStarts starts).run links) :=
    (steady_ofStarts starts).ends (ends_run (ofStarts starts))
  rw [h] at hclaim
  obtain ⟨past, hgrounded, hcovered⟩ := hclaim
  exact hgrounded.irreflexive (hcovered hnode)

/-- A search that starts from every node with a link reports nothing exactly if no path along
    the links returns to where it began. -/
theorem run_eq_none_iff {starts : List String} (hstarts : ∀ l ∈ links, l.1 ∈ starts) :
    (ofStarts starts).run links = none ↔ ∀ node, ¬ Relation.TransGen (Link links) node node := by
  constructor
  · intro hrun node hpath
    obtain ⟨next, hlink, -⟩ := Relation.TransGen.head'_iff.mp hpath
    exact irreflexive_of_run hrun (hstarts _ hlink) hpath
  · intro hacyclic
    cases hrun : (ofStarts starts).run links with
    | none => rfl
    | some nodes =>
      obtain ⟨node, hpath⟩ := (isCycle_of_run hrun).transGen
      exact absurd hpath (hacyclic node)

end ProofLedger.Search

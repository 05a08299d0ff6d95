/-!
# Searching for a cycle

A depth-first search follows links from node to node. Its visits under way form a stack, the
innermost first, and each of them has still to look at some of the targets of its node. A target
that was never visited is entered; one whose visit is under way closes a cycle; one whose visit
is over is passed by. Every step leaves less work than there was (`Search.work_lt_of_step`), so
the search ends whatever the links are.
-/

namespace ProofLedger

/-- A visit under way: a node, and those of its targets that are still to be looked at. -/
structure Visit where
  node : String
  pending : List String
  deriving DecidableEq, Repr

/-- A depth-first search between two steps. -/
structure Search where
  /-- the nodes from which the search has still to start -/
  starts : List String
  /-- the nodes whose visit has begun, over or not -/
  visited : List String
  /-- the visits under way, the innermost first -/
  stack : List Visit
  deriving DecidableEq, Repr

namespace Search

/-- What a step comes to. -/
inductive Step where
  /-- the search goes on -/
  | going (next : Search)
  /-- a cycle was found -/
  | cycle (nodes : List String)
  /-- everything was visited and no cycle was found -/
  | finished
  deriving DecidableEq, Repr

/-- A search that has still to visit everything. -/
def ofStarts (starts : List String) : Search := ⟨starts, [], []⟩

/-- The targets of the links that leave a node, in the order of the links. -/
def targets (links : List (String × String)) (node : String) : List String :=
  (links.filter fun l => l.1 == node).map (·.2)

/-- The nodes whose visits are under way, the innermost first. -/
def path (s : Search) : List String := s.stack.map (·.node)

/-- Begins the visit of a node. -/
def enter (links : List (String × String)) (s : Search) (node : String) : Search :=
  { s with visited := node :: s.visited, stack := ⟨node, targets links node⟩ :: s.stack }

/-- The part of a path from one of its nodes on, in the order in which it was followed. -/
def cycleFrom (node : String) (path : List String) : List String :=
  (path.takeWhile (· != node) ++ [node]).reverse

/-- One step: the innermost visit looks at its next target or ends; without a visit under way
    the search turns to its next start. -/
def step (links : List (String × String)) (s : Search) : Step :=
  match s.stack with
  | [] =>
    match s.starts with
    | [] => .finished
    | start :: starts =>
      if s.visited.contains start then .going { s with starts }
      else .going (enter links { s with starts } start)
  | ⟨_, []⟩ :: outer => .going { s with stack := outer }
  | ⟨node, target :: pending⟩ :: outer =>
    if !s.visited.contains target then
      .going (enter links { s with stack := ⟨node, pending⟩ :: outer } target)
    else if s.path.contains target then .cycle (cycleFrom target s.path)
    else .going { s with stack := ⟨node, pending⟩ :: outer }

/-- The ways in which a search goes on. -/
inductive Move (links : List (String × String)) : Search → Search → Prop
  /-- a start that was visited is dropped -/
  | skip {start : String} {starts visited : List String} :
    visited.contains start = true → Move links ⟨start :: starts, visited, []⟩ ⟨starts, visited, []⟩
  /-- a start is entered -/
  | start {start : String} {starts visited : List String} :
    visited.contains start = false →
      Move links ⟨start :: starts, visited, []⟩ (enter links ⟨starts, visited, []⟩ start)
  /-- a visit without pending targets ends -/
  | leave {starts visited : List String} {node : String} {outer : List Visit} :
    Move links ⟨starts, visited, ⟨node, []⟩ :: outer⟩ ⟨starts, visited, outer⟩
  /-- a target is entered -/
  | descend {starts visited pending : List String} {node target : String} {outer : List Visit} :
    visited.contains target = false →
      Move links ⟨starts, visited, ⟨node, target :: pending⟩ :: outer⟩
        (enter links ⟨starts, visited, ⟨node, pending⟩ :: outer⟩ target)
  /-- a target whose visit is over is passed by -/
  | pass {starts visited pending : List String} {node target : String} {outer : List Visit} :
    visited.contains target = true → (node :: outer.map (·.node)).contains target = false →
      Move links ⟨starts, visited, ⟨node, target :: pending⟩ :: outer⟩
        ⟨starts, visited, ⟨node, pending⟩ :: outer⟩

theorem move_of_step {links : List (String × String)} {s t : Search}
    (h : s.step links = .going t) : Move links s t := by
  obtain ⟨starts, visited, stack⟩ := s
  match stack, starts with
  | [], [] => cases h
  | [], start :: starts =>
    cases hseen : visited.contains start with
    | true =>
      simp only [step, hseen, if_true, Step.going.injEq] at h
      exact h ▸ .skip hseen
    | false =>
      simp only [step, hseen, Bool.false_eq_true, if_false, Step.going.injEq] at h
      exact h ▸ .start hseen
  | ⟨node, []⟩ :: outer, starts =>
    cases h
    exact .leave
  | ⟨node, target :: pending⟩ :: outer, starts =>
    cases hseen : visited.contains target with
    | true =>
      simp only [step, path, List.map_cons, hseen, Bool.not_true, Bool.false_eq_true,
        if_false] at h
      cases hpath : (node :: outer.map (·.node)).contains target with
      | true => simp only [hpath, if_true, reduceCtorEq] at h
      | false =>
        simp only [hpath, Bool.false_eq_true, if_false, Step.going.injEq] at h
        exact h ▸ .pass hseen hpath
    | false =>
      simp only [step, hseen, Bool.not_false, if_true, Step.going.injEq] at h
      exact h ▸ .descend hseen

/-- A search that is finished has no visit under way and no start left. -/
theorem of_step_finished {links : List (String × String)} {s : Search}
    (h : s.step links = .finished) : s.stack = [] ∧ s.starts = [] := by
  obtain ⟨starts, visited, stack⟩ := s
  match stack, starts with
  | [], [] => exact ⟨rfl, rfl⟩
  | [], start :: starts => simp only [step] at h; split at h <;> cases h
  | ⟨node, []⟩ :: outer, starts => cases h
  | ⟨node, target :: pending⟩ :: outer, starts =>
    simp only [step] at h
    split at h
    · cases h
    · split at h <;> cases h

/-- A cycle is found when the innermost visit looks at a node whose visit is under way. -/
theorem of_step_cycle {links : List (String × String)} {s : Search} {nodes : List String}
    (h : s.step links = .cycle nodes) :
    ∃ node target pending outer, s.stack = ⟨node, target :: pending⟩ :: outer ∧
      target ∈ s.path ∧ nodes = cycleFrom target s.path := by
  obtain ⟨starts, visited, stack⟩ := s
  match stack, starts with
  | [], [] => cases h
  | [], start :: starts => simp only [step] at h; split at h <;> cases h
  | ⟨node, []⟩ :: outer, starts => cases h
  | ⟨node, target :: pending⟩ :: outer, starts =>
    refine ⟨node, target, pending, outer, rfl, ?_⟩
    simp only [step] at h
    split at h
    · cases h
    · split at h
      next hpath => exact ⟨List.contains_iff_mem.mp hpath, (Step.cycle.inj h).symm⟩
      next => cases h

-- ── Termination ───────────────────────────────────────────────────────────────

/-- The links that no visit has opened yet. -/
def unopened (links : List (String × String)) (visited : List String) : List (String × String) :=
  links.filter fun l => !visited.contains l.1

/-- What the visits under way have left to do: each has to end, and each pending target counts
    twice, since it may still begin a visit. -/
def stackWork : List Visit → Nat
  | [] => 0
  | v :: outer => 1 + 2 * v.pending.length + stackWork outer

/-- What is left to do: every start and every link that is not opened counts like a pending
    target. -/
def work (links : List (String × String)) (s : Search) : Nat :=
  2 * s.starts.length + stackWork s.stack + 2 * (unopened links s.visited).length

/-- To begin a visit opens exactly the links that leave its node. -/
theorem length_unopened {links : List (String × String)} {visited : List String} {node : String}
    (h : visited.contains node = false) :
    (unopened links visited).length =
      (targets links node).length + (unopened links (node :: visited)).length := by
  induction links with
  | nil => rfl
  | cons link rest ih =>
    simp only [unopened, targets, List.length_map, List.filter_cons, List.contains_cons] at ih ⊢
    cases hnode : link.1 == node with
    | true =>
      have hfresh : visited.contains link.1 = false := by rw [eq_of_beq hnode]; exact h
      simp only [hfresh, Bool.or_false, Bool.not_true, Bool.not_false, if_true,
        Bool.false_eq_true, if_false, List.length_cons]
      omega
    | false =>
      cases hseen : visited.contains link.1 with
      | true => simpa [hseen] using ih
      | false =>
        simp only [Bool.or_false, Bool.not_false, if_true, Bool.false_eq_true, if_false,
          List.length_cons]
        omega

/-- A visit that begins is one more thing to do: its pending targets were counted as links. -/
theorem work_enter {links : List (String × String)} {s : Search} {node : String}
    (h : s.visited.contains node = false) :
    (enter links s node).work links = s.work links + 1 := by
  have hlinks : (unopened links s.visited).length = _ := length_unopened h
  simp only [work, enter, stackWork]
  omega

/-- Every step leaves less to do. -/
theorem work_lt_of_step {links : List (String × String)} {s t : Search}
    (h : s.step links = .going t) : t.work links < s.work links := by
  cases move_of_step h with
  | skip _ =>
    simp only [work, List.length_cons]
    omega
  | start hfresh =>
    rw [work_enter hfresh]
    simp only [work, List.length_cons]
    omega
  | leave =>
    simp only [work, stackWork, List.length_nil]
    omega
  | descend hfresh =>
    rw [work_enter hfresh]
    simp only [work, stackWork, List.length_cons]
    omega
  | pass _ _ =>
    simp only [work, stackWork, List.length_cons]
    omega

/-- Takes steps until the search ends: the cycle found, if any. -/
def run (links : List (String × String)) (s : Search) : Option (List String) :=
  match _h : s.step links with
  | .going t => run links t
  | .cycle nodes => some nodes
  | .finished => none
termination_by s.work links
decreasing_by exact work_lt_of_step _h

end Search

end ProofLedger

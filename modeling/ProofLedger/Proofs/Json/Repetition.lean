import ProofLedger.Proofs.Json.Fields
import ProofLedger.Proofs.Json.Record

/-!
# Patches applied twice

To apply a list of patches twice is the same as to apply it once, whatever paths they have. That
does not follow from each patch being so by itself; it is shown on the way down from the root. If
some patch of the list replaces what it finds, then what was there before does not matter for the
outcome. If none does, then after the first time there is all that the patches need: the second
time finds the same shape, and on each field acts a list of patches with shorter paths
(`reach_below_lt`), for which the claim holds by induction.
-/

namespace ProofLedger.Patch

open Json

/-- How far down a patch acts: to the end of its path, or on the fields there if it merges. -/
def reach (p : Patch) : Nat := p.path.length + if p.op = .merge then 1 else 0

variable {patches : List Patch} {found : Option Json}

/-- Below the start of a path there is less to do. -/
theorem reach_below_lt {p q : Patch} {key : String} (hkeeps : p.replaces = false)
    (hq : p.below key = some q) : q.reach < p.reach := by
  rcases cases_of_not_replaces hkeeps with ⟨k, rest, hpath⟩ | ⟨hop, hpath, -⟩
  · obtain ⟨op, path, value⟩ := p
    obtain rfl : path = k :: rest := hpath
    by_cases hk : k = key
    · rw [below_cons, if_pos hk] at hq
      obtain rfl := Option.some.inj hq
      exact Nat.add_lt_add_right (Nat.lt_succ_self rest.length) _
    · rw [below_cons, if_neg hk] at hq
      cases hq
  · obtain ⟨op, path, value⟩ := p
    obtain rfl : op = .merge := hop
    obtain rfl : path = [] := hpath
    obtain ⟨w, -, rfl⟩ := Option.map_eq_some_iff.mp hq
    exact Nat.zero_lt_one

/-- A patch that replaces what it finds makes the outcome independent of what was there. -/
theorem actAll_of_replaces {p : Patch} (hp : p ∈ patches) (h : p.replaces = true)
    (found other : Option Json) : actAll patches found = actAll patches other := by
  obtain ⟨before, after, rfl⟩ := List.append_of_mem hp
  rw [actAll_append, actAll_append, actAll_cons, actAll_cons,
    act_of_replaces h (actAll before found) (actAll before other)]

-- ── Patches that keep what they find ──────────────────────────────────────────

section Keeping

variable (hkeeps : ∀ p ∈ patches, p.replaces = false)

include hkeeps

theorem shape_le_actAll (found : Option Json) : shape found ≤ shape (actAll patches found) := by
  induction patches generalizing found with
  | nil => exact Nat.le_refl _
  | cons p rest ih =>
    obtain ⟨hfirst, hrest⟩ := List.forall_mem_cons.mp hkeeps
    calc shape found ≤ shape (p.act found) := by
          rw [shape_act hfirst]
          exact Nat.le_max_left _ _
      _ ≤ shape (actAll (p :: rest) found) := ih hrest (p.act found)

/-- Afterwards there is all that the patches need. -/
theorem demand_le_actAll (found : Option Json) :
    ∀ p ∈ patches, p.demand ≤ shape (actAll patches found) := by
  induction patches generalizing found with
  | nil => exact List.forall_mem_nil _
  | cons p rest ih =>
    obtain ⟨hfirst, hrest⟩ := List.forall_mem_cons.mp hkeeps
    refine List.forall_mem_cons.mpr ⟨?_, ih hrest (p.act found)⟩
    calc p.demand ≤ shape (p.act found) := by
          rw [shape_act hfirst]
          exact Nat.le_max_right _ _
      _ ≤ shape (actAll (p :: rest) found) := shape_le_actAll hrest (p.act found)

/-- Where there is all that they need and no object, they change nothing. -/
theorem actAll_of_demand_le (hdemand : ∀ p ∈ patches, p.demand ≤ shape found)
    (hshape : shape found ≠ 2) : actAll patches found = found := by
  induction patches with
  | nil => rfl
  | cons p rest ih =>
    obtain ⟨hfirst, hrest⟩ := List.forall_mem_cons.mp hkeeps
    obtain ⟨hown, hothers⟩ := List.forall_mem_cons.mp hdemand
    rw [actAll_cons, act_of_demand_le hfirst hown hshape]
    exact ih hrest hothers

end Keeping

-- ── Twice ─────────────────────────────────────────────────────────────────────

/-- Patches that reach less than some way down do nothing more the second time. -/
theorem actAll_actAll_of_reach (bound : Nat) (hreach : ∀ p ∈ patches, p.reach < bound)
    (hp : ∀ p ∈ patches, p.WellFormed) (h : WellFormedAt found) :
    actAll patches (actAll patches found) = actAll patches found := by
  induction bound generalizing patches found with
  | zero =>
    cases patches with
    | nil => rfl
    | cons p rest => exact absurd (hreach p List.mem_cons_self) (Nat.not_lt_zero _)
  | succ bound ih =>
    by_cases hreplaces : ∃ p ∈ patches, p.replaces = true
    · obtain ⟨p, hmem, hreplaces⟩ := hreplaces
      exact actAll_of_replaces hmem hreplaces _ _
    · have hkeeps : ∀ p ∈ patches, p.replaces = false := by
        intro p hmem
        rw [← Bool.not_eq_true]
        exact fun hreplace => hreplaces ⟨p, hmem, hreplace⟩
      have hdemand := demand_le_actAll hkeeps found
      have honce := wellFormedAt_actAll hp h
      by_cases hobject : shape (actAll patches found) = 2
      · have hagain : shape (actAll patches (actAll patches found)) = 2 := by
          have hle := shape_le_actAll hkeeps (actAll patches found)
          have htwo := shape_le_two (actAll patches (actAll patches found))
          omega
        refine eq_of_field?_eq (wellFormedAt_actAll hp honce) honce hagain hobject fun key => ?_
        rw [field?_actAll hkeeps hp, field?_actAll hkeeps hp]
        -- the induction hypothesis, for what the patches do to this field
        refine ih ?_ ?_ (h.field? key)
        · intro q hq
          obtain ⟨p, hmem, hbelow⟩ := List.mem_filterMap.mp hq
          have hlt := reach_below_lt (hkeeps p hmem) hbelow
          have hle := Nat.le_of_lt_succ (hreach p hmem)
          omega
        · intro q hq
          obtain ⟨p, hmem, hbelow⟩ := List.mem_filterMap.mp hq
          exact wellFormed_below (hp p hmem) hbelow
      · exact actAll_of_demand_le hkeeps hdemand hobject

theorem actAll_actAll (hp : ∀ p ∈ patches, p.WellFormed) (h : WellFormedAt found) :
    actAll patches (actAll patches found) = actAll patches found := by
  obtain ⟨bound, hbound⟩ : ∃ bound, ∀ p ∈ patches, p.reach < bound := by
    refine ⟨(patches.map reach).max?.getD 0 + 1, fun p hmem => ?_⟩
    exact Nat.lt_succ_of_le (List.le_max?_getD_of_mem (List.mem_map_of_mem hmem))
  exact actAll_actAll_of_reach bound hbound hp h

/-- Applying patches twice is the same as applying them once. -/
theorem applyAll_applyAll {tree : Json} (h : tree.WellFormed)
    (hp : ∀ p ∈ patches, p.WellFormed) :
    applyAll patches (applyAll patches tree) = applyAll patches tree := by
  have htree : WellFormedAt (some tree) := fun v hv => Option.some.inj hv ▸ h
  -- what the patches leave of the tree, and `null` where they leave nothing
  have hroot : applyAll patches tree = (actAll patches (some tree)).getD .null :=
    (getD_actAll patches (some tree)).symm
  calc applyAll patches (applyAll patches tree)
      = applyAll patches ((actAll patches (some tree)).getD .null) := by rw [hroot]
    _ = (actAll patches (actAll patches (some tree))).getD .null := (getD_actAll _ _).symm
    _ = (actAll patches (some tree)).getD .null := by rw [actAll_actAll hp htree]
    _ = applyAll patches tree := hroot.symm

/-- Patches in each other's way: one makes the object that the next one replaces, one removes what
    the next one looks for, and the last one finds a number that an earlier one has put there. -/
theorem applyAll_applyAll_entangled :
    let tree : Json := .ofFields [("a", .int 1), ("b", .ofFields [("c", .bool true)])]
    let patches := [unset ["b", "c"], set ["a", "x", "y"] (.int 2), merge ["a"] (.string "s"),
      merge [] (.ofFields [("b", .int 3), ("d", .null)]), ⟨.merge, ["b", "c"], none⟩,
      unset ["a", "x"], unset ["d"], set ["b", "c", "e"] (.int 4)]
    (tree.WellFormed ∧ ∀ p ∈ patches, p.WellFormed) ∧
      applyAll patches (applyAll patches tree) = applyAll patches tree := by
  intro tree patches
  have htree : tree.WellFormed := by
    refine .ofFields ?_
    simp [Json.WellFormed.int, Json.WellFormed.bool, Json.WellFormed.ofFields]
  have hincoming : (Json.ofFields [("b", .int 3), ("d", .null)]).WellFormed := by
    refine .ofFields ?_
    simp [Json.WellFormed.int, Json.WellFormed.null]
  have hpatches : ∀ p ∈ patches, p.WellFormed := by
    simp only [patches, List.forall_mem_cons]
    exact ⟨wellFormed_unset _, wellFormed_set _ (.int 2), wellFormed_merge _ (.string "s"),
      wellFormed_merge _ hincoming, nofun, wellFormed_unset _, wellFormed_unset _,
      wellFormed_set _ (.int 4), List.forall_mem_nil _⟩
  exact ⟨⟨htree, hpatches⟩, applyAll_applyAll htree hpatches⟩

end ProofLedger.Patch

import ProofLedger.Proofs.Json.Fields
import ProofLedger.Proofs.Json.Record

/-!
# Independent patches commute

What a patch does to a tree is told by its own path (`ActsAtPath`): nothing changes at any path
apart from it, and at the path itself is the new value, the union with the old object, or nothing.
Two patches at paths apart from each other then commute (`act_comm`). The tree is the same as a
whole and not only at the two paths, since the objects that a patch creates on its way are the
same whether the other patch came first or not.
-/

namespace ProofLedger

namespace Json

/-- To store again what is stored already changes nothing. -/
theorem insert_eq_self {fs : List (String × Json)} (h : Keyed.Sorted fs) {key : String}
    {v : Json} (hv : Keyed.find? key fs = some v) : Keyed.insert key v fs = fs := by
  refine Keyed.eq_of_find?_eq (h.insert key v) h fun other => ?_
  by_cases hk : key = other
  · subst hk
    rw [Keyed.find?_insert_self, hv]
  · exact Keyed.find?_insert_ne hk v fs

theorem WellFormed.getAt? {v w : Json} (h : v.WellFormed) {p : Path}
    (hw : Json.getAt? p v = some w) : w.WellFormed := by
  induction p generalizing v with
  | nil => exact Option.some.inj hw ▸ h
  | cons key rest ih =>
    obtain ⟨child, hchild, hrest⟩ := Option.bind_eq_some_iff.mp hw
    exact ih (h.get? hchild) hrest

/-- Nothing is left where a value was removed. -/
theorem getAt?_removeAt_self {p : Path} (hp : p ≠ []) (v : Json) :
    getAt? p (removeAt p v) = none := by
  induction p generalizing v with
  | nil => exact absurd rfl hp
  | cons key rest ih =>
    show ((removeAt (key :: rest) v).get? key).bind (getAt? rest) = none
    cases rest with
    | nil =>
      rw [get?_removeAt_singleton_self]
      rfl
    | cons next rest =>
      rw [get?_removeAt_self, Option.bind_map]
      exact Option.bind_eq_none_iff.mpr fun w _ => ih (List.cons_ne_nil next rest) w

/-- To remove what is not there changes nothing. -/
theorem removeAt_eq_self {v : Json} (h : v.WellFormed) {p : Path} (hnone : getAt? p v = none) :
    removeAt p v = v := by
  induction p generalizing v with
  | nil => cases hnone
  | cons key rest ih =>
    have hbelow : (v.get? key).bind (getAt? rest) = none := hnone
    cases v with
    | object fs =>
      cases rest with
      | nil =>
        have hkey : Keyed.find? key fs = none := by
          cases hw : Keyed.find? key fs with
          | none => rfl
          | some w =>
            rw [show (object fs).get? key = some w from hw] at hbelow
            cases hbelow
        exact congrArg object (Keyed.erase_eq_self hkey)
      | cons next rest =>
        cases hw : Keyed.find? key fs with
        | none => rw [removeAt_none hw]
        | some w =>
          have hchild : (object fs).get? key = some w := hw
          rw [hchild] at hbelow
          have hsorted : Keyed.Sorted fs := h.sorted
          rw [removeAt_some hw, ih (h.get? hchild) hbelow, insert_eq_self hsorted hw]
    | _ => cases rest <;> rfl

/-- An object laid over a value is the union with the fields of the value. -/
theorem mergeWith_object (new : List (String × Json)) (v : Json) :
    mergeWith (some (object new)) v = object (Keyed.merge v.fields new) := by
  cases v <;> rfl

end Json

namespace Patch

open Json

/-- What a patch does to a tree, told by what is found there. -/
structure ActsAtPath (p : Patch) (tree : Json) : Prop where
  /-- at every path apart from that of the patch is what was there before -/
  elsewhere : ∀ q, Path.Apart p.path q → (p.apply tree).getAt? q = tree.getAt? q
  /-- setting leaves the value of the patch, `null` if it has none -/
  set : p.op = .set → (p.apply tree).getAt? p.path = some (p.value.getD .null)
  /-- merging an object leaves the object that was there, if any, with the new fields -/
  merge : ∀ incoming, p.op = .merge → p.value = some (.object incoming) →
    ∃ merged, (p.apply tree).getAt? p.path = some (.object merged) ∧ Keyed.Sorted merged ∧
      ∀ key, Keyed.find? key merged =
        (Keyed.find? key incoming).or (((tree.getAt? p.path).getD .null).get? key)
  /-- unsetting leaves nothing -/
  unset : p.op = .unset → p.path ≠ [] → (p.apply tree).getAt? p.path = none
  /-- unsetting what is not there leaves the whole tree -/
  absent : p.op = .unset → tree.getAt? p.path = none → p.apply tree = tree

variable {p q : Patch} {tree : Json}

theorem actsAtPath (hp : p.WellFormed) (h : tree.WellFormed) : p.ActsAtPath tree where
  elsewhere _ hapart := getAt?_apply_of_apart hapart tree
  set hop := by
    obtain ⟨op, path, value⟩ := p
    obtain rfl : op = .set := hop
    exact getAt?_alterAt_self _ path tree
  merge incoming hop hvalue := by
    obtain ⟨op, path, value⟩ := p
    obtain rfl : op = .merge := hop
    obtain rfl : value = some (.object incoming) := hvalue
    have hnew : Keyed.Sorted incoming := (hp _ rfl).sorted
    have hold : ((tree.getAt? path).getD .null).WellFormed := by
      cases hw : tree.getAt? path with
      | none => exact .null
      | some w => exact h.getAt? hw
    have hfound := getAt?_alterAt_self (mergeWith (some (.object incoming))) path tree
    rw [mergeWith_object] at hfound
    refine ⟨_, hfound, hold.sorted.merge incoming, fun key => ?_⟩
    rw [Keyed.find?_merge hnew.nodup, ← get?_eq]
  unset hop hne := by
    obtain ⟨op, path, value⟩ := p
    obtain rfl : op = .unset := hop
    exact getAt?_removeAt_self hne tree
  absent hop hnone := by
    obtain ⟨op, path, value⟩ := p
    obtain rfl : op = .unset := hop
    exact removeAt_eq_self h hnone

-- ── Order ─────────────────────────────────────────────────────────────────────

theorem demand_cons (op : PatchOp) (key : String) (rest : Path) (value : Option Json) :
    demand ⟨op, key :: rest, value⟩ = if op = .unset then 0 else 2 := by
  cases op <;> rfl

/-- A patch with a longer path has changed nothing where it leaves no object. -/
theorem act_cons_eq_self {op : PatchOp} {key : String} {rest : Path} {value found : Option Json}
    (h : shape (act ⟨op, key :: rest, value⟩ found) ≠ 2) :
    act ⟨op, key :: rest, value⟩ found = found := by
  have hle := shape_le_two found
  rw [shape_act rfl, demand_cons] at h
  by_cases hop : op = .unset
  · subst hop
    rw [if_pos rfl, Nat.max_zero] at h
    exact act_of_demand_le rfl (Nat.zero_le _) h
  · rw [if_neg hop] at h
    exact absurd (Nat.max_eq_right hle) h

/-- Patches apart from each other commute, wherever their paths start. -/
theorem act_comm (hapart : Path.Apart p.path q.path) (hp : p.WellFormed) (hq : q.WellFormed)
    {found : Option Json} (h : WellFormedAt found) :
    p.act (q.act found) = q.act (p.act found) := by
  obtain ⟨op, path, value⟩ := p
  obtain ⟨op', path', value'⟩ := q
  -- on the path of the first patch, as long as the second goes the same way
  induction path generalizing path' found with
  | nil => exact absurd hapart (Path.not_nil_apart path')
  | cons key rest ih =>
    cases path' with
    | nil => exact absurd hapart (Path.not_apart_nil _)
    | cons other tail =>
      have hshape : shape (act ⟨op, key :: rest, value⟩ (act ⟨op', other :: tail, value'⟩ found)) =
          shape (act ⟨op', other :: tail, value'⟩ (act ⟨op, key :: rest, value⟩ found)) := by
        rw [shape_act rfl, shape_act rfl, shape_act rfl, shape_act rfl]
        omega
      by_cases hobject :
          shape (act ⟨op, key :: rest, value⟩ (act ⟨op', other :: tail, value'⟩ found)) = 2
      · refine eq_of_field?_eq (wellFormedAt_act hp (wellFormedAt_act hq h))
          (wellFormedAt_act hq (wellFormedAt_act hp h)) hobject (hshape.symm.trans hobject)
          fun name => ?_
        by_cases hkey : key = name
        · subst hkey
          by_cases hother : other = key
          · subst hother
            rw [field?_act_cons, field?_act_cons, field?_act_cons, field?_act_cons]
            exact ih (h.field? other) hp tail hq (Path.apart_cons_iff.mp hapart rfl)
          · rw [field?_act_cons, field?_act_cons_ne hother, field?_act_cons_ne hother,
              field?_act_cons]
        · rw [field?_act_cons_ne hkey]
          by_cases hother : other = name
          · subst hother
            rw [field?_act_cons, field?_act_cons, field?_act_cons_ne hkey]
          · rw [field?_act_cons_ne hother, field?_act_cons_ne hother, field?_act_cons_ne hkey]
      · have hplain := hshape ▸ hobject
        have hfirst := act_cons_eq_self hobject
        have hsecond := act_cons_eq_self hplain
        rw [hfirst] at hobject ⊢
        rw [hsecond] at hplain ⊢
        exact (act_cons_eq_self hobject).trans (act_cons_eq_self hplain).symm

theorem apply_comm (hapart : Path.Apart p.path q.path) (hp : p.WellFormed) (hq : q.WellFormed)
    (h : tree.WellFormed) : p.apply (q.apply tree) = q.apply (p.apply tree) := by
  have htree : WellFormedAt (some tree) := fun v hv => Option.some.inj hv ▸ h
  have hcomm := congrArg (fun found => found.getD .null) (act_comm hapart hp hq htree)
  rwa [getD_act, getD_act, getD_act, getD_act] at hcomm

/-- A patch apart from all others may as well come after them. -/
theorem apply_applyAll_comm {patches : List Patch} (hp : p.WellFormed)
    (hpatches : ∀ q ∈ patches, q.WellFormed) (hapart : ∀ q ∈ patches, Path.Apart p.path q.path)
    (h : tree.WellFormed) :
    applyAll patches (p.apply tree) = p.apply (applyAll patches tree) := by
  induction patches generalizing tree with
  | nil => rfl
  | cons q rest ih =>
    obtain ⟨hq, hrest⟩ := List.forall_mem_cons.mp hpatches
    obtain ⟨hfirst, hothers⟩ := List.forall_mem_cons.mp hapart
    rw [applyAll_cons, ← apply_comm hfirst hp hq h, ih hrest hothers (wellFormed_apply hq h),
      applyAll_cons]

theorem applyAll_comm {first second : List Patch} (hfirst : ∀ p ∈ first, p.WellFormed)
    (hsecond : ∀ q ∈ second, q.WellFormed)
    (hapart : ∀ p ∈ first, ∀ q ∈ second, Path.Apart p.path q.path) (h : tree.WellFormed) :
    applyAll second (applyAll first tree) = applyAll first (applyAll second tree) := by
  induction first generalizing tree with
  | nil => rfl
  | cons p rest ih =>
    obtain ⟨hp, hrest⟩ := List.forall_mem_cons.mp hfirst
    obtain ⟨hown, hothers⟩ := List.forall_mem_cons.mp hapart
    rw [applyAll_cons, ih hrest hothers (wellFormed_apply hp h),
      apply_applyAll_comm hp hsecond hown h, applyAll_cons]

/-- A patch acts at its path only. Lists of patches may be applied in either order, if every path
    of one is apart from every path of the other. -/
theorem acts_locally_and_commutes (h : tree.WellFormed) :
    (∀ p : Patch, p.WellFormed → p.ActsAtPath tree) ∧
    ∀ first second : List Patch, (∀ p ∈ first, p.WellFormed) → (∀ q ∈ second, q.WellFormed) →
      (∀ p ∈ first, ∀ q ∈ second, Path.Apart p.path q.path) →
      applyAll second (applyAll first tree) = applyAll first (applyAll second tree) := by
  constructor
  · intro p hp
    exact actsAtPath hp h
  · intro first second hfirst hsecond hapart
    exact applyAll_comm hfirst hsecond hapart h

instance (p q : Path) : Decidable (Path.Apart p q) := inferInstanceAs (Decidable (_ ∧ _))

/-- A tree with a number and a list where a path may want to go on. -/
def mixedTree : Json :=
  .ofFields [("count", .int 5),
    ("rest", .ofFields [("items", .ofList .int [1, 2]), ("left", .bool true)])]

theorem wellFormed_mixedTree : mixedTree.WellFormed := by
  refine .ofFields ?_
  simp [Json.WellFormed.int, Json.WellFormed.bool, Json.WellFormed.ofFields,
    Json.WellFormed.ofList]

/-- Patches of every kind, through the number and through the list, and past what is not there. -/
theorem acts_locally_and_commutes_mixedTree :
    let first := [set ["count", "to"] (.int 1), unset ["rest", "left"],
      merge ["rest", "items", "first"] (.ofFields [("value", .null)])]
    let second := [⟨.merge, ["count", "by"], none⟩, unset ["rest", "gone", "too"],
      set ["name"] (.string "m")]
    (mixedTree.WellFormed ∧ (∀ p ∈ first, p.WellFormed) ∧ (∀ q ∈ second, q.WellFormed) ∧
      ∀ p ∈ first, ∀ q ∈ second, Path.Apart p.path q.path) ∧
    (∀ p ∈ first, p.ActsAtPath mixedTree) ∧
    applyAll second (applyAll first mixedTree) = applyAll first (applyAll second mixedTree) := by
  intro first second
  have hfirst : ∀ p ∈ first, p.WellFormed := by
    have hfields : (Json.ofFields [("value", .null)]).WellFormed :=
      .ofFields (List.forall_mem_singleton.mpr .null)
    simp only [first, List.forall_mem_cons]
    exact ⟨wellFormed_set _ (.int 1), wellFormed_unset _, wellFormed_merge _ hfields,
      List.forall_mem_nil _⟩
  have hsecond : ∀ q ∈ second, q.WellFormed := by
    simp only [second, List.forall_mem_cons]
    exact ⟨nofun, wellFormed_unset _, wellFormed_set _ (.string "m"), List.forall_mem_nil _⟩
  have hapart : ∀ p ∈ first, ∀ q ∈ second, Path.Apart p.path q.path := by decide
  obtain ⟨hacts, hcommutes⟩ := acts_locally_and_commutes wellFormed_mixedTree
  exact ⟨⟨wellFormed_mixedTree, hfirst, hsecond, hapart⟩, fun p hp => hacts p (hfirst p hp),
    hcommutes first second hfirst hsecond hapart⟩

end Patch

end ProofLedger

import Mathlib.Data.List.FinRange
import Mathlib.Data.List.Sort

/-!
# Sorting by a key

A stable sort by a key moves entries past each other only if their keys differ. So it keeps every
list of entries with the same key as it is (`SortsBy.ofKey_mergeSort`), and the sorted list is
determined by these lists (`SortsBy.eq_of_ofKey_eq`). Hence it does not matter whether entries are
picked out before or after they are sorted (`SortsBy.filter_mergeSort`), nor in which order they
come as long as entries with the same key do not change places (`SortsBy.mergeSort_eq`).
-/

namespace ProofLedger

variable {α κ : Type}

/-- A list is another one in a different order, in which entries with the same key follow each other
    as before. -/
def Rearranged (key : α → κ) (as bs : List α) : Prop :=
  ∃ σ : Fin as.length ≃ Fin bs.length, (∀ i, bs.get (σ i) = as.get i) ∧
    ∀ i j, i < j → key (as.get i) = key (as.get j) → σ i < σ j

/-- Entries are compared by a key: of two different keys one comes first. -/
structure SortsBy (le : α → α → Bool) (key : α → κ) : Prop where
  trans : ∀ a b c, le a b = true → le b c = true → le a c = true
  total : ∀ a b, (le a b || le b a) = true
  /-- Only entries with the same key may stand in either order. -/
  same : ∀ a b, le a b = true ∧ le b a = true ↔ key a = key b

variable [DecidableEq κ] {le : α → α → Bool} {key : α → κ} {k : κ} {a : α} {as bs : List α}

-- ── Entries with the same key ─────────────────────────────────────────────────

/-- The entries with a key. -/
def ofKey (key : α → κ) (k : κ) (as : List α) : List α := as.filter fun a => key a = k

theorem ofKey_cons_of_eq (h : key a = k) (as : List α) :
    ofKey key k (a :: as) = a :: ofKey key k as :=
  List.filter_cons_of_pos (decide_eq_true h)

theorem ofKey_cons_of_ne (h : key a ≠ k) (as : List α) : ofKey key k (a :: as) = ofKey key k as :=
  List.filter_cons_of_neg (by rwa [decide_eq_true_eq])

theorem mem_ofKey : a ∈ ofKey key k as ↔ a ∈ as ∧ key a = k := by
  rw [ofKey, List.mem_filter, decide_eq_true_eq]

/-- The positions in a list at which entries have a key. -/
def placesOf (key : α → κ) (k : κ) (as : List α) : List (Fin as.length) :=
  ofKey (fun i => key (as.get i)) k (List.finRange as.length)

theorem map_get_placesOf (key : α → κ) (k : κ) (as : List α) :
    (placesOf key k as).map as.get = ofKey key k as := by
  have hall : ofKey key k ((List.finRange as.length).map as.get) =
      (placesOf key k as).map as.get := List.filter_map
  rw [← hall, List.map_get_finRange]

theorem pairwise_placesOf (key : α → κ) (k : κ) (as : List α) :
    (placesOf key k as).Pairwise (· < ·) :=
  (List.pairwise_lt_finRange _).filter _

theorem mem_placesOf {i : Fin as.length} : i ∈ placesOf key k as ↔ key (as.get i) = k := by
  rw [placesOf, mem_ofKey]
  exact and_iff_right (List.mem_finRange i)

/-- In lists that are rearranged the entries with a key are the same ones, in the same order. -/
theorem Rearranged.ofKey_eq (h : Rearranged key as bs) (k : κ) :
    ofKey key k as = ofKey key k bs := by
  obtain ⟨σ, hget, horder⟩ := h
  have hmoved : ((placesOf key k as).map σ).Pairwise (· < ·) := by
    refine List.pairwise_map.mpr ((pairwise_placesOf key k as).imp_of_mem ?_)
    intro i j hi hj hlt
    exact horder i j hlt ((mem_placesOf.mp hi).trans (mem_placesOf.mp hj).symm)
  have hmem : ∀ j, j ∈ (placesOf key k as).map σ ↔ j ∈ placesOf key k bs := by
    intro j
    rw [List.mem_map, mem_placesOf]
    constructor
    · rintro ⟨i, hi, rfl⟩
      rw [hget]
      exact mem_placesOf.mp hi
    · intro hj
      refine ⟨σ.symm j, mem_placesOf.mpr ?_, σ.apply_symm_apply j⟩
      rw [← hget, σ.apply_symm_apply]
      exact hj
  have hplaces : (placesOf key k as).map σ = placesOf key k bs := by
    have hbs := pairwise_placesOf key k bs
    exact List.Perm.eq_of_pairwise (fun i j _ _ hij hji => absurd hij (not_lt_of_gt hji))
      hmoved hbs ((List.perm_ext_iff_of_nodup hmoved.nodup hbs.nodup).mpr hmem)
  rw [← map_get_placesOf, ← map_get_placesOf, ← hplaces, List.map_map]
  exact List.map_congr_left fun i _ => (hget i).symm

-- ── What sorting keeps ────────────────────────────────────────────────────────

namespace SortsBy

/-- Entries with the same key stay in the same order. -/
theorem ofKey_mergeSort (h : SortsBy le key) (k : κ) (as : List α) :
    ofKey key k (as.mergeSort le) = ofKey key k as := by
  have hclass : (ofKey key k as).Pairwise fun a b => le a b = true := by
    refine List.pairwise_iff_forall_sublist.mpr fun {a b} hab => ?_
    have ha := (mem_ofKey.mp (hab.subset List.mem_cons_self)).2
    have hb := (mem_ofKey.mp (hab.subset (List.mem_cons_of_mem _ List.mem_cons_self))).2
    exact ((h.same a b).mpr (ha.trans hb.symm)).1
  have hsub : (ofKey key k (ofKey key k as)).Sublist (ofKey key k (as.mergeSort le)) :=
    (List.sublist_mergeSort h.trans h.total hclass List.filter_sublist).filter _
  have htwice : ofKey key k (ofKey key k as) = ofKey key k as := by
    rw [ofKey, List.filter_eq_self]
    exact fun a ha => decide_eq_true (mem_ofKey.mp ha).2
  rw [htwice] at hsub
  exact (hsub.eq_of_length ((List.mergeSort_perm as le).filter _).length_eq.symm).symm

/-- A sorted list is determined by its entries of each key. -/
theorem eq_of_ofKey_eq (h : SortsBy le key) (has : as.Pairwise fun a b => le a b = true)
    (hbs : bs.Pairwise fun a b => le a b = true) (heq : ∀ k, ofKey key k as = ofKey key k bs) :
    as = bs := by
  induction as generalizing bs with
  | nil =>
    cases bs with
    | nil => rfl
    | cons b bs =>
      have hb := heq (key b)
      rw [ofKey_cons_of_eq rfl] at hb
      cases hb
  | cons a as ih =>
    have hmem : ∀ c, c ∈ a :: as ↔ c ∈ bs := by
      intro c
      have hc : c ∈ ofKey key (key c) (a :: as) ↔ c ∈ ofKey key (key c) bs := by rw [heq]
      rwa [mem_ofKey, mem_ofKey, and_iff_left rfl, and_iff_left rfl] at hc
    cases bs with
    | nil => exact absurd ((hmem a).mp List.mem_cons_self) List.not_mem_nil
    | cons b bs =>
      have hself : ∀ c, le c c = true := fun c => ((h.same c c).mpr rfl).1
      have hab : le a b = true := by
        rcases List.mem_cons.mp ((hmem b).mpr List.mem_cons_self) with rfl | hb
        · exact hself b
        · exact List.rel_of_pairwise_cons has hb
      have hba : le b a = true := by
        rcases List.mem_cons.mp ((hmem a).mp List.mem_cons_self) with rfl | ha
        · exact hself a
        · exact List.rel_of_pairwise_cons hbs ha
      -- both lists begin with their first entry of the same key
      have hkey := (h.same a b).mp ⟨hab, hba⟩
      have hfirst := heq (key a)
      rw [ofKey_cons_of_eq rfl, ofKey_cons_of_eq hkey.symm] at hfirst
      obtain rfl := (List.cons.inj hfirst).1
      refine congrArg (a :: ·) (ih has.of_cons hbs.of_cons fun k => ?_)
      have hk := heq k
      by_cases hak : key a = k
      · rw [ofKey_cons_of_eq hak, ofKey_cons_of_eq hak] at hk
        exact (List.cons.inj hk).2
      · rw [ofKey_cons_of_ne hak, ofKey_cons_of_ne hak] at hk
        exact hk

/-- Picking out entries and sorting may change places. -/
theorem filter_mergeSort (h : SortsBy le key) (p : α → Bool) (as : List α) :
    (as.mergeSort le).filter p = (as.filter p).mergeSort le := by
  refine h.eq_of_ofKey_eq ((List.pairwise_mergeSort h.trans h.total as).filter p)
    (List.pairwise_mergeSort h.trans h.total _) fun k => ?_
  have hcomm : ∀ cs : List α, ofKey key k (cs.filter p) = (ofKey key k cs).filter p :=
    fun cs => List.filter_comm ..
  rw [h.ofKey_mergeSort, hcomm, hcomm, h.ofKey_mergeSort]

/-- Lists that differ only in the order of entries with different keys are the same when sorted. -/
theorem mergeSort_eq (h : SortsBy le key) (hab : Rearranged key as bs) :
    as.mergeSort le = bs.mergeSort le := by
  refine h.eq_of_ofKey_eq (List.pairwise_mergeSort h.trans h.total as)
    (List.pairwise_mergeSort h.trans h.total bs) fun k => ?_
  rw [h.ofKey_mergeSort, h.ofKey_mergeSort, hab.ofKey_eq]

end SortsBy

end ProofLedger

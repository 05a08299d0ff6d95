import ProofLedger.Proofs.Scheduler.Invariant
import ProofLedger.Proofs.Sums

/-!
# Sums over the keys

What the scheduler keeps is kept per key, in an entry and in a run in flight. A sum over all
entries and runs is therefore the share of one key and what is elsewhere (`Sound.total_eq`), and an
event leaves alone what is elsewhere (`Move.total_eq`).
-/

namespace ProofLedger.Scheduler

variable {settings : SchedulerSettings} (f : Entry → Nat) (g : Run → Nat)

/-- The sum of an amount over the entries and of another one over the runs in flight. -/
def total (s : Scheduler) : Nat := (s.entries.values.map f).sum + (s.runs.map g).sum

/-- What a key adds to the total, given its entry and its run. -/
def share (e : Option Entry) (r : Option Run) : Nat := (e.map f).getD 0 + (r.map g).getD 0

/-- What the other keys add to the total. -/
def elsewhere (key : String) (s : Scheduler) : Nat :=
  ((s.entries.erase key).values.map f).sum + ((s.runs.filter fun r => r.key ≠ key).map g).sum

variable {f g}

theorem Sound.perm_runs {s : Scheduler} (hs : s.Sound) {key : String} {r : Run}
    (hr : s.flight? key = some r) : s.runs.Perm (r :: s.runs.filter fun q => q.key ≠ key) := by
  have hnodup : s.runs.Nodup := hs.distinct.of_map
  have hnot : r ∉ s.runs.filter fun q => q.key ≠ key := by
    simp [flight?_key hr]
  refine (List.perm_ext_iff_of_nodup hnodup (List.nodup_cons.mpr ⟨hnot, hnodup.filter _⟩)).mpr ?_
  intro q
  rw [List.mem_cons, List.mem_filter, decide_eq_true_eq]
  constructor
  · intro hq
    by_cases hk : q.key = key
    · have hsame := (flight?_eq_some hs.distinct).mpr ⟨hq, hk⟩
      rw [hr] at hsame
      exact Or.inl (Option.some.inj hsame).symm
    · exact Or.inr ⟨hq, hk⟩
  · rintro (rfl | ⟨hq, _⟩)
    · exact mem_runs_of_flight? hr
    · exact hq

theorem Sound.sum_runs {s : Scheduler} (hs : s.Sound) (key : String) :
    (s.runs.map g).sum =
      ((s.flight? key).map g).getD 0 + ((s.runs.filter fun r => r.key ≠ key).map g).sum := by
  cases hr : s.flight? key with
  | none =>
    have hall : s.runs.filter (fun r => r.key ≠ key) = s.runs := by
      refine List.filter_eq_self.mpr fun q hq => decide_eq_true fun hk => ?_
      have hsome := (flight?_eq_some hs.distinct).mpr ⟨hq, hk⟩
      rw [hr] at hsome
      cases hsome
    rw [hall]
    exact (Nat.zero_add _).symm
  | some r => exact ((hs.perm_runs hr).map g).sum_nat

/-- A total is the share of a key and what is elsewhere. -/
theorem Sound.total_eq {s : Scheduler} (hs : s.Sound) (key : String) :
    total f g s = share f g (s.entries.get? key) (s.flight? key) + elsewhere f g key s := by
  rw [total, share, elsewhere, s.entries.sum_values f key, hs.sum_runs key]
  omega

theorem elsewhere_congr {s t : Scheduler} (hs : s.Sound) (ht : t.Sound) {key : String}
    (hframe : ∀ k, k ≠ key →
      t.entries.get? k = s.entries.get? k ∧ t.flight? k = s.flight? k) :
    elsewhere f g key t = elsewhere f g key s := by
  have hentries : t.entries.erase key = s.entries.erase key := by
    refine Table.ext_get? fun k => ?_
    by_cases hk : key = k
    · rw [← hk, Table.get?_erase_self, Table.get?_erase_self]
    · rw [Table.get?_erase_ne _ hk, Table.get?_erase_ne _ hk]
      exact (hframe k fun he => hk he.symm).1
  have hruns : (t.runs.filter fun r => r.key ≠ key).Perm
      (s.runs.filter fun r => r.key ≠ key) := by
    refine (List.perm_ext_iff_of_nodup (ht.distinct.of_map.filter _)
      (hs.distinct.of_map.filter _)).mpr fun q => ?_
    simp only [List.mem_filter, decide_eq_true_eq]
    refine and_congr_left fun hk => ?_
    have htq : t.flight? q.key = some q ↔ q ∈ t.runs ∧ q.key = q.key := flight?_eq_some ht.distinct
    have hsq : s.flight? q.key = some q ↔ q ∈ s.runs ∧ q.key = q.key := flight?_eq_some hs.distinct
    rw [(hframe q.key hk).2] at htq
    simpa using htq.symm.trans hsq
  rw [elsewhere, elsewhere, hentries, (hruns.map g).sum_nat]

theorem elsewhere_eq_zero {s : Scheduler} {key : String}
    (hentries : ∀ k e, k ≠ key → s.entries.get? k = some e → f e = 0)
    (hruns : ∀ r ∈ s.runs, r.key ≠ key → g r = 0) : elsewhere f g key s = 0 := by
  refine Nat.add_eq_zero_iff.mpr ⟨?_, ?_⟩
  · refine List.sum_eq_zero_iff_forall_eq_nat.mpr fun n hn => ?_
    obtain ⟨e, he, rfl⟩ := List.mem_map.mp hn
    obtain ⟨⟨k, _⟩, hmem, rfl⟩ := List.mem_map.mp he
    have hget := Table.mem_entries.mp hmem
    have hk : k ≠ key := by
      rintro rfl
      rw [Table.get?_erase_self] at hget
      cases hget
    rw [Table.get?_erase_ne _ hk.symm] at hget
    exact hentries k _ hk hget
  · refine List.sum_eq_zero_iff_forall_eq_nat.mpr fun n hn => ?_
    obtain ⟨r, hr, rfl⟩ := List.mem_map.mp hn
    obtain ⟨hmem, hk⟩ := List.mem_filter.mp hr
    exact hruns r hmem (of_decide_eq_true hk)

/-- An event moves a total by what it does to the share of its key. -/
theorem Move.total_eq {s t : Scheduler} {event : Event} {effects : List Effect} (hs : s.Sound)
    (hmove : Move settings s event t effects) {key : String} (hkey : event.key? = some key) :
    total f g t = share f g (t.entries.get? key) (t.flight? key) + elsewhere f g key s := by
  have hclear : event ≠ .clear := by
    rintro rfl
    cases hkey
  have hframe : ∀ k, k ≠ key →
      t.entries.get? k = s.entries.get? k ∧ t.flight? k = s.flight? k := by
    intro k hk
    refine hmove.frame hs hclear fun he => hk ?_
    rw [hkey] at he
    exact (Option.some.inj he).symm
  rw [(hs.move hmove).total_eq key, elsewhere_congr hs (hs.move hmove) hframe]

/-- A clear takes away what the entries add, provided that an entry adds nothing once it is
    cleared. -/
theorem total_clear (s : Scheduler) (hzero : ∀ e : Entry, f e.cleared = 0) :
    total f g s = (s.entries.values.map f).sum + total f g (clear s).1 := by
  have hnone : ((clear s).1.entries.values.map f).sum = 0 := by
    refine List.sum_eq_zero_iff_forall_eq_nat.mpr fun n hn => ?_
    simp only [Table.values, List.map_map, List.mem_map, Function.comp] at hn
    obtain ⟨⟨key, e⟩, hmem, rfl⟩ := hn
    have hget := Table.mem_entries.mp hmem
    rw [get?_clear] at hget
    obtain ⟨a, _, ha⟩ := Option.bind_eq_some_iff.mp hget
    split at ha
    · cases ha
      exact hzero a
    · cases ha
  rw [total, total, hnone, Nat.zero_add]
  rfl

/-- A total is at most another one if the amounts are so for every entry and run. -/
theorem total_le {f' : Entry → Nat} {g' : Run → Nat} {s : Scheduler}
    (hentries : ∀ key e, s.entries.get? key = some e → f e ≤ f' e)
    (hruns : ∀ r ∈ s.runs, g r ≤ g' r) : total f g s ≤ total f' g' s := by
  refine Nat.add_le_add (List.sum_le_sum fun e he => ?_) (List.sum_le_sum hruns)
  obtain ⟨⟨key, e⟩, hmem, rfl⟩ := List.mem_map.mp he
  exact hentries key e (Table.mem_entries.mp hmem)

end ProofLedger.Scheduler

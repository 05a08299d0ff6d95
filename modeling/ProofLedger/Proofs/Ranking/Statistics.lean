import ProofLedger.Ranking.LocalStats
import Mathlib.Data.List.Induction

/-!
# Statistics count stored attempts

The statistics of a history have one entry for each class that was tried, in the order of classes.
That order is total, so an attempt of a class that has an entry reaches it and does not start a
second one (`lookup_observeInto_self`). Hence an entry counts the stored attempts of its class, and
the successes among them (`attempts_statsOf`, `successes_statsOf`).
-/

namespace ProofLedger

-- ── The order of classes ──────────────────────────────────────────────────────

/-- A category is found at its rank. -/
theorem Category.getElem?_rank (c : Category) : all[c.rank]? = some c := by
  cases c <;> rfl

/-- Two categories of one rank are one category. -/
theorem Category.rank_injective {c d : Category} (h : c.rank = d.rank) : c = d := by
  have hc := getElem?_rank c
  rw [h, getElem?_rank d] at hc
  exact (Option.some.inj hc).symm

namespace TacticClass

variable {a b c : TacticClass}

theorem ext (hcategory : a.category = b.category) (hkey : a.tacticKey = b.tacticKey) : a = b := by
  cases a
  cases b
  cases hcategory
  cases hkey
  rfl

/-- Classes are ordered by their category, then by their tactic. -/
theorem before_iff : a.before b = true ↔
    a.category.rank < b.category.rank ∨
      (a.category.rank = b.category.rank ∧ a.tacticKey < b.tacticKey) := by
  simp [before]

/-- No class comes before itself. -/
theorem not_before_self (a : TacticClass) : ¬a.before a = true := by
  rw [before_iff]
  rintro (hrank | ⟨-, hkey⟩)
  · exact Nat.lt_irrefl _ hrank
  · exact String.lt_irrefl _ hkey

/-- The order of the classes is transitive. -/
theorem before_trans (hab : a.before b = true) (hbc : b.before c = true) :
    a.before c = true := by
  rw [before_iff] at hab hbc ⊢
  rcases hab with hab | ⟨hab, hkeys⟩
  · rcases hbc with hbc | ⟨hbc, -⟩
    · exact Or.inl (Nat.lt_trans hab hbc)
    · exact Or.inl (hbc ▸ hab)
  · rcases hbc with hbc | ⟨hbc, hkeys'⟩
    · exact Or.inl (hab ▸ hbc)
    · exact Or.inr ⟨hab.trans hbc, String.lt_trans hkeys hkeys'⟩

/-- Of two different classes one is before the other. -/
theorem before_of_not_before (hne : a ≠ b) (h : ¬a.before b = true) : b.before a = true := by
  rw [before_iff] at h ⊢
  obtain ⟨hrank, hkey⟩ := not_or.mp h
  rcases Nat.lt_or_eq_of_le (Nat.le_of_not_lt hrank) with hlt | heq
  · exact Or.inl hlt
  · refine Or.inr ⟨heq, ?_⟩
    have hle : ¬a.tacticKey < b.tacticKey := fun hlt => hkey ⟨heq.symm, hlt⟩
    by_contra hnot
    exact hne (ext (Category.rank_injective heq).symm (String.le_antisymm hnot hle))

end TacticClass

namespace LocalStats

-- ── Entries of a list in order ────────────────────────────────────────────────

/-- Whether entries are in the order of their classes, one for each class. -/
def Ordered (stats : List (TacticClass × LocalStats)) : Prop :=
  stats.Pairwise fun e f => e.1.before f.1 = true

variable {c d : TacticClass} {stats : List (TacticClass × LocalStats)}

/-- The statistics of a class are those of the first entry for it. -/
theorem lookup_cons (c : TacticClass) (e : TacticClass × LocalStats)
    (rest : List (TacticClass × LocalStats)) :
    lookup c (e :: rest) = if e.1 = c then some e.2 else lookup c rest := by
  rw [lookup, List.find?_cons]
  by_cases h : e.1 = c
  · rw [if_pos h, beq_iff_eq.mpr h]
    rfl
  · rw [if_neg h, beq_eq_false_iff_ne.mpr h]
    rfl

/-- An observed record adds no entry but for its own class. -/
theorem class_of_mem_observeInto (a : AttemptRecord) {e : TacticClass × LocalStats}
    (he : e ∈ observeInto c a stats) : e.1 = c ∨ ∃ f ∈ stats, f.1 = e.1 := by
  induction stats with
  | nil =>
    rw [List.mem_singleton.mp he]
    exact Or.inl rfl
  | cons head rest ih =>
    obtain ⟨d, s⟩ := head
    rw [observeInto] at he
    by_cases hbefore : c.before d = true
    · rw [if_pos hbefore] at he
      rcases List.mem_cons.mp he with rfl | he
      · exact Or.inl rfl
      · exact Or.inr ⟨e, he, rfl⟩
    · rw [if_neg hbefore] at he
      by_cases hsame : c = d
      · rw [if_pos hsame] at he
        rcases List.mem_cons.mp he with rfl | he
        · exact Or.inl hsame.symm
        · exact Or.inr ⟨e, List.mem_cons_of_mem _ he, rfl⟩
      · rw [if_neg hsame] at he
        rcases List.mem_cons.mp he with rfl | he
        · exact Or.inr ⟨(d, s), List.mem_cons_self, rfl⟩
        · rcases ih he with hnew | ⟨f, hf, hclass⟩
          · exact Or.inl hnew
          · exact Or.inr ⟨f, List.mem_cons_of_mem _ hf, hclass⟩

/-- Statistics stay in order when a record is observed. -/
theorem Ordered.observeInto (h : Ordered stats) (c : TacticClass) (a : AttemptRecord) :
    Ordered (observeInto c a stats) := by
  induction stats with
  | nil => exact List.pairwise_singleton _ _
  | cons head rest ih =>
    obtain ⟨d, s⟩ := head
    obtain ⟨hhead, hrest⟩ := List.pairwise_cons.mp h
    rw [LocalStats.observeInto]
    by_cases hbefore : c.before d = true
    · rw [if_pos hbefore]
      refine List.Pairwise.cons ?_ h
      intro e he
      rcases List.mem_cons.mp he with rfl | he
      · exact hbefore
      · exact TacticClass.before_trans hbefore (hhead e he)
    · rw [if_neg hbefore]
      by_cases hsame : c = d
      · rw [if_pos hsame]
        exact List.Pairwise.cons hhead hrest
      · rw [if_neg hsame]
        refine List.Pairwise.cons ?_ (ih hrest)
        intro e he
        show d.before e.1 = true
        rcases class_of_mem_observeInto a he with hnew | ⟨f, hf, hclass⟩
        · rw [hnew]
          exact TacticClass.before_of_not_before hsame hbefore
        · rw [← hclass]
          exact hhead f hf

/-- A record that is observed leaves the statistics of the other classes alone. -/
theorem lookup_observeInto_ne (hne : c ≠ d) (a : AttemptRecord) :
    lookup c (observeInto d a stats) = lookup c stats := by
  induction stats with
  | nil =>
    show lookup c [(d, observe {} a)] = lookup c []
    rw [lookup_cons, if_neg (Ne.symm hne)]
  | cons head rest ih =>
    obtain ⟨b, s⟩ := head
    rw [observeInto]
    by_cases hbefore : d.before b = true
    · rw [if_pos hbefore, lookup_cons, if_neg (Ne.symm hne)]
    · rw [if_neg hbefore]
      by_cases hsame : d = b
      · subst hsame
        rw [if_pos rfl, lookup_cons, lookup_cons, if_neg (Ne.symm hne), if_neg (Ne.symm hne)]
      · rw [if_neg hsame, lookup_cons, lookup_cons, ih]

/-- A class that comes before the first entry has none. -/
theorem lookup_eq_none_of_before {e : TacticClass × LocalStats} (h : Ordered (e :: stats))
    (hbefore : c.before e.1 = true) : lookup c (e :: stats) = none := by
  have hall : ∀ f ∈ e :: stats, c.before f.1 = true := by
    intro f hf
    rcases List.mem_cons.mp hf with rfl | hf
    · exact hbefore
    · exact TacticClass.before_trans hbefore (List.rel_of_pairwise_cons h hf)
  rw [lookup, List.find?_eq_none.mpr]
  · rfl
  · intro f hf hclass
    have hself := hall f hf
    rw [beq_iff_eq.mp hclass] at hself
    exact TacticClass.not_before_self c hself

/-- An attempt is counted in the entry of its class, if there is one. -/
theorem lookup_observeInto_self (h : Ordered stats) (c : TacticClass) (a : AttemptRecord) :
    lookup c (observeInto c a stats) = some (((lookup c stats).getD {}).observe a) := by
  induction stats with
  | nil =>
    show lookup c [(c, observe {} a)] = _
    rw [lookup_cons, if_pos rfl]
    rfl
  | cons head rest ih =>
    obtain ⟨d, s⟩ := head
    rw [observeInto]
    by_cases hbefore : c.before d = true
    · rw [if_pos hbefore, lookup_eq_none_of_before h hbefore, lookup_cons, if_pos rfl]
      rfl
    · rw [if_neg hbefore]
      by_cases hsame : c = d
      · subst hsame
        rw [if_pos rfl, lookup_cons, lookup_cons, if_pos rfl, if_pos rfl]
        rfl
      · rw [if_neg hsame, lookup_cons, lookup_cons, if_neg (Ne.symm hsame),
          if_neg (Ne.symm hsame), ih (List.Pairwise.of_cons h)]

-- ── Counting records ──────────────────────────────────────────────────────────

/-- The statistics of records in any order. -/
def tally (records : List AttemptRecord) : List (TacticClass × LocalStats) :=
  records.foldl (fun stats a => observeInto (classOf a) a stats) []

/-- A further record is observed last. -/
theorem tally_concat (records : List AttemptRecord) (a : AttemptRecord) :
    tally (records ++ [a]) = observeInto (classOf a) a (tally records) := by
  rw [tally, List.foldl_append]
  rfl

/-- The statistics of any records are in order. -/
theorem ordered_tally (records : List AttemptRecord) : Ordered (tally records) := by
  induction records using List.reverseRecOn with
  | nil => exact List.Pairwise.nil
  | append_singleton records a ih =>
    rw [tally_concat]
    exact ih.observeInto _ _

/-- Every entry is about a class that was tried. -/
theorem class_of_mem_tally (records : List AttemptRecord) :
    ∀ e ∈ tally records, ∃ a ∈ records, classOf a = e.1 := by
  induction records using List.reverseRecOn with
  | nil =>
    intro e he
    cases he
  | append_singleton records a ih =>
    intro e he
    rw [tally_concat] at he
    rcases class_of_mem_observeInto a he with hnew | ⟨f, hf, hclass⟩
    · exact ⟨a, List.mem_append_right _ List.mem_cons_self, hnew.symm⟩
    · obtain ⟨b, hb, hclass'⟩ := ih f hf
      exact ⟨b, List.mem_append_left _ hb, hclass'.trans hclass⟩

/-- What is counted for a class after one more record. -/
theorem lookup_tally_concat (c : TacticClass) (records : List AttemptRecord)
    (a : AttemptRecord) :
    (lookup c (tally (records ++ [a]))).getD {} =
      if classOf a = c then ((lookup c (tally records)).getD {}).observe a
      else (lookup c (tally records)).getD {} := by
  rw [tally_concat]
  by_cases hclass : classOf a = c
  · rw [if_pos hclass, hclass, lookup_observeInto_self (ordered_tally records)]
    rfl
  · rw [if_neg hclass, lookup_observeInto_ne (Ne.symm hclass)]

/-- The statistics of a class in a history, all zero if it was not tried. -/
def statsOf (c : TacticClass) (h : NodeHistory) : LocalStats :=
  (lookup c (ofHistory h)).getD {}

/-- The attempts of a class are counted, as far as a word of 64 bits goes. -/
theorem attempts_statsOf (c : TacticClass) (h : NodeHistory) :
    (statsOf c h).attempts =
      UInt64.ofNat (h.attempts.values.countP fun a => classOf a == c) := by
  show ((lookup c (tally h.attempts.values)).getD {}).attempts = _
  induction h.attempts.values using List.reverseRecOn with
  | nil => rfl
  | append_singleton records a ih =>
    rw [lookup_tally_concat, List.countP_append, List.countP_singleton, UInt64.ofNat_add, ← ih]
    by_cases hclass : classOf a = c
    · rw [if_pos hclass, if_pos (beq_iff_eq.mpr hclass)]
      rfl
    · rw [if_neg hclass, if_neg (mt beq_iff_eq.mp hclass)]
      exact (UInt64.add_zero _).symm

/-- So are the successes among them. -/
theorem successes_statsOf (c : TacticClass) (h : NodeHistory) :
    (statsOf c h).successes = UInt64.ofNat
      (h.attempts.values.countP fun a => classOf a == c && a.result.isSuccess) := by
  show ((lookup c (tally h.attempts.values)).getD {}).successes = _
  induction h.attempts.values using List.reverseRecOn with
  | nil => rfl
  | append_singleton records a ih =>
    rw [lookup_tally_concat, List.countP_append, List.countP_singleton, UInt64.ofNat_add, ← ih]
    by_cases hclass : classOf a = c
    · rw [if_pos hclass, beq_iff_eq.mpr hclass, Bool.true_and]
      show (if a.result.isSuccess then _ + 1 else _) = _
      split
      · rfl
      · exact (UInt64.add_zero _).symm
    · rw [if_neg hclass, beq_eq_false_iff_ne.mpr hclass]
      exact (UInt64.add_zero _).symm

end LocalStats

end ProofLedger

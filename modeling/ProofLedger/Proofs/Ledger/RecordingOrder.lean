import Mathlib.Tactic.IntervalCases
import Mathlib.Data.Finset.Max
import Mathlib.Data.Prod.Lex
import ProofLedger.Proofs.Ledger.Latest
import ProofLedger.Recommendation

/-!
# Ids and the order of recording

The attempts of a history are listed in the order of their ids as texts, and among attempts of one
time the latest is the one with the greatest id. That order is the one of recording as long as the
numbers in the ids have as many digits, which leading zeros see to below a million. Beyond, a
longer number stands before a shorter one if its leading digits are less (`attemptId_lt_iff`): the
attempt with the number 1000000 is listed before the one with the number 999999, and with the same
time it is not the latest. Otherwise the order is kept, and an attempt that is recorded is stored
under the id of its number as before (`NodeHistory.StoredByNumber.appended`).
-/

namespace ProofLedger

-- ── The order of numbers in ids ───────────────────────────────────────────────

/-- The number of digits of a number in an id. -/
def idDigits (number : Nat) : Nat := max 6 (Nat.toDigits 10 number).length

/-- Whether a later number stands before an earlier one in the order of ids: cut to as many digits,
    it is less. -/
def Overtakes (later earlier : Nat) : Prop :=
  earlier < later ∧ later / 10 ^ (idDigits later - idDigits earlier) < earlier

instance (later earlier : Nat) : Decidable (Overtakes later earlier) :=
  inferInstanceAs (Decidable (_ ∧ _))

namespace Instant

/-- A padded number has as many digits as asked for, or as it needs. -/
theorem length_padded_eq (width n : Nat) :
    (padded width n).length = max width (Nat.toDigits 10 n).length := by
  rw [padded, List.length_append, List.length_replicate]
  omega

/-- A difference within the first part decides the order of the whole. -/
theorem append_lt_of_lt {cs ds : List Char} (h : cs < ds) (hlength : cs.length = ds.length)
    (rest : List Char) : cs ++ rest < ds := by
  induction cs generalizing ds with
  | nil =>
    obtain rfl := List.eq_nil_of_length_eq_zero hlength.symm
    cases h
  | cons c cs ih =>
    cases ds with
    | nil => cases hlength
    | cons d ds =>
      rw [List.cons_append, List.cons_lt_cons_iff]
      rcases List.cons_lt_cons_iff.mp h with hlt | ⟨rfl, hlt⟩
      · exact Or.inl hlt
      · exact Or.inr ⟨rfl, ih hlt (Nat.succ.inj hlength)⟩

/-- The leading digits of a text of digits are its number without the last digits. -/
theorem ofDigitChars_take {cs : List Char} (h : ∀ c ∈ cs, c.isDigit = true) (k : Nat) :
    Nat.ofDigitChars 10 (cs.take k) 0 =
      Nat.ofDigitChars 10 cs 0 / 10 ^ (cs.length - k) := by
  have hrest := ofDigitChars_lt fun c hc => h c (List.mem_of_mem_drop (i := k) hc)
  have hsplit : Nat.ofDigitChars 10 cs 0 = 10 ^ (cs.drop k).length *
      Nat.ofDigitChars 10 (cs.take k) 0 + Nat.ofDigitChars 10 (cs.drop k) 0 := by
    conv_lhs => rw [← List.take_append_drop k cs]
    rw [Nat.ofDigitChars_append, Nat.ofDigitChars_eq_ofDigitChars_zero]
  rw [List.length_drop] at hrest hsplit
  rw [hsplit, Nat.mul_add_div (Nat.pow_pos (by decide)), Nat.div_eq_of_lt hrest, Nat.add_zero]

/-- Texts of as many digits are the same if their numbers are. -/
theorem eq_of_ofDigitChars_eq {cs ds : List Char} (hlength : cs.length = ds.length)
    (hcs : ∀ c ∈ cs, c.isDigit = true) (hds : ∀ d ∈ ds, d.isDigit = true)
    (h : Nat.ofDigitChars 10 cs 0 = Nat.ofDigitChars 10 ds 0) : cs = ds := by
  induction cs generalizing ds with
  | nil => exact (List.eq_nil_of_length_eq_zero hlength.symm).symm
  | cons c cs ih =>
    cases ds with
    | nil => cases hlength
    | cons d ds =>
      obtain ⟨hc, hcs'⟩ := List.forall_mem_cons.mp hcs
      obtain ⟨hd, hds'⟩ := List.forall_mem_cons.mp hds
      have hrest : cs.length = ds.length := Nat.succ.inj hlength
      have hcbelow := ofDigitChars_lt hcs'
      have hdbelow := ofDigitChars_lt hds'
      rw [ofDigitChars_cons_eq, ofDigitChars_cons_eq, ← hrest] at h
      rw [← hrest] at hdbelow
      -- the first digits are the same, since the others make up less than one of their steps
      have hfirst : c.toNat - '0'.toNat = d.toNat - '0'.toNat := by
        have hquotient := congrArg (· / 10 ^ cs.length) h
        simp only [Nat.mul_add_div (Nat.pow_pos (show 0 < 10 by decide)), Nat.div_eq_of_lt hcbelow,
          Nat.div_eq_of_lt hdbelow, Nat.add_zero] at hquotient
        exact hquotient
      have hcdigit := Char.isDigit_iff_toNat.mp hc
      have hddigit := Char.isDigit_iff_toNat.mp hd
      obtain rfl : c = d := Char.toNat_inj.mp (by
        have hzero : '0'.toNat = 48 := rfl
        omega)
      rw [ih hrest hcs' hds' (Nat.add_left_cancel h)]

section Leading

variable {cs ds : List Char} (hcs : ∀ c ∈ cs, c.isDigit = true)
  (hds : ∀ d ∈ ds, d.isDigit = true) (hle : cs.length ≤ ds.length)

include hcs hds hle

/-- A text of digits comes before a shorter one if its leading digits are less. -/
theorem lt_of_leading_lt (h : Nat.ofDigitChars 10 ds 0 / 10 ^ (ds.length - cs.length) <
    Nat.ofDigitChars 10 cs 0) : ds < cs := by
  have hlength : (ds.take cs.length).length = cs.length := List.length_take_of_le hle
  rw [← ofDigitChars_take hds] at h
  have hlead := lt_of_ofDigitChars_lt hlength (fun d hd => hds d (List.mem_of_mem_take hd)) hcs h
  have hwhole := append_lt_of_lt hlead hlength (ds.drop cs.length)
  rwa [List.take_append_drop] at hwhole

/-- It comes after a shorter one if its leading digits are not less. -/
theorem lt_of_le_leading (hne : cs ≠ ds)
    (h : Nat.ofDigitChars 10 cs 0 ≤ Nat.ofDigitChars 10 ds 0 / 10 ^ (ds.length - cs.length)) :
    cs < ds := by
  have hlength : cs.length = (ds.take cs.length).length := (List.length_take_of_le hle).symm
  have hdigits : ∀ d ∈ ds.take cs.length, d.isDigit = true :=
    fun d hd => hds d (List.mem_of_mem_take hd)
  have hwhole : ds.take cs.length ++ ds.drop cs.length = ds := List.take_append_drop _ _
  rw [← ofDigitChars_take hds] at h
  rcases Nat.lt_or_eq_of_le h with hlt | heq
  · have hlead := lt_of_ofDigitChars_lt hlength hcs hdigits hlt
    have hless := List.Lex.append_right _ (ds.drop cs.length) hlead
    rwa [hwhole] at hless
  · have hsame := eq_of_ofDigitChars_eq hlength hcs hdigits heq
    rw [← hsame] at hwhole
    -- more digits follow, or the texts were the same
    cases hrest : ds.drop cs.length with
    | nil =>
      rw [hrest, List.append_nil] at hwhole
      exact absurd hwhole hne
    | cons d rest =>
      have hlonger : cs ++ [] < cs ++ d :: rest := List.append_left_lt (List.nil_lt_cons d rest)
      rwa [List.append_nil, ← hrest, hwhole] at hlonger

end Leading

end Instant

/-- The digits of an id are those of its padded number. -/
theorem idDigits_eq (number : Nat) : idDigits number = (Instant.padded 6 number).length :=
  (Instant.length_padded_eq 6 number).symm

/-- A larger number has no fewer digits. -/
theorem idDigits_le {i j : Nat} (h : i ≤ j) : idDigits i ≤ idDigits j := by
  have hpos : 0 < idDigits j := Nat.lt_of_lt_of_le (by decide) (Nat.le_max_left 6 _)
  have hj : j < 10 ^ idDigits j :=
    (Nat.length_toDigits_le_iff (by decide) hpos).mp (Nat.le_max_right _ _)
  have hi := (Nat.length_toDigits_le_iff (by decide) hpos).mpr (Nat.lt_of_le_of_lt h hj)
  exact Nat.max_le.mpr ⟨Nat.le_max_left 6 _, hi⟩

/-- A later number comes before an earlier one if it overtakes it, and after it otherwise. -/
theorem padded_lt_cases {i j : Nat} (hij : i < j) :
    (¬ Overtakes j i → Instant.padded 6 i < Instant.padded 6 j) ∧
      (Overtakes j i → Instant.padded 6 j < Instant.padded 6 i) := by
  have hdigits : ∀ n, ∀ c ∈ Instant.padded 6 n, c.isDigit = true :=
    fun n c => Instant.isDigit_of_mem_padded
  have hvalue : ∀ n, Nat.ofDigitChars 10 (Instant.padded 6 n) 0 = n := by
    intro n
    rw [← Instant.digitsFold_eq, Instant.digitsFold_padded]
  have hle : (Instant.padded 6 i).length ≤ (Instant.padded 6 j).length := by
    rw [← idDigits_eq, ← idDigits_eq]
    exact idDigits_le (Nat.le_of_lt hij)
  constructor
  · intro hnot
    have hne : Instant.padded 6 i ≠ Instant.padded 6 j := by
      intro heq
      have hnumbers := congrArg (fun cs => Nat.ofDigitChars 10 cs 0) heq
      rw [hvalue, hvalue] at hnumbers
      exact absurd hnumbers (Nat.ne_of_lt hij)
    refine Instant.lt_of_le_leading (hdigits i) (hdigits j) hle hne ?_
    rw [hvalue, hvalue, ← idDigits_eq, ← idDigits_eq]
    exact Nat.not_lt.mp fun hlt => hnot ⟨hij, hlt⟩
  · rintro ⟨-, hlt⟩
    refine Instant.lt_of_leading_lt (hdigits i) (hdigits j) hle ?_
    rwa [hvalue, hvalue, ← idDigits_eq, ← idDigits_eq]

/-- The id of a later number comes first exactly if the number overtakes the earlier one. -/
theorem attemptId_lt_iff (nodeId : String) {i j : Nat} (hij : i < j) :
    attemptId nodeId j < attemptId nodeId i ↔ Overtakes j i := by
  have hids : ∀ {m n : Nat}, Instant.padded 6 m < Instant.padded 6 n →
      attemptId nodeId m < attemptId nodeId n := by
    intro m n h
    rw [String.lt_iff_toList_lt, toList_attemptId, toList_attemptId]
    exact List.Lex.append_left _ (List.cons_lt_cons_iff.mpr (Or.inr ⟨rfl, h⟩)) _
  obtain ⟨hkept, hovertaken⟩ := padded_lt_cases hij
  constructor
  · intro hlt
    by_contra hnot
    exact String.lt_irrefl _ (String.lt_trans hlt (hids (hkept hnot)))
  · intro h
    exact hids (hovertaken h)

/-- Below a million no number overtakes another. -/
theorem Overtakes.million_le {i j : Nat} (h : Overtakes j i) : 1000000 ≤ j := by
  obtain ⟨hij, hlt⟩ := h
  by_contra hbelow
  have hsix : ∀ {n : Nat}, n < 1000000 → idDigits n = 6 := by
    intro n hn
    exact Nat.max_eq_left ((Nat.length_toDigits_le_iff (by decide) (by decide)).mpr hn)
  rw [hsix (by omega), hsix (by omega), Nat.sub_self, Nat.pow_zero, Nat.div_one] at hlt
  omega

-- ── Histories ─────────────────────────────────────────────────────────────────

namespace NodeHistory

/-- Whether an attempt is stored under the id of a number. -/
def Stores (nodeId : String) (h : NodeHistory) (number : Nat) (r : AttemptRecord) : Prop :=
  h.attempts.get? (attemptId nodeId number) = some r

/-- Whether every attempt is stored under its own id, that of a number from one on. -/
def StoredByNumber (nodeId : String) (h : NodeHistory) : Prop :=
  ∀ id r, h.attempts.get? id = some r → r.id = id ∧ ∃ n, 1 ≤ n ∧ id = attemptId nodeId n

/-- Whether the attempts are listed in the order of their numbers. -/
def ListsByNumber (nodeId : String) (h : NodeHistory) : Prop :=
  ∃ numbers : List Nat,
    h.attempts.keys = numbers.map (attemptId nodeId) ∧ numbers.Pairwise (· < ·)

/-- Whether an attempt has the newest time, and of those with this time the highest number. -/
def IsNewest (nodeId : String) (h : NodeHistory) (number : Nat) (r : AttemptRecord) : Prop :=
  h.Stores nodeId number r ∧ ∀ m a, h.Stores nodeId m a →
    a.timestamp < r.timestamp ∨ (a.timestamp = r.timestamp ∧ m ≤ number)

/-- Whether the number of an attempt overtakes none of an attempt of its time. -/
def NotOvertaking (nodeId : String) (h : NodeHistory) (number : Nat) (r : AttemptRecord) : Prop :=
  ∀ m a, h.Stores nodeId m a → a.timestamp = r.timestamp → ¬ Overtakes number m

variable {nodeId : String} {h : NodeHistory} {n : Nat} {r : AttemptRecord}

theorem Stores.mem_values (hr : h.Stores nodeId n r) : r ∈ h.attempts.values :=
  Table.mem_values.mpr ⟨_, hr⟩

theorem StoredByNumber.id_eq (hs : h.StoredByNumber nodeId) (hr : h.Stores nodeId n r) :
    r.id = attemptId nodeId n := (hs _ r hr).1

/-- Every attempt has its number. -/
theorem StoredByNumber.exists_stores (hs : h.StoredByNumber nodeId) (hr : r ∈ h.attempts.values) :
    ∃ n, h.Stores nodeId n r := by
  obtain ⟨id, hid⟩ := Table.mem_values.mp hr
  obtain ⟨-, n, -, rfl⟩ := hs id r hid
  exact ⟨n, hid⟩

/-- The numbers of the attempts, in the order in which they are listed. -/
theorem StoredByNumber.exists_numbers (hs : h.StoredByNumber nodeId) :
    ∃ numbers : List Nat, h.attempts.keys = numbers.map (attemptId nodeId) ∧
      ∀ n, n ∈ numbers ↔ ∃ r, h.Stores nodeId n r := by
  have hkeys : h.attempts.keys ∈ Set.range (List.map (attemptId nodeId)) := by
    rw [Set.range_list_map]
    intro id hid
    obtain ⟨r, hr⟩ := Table.contains_iff.mp (Table.mem_keys.mp hid)
    obtain ⟨-, n, -, rfl⟩ := hs id r hr
    exact ⟨n, rfl⟩
  obtain ⟨numbers, hnumbers⟩ := hkeys
  refine ⟨numbers, hnumbers.symm, fun n => ?_⟩
  have hmem : n ∈ numbers ↔ attemptId nodeId n ∈ h.attempts.keys := by
    rw [← hnumbers]
    constructor
    · intro hn
      exact List.mem_map_of_mem hn
    · intro hid
      obtain ⟨m, hm, heq⟩ := List.mem_map.mp hid
      exact attemptId_injective nodeId heq ▸ hm
  rw [hmem, Table.mem_keys, Table.contains_iff]
  rfl

/-- The attempts are listed in the order of their numbers exactly if no number overtakes another. -/
theorem StoredByNumber.listsByNumber_iff (hs : h.StoredByNumber nodeId) :
    h.ListsByNumber nodeId ↔ ∀ i j r s, h.Stores nodeId i r → h.Stores nodeId j s →
      ¬ Overtakes j i := by
  obtain ⟨numbers, hkeys, hstored⟩ := hs.exists_numbers
  have hsorted : numbers.Pairwise fun i j => attemptId nodeId i < attemptId nodeId j := by
    have hids : h.attempts.keys.Pairwise (· < ·) := List.pairwise_map.mpr h.attempts.sorted
    rw [hkeys] at hids
    exact List.pairwise_map.mp hids
  constructor
  · rintro ⟨listed, hlisted, hincreasing⟩ i j r s hi hj hovertakes
    obtain rfl : listed = numbers :=
      List.map_injective_iff.mpr (fun _ _ => attemptId_injective nodeId) (hlisted.symm.trans hkeys)
    -- ids increase along the list as the numbers do, so of any two the lesser has the lesser id
    have hids : ∀ i ∈ listed, ∀ j ∈ listed, i < j → attemptId nodeId i < attemptId nodeId j := by
      have hforward : listed.Pairwise fun i j => i < j → attemptId nodeId i < attemptId nodeId j :=
        hsorted.imp fun {i j} hlt (_ : i < j) => hlt
      have hbackward : listed.Pairwise fun i j => j < i → attemptId nodeId j < attemptId nodeId i :=
        hincreasing.imp fun {i j} hlt (hgt : j < i) => absurd hlt (Nat.lt_asymm hgt)
      intro i hi j hj
      exact List.Pairwise.forall_of_forall_of_flip (fun i _ hlt => absurd hlt (Nat.lt_irrefl i))
        hforward hbackward hi hj
    have hlt := hids i ((hstored i).mpr ⟨r, hi⟩) j ((hstored j).mpr ⟨s, hj⟩) hovertakes.1
    have hgt := (attemptId_lt_iff nodeId hovertakes.1).mpr hovertakes
    exact String.lt_irrefl _ (String.lt_trans hlt hgt)
  · intro hkept
    refine ⟨numbers, hkeys, hsorted.imp_of_mem fun {i j} hi hj hlt => ?_⟩
    obtain ⟨r, hr⟩ := (hstored i).mp hi
    obtain ⟨s, hj⟩ := (hstored j).mp hj
    rcases Nat.lt_trichotomy i j with hless | rfl | hgreater
    · exact hless
    · exact absurd hlt (String.lt_irrefl _)
    · exact absurd ((attemptId_lt_iff nodeId hgreater).mp hlt) (hkept j i s r hj hr)

-- ── One more attempt ──────────────────────────────────────────────────────────

/-- Under the id of its number is the record of an appended attempt, and under the others is what
    was there. -/
theorem stores_appended {m : Nat} {a : AttemptRecord} (hid : r.id = attemptId nodeId n) :
    (Ledger.appended (some h) r).Stores nodeId m a ↔
      (m = n ∧ a = r) ∨ (m ≠ n ∧ h.Stores nodeId m a) := by
  show (h.attempts.insert r.id r).get? (attemptId nodeId m) = some a ↔ _
  rw [hid]
  by_cases hm : m = n
  · subst hm
    rw [Table.get?_insert_self]
    simp only [Option.some.injEq, true_and, ne_eq, not_true_eq_false, false_and, or_false, eq_comm]
  · have hne : attemptId nodeId n ≠ attemptId nodeId m := by
      intro heq
      exact hm (attemptId_injective nodeId heq).symm
    rw [Table.get?_insert_ne _ hne]
    simp only [hm, false_and, ne_eq, not_false_eq_true, true_and, false_or, Stores]

/-- Recording an attempt keeps all attempts under the ids of their numbers, as long as there is a
    next number. -/
theorem StoredByNumber.appended {a : AttemptInput} (hs : h.StoredByNumber a.nodeId)
    (hroom : h.totalAttempts.toNat + 1 < UInt64.size) (tacticKey : String) (now : Instant) :
    (Ledger.appended (some h) (Ledger.nextRecord (some h) a tacticKey now)).StoredByNumber
      a.nodeId := by
  generalize hr : Ledger.nextRecord (some h) a tacticKey now = r
  have hid : r.id = attemptId a.nodeId (h.totalAttempts + 1).toNat := hr ▸ rfl
  rw [Ledger.toNat_add_one hroom] at hid
  intro id stored hstored
  have hget : (h.attempts.insert r.id r).get? id = some stored := hstored
  by_cases hsame : r.id = id
  · rw [hsame, Table.get?_insert_self] at hget
    obtain rfl := Option.some.inj hget
    exact ⟨hsame, _, Nat.le_add_left 1 _, hsame ▸ hid⟩
  · rw [Table.get?_insert_ne _ hsame] at hget
    exact hs id stored hget

-- ── The newest attempt ────────────────────────────────────────────────────────

/-- Some attempt is the newest, if there is any. -/
theorem StoredByNumber.exists_isNewest (hs : h.StoredByNumber nodeId)
    (hr : r ∈ h.attempts.values) : ∃ n newest, h.IsNewest nodeId n newest := by
  obtain ⟨numbers, -, hstored⟩ := hs.exists_numbers
  -- the time and the number of an attempt, as a rank
  obtain ⟨rank, hrank⟩ : ∃ rank : Nat → Instant ×ₗ Nat, ∀ n a, h.Stores nodeId n a →
      rank n = toLex (a.timestamp, n) := by
    refine ⟨fun n => toLex (((h.attempts.get? (attemptId nodeId n)).getD default).timestamp, n),
      fun n a ha => ?_⟩
    have hget : h.attempts.get? (attemptId nodeId n) = some a := ha
    simp only [hget, Option.getD_some]
  obtain ⟨first, hfirst⟩ := hs.exists_stores hr
  obtain ⟨n, hn, hmax⟩ := numbers.toFinset.exists_max_image rank
    ⟨first, List.mem_toFinset.mpr ((hstored first).mpr ⟨r, hfirst⟩)⟩
  obtain ⟨newest, hnewest⟩ := (hstored n).mp (List.mem_toFinset.mp hn)
  refine ⟨n, newest, hnewest, fun m a ha => ?_⟩
  have hle := hmax m (List.mem_toFinset.mpr ((hstored m).mpr ⟨a, ha⟩))
  rwa [hrank m a ha, hrank n newest hnewest, Prod.Lex.toLex_le_toLex] at hle

/-- The newest attempt is the latest exactly if its number overtakes none of an attempt of its
    time. -/
theorem IsNewest.latest?_iff (hs : h.StoredByNumber nodeId) (hnewest : h.IsNewest nodeId n r) :
    h.latest? = some r ↔ h.NotOvertaking nodeId n r := by
  obtain ⟨hr, hall⟩ := hnewest
  obtain ⟨best, hbest, hlatest, hnone⟩ := exists_latest? hr.mem_values
  rw [hlatest, Option.some.injEq]
  constructor
  · rintro rfl m a ha hsame hovertakes
    rcases notBefore_iff.mp (hnone a ha.mem_values) with hlt | ⟨-, hid⟩
    · exact absurd (hsame ▸ hlt) (lt_irrefl _)
    · rw [hs.id_eq ha, hs.id_eq hr] at hid
      exact String.not_lt.mpr hid ((attemptId_lt_iff nodeId hovertakes.1).mpr hovertakes)
  · intro hkept
    obtain ⟨m, hm⟩ := hs.exists_stores hbest
    -- neither is before the other: they have one time, and each the greater id or number
    rcases notBefore_iff.mp (hnone r hr.mem_values) with hlater | ⟨hsame, hid⟩
    · rcases hall m best hm with hearlier | ⟨heq, -⟩
      · exact absurd hearlier (lt_asymm hlater)
      · exact absurd (heq ▸ hlater) (lt_irrefl _)
    · rcases hall m best hm with hearlier | ⟨-, hle⟩
      · exact absurd (hsame ▸ hearlier) (lt_irrefl _)
      · rw [hs.id_eq hr, hs.id_eq hm] at hid
        have hnumber : m = n := by
          by_contra hne
          have hlt := Nat.lt_of_le_of_ne hle hne
          have hnotless := fun h => hkept m best hm hsame.symm ((attemptId_lt_iff nodeId hlt).mp h)
          have hsameid := String.le_antisymm (String.not_lt.mp hnotless) hid
          exact hne (attemptId_injective nodeId hsameid)
        subst hnumber
        exact Option.some.inj (hm.symm.trans hr)

end NodeHistory

namespace Recommendation

/-- Whether neither the error of its node nor its status tells the category of an obligation. -/
def FallsBack (s : ProofState) (fileKey nodeId : String) : Prop :=
  ∀ node, s.node? fileKey nodeId = some node →
    node.errorCategory = none ∧ node.status.isOpen = false

/-- Without a category of its own a node is ranked for that of its latest attempt. -/
theorem FallsBack.category?_eq {s : ProofState} {fileKey nodeId : String}
    (hfalls : FallsBack s fileKey nodeId) : category? s fileKey nodeId =
      ((s.nodeHistory? fileKey nodeId).bind (·.latest?)).map (·.countedCategory) := by
  unfold category?
  cases hnode : s.node? fileKey nodeId with
  | none => rfl
  | some node =>
    obtain ⟨hnone, hclosed⟩ := hfalls node hnode
    simp only [hnone, hclosed, Bool.false_eq_true, if_false]

end Recommendation

namespace NodeHistory

variable {nodeId : String} {h : NodeHistory}

/-- In a history with its attempts under the ids of numbers, the attempts are listed in the order
    of their numbers exactly if none of these overtakes another. The newest of them is the latest
    exactly if its number overtakes none of an attempt of its time, and then tells the category of
    the obligation where nothing else does. Below a million no number overtakes another. -/
theorem recorded_order_unless_overtaken (hs : h.StoredByNumber nodeId) :
    (h.ListsByNumber nodeId ↔ ∀ i j r s, h.Stores nodeId i r → h.Stores nodeId j s →
      ¬ Overtakes j i) ∧
    (h.attempts.values ≠ [] → ∃ n r, h.IsNewest nodeId n r) ∧
    (∀ n r, h.IsNewest nodeId n r →
      (h.latest? = some r ↔ h.NotOvertaking nodeId n r) ∧
      ∀ (s : ProofState) fileKey, s.nodeHistory? fileKey nodeId = some h →
        Recommendation.FallsBack s fileKey nodeId → h.NotOvertaking nodeId n r →
        Recommendation.category? s fileKey nodeId = some r.countedCategory) ∧
    (∀ i j, Overtakes j i → 1000000 ≤ j) := by
  refine ⟨hs.listsByNumber_iff, fun hsome => ?_, fun n r hnewest => ⟨hnewest.latest?_iff hs, ?_⟩,
    fun i j => Overtakes.million_le⟩
  · obtain ⟨r, hr⟩ := List.exists_mem_of_ne_nil _ hsome
    exact hs.exists_isNewest hr
  · intro s fileKey hhistory hfalls hkept
    have hlatest := (hnewest.latest?_iff hs).mpr hkept
    rw [hfalls.category?_eq, hhistory, Option.bind_some, hlatest, Option.map_some]

-- ── Attempts at one time ──────────────────────────────────────────────────────

/-- A failed attempt on the obligation `n` of a file. -/
def failing (category : Category) : AttemptInput where
  fileKey := "Main.lean"
  nodeId := "n"
  tactic := "ring"
  result := .error
  category := some category

/-- The time of all attempts below. -/
def moment : Instant := ⟨1709294400, 0⟩

/-- The history of failed attempts one after the other, where as many as given went before that
    are no longer stored. -/
def failedAtOnce (before : Nat) (categories : List Category) : NodeHistory :=
  categories.foldl
    (fun h c => Ledger.appended (some h) (Ledger.nextRecord (some h) (failing c) "ring" moment))
    { totalAttempts := UInt64.ofNat before }

/-- A state with nothing but the history of an obligation. -/
def stateWith (h : NodeHistory) : ProofState where
  history := Table.empty.insert "Main.lean" (Table.empty.insert "n" h)

theorem nodeHistory?_stateWith (h : NodeHistory) :
    (stateWith h).nodeHistory? "Main.lean" "n" = some h := by
  show ((Table.empty.insert "Main.lean" (Table.empty.insert "n" h)).get? "Main.lean").bind
    (fun histories => histories.get? "n") = some h
  rw [Table.get?_insert_self, Option.bind_some, Table.get?_insert_self]

theorem fallsBack_stateWith (h : NodeHistory) :
    Recommendation.FallsBack (stateWith h) "Main.lean" "n" := by
  intro node hnode
  cases hnode

theorem failedAtOnce_append (before : Nat) (categories : List Category) (c : Category) :
    failedAtOnce before (categories ++ [c]) =
      Ledger.appended (some (failedAtOnce before categories))
        (Ledger.nextRecord (some (failedAtOnce before categories)) (failing c) "ring" moment) := by
  rw [failedAtOnce, List.foldl_append, List.foldl_cons, List.foldl_nil]
  rfl

/-- The failures at one instant are counted on from those before. -/
theorem totalAttempts_failedAtOnce (before : Nat) (categories : List Category) :
    (failedAtOnce before categories).totalAttempts = UInt64.ofNat (before + categories.length) := by
  induction categories using List.reverseRecOn with
  | nil => rfl
  | append_singleton categories c ih =>
    rw [failedAtOnce_append, List.length_append, List.length_singleton, ← Nat.add_assoc,
      UInt64.ofNat_add, ← ih]
    rfl

/-- The number of the next attempt, where there is one. -/
theorem nextNumber_failedAtOnce {before : Nat} {categories : List Category}
    (hroom : before + categories.length + 1 < UInt64.size) :
    (Ledger.attemptsSoFar (some (failedAtOnce before categories)) + 1).toNat =
      before + categories.length + 1 := by
  show ((failedAtOnce before categories).totalAttempts + 1).toNat = _
  rw [totalAttempts_failedAtOnce]
  show (UInt64.ofNat (before + categories.length) + UInt64.ofNat 1).toNat = _
  rw [← UInt64.ofNat_add, UInt64.toNat_ofNat_of_lt' hroom]

/-- The failures at one instant are stored by their numbers. -/
theorem storedByNumber_failedAtOnce {before : Nat} {categories : List Category}
    (hroom : before + categories.length < UInt64.size) :
    (failedAtOnce before categories).StoredByNumber "n" := by
  induction categories using List.reverseRecOn with
  | nil =>
    intro id r hr
    cases hr
  | append_singleton categories c ih =>
    rw [List.length_append, List.length_singleton] at hroom
    rw [failedAtOnce_append]
    refine StoredByNumber.appended (a := failing c) (ih (by omega)) ?_ "ring" moment
    rw [totalAttempts_failedAtOnce, UInt64.toNat_ofNat_of_lt' (by omega)]
    exact hroom

/-- The attempts have the numbers that follow, and one time. -/
theorem Stores.of_failedAtOnce {before m : Nat} {categories : List Category} {a : AttemptRecord}
    (hroom : before + categories.length < UInt64.size)
    (ha : (failedAtOnce before categories).Stores "n" m a) :
    (before < m ∧ m ≤ before + categories.length) ∧ a.timestamp = moment := by
  induction categories using List.reverseRecOn with
  | nil => cases ha
  | append_singleton categories c ih =>
    rw [List.length_append, List.length_singleton] at hroom
    rw [failedAtOnce_append, stores_appended rfl, nextNumber_failedAtOnce hroom] at ha
    rw [List.length_append, List.length_singleton]
    rcases ha with ⟨rfl, rfl⟩ | ⟨-, ha⟩
    · exact ⟨by omega, rfl⟩
    · obtain ⟨hnumber, htime⟩ := ih (by omega) ha
      exact ⟨by omega, htime⟩

/-- The last attempt is the newest. -/
theorem isNewest_failedAtOnce (before : Nat) (categories : List Category) (c : Category)
    (hroom : before + categories.length + 1 < UInt64.size) :
    (failedAtOnce before (categories ++ [c])).IsNewest "n" (before + categories.length + 1)
      (Ledger.nextRecord (some (failedAtOnce before categories)) (failing c) "ring" moment) := by
  refine ⟨?_, fun m a ha => ?_⟩
  · rw [failedAtOnce_append, stores_appended rfl, nextNumber_failedAtOnce hroom]
    exact Or.inl ⟨rfl, rfl⟩
  · have hlength : (categories ++ [c]).length = categories.length + 1 := by
      rw [List.length_append, List.length_singleton]
    obtain ⟨hnumber, htime⟩ := Stores.of_failedAtOnce (hlength ▸ hroom) ha
    rw [hlength] at hnumber
    exact Or.inr ⟨htime, hnumber.2⟩

/-- Three attempts with numbers of seven digits are in order. -/
theorem recorded_order_unless_overtaken_sevenDigits :
    (failedAtOnce 1000000 [.typeMismatch, .other, .timeout]).StoredByNumber "n" ∧
    (failedAtOnce 1000000 [.typeMismatch, .other, .timeout]).ListsByNumber "n" ∧
    Recommendation.category? (stateWith (failedAtOnce 1000000 [.typeMismatch, .other, .timeout]))
      "Main.lean" "n" = some .timeout := by
  have hroom : 1000000 + [Category.typeMismatch, .other, .timeout].length < UInt64.size := by
    decide
  have hs := storedByNumber_failedAtOnce hroom
  obtain ⟨hlists, -, hnewest, -⟩ := recorded_order_unless_overtaken hs
  have hkept : ∀ {i j r s},
      (failedAtOnce 1000000 [.typeMismatch, .other, .timeout]).Stores "n" i r →
      (failedAtOnce 1000000 [.typeMismatch, .other, .timeout]).Stores "n" j s →
      ¬ Overtakes j i := by
    intro i j r s hi hj
    obtain ⟨⟨hi, hi'⟩, -⟩ := hi.of_failedAtOnce hroom
    obtain ⟨⟨hj, hj'⟩, -⟩ := hj.of_failedAtOnce hroom
    rw [List.length_cons, List.length_cons, List.length_singleton] at hi' hj'
    interval_cases i <;> interval_cases j <;> decide
  have hlast := isNewest_failedAtOnce 1000000 [.typeMismatch, .other] .timeout hroom
  refine ⟨hs, hlists.mpr fun i j r s => hkept, ?_⟩
  exact (hnewest _ _ hlast).2 _ _ (nodeHistory?_stateWith _) (fallsBack_stateWith _)
    fun m a ha _ => hkept ha hlast.1

/-- The attempts with the numbers 999999 and 1000000 are listed the other way round, and of the
    two at one time the first one is the latest. -/
theorem not_recorded_order_millionth :
    (failedAtOnce 999998 [.typeMismatch, .timeout]).StoredByNumber "n" ∧
    ¬ (failedAtOnce 999998 [.typeMismatch, .timeout]).ListsByNumber "n" ∧
    (∃ r, (failedAtOnce 999998 [.typeMismatch, .timeout]).IsNewest "n" 1000000 r ∧
      r.countedCategory = .timeout ∧
      (failedAtOnce 999998 [.typeMismatch, .timeout]).latest? ≠ some r) ∧
    Recommendation.category? (stateWith (failedAtOnce 999998 [.typeMismatch, .timeout]))
      "Main.lean" "n" = some .typeMismatch := by
  have hroom : 999998 + [Category.typeMismatch, .timeout].length < UInt64.size := by decide
  have hs := storedByNumber_failedAtOnce hroom
  have hfirst : (failedAtOnce 999998 [.typeMismatch, .timeout]).Stores "n" 999999
      (Ledger.nextRecord (some (failedAtOnce 999998 [])) (failing .typeMismatch) "ring" moment) :=
    rfl
  have hlast := isNewest_failedAtOnce 999998 [.typeMismatch] .timeout hroom
  have hovertakes : Overtakes 1000000 999999 := by decide
  refine ⟨hs, fun hlists => ?_, ⟨_, hlast, rfl, fun hlatest => ?_⟩, by decide +kernel⟩
  · exact hs.listsByNumber_iff.mp hlists _ _ _ _ hfirst hlast.1 hovertakes
  · exact (hlast.latest?_iff hs).mp hlatest _ _ hfirst rfl hovertakes

end NodeHistory

end ProofLedger

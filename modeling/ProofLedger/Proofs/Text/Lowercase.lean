import ProofLedger.Proofs.Text.Respacing
import ProofLedger.Text.Lowercase

/-!
# Small letters

Lower case leaves small letters alone, and it yields nothing else: no image of a capital letter is
a capital letter again. So it makes no difference to have a text in lower case twice
(`lowerChars_lowerChars`). Nor does it make blanks of letters (`isBlank_lowerChars`).

Both are read off the table of the mapping, run by run: the images of a run lie before or behind
another run as a whole, or else between its members, when both have every second character.
-/

namespace ProofLedger.Text

-- ── Runs ──────────────────────────────────────────────────────────────────────

/-- A run of the mapping: its first and last character, its step and its offset. -/
abbrev LowerRun := Nat × Nat × Nat × Int

namespace LowerRun

/-- Whether a run maps a character. -/
def maps (run : LowerRun) (n : Nat) : Bool :=
  run.1 ≤ n && n ≤ run.2.1 && (n - run.1) % run.2.2.1 == 0

/-- Where a run takes a character. -/
def image (run : LowerRun) (n : Nat) : Nat := ((n : Int) + run.2.2.2).toNat

/-- Whether no image of one run can be a member of another. -/
def avoids (run other : LowerRun) : Bool :=
  (image run run.2.1).blt other.1 || other.2.1.blt (image run run.1) ||
    (other.2.2.1 == 2 && (run.2.2.1 == 2 || run.1 == run.2.1) &&
      image run run.1 % 2 != other.1 % 2)

/-- The letters of a run go where another run does not map them on. -/
theorem maps_image {run other : LowerRun} {n : Nat} (havoids : avoids run other = true)
    (hpos : 0 ≤ (run.1 : Int) + run.2.2.2) (hn : maps run n = true) :
    maps other (image run n) = false := by
  obtain ⟨first, last, step, offset⟩ := run
  obtain ⟨first', last', step', offset'⟩ := other
  simp only [maps, Bool.and_eq_true, decide_eq_true_eq, beq_iff_eq] at hn
  obtain ⟨⟨hfirst, hlast⟩, hstep⟩ := hn
  simp only [avoids, Bool.or_eq_true, Bool.and_eq_true, Nat.blt_eq, beq_iff_eq,
    bne_iff_ne] at havoids
  have hlow : ((first : Int) + offset).toNat ≤ ((n : Int) + offset).toNat := by omega
  have hhigh : ((n : Int) + offset).toNat ≤ ((last : Int) + offset).toNat := by omega
  rw [Bool.eq_false_iff]
  intro hmaps
  simp only [maps, Bool.and_eq_true, decide_eq_true_eq, beq_iff_eq] at hmaps
  obtain ⟨⟨hfirst', hlast'⟩, hstep'⟩ := hmaps
  simp only [image] at havoids hfirst' hlast' hstep' hpos
  rcases havoids with (hbefore | hbehind) | ⟨⟨rfl, hrun⟩, hparity⟩
  · omega
  · omega
  · -- both are runs of every second character, and they start on different sides
    have heven : (n - first) % 2 = 0 := by
      rcases hrun with rfl | rfl
      · exact hstep
      · omega
    omega

end LowerRun

open LowerRun (maps image avoids)

/-- The runs of all letters that are not small: those of ASCII, the two that are mapped on their
    own, and those of the table. -/
def capitals : List LowerRun :=
  (0x41, 0x5A, 1, 32) :: (0x130, 0x130, 1, 0) :: (0x3A3, 0x3A3, 1, 32) :: lowerRuns.toList

/-- No run leads to a capital letter. -/
theorem avoids_capitals {run other : LowerRun} (hrun : run ∈ lowerRuns.toList)
    (hother : other ∈ capitals) : avoids run other = true := by
  have hall : (lowerRuns.toList.all fun run => capitals.all (avoids run)) = true := by
    decide +kernel
  exact List.all_eq_true.mp (List.all_eq_true.mp hall run hrun) other hother

theorem lowerRuns_pos : ∀ run ∈ lowerRuns.toList, 0 ≤ (run.1 : Int) + run.2.2.2 := by
  decide +kernel

theorem capitals_cases : ∀ run ∈ capitals, run = (0x41, 0x5A, 1, 32) ∨ 128 ≤ run.1 := by
  decide +kernel

/-- A run maps nothing below its first letter. -/
theorem maps_of_lt {run : LowerRun} {n : Nat} (h : n < run.1) : maps run n = false := by
  rw [maps, decide_eq_false (Nat.not_le.mpr h)]
  rfl

/-- A character is small if it is no capital letter, whatever it is otherwise. -/
def IsSmall (c : Char) : Prop := ∀ run ∈ capitals, maps run c.toNat = false

instance (c : Char) : Decidable (IsSmall c) :=
  inferInstanceAs (Decidable (∀ run ∈ capitals, maps run c.toNat = false))

-- ── Single characters ─────────────────────────────────────────────────────────

/-- In ASCII only one run has to be looked at. -/
theorem isSmall_of_ascii {c : Char} (h : c.toNat < 128)
    (hc : maps (0x41, 0x5A, 1, 32) c.toNat = false) : IsSmall c := by
  intro run hrun
  rcases capitals_cases run hrun with rfl | hbeyond
  · exact hc
  · exact maps_of_lt (Nat.lt_of_lt_of_le h hbeyond)

/-- A property of all ASCII characters can be checked. -/
theorem forall_ascii {p : Char → Prop} (h : ∀ n < 128, p (Char.ofNat n)) {c : Char}
    (hc : c.toNat < 128) : p c := by
  have hp := h c.toNat hc
  rwa [Char.ofNat_toNat] at hp

/-- What an ASCII letter becomes is small. -/
theorem isSmall_toLower {c : Char} (h : c.toNat < 128) : IsSmall c.toLower := by
  have hall : ∀ n < 128, (Char.ofNat n).toLower.toNat < 128 ∧
      maps (0x41, 0x5A, 1, 32) (Char.ofNat n).toLower.toNat = false := by
    decide +kernel
  obtain ⟨hascii, hc⟩ := forall_ascii (p := fun c => c.toLower.toNat < 128 ∧
    maps (0x41, 0x5A, 1, 32) c.toLower.toNat = false) hall h
  exact isSmall_of_ascii hascii hc

/-- What is small stays as it is. -/
theorem toLower_of_isSmall {c : Char} (h : c.toNat < 128) (hc : IsSmall c) : c.toLower = c := by
  have hall : ∀ n < 128, maps (0x41, 0x5A, 1, 32) (Char.ofNat n).toNat = false →
      (Char.ofNat n).toLower = Char.ofNat n := by
    decide +kernel
  exact forall_ascii (p := fun c => maps (0x41, 0x5A, 1, 32) c.toNat = false → c.toLower = c)
    hall h (hc _ List.mem_cons_self)

/-- The character of a number has this number, or none at all. -/
theorem toNat_ofNat (n : Nat) : (Char.ofNat n).toNat = n ∨ (Char.ofNat n).toNat = 0 := by
  by_cases h : n.isValidChar
  · rw [Char.ofNat, dif_pos h]
    exact .inl rfl
  · rw [Char.ofNat, dif_neg h]
    exact .inr rfl

/-- What becomes of a character: within ASCII it has a small form of its own, beyond it is the
    image in the first run that maps it, or stays. -/
theorem lowerChar_cases (c : Char) :
    (c.toNat < 128 ∧ lowerChar c = c.toLower) ∨
      (128 ≤ c.toNat ∧ lowerChar c = c ∧ ∀ run ∈ lowerRuns.toList, maps run c.toNat = false) ∨
      (128 ≤ c.toNat ∧ ∃ run ∈ lowerRuns.toList, maps run c.toNat = true ∧
        lowerChar c = Char.ofNat (image run c.toNat)) := by
  have hfind : (lowerRuns.find? fun run => maps run c.toNat) =
      lowerRuns.toList.find? fun run => maps run c.toNat := Array.find?_toList.symm
  have hascii : c.val < 128 ↔ c.toNat < 128 := UInt32.lt_iff_toNat_lt
  by_cases h : c.toNat < 128
  · exact .inl ⟨h, if_pos (hascii.mpr h)⟩
  · have hval : ¬ c.val < 128 := fun hlt => h (hascii.mp hlt)
    right
    rw [lowerChar, if_neg hval]
    dsimp only
    split
    · next lo hi step offset hrun =>
      have hrun' := hfind.symm.trans hrun
      exact .inr ⟨Nat.not_lt.mp h, (lo, hi, step, offset), List.mem_of_find?_eq_some hrun',
        List.find?_some (p := fun run => maps run c.toNat) hrun', rfl⟩
    · next hrun =>
      refine .inl ⟨Nat.not_lt.mp h, rfl, fun run hmem => ?_⟩
      exact Bool.eq_false_iff.mpr (List.find?_eq_none.mp (hfind.symm.trans hrun) run hmem)

/-- What is small stays as it is. -/
theorem lowerChar_of_isSmall {c : Char} (hc : IsSmall c) : lowerChar c = c := by
  rcases lowerChar_cases c with ⟨h, heq⟩ | ⟨-, heq, -⟩ | ⟨-, run, hrun, hmaps, -⟩
  · rw [heq, toLower_of_isSmall h hc]
  · exact heq
  · have hmem : run ∈ capitals := by
      rw [capitals]
      exact List.mem_cons_of_mem _ (List.mem_cons_of_mem _ (List.mem_cons_of_mem _ hrun))
    rw [hc run hmem] at hmaps
    cases hmaps

/-- Apart from the two letters that are mapped on their own, the lower-case form is small. -/
theorem isSmall_lowerChar {c : Char} (hdotted : c.toNat ≠ 0x130) (hsigma : c.toNat ≠ 0x3A3) :
    IsSmall (lowerChar c) := by
  rcases lowerChar_cases c with ⟨h, heq⟩ | ⟨hbeyond, heq, hnone⟩ | ⟨-, run, hrun, hmaps, heq⟩
  · rw [heq]
    exact isSmall_toLower h
  · rw [heq]
    intro run hrun
    rw [capitals, List.mem_cons, List.mem_cons, List.mem_cons] at hrun
    rcases hrun with rfl | rfl | rfl | hrun
    · simp only [maps, Bool.and_eq_false_iff, decide_eq_false_iff_not]
      omega
    · simp only [maps, Bool.and_eq_false_iff, decide_eq_false_iff_not]
      omega
    · simp only [maps, Bool.and_eq_false_iff, decide_eq_false_iff_not]
      omega
    · exact hnone run hrun
  · rw [heq]
    intro other hother
    rcases toNat_ofNat (image run c.toNat) with hnat | hnat
    · rw [hnat]
      exact LowerRun.maps_image (avoids_capitals hrun hother) (lowerRuns_pos run hrun)
        hmaps
    · rw [hnat]
      refine maps_of_lt ?_
      rcases capitals_cases other hother with rfl | hbeyond
      · decide
      · omega

/-- The images of capital letters lie before or behind a blank. -/
theorem blankCodes_beside : ∀ run ∈ lowerRuns.toList, ∀ code ∈ blankCodes,
    image run run.2.1 < code ∨ code < image run run.1 := by
  decide +kernel

/-- What is not blank does not become so. -/
theorem isBlank_lowerChar {c : Char} (h : isBlank c = false) : isBlank (lowerChar c) = false := by
  rcases lowerChar_cases c with ⟨hascii, heq⟩ | ⟨-, heq, -⟩ | ⟨-, run, hrun, hmaps, heq⟩
  · have hall : ∀ n < 128, isBlank (Char.ofNat n) = false →
        isBlank (Char.ofNat n).toLower = false := by
      decide +kernel
    rw [heq]
    exact forall_ascii (p := fun c => isBlank c = false → isBlank c.toLower = false) hall hascii h
  · rw [heq]
    exact h
  · rw [heq, Bool.eq_false_iff]
    intro hblank
    have hcode := mem_blankCodes hblank
    rcases toNat_ofNat (image run c.toNat) with hnat | hnat
    · rw [hnat] at hcode
      have hbeside := blankCodes_beside run hrun _ hcode
      simp only [maps, Bool.and_eq_true, decide_eq_true_eq] at hmaps
      simp only [image] at hbeside
      omega
    · rw [hnat] at hcode
      exact absurd hcode (by decide)

-- ── Texts ─────────────────────────────────────────────────────────────────────

/-- What one character of a text becomes, between what precedes it and the rest. -/
def smallForms (before : List Char) (c : Char) (rest : List Char) : List Char :=
  if c.val == 0x3A3 then [if meetsCased before && !meetsCased rest then 'ς' else 'σ']
  else if c.val == 0x130 then ['i', Char.ofNat 0x307]
  else [lowerChar c]

/-- The first character is made small, knowing what stands around it. -/
theorem lowerAfter_cons (before : List Char) (c : Char) (rest : List Char) :
    lowerAfter before (c :: rest) = smallForms before c rest ++ lowerAfter (c :: before) rest := rfl

/-- A capital sigma becomes one of two letters, a dotted capital I a letter and a mark, and
    everything else one character. -/
theorem smallForms_cases (before : List Char) (c : Char) (rest : List Char) :
    (c.toNat = 0x3A3 ∧ (smallForms before c rest = ['ς'] ∨ smallForms before c rest = ['σ'])) ∨
      (c.toNat = 0x130 ∧ smallForms before c rest = ['i', Char.ofNat 0x307]) ∨
      (c.toNat ≠ 0x130 ∧ c.toNat ≠ 0x3A3 ∧ smallForms before c rest = [lowerChar c]) := by
  have hval : ∀ n : UInt32, c.val = n ↔ c.toNat = n.toNat := fun n => UInt32.toNat_inj.symm
  rw [smallForms]
  by_cases hsigma : c.val = 0x3A3
  · rw [if_pos (beq_iff_eq.mpr hsigma)]
    left
    refine ⟨(hval _).mp hsigma, ?_⟩
    by_cases hfinal : (meetsCased before && !meetsCased rest) = true
    · exact .inl (by rw [if_pos hfinal])
    · exact .inr (by rw [if_neg hfinal])
  · rw [if_neg (by rwa [beq_iff_eq])]
    right
    by_cases hdotted : c.val = 0x130
    · rw [if_pos (beq_iff_eq.mpr hdotted)]
      exact .inl ⟨(hval _).mp hdotted, rfl⟩
    · rw [if_neg (by rwa [beq_iff_eq])]
      exact .inr ⟨fun h => hdotted ((hval _).mpr h), fun h => hsigma ((hval _).mpr h), rfl⟩

/-- What is small stays as it is, wherever it stands. -/
theorem smallForms_of_isSmall {c : Char} (hc : IsSmall c) (before rest : List Char) :
    smallForms before c rest = [c] := by
  have hdotted : (0x130, 0x130, 1, 0) ∈ capitals := by decide +kernel
  have hsigma : (0x3A3, 0x3A3, 1, 32) ∈ capitals := by decide +kernel
  rcases smallForms_cases before c rest with ⟨h, -⟩ | ⟨h, -⟩ | ⟨-, -, heq⟩
  · have hnot := hc _ hsigma
    rw [h] at hnot
    cases hnot
  · have hnot := hc _ hdotted
    rw [h] at hnot
    cases hnot
  · rw [heq, lowerChar_of_isSmall hc]

/-- What holds of the forms of the two letters and of all others in lower case holds of every
    form. -/
theorem of_mem_smallForms {p : Char → Prop}
    (hfixed : (p 'ς' ∧ p 'σ') ∧ p 'i' ∧ p (Char.ofNat 0x307)) {before rest : List Char} {c d : Char}
    (hlower : c.toNat ≠ 0x130 → c.toNat ≠ 0x3A3 → p (lowerChar c))
    (h : d ∈ smallForms before c rest) : p d := by
  obtain ⟨⟨hfinal, hsigma⟩, hi, hdot⟩ := hfixed
  rcases smallForms_cases before c rest with ⟨-, heq | heq⟩ | ⟨-, heq⟩ | ⟨hne, hne', heq⟩
  · rw [heq, List.mem_singleton] at h
    exact h ▸ hfinal
  · rw [heq, List.mem_singleton] at h
    exact h ▸ hsigma
  · rw [heq, List.mem_pair] at h
    rcases h with rfl | rfl
    · exact hi
    · exact hdot
  · rw [heq, List.mem_singleton] at h
    exact h ▸ hlower hne hne'

/-- Everything is made small. -/
theorem isSmall_of_mem_smallForms {before rest : List Char} {c d : Char}
    (h : d ∈ smallForms before c rest) : IsSmall d :=
  of_mem_smallForms (by decide +kernel) isSmall_lowerChar h

/-- What is not blank does not become so, wherever it stands. -/
theorem isBlank_of_mem_smallForms {before rest : List Char} {c d : Char}
    (hc : isBlank c = false) (h : d ∈ smallForms before c rest) : isBlank d = false :=
  of_mem_smallForms (p := fun d => isBlank d = false) (by decide)
    (fun _ _ => isBlank_lowerChar hc) h

/-- A small text stays as it is, whatever comes before. -/
theorem lowerAfter_of_isSmall {cs : List Char} (h : ∀ c ∈ cs, IsSmall c) (before : List Char) :
    lowerAfter before cs = cs := by
  induction cs generalizing before with
  | nil => rfl
  | cons c r ih =>
    obtain ⟨hc, hr⟩ := List.forall_mem_cons.mp h
    rw [lowerAfter_cons, smallForms_of_isSmall hc, ih hr]
    rfl

/-- Lower case yields small characters, each of them from one of the text. -/
theorem of_mem_lowerAfter {cs before : List Char} {d : Char} (h : d ∈ lowerAfter before cs) :
    IsSmall d ∧ ((∀ c ∈ cs, isBlank c = false) → isBlank d = false) := by
  induction cs generalizing before with
  | nil => cases h
  | cons c r ih =>
    rw [lowerAfter_cons] at h
    rcases List.mem_append.mp h with h | h
    · refine ⟨isSmall_of_mem_smallForms h, fun hcs => ?_⟩
      exact isBlank_of_mem_smallForms (hcs c List.mem_cons_self) h
    · obtain ⟨hsmall, hblank⟩ := ih h
      exact ⟨hsmall, fun hcs => hblank fun c' hc' => hcs c' (List.mem_cons_of_mem c hc')⟩

/-- A text in lower case is in lower case. -/
theorem lowerChars_lowerChars (cs : List Char) : lowerChars (lowerChars cs) = lowerChars cs :=
  lowerAfter_of_isSmall (fun _ hc => (of_mem_lowerAfter hc).1) []

/-- A text without blanks has none in lower case. -/
theorem isBlank_lowerChars {cs : List Char} (h : ∀ c ∈ cs, isBlank c = false) :
    ∀ c ∈ lowerChars cs, isBlank c = false :=
  fun _ hc => (of_mem_lowerAfter hc).2 h

end ProofLedger.Text

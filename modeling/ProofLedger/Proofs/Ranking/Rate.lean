import Mathlib.Algebra.Group.Nat.Defs
import Mathlib.Tactic.Common
import ProofLedger.PatternEntry

/-!
# Shares are finite

A share of successes is a quotient of two words of 64 bits. A word that is not zero becomes a
normal double whose exponent lies within narrow bounds, and the quotient of two such doubles is
rounded to one of the same kind. A share therefore never leaves the finite range and can always
be written as a JSON number.
-/

namespace ProofLedger

namespace Doubles

open Float.Model Float.Model.UnpackedFloat

/-- A positive normal double with an exponent between two bounds. -/
def NormalWithin (low high : Int) (x : UnpackedFloat) : Prop :=
  ∃ (s : Sign) (m : Nat) (e : Int) (hm : 0 < m),
    x = .finite s m e hm ∧ 2 ^ 52 ≤ m ∧ m < 2 ^ 53 ∧ low ≤ e ∧ e ≤ high

/-- The bounds of an exponent may be widened. -/
theorem NormalWithin.mono {low high low' high' : Int} {x : UnpackedFloat}
    (h : NormalWithin low high x) (hlow : low' ≤ low) (hhigh : high ≤ high') :
    NormalWithin low' high' x := by
  obtain ⟨s, m, e, hm, hx, hml, hmh, hl, hh⟩ := h
  exact ⟨s, m, e, hm, hx, hml, hmh, by omega, by omega⟩

/-- A normal double is finite. -/
theorem NormalWithin.isFinite {low high : Int} {x : UnpackedFloat}
    (h : NormalWithin low high x) : x.isFinite = true := by
  obtain ⟨s, m, e, hm, rfl, _⟩ := h
  rfl

-- ── Rounding ──────────────────────────────────────────────────────────────────

/-- The logarithm of a number between two powers of two. -/
private theorem log2_of_bounds {m k : Nat} (hlow : 2 ^ k ≤ m) (hhigh : m < 2 ^ (k + 1)) :
    m.log2 = k :=
  (Nat.log2_eq_iff (Nat.ne_of_gt (Nat.lt_of_lt_of_le (Nat.two_pow_pos k) hlow))).mpr
    ⟨hlow, hhigh⟩

/-- Of a number of 53 bits and `k` more, dropping the last `k` leaves 53 bits. -/
private theorem div_two_pow_bounds {m k : Nat} (hlow : 2 ^ (52 + k) ≤ m)
    (hhigh : m < 2 ^ (53 + k)) : 2 ^ 52 ≤ m / 2 ^ k ∧ m / 2 ^ k < 2 ^ 53 := by
  constructor
  · rw [Nat.le_div_iff_mul_le (Nat.two_pow_pos k), ← Nat.pow_add]
    exact hlow
  · rw [Nat.div_lt_iff_lt_mul (Nat.two_pow_pos k), ← Nat.pow_add]
    exact hhigh

/-- A number below `2 ^ 54` has 53 bits or one more. -/
private theorem bits_of_bounds {m : Nat} (hlow : 2 ^ 52 ≤ m) (hhigh : m < 2 ^ 54) :
    ∃ j ≤ 1, 2 ^ (52 + j) ≤ m ∧ m < 2 ^ (53 + j) := by
  by_cases hcarry : m < 2 ^ 53
  · exact ⟨0, by omega, hlow, hcarry⟩
  · exact ⟨1, by omega, by omega, hhigh⟩

private theorem shift_mantissa (em : ExtendedMantissa) (k : Nat) :
    (em >>> k).mantissa = em.mantissa / 2 ^ k := by
  induction k with
  | zero => exact (Nat.div_one _).symm
  | succ k ih =>
    show (em >>> k).mantissa / 2 = _
    rw [ih, Nat.div_div_eq_div_mul, Nat.pow_succ]

private theorem roundedMantissa_bounds (em : ExtendedMantissa) :
    em.mantissa ≤ em.roundedMantissa ∧ em.roundedMantissa ≤ em.mantissa + 1 := by
  obtain ⟨m, round, sticky⟩ := em
  cases round <;> cases sticky <;>
    simp only [ExtendedMantissa.roundedMantissa, ExtendedMantissa.accuracy,
      Accuracy.roundToNearestEven] <;> omega

private theorem ofMantissaAndAccuracy_mantissa (m : Nat) (a : Accuracy) :
    (ExtendedMantissa.ofMantissaAndAccuracy m a).mantissa = m := by
  cases a with
  | exact => rfl
  | inexact o => cases o <;> rfl

private theorem mantissaBits_binary64 : Format.binary64.mantissaBits = 53 := rfl

/-- Where a mantissa of 53 significant bits and `k` more is shifted to. -/
private theorem shiftToTarget {m k : Nat} {e : Int} (a : Accuracy) (hlow : 2 ^ (52 + k) ≤ m)
    (hhigh : m < 2 ^ (53 + k)) (he : -1074 ≤ e + k) :
    (shiftToTargetExponent Format.binary64 m e a).1.mantissa = m / 2 ^ k ∧
      (shiftToTargetExponent Format.binary64 m e a).2 = e + k := by
  have hlog : m.log2 = 52 + k :=
    log2_of_bounds hlow (by rwa [show 52 + k + 1 = 53 + k by omega])
  have htarget : Format.binary64.targetExponent (totalExponent m e) = e + k := by
    simp only [Format.targetExponent, totalExponent, hlog, mantissaBits_binary64,
      Format.minExponent]
    omega
  have hshift : (e + k - e).toNat = k := by omega
  simp only [shiftToTargetExponent, shiftToExponent, htarget, hshift, shift_mantissa,
    ofMantissaAndAccuracy_mantissa, and_self]

/-- A mantissa is shifted, rounded and shifted again; what is left then is the result. -/
private theorem roundWithAccuracy_of_ne_zero (s : Sign) {m r m' : Nat} {e e' e'' : Int}
    {a : Accuracy}
    (hr : (shiftToTargetExponent Format.binary64 m e a).1.roundedMantissa = r)
    (he' : (shiftToTargetExponent Format.binary64 m e a).2 = e')
    (hm' : (shiftToTargetExponent Format.binary64 r e' .exact).1.mantissa = m')
    (he'' : (shiftToTargetExponent Format.binary64 r e' .exact).2 = e'') (hne : m' ≠ 0) :
    ∃ hpos, roundWithAccuracy Format.binary64 s m e a = .finite s m' e'' hpos := by
  subst hr he' hm' he''
  exact ⟨_, dif_neg hne⟩

/-- A mantissa of at least 53 bits is rounded to a normal double; its exponent is that of the
    last bit that is kept, or one more if rounding carries. -/
private theorem round_normal (s : Sign) {m k : Nat} {e : Int} (a : Accuracy)
    (hlow : 2 ^ (52 + k) ≤ m) (hhigh : m < 2 ^ (53 + k)) (he : -1074 ≤ e + k) :
    NormalWithin (e + k) (e + k + 1) (roundWithAccuracy Format.binary64 s m e a) := by
  obtain ⟨hfirst, hexp⟩ := shiftToTarget a hlow hhigh he
  have hquot := div_two_pow_bounds hlow hhigh
  have hround := roundedMantissa_bounds (shiftToTargetExponent Format.binary64 m e a).1
  rw [hfirst] at hround
  generalize hr : (shiftToTargetExponent Format.binary64 m e a).1.roundedMantissa = r at hround
  -- The second shift acts only if rounding carried into a new bit.
  obtain ⟨j, hj, hrlow, hrhigh⟩ := bits_of_bounds (m := r) (by omega) (by omega)
  obtain ⟨hmant, hlast⟩ := shiftToTarget (e := e + k) .exact hrlow hrhigh (by omega)
  have hfinal := div_two_pow_bounds hrlow hrhigh
  obtain ⟨hpos, hrounded⟩ := roundWithAccuracy_of_ne_zero s hr hexp hmant hlast (by omega)
  exact ⟨s, _, _, hpos, hrounded, hfinal.1, hfinal.2, by omega, by omega⟩

/-- The bits of a normal double: its biased exponent, and its mantissa without the first bit. -/
private theorem pack_normal (s : Sign) {m : Nat} {e : Int} (hm : 0 < m) (hlow : 2 ^ 52 ≤ m)
    (hhigh : m < 2 ^ 53) (he : e ≤ 971) :
    UnpackedFloat.pack Format.binary64 (.finite s m e hm) =
      packComponents Format.binary64 s (BitVec.ofNat 11 (e + 1075).toNat) (BitVec.ofNat 52 m) := by
  have hbits : m.log2 + 1 = Format.binary64.mantissaBits := by
    rw [log2_of_bounds hlow hhigh]; rfl
  have hbias : (e + Format.binary64.exponentBias +
      Format.binary64.mantissaBitsWithoutImplicit).toNat = (e + 1075).toNat := by
    show (e + 1023 + 52).toNat = _
    omega
  have hfits : ¬ 2 ^ Format.binary64.exponentBits ≤ (e + 1075).toNat + 1 := by
    show ¬ 2048 ≤ _
    omega
  show (if 2 ^ Format.binary64.exponentBits ≤ (e + Format.binary64.exponentBias +
      Format.binary64.mantissaBitsWithoutImplicit).toNat + 1 then _ else
    if m.log2 + 1 = Format.binary64.mantissaBits then _ else _) = _
  rw [hbias, if_neg hfits, if_pos hbits]

/-- The first bit of a mantissa is known, so the others determine it. -/
private theorem toNat_mantissa {m : Nat} (hlow : 2 ^ 52 ≤ m) (hhigh : m < 2 ^ 53) :
    (1#1 ++ BitVec.ofNat 52 m).toNat = m := by
  have hrest : (BitVec.ofNat 52 m).toNat = m % 2 ^ 52 := BitVec.toNat_ofNat m 52
  rw [BitVec.toNat_append, hrest, ← Nat.shiftLeft_add_eq_or_of_lt
    (Nat.mod_lt m (Nat.two_pow_pos 52))]
  show 1 <<< 52 + m % 2 ^ 52 = m
  rw [Nat.shiftLeft_eq]
  omega

/-- Bits whose exponent is neither zero nor all ones are those of a normal double. -/
private theorem unpack_normal (b : BitVec Format.binary64.numBits)
    (hone : unpackExponent b ≠ -1#11)
    (hzero : unpackExponent b ≠ 0#11) :
    ∃ s hm, UnpackedFloat.unpack Format.binary64 b = .finite s (1#1 ++ unpackMantissa b).toNat
      ((unpackExponent b).toNat - (1023 + 52)) hm :=
  ⟨_, _, (if_neg hone).trans (if_neg hzero)⟩

/-- A normal double is still one after it was packed, its exponent unchanged. -/
private theorem unpack_pack {low high : Int} {x : UnpackedFloat} (h : NormalWithin low high x)
    (hlow : -1074 ≤ low) (hhigh : high ≤ 971) :
    NormalWithin low high (Float.Model.pack x).unpack := by
  obtain ⟨s, m, e, hm, rfl, hmlow, hmhigh, he, he'⟩ := h
  have hexp : (BitVec.ofNat 11 (e + 1075).toNat).toNat = (e + 1075).toNat := by
    rw [BitVec.toNat_ofNat, Nat.mod_eq_of_lt (by omega)]
  -- The biased exponent is neither zero nor all ones.
  have hone : BitVec.ofNat 11 (e + 1075).toNat ≠ -1#11 := by
    intro h
    have : (e + 1075).toNat = 2047 := by rw [← hexp, h]; rfl
    omega
  have hzero : BitVec.ofNat 11 (e + 1075).toNat ≠ 0#11 := by
    intro h
    have : (e + 1075).toNat = 0 := by rw [← hexp, h]; rfl
    omega
  have hmant := toNat_mantissa hmlow hmhigh
  show NormalWithin low high (UnpackedFloat.unpack Format.binary64
    (UnpackedFloat.pack Format.binary64 (.finite s m e hm)))
  rw [pack_normal s hm hmlow hmhigh (by omega)]
  obtain ⟨s', hm', hunpacked⟩ := unpack_normal (packComponents Format.binary64 s
    (BitVec.ofNat 11 (e + 1075).toNat) (BitVec.ofNat 52 m))
    (by rwa [unpackExponent_packComponents]) (by rwa [unpackExponent_packComponents])
  refine ⟨s', _, _, hm', hunpacked, ?_, ?_, ?_, ?_⟩
  · rw [unpackMantissa_packComponents, hmant]
    exact hmlow
  · rw [unpackMantissa_packComponents, hmant]
    exact hmhigh
  · rw [unpackExponent_packComponents]
    omega
  · rw [unpackExponent_packComponents]
    omega

-- ── Words ─────────────────────────────────────────────────────────────────────

/-- A word that is not zero becomes a normal double between one and `2 ^ 64`. -/
private theorem normal_ofUInt64 {n : UInt64} (h : n ≠ 0) :
    NormalWithin (-52) 12 (Float.Model.ofUInt64 n).unpack := by
  have hpos : 0 < n.toNat := by
    rcases Nat.eq_zero_or_pos n.toNat with hz | hz
    · exact absurd (UInt64.toNat_inj.mp hz) h
    · exact hz
  have hlow : 2 ^ n.toNat.log2 ≤ n.toNat := Nat.log2_self_le (Nat.ne_of_gt hpos)
  have hhigh : n.toNat < 2 ^ (n.toNat.log2 + 1) := Nat.lt_log2_self
  have hword : n.toNat.log2 < 64 := (Nat.log2_lt (Nat.ne_of_gt hpos)).mpr n.toNat_lt
  generalize hk : n.toNat.log2 = k at hlow hhigh hword
  show NormalWithin _ _ (Float.Model.pack
    (normalize Format.binary64 (n.toNat : Int) 0 .positive)).unpack
  refine unpack_pack ?_ (by omega) (by omega)
  have hcmp : compare (n.toNat : Int) 0 = .gt := Int.compare_eq_gt.mpr (by omega)
  have htarget : Format.binary64.targetExponent (totalExponent n.toNat 0) = (k : Int) - 52 := by
    simp only [Format.targetExponent, totalExponent, hk, mantissaBits_binary64,
      Format.minExponent]
    omega
  simp only [UnpackedFloat.normalize, hcmp, UnpackedFloat.round, htarget, decreaseExponent,
    Int.toNat_natCast]
  have hshift : (0 - ((k : Int) - 52)).toNat = 52 - k := by omega
  rw [hshift, Nat.shiftLeft_eq]
  -- Up to 53 bits the word is shifted up to the full width; beyond that, digits are dropped.
  have hwide : 2 ^ (52 + (k - 52)) ≤ n.toNat * 2 ^ (52 - k) ∧
      n.toNat * 2 ^ (52 - k) < 2 ^ (53 + (k - 52)) := by
    have hl := Nat.mul_le_mul_right (2 ^ (52 - k)) hlow
    have hh := Nat.mul_lt_mul_of_pos_right hhigh (Nat.two_pow_pos (52 - k))
    rw [← Nat.pow_add] at hl hh
    rw [show 52 + (k - 52) = k + (52 - k) by omega,
      show 53 + (k - 52) = k + 1 + (52 - k) by omega]
    exact ⟨hl, hh⟩
  exact (round_normal .positive .exact hwide.1 hwide.2 (by omega)).mono (by omega) (by omega)

private theorem unpack_zero : (Float.Model.ofUInt64 0).unpack = .zero .positive := rfl

/-- A word becomes a finite double. -/
theorem isFinite_toFloat (n : UInt64) : n.toFloat.isFinite = true := by
  by_cases h : n = 0
  · subst h; rfl
  · exact (normal_ofUInt64 h).isFinite

/-- A quotient of mantissas is rounded. -/
private theorem div_finite (s t : Sign) {m k : Nat} (e f : Int) (hm : 0 < m) (hk : 0 < k) :
    UnpackedFloat.div Format.binary64 (.finite s m e hm) (.finite t k f hk) =
      roundWithAccuracy Format.binary64 (s / t) (divCore Format.binary64 m e k f).1
        (divCore Format.binary64 m e k f).2.1 (divCore Format.binary64 m e k f).2.2 := rfl

/-- The quotient of two words is finite. -/
theorem isFinite_div_toFloat (n d : UInt64) (h : d ≠ 0) :
    (n.toFloat / d.toFloat).isFinite = true := by
  obtain ⟨t, k, f, hk, hd, hklow, hkhigh, hf, hf'⟩ := normal_ofUInt64 h
  show (Float.Model.pack (UnpackedFloat.div Format.binary64
    (Float.Model.ofUInt64 n).unpack (Float.Model.ofUInt64 d).unpack)).unpack.isFinite = true
  by_cases hn : n = 0
  · rw [hn, unpack_zero, hd]
    show (Float.Model.pack (.zero (.positive / t))).unpack.isFinite = true
    cases t <;> rfl
  · obtain ⟨s, m, e, hm, hx, hmlow, hmhigh, he, he'⟩ := normal_ofUInt64 hn
    have htarget : min (e - f) (Format.binary64.targetExponent
        (totalExponent m e - totalExponent k f)) = e - f - 53 := by
      simp only [Format.targetExponent, totalExponent, log2_of_bounds hmlow hmhigh,
        log2_of_bounds hklow hkhigh, mantissaBits_binary64, Format.minExponent]
      omega
    have hshift : (e - f - (e - f - 53)).toNat = 53 := by omega
    rw [hx, hd, div_finite]
    simp only [divCore, htarget, hshift, Nat.shiftLeft_eq]
    -- The quotient of the mantissas has 53 bits or one more.
    have hlow : 2 ^ 52 ≤ m * 2 ^ 53 / k := by
      rw [Nat.le_div_iff_mul_le hk]
      omega
    have hhigh : m * 2 ^ 53 / k < 2 ^ 54 := by
      rw [Nat.div_lt_iff_lt_mul hk]
      omega
    obtain ⟨j, hj, hqlow, hqhigh⟩ := bits_of_bounds hlow hhigh
    exact (unpack_pack (round_normal _ _ hqlow hqhigh (by omega)) (by omega) (by omega)).isFinite

/-- The negative of a word is finite. -/
theorem isFinite_neg_toFloat (n : UInt64) : (-n.toFloat).isFinite = true := by
  show (Float.Model.pack (Float.Model.ofUInt64 n).unpack.neg).unpack.isFinite = true
  by_cases h : n = 0
  · rw [h, unpack_zero]; rfl
  · obtain ⟨s, m, e, hm, hx, hlow, hhigh, he, he'⟩ := normal_ofUInt64 h
    rw [hx]
    have hneg : NormalWithin (-52) 12 (UnpackedFloat.neg (.finite s m e hm)) :=
      ⟨-s, m, e, hm, rfl, hlow, hhigh, he, he'⟩
    exact (unpack_pack hneg (by omega) (by omega)).isFinite

end Doubles

/-- A share of successes is a number. -/
theorem isFinite_successRate (successes total : UInt64) :
    (successRate successes total).isFinite = true := by
  unfold successRate
  split
  · rfl
  · next h => exact Doubles.isFinite_div_toFloat _ _ h

end ProofLedger

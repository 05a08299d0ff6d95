import Mathlib.Algebra.Group.Nat.Defs
import Mathlib.Data.List.Induction
import Mathlib.Tactic.Common
import ProofLedger.Proofs.Instant.Calendar

/-!
# The text of an instant

An instant is read back from its own text, whatever its year (`ofText?_text`). There is one lemma
for each reader: it finds what was written in its place, and leaves what follows.

Readings of a clock and instants read from a text are real: their year is one that there is, and
their fraction stays below a second, or below two in the leap second at the end of a minute.
-/

namespace ProofLedger.Instant

/-- The year of an instant. -/
def year (t : Instant) : Int := yearOf (t.second / 86400 + epochDay)

/-- Whether an instant lies in the years 1 to 9999. -/
def InYears (t : Instant) : Prop := 1 ≤ t.year ∧ t.year ≤ 9999

/-- Whether a clock can show a fraction: below a second, or below two at the end of a minute. -/
def Shows (second : Int) (fraction : Nat) : Prop :=
  fraction < nanosPerSecond ∨ (second % 60 = 59 ∧ fraction < 2 * nanosPerSecond)

/-- Whether there is such an instant: its year is one of all the years, and its fraction is one
    that a clock can show. -/
structure IsReal (t : Instant) : Prop where
  inRange : t.inRange = true
  shows : Shows t.second t.fraction

instance (second : Int) (fraction : Nat) : Decidable (Shows second fraction) :=
  inferInstanceAs (Decidable (_ ∨ _))

instance (t : Instant) : Decidable t.IsReal :=
  decidable_of_iff (t.inRange = true ∧ Shows t.second t.fraction)
    ⟨fun h => ⟨h.1, h.2⟩, fun h => ⟨h.inRange, h.shows⟩⟩

-- ── Range ─────────────────────────────────────────────────────────────────────

/-- The range of instants is a range of years. -/
theorem inRange_iff (t : Instant) :
    t.inRange = true ↔ firstYear ≤ t.year ∧ t.year ≤ lastYear := by
  obtain ⟨hbegun, hended⟩ := yearOf_spec (t.second / 86400 + epochDay)
  unfold inRange year
  rw [Bool.and_eq_true, decide_eq_true_iff, decide_eq_true_iff]
  generalize yearOf (t.second / 86400 + epochDay) = y at hbegun hended
  constructor
  · intro h
    constructor
    · by_contra hbefore
      have := daysBeforeYear_mono (show y + 1 ≤ firstYear by omega)
      omega
    · by_contra hafter
      have := daysBeforeYear_mono (show lastYear + 1 ≤ y by omega)
      omega
  · intro h
    have hfirst := daysBeforeYear_mono h.1
    have hlast := daysBeforeYear_mono (show y + 1 ≤ lastYear + 1 by omega)
    omega

/-- An instant is kept if its year is one that there is. -/
theorem within?_eq_some_iff {t u : Instant} :
    within? t = some u ↔ t.inRange = true ∧ t = u := by
  unfold within?
  split
  · next h => rw [Option.some.injEq]; exact ⟨fun heq => ⟨h, heq⟩, And.right⟩
  · next h => exact ⟨nofun, fun hu => absurd hu.1 h⟩

-- ── Digits ────────────────────────────────────────────────────────────────────

/-- Digits are folded to the number that they are the digits of. -/
theorem digitsFold_eq (cs : List Char) : digitsFold cs = Nat.ofDigitChars 10 cs 0 := by
  have hstep : (fun (acc : Nat) (c : Char) => acc * 10 + (c.toNat - '0'.toNat)) =
      fun acc c => 10 * acc + (c.toNat - '0'.toNat) := by
    funext acc c
    rw [Nat.mul_comm]
  rw [digitsFold, hstep, Nat.ofDigitChars_eq_foldl]

/-- A padded number has nothing but digits. -/
theorem isDigit_of_mem_padded {width n : Nat} {c : Char} (h : c ∈ padded width n) :
    c.isDigit = true := by
  rcases List.mem_append.mp h with h | h
  · rw [List.eq_of_mem_replicate h]; rfl
  · exact Nat.isDigit_of_mem_toDigits (by decide) (by decide) h

/-- Leading zeros do not change a number. -/
theorem digitsFold_padded (width n : Nat) : digitsFold (padded width n) = n := by
  rw [digitsFold_eq, padded, Nat.ofDigitChars_append, Nat.ofDigitChars_replicate_zero,
    Nat.mul_zero, Nat.ofDigitChars_ten_toDigits]

/-- A number that fits a width has exactly that many digits. -/
theorem length_padded {width n : Nat} (hw : 0 < width) (h : n < 10 ^ width) :
    (padded width n).length = width := by
  have hlen := (Nat.length_toDigits_le_iff (by decide) hw).mpr h
  rw [padded, List.length_append, List.length_replicate]
  omega

/-- A number has a digit, which is the first character of its text. -/
theorem padded_eq_cons {width : Nat} (hw : 0 < width) (n : Nat) :
    ∃ c cs, padded width n = c :: cs ∧ c.isDigit = true := by
  have hlen : 0 < (padded width n).length := by
    rw [padded, List.length_append, List.length_replicate]
    omega
  obtain ⟨c, cs, hcons⟩ := List.exists_cons_of_length_pos hlen
  have hmem : c ∈ padded width n := hcons ▸ List.mem_cons_self
  exact ⟨c, cs, hcons, isDigit_of_mem_padded hmem⟩

/-- A digit is no blank. -/
theorem isBlank_of_isDigit {c : Char} (h : c.isDigit = true) : Text.isBlank c = false := by
  simp only [Char.isDigit, Bool.and_eq_true, decide_eq_true_eq] at h
  have hlow : 48 ≤ c.val.toNat := h.1
  have hhigh : c.val.toNat ≤ 57 := h.2
  unfold Text.isBlank
  generalize c.val.toNat = n at hlow hhigh
  simp only [Bool.or_eq_false_iff, Bool.and_eq_false_imp, decide_eq_true_iff,
    decide_eq_false_iff_not, beq_eq_false_iff_ne]
  omega

/-- A text that starts with no blank has nothing to trim there. -/
theorem trimStart_of_not_blank {c : Char} (h : Text.isBlank c = false) (rest : List Char) :
    Text.trimStart (c :: rest) = c :: rest :=
  List.dropWhile_cons_of_neg (by simp [h])

/-- A number has no blank in front. -/
theorem trimStart_padded {width : Nat} (hw : 0 < width) (n : Nat) (rest : List Char) :
    Text.trimStart (padded width n ++ rest) = padded width n ++ rest := by
  obtain ⟨c, cs, hcons, hc⟩ := padded_eq_cons hw n
  rw [hcons, List.cons_append, trimStart_of_not_blank (isBlank_of_isDigit hc)]

-- ── Numbers and marks ─────────────────────────────────────────────────────────

section Numbers

variable {c : Char} (hc : c.isDigit = false) {width : Nat} (hw : 0 < width) (n : Nat)
  (rest : List Char)

include hc

/-- A number ends before what is no digit. -/
theorem takeWhile_padded (width : Nat) :
    (padded width n ++ c :: rest).takeWhile Char.isDigit = padded width n := by
  rw [List.takeWhile_append_of_pos fun d hd => isDigit_of_mem_padded hd]
  simp [hc]

/-- What follows the digits of a number is left over. -/
theorem dropWhile_padded (width : Nat) :
    (padded width n ++ c :: rest).dropWhile Char.isDigit = c :: rest := by
  rw [List.dropWhile_append_of_pos fun d hd => isDigit_of_mem_padded hd]
  simp [hc]

include hw

/-- A number is read up to the first character that is no digit. -/
theorem readNumber_padded {most : Nat} (hlen : (padded width n).length ≤ most) :
    readNumber most (padded width n ++ c :: rest) = some (n, c :: rest) := by
  obtain ⟨d, ds, hcons, -⟩ := padded_eq_cons hw n
  have hdigits : ((padded width n ++ c :: rest).take most).takeWhile Char.isDigit =
      padded width n := by
    rw [List.take_append, List.take_of_length_le hlen]
    cases most - (padded width n).length with
    | zero =>
      rw [List.take_zero, List.takeWhile_append_of_pos fun d hd => isDigit_of_mem_padded hd,
        List.takeWhile_nil, List.append_nil]
    | succ k => exact takeWhile_padded hc n (rest.take k) width
  have hnonempty : (padded width n).isEmpty = false := by rw [hcons]; rfl
  unfold readNumber
  simp only [hdigits, digitsFold_padded, List.drop_left, hnonempty, Bool.false_eq_true, if_false]

end Numbers

/-- A mark is found where it stands. -/
theorem readMark_self {mark : Char} (h : Text.isBlank mark = false) (rest : List Char) :
    readMark mark (mark :: rest) = some rest := by
  rw [readMark, trimStart_of_not_blank h]
  exact if_pos rfl

section Fields

variable {c : Char} (hc : c.isDigit = false) {least most n : Nat} (hn : n < 100)
  (hleast : least ≤ n) (hmost : n ≤ most) (rest : List Char)

include hc hn hleast hmost

/-- A field is read from its two digits. -/
theorem readField_padded :
    readField least most (padded 2 n ++ c :: rest) = some (n, c :: rest) := by
  rw [readField, trimStart_padded (by decide),
    readNumber_padded hc (by decide) n rest (Nat.le_of_eq (length_padded (by decide) hn))]
  simp [hleast, hmost]

/-- A mark and a number of two digits are read back. -/
theorem readNext_padded {mark : Char} (hmark : Text.isBlank mark = false) :
    readNext mark least most (mark :: (padded 2 n ++ c :: rest)) = some (n, c :: rest) := by
  rw [readNext, readMark_self hmark]
  exact readField_padded hc hn hleast hmost rest

end Fields

-- ── Fractions ─────────────────────────────────────────────────────────────────

/-- A fraction is read back, whatever its width. -/
theorem readFraction_padded {width n : Nat} (hw : 0 < width) (hw' : width ≤ 9)
    (h : n < 10 ^ width) :
    readFraction ('.' :: padded width n ++ ['Z']) = some (n * 10 ^ (9 - width), ['Z']) := by
  have hlen := length_padded hw h
  have hvalue : fractionValue (padded width n) = n * 10 ^ (9 - width) := by
    unfold fractionValue
    rw [List.take_of_length_le (by omega)]
    simp only [hlen]
    exact congrArg (· * _) (digitsFold_padded width n)
  have hZ : 'Z'.isDigit = false := rfl
  obtain ⟨c, cs, hcons, -⟩ := padded_eq_cons hw n
  have hnonempty : (padded width n).isEmpty = false := by rw [hcons]; rfl
  simp only [readFraction, List.cons_append, takeWhile_padded hZ, dropWhile_padded hZ,
    hnonempty, hvalue, Bool.false_eq_true, if_false]

/-- A fraction is read from its text, however many groups of digits that takes. -/
theorem readFraction_fractionText {f : Nat} (h : f < nanosPerSecond) :
    readFraction (fractionText f ++ ['Z']) = some (f, ['Z']) := by
  have hbound : f < 1000000000 := h
  unfold fractionText
  split
  · next hz => rw [eq_of_beq hz]; rfl
  · split
    · next hm =>
      have hm := eq_of_beq hm
      rw [readFraction_padded (by decide) (by decide) (by omega)]
      have : f / 1000000 * 10 ^ (9 - 3) = f := by omega
      rw [this]
    · split
      · next hm =>
        have hm := eq_of_beq hm
        rw [readFraction_padded (by decide) (by decide) (by omega)]
        have : f / 1000 * 10 ^ (9 - 6) = f := by omega
        rw [this]
      · rw [readFraction_padded (by decide) (by decide) h]
        simp

/-- What follows the seconds begins with a point or the mark of the zone. -/
theorem fractionText_eq_cons (f : Nat) :
    ∃ c rest, fractionText f ++ ['Z'] = c :: rest ∧ c.isDigit = false := by
  unfold fractionText
  split
  · exact ⟨'Z', [], rfl, rfl⟩
  · split
    · exact ⟨'.', _, rfl, rfl⟩
    · split <;> exact ⟨'.', _, rfl, rfl⟩

-- ── Reading back ──────────────────────────────────────────────────────────────

/-- A year is read back from its text: with a sign by the digits up to the next mark, without one
    by its four digits. -/
theorem readYear_yearText (year : Int) (rest : List Char) :
    readYear (yearText year ++ '-' :: rest) = some (year, '-' :: rest) := by
  have hmark : '-'.isDigit = false := rfl
  have hsigned : readNumber (padded 4 year.natAbs ++ '-' :: rest).length
      (padded 4 year.natAbs ++ '-' :: rest) = some (year.natAbs, '-' :: rest) :=
    readNumber_padded hmark (by decide) _ _ (by rw [List.length_append]; omega)
  unfold yearText
  split
  · next hneg =>
    show (readNumber (padded 4 year.natAbs ++ '-' :: rest).length
      (padded 4 year.natAbs ++ '-' :: rest)).map _ = _
    rw [hsigned]
    have hyear : -(year.natAbs : Int) = year := by omega
    exact congrArg (fun y => some (y, '-' :: rest)) hyear
  · split
    · next hlong =>
      show (readNumber (padded 4 year.natAbs ++ '-' :: rest).length
        (padded 4 year.natAbs ++ '-' :: rest)).map _ = _
      rw [hsigned]
      have hyear : (year.natAbs : Int) = year := by omega
      exact congrArg (fun y => some (y, '-' :: rest)) hyear
    · next hneg hlong =>
      -- A digit comes first, so no sign is seen.
      have hread : readNumber 4 (padded 4 year.natAbs ++ '-' :: rest) =
          some (year.natAbs, '-' :: rest) :=
        readNumber_padded hmark (by decide) _ _
          (Nat.le_of_eq (length_padded (by decide) (by omega)))
      obtain ⟨c, cs, hcons, hc⟩ := padded_eq_cons (by decide : 0 < 4) year.natAbs
      have hplus : c ≠ '+' := fun h => by rw [h] at hc; exact absurd hc (by decide)
      have hminus : c ≠ '-' := fun h => by rw [h] at hc; exact absurd hc (by decide)
      have hyear : (year.natAbs : Int) = year := by omega
      rw [readYear, trimStart_padded (by decide)]
      rw [hcons] at hread ⊢
      simp only [List.cons_append] at hread ⊢
      split
      · next heq => exact absurd (List.cons.inj heq).1 hplus
      · next heq => exact absurd (List.cons.inj heq).1 hminus
      · rw [hread, Option.map_some, hyear]

/-- A date is read back from its text. -/
theorem readDate_text (year : Int) {month day : Nat} (hmonth : 1 ≤ month ∧ month ≤ 12)
    (hday : 1 ≤ day ∧ day ≤ 31) (rest : List Char) :
    readDate (yearText year ++ '-' :: (padded 2 month ++ '-' :: (padded 2 day ++ 'T' :: rest))) =
      some ((year, month, day), 'T' :: rest) := by
  have hdash : Text.isBlank '-' = false := by decide
  rw [readDate, readYear_yearText]
  simp only [Option.bind_eq_bind, Option.bind_some]
  rw [readNext_padded (by decide) (by omega) hmonth.1 hmonth.2 _ hdash]
  simp only [Option.bind_some]
  rw [readNext_padded (by decide) (by omega) hday.1 hday.2 _ hdash]
  rfl

/-- The time of a day is read back from its text; second sixty is the leap second after the one
    before. -/
theorem readTime_text {hour minute second fraction : Nat} (hhour : hour ≤ 23)
    (hminute : minute ≤ 59) (hsecond : second ≤ 60) (hfraction : fraction < nanosPerSecond) :
    readTime (padded 2 hour ++ ':' :: (padded 2 minute ++ ':' :: (padded 2 second ++
      (fractionText fraction ++ ['Z'])))) =
      some (if second == 60 then (hour * 3600 + minute * 60 + 59, nanosPerSecond + fraction)
        else (hour * 3600 + minute * 60 + second, fraction), ['Z']) := by
  have hcolon : Text.isBlank ':' = false := by decide
  have hread := readFraction_fractionText hfraction
  obtain ⟨c, rest, htail, hc⟩ := fractionText_eq_cons fraction
  rw [htail] at hread ⊢
  rw [readTime, readField_padded (by decide) (by omega) (Nat.zero_le _) hhour]
  simp only [Option.bind_eq_bind, Option.bind_some]
  rw [readNext_padded (by decide) (by omega) (Nat.zero_le _) hminute _ hcolon]
  simp only [Option.bind_some]
  rw [readNext_padded hc (by omega) (Nat.zero_le _) hsecond _ hcolon]
  simp only [Option.bind_some]
  rw [hread]
  rfl

/-- A date and time in UTC is read from its characters. -/
theorem readChars_text (year : Int) {month day hour minute second fraction : Nat}
    (hmonth : 1 ≤ month ∧ month ≤ 12) (hday : 1 ≤ day ∧ day ≤ 31) (hhour : hour ≤ 23)
    (hminute : minute ≤ 59) (hsecond : second ≤ 60) (hfraction : fraction < nanosPerSecond) :
    readChars (yearText year ++ '-' :: (padded 2 month ++ '-' :: (padded 2 day ++
        'T' :: (padded 2 hour ++ ':' :: (padded 2 minute ++ ':' :: (padded 2 second ++
          (fractionText fraction ++ ['Z']))))))) =
      ofLocal? (year, month, day)
        (if second == 60 then (hour * 3600 + minute * 60 + 59, nanosPerSecond + fraction)
          else (hour * 3600 + minute * 60 + second, fraction)) 0 := by
  rw [readChars, readDate_text year hmonth hday]
  simp only [Option.bind_eq_bind, Option.bind_some, readSeparator]
  rw [readTime_text hhour hminute hsecond hfraction]
  rfl

/-- An instant is read back from its text. -/
theorem ofText?_text {t : Instant} (hreal : t.IsReal) : ofText? t.text = some t := by
  obtain ⟨hfirst, hlast⟩ := (inRange_iff t).mp hreal.inRange
  obtain ⟨m, d, hdate, hm, hm', hd, hd', hday⟩ := dateOf_spec (t.second / 86400 + epochDay)
  have hlength := monthLength_le (yearOf (t.second / 86400 + epochDay)) m
  change firstYear ≤ yearOf (t.second / 86400 + epochDay) at hfirst
  change yearOf (t.second / 86400 + epochDay) ≤ lastYear at hlast
  generalize yearOf (t.second / 86400 + epochDay) = year at hfirst hlast hdate hd' hday hlength
  -- The date that is read is the one that was written, so its day is that of the instant.
  have hlocal : ∀ time fraction : Nat, (t.second % 86400).toNat = time → t.fraction = fraction →
      ofLocal? (year, m, d) (time, fraction) 0 = some t := by
    rintro time fraction hsecond rfl
    have hpoint :
        (⟨(dayNumber year m d - epochDay) * 86400 + time - 0, t.fraction⟩ : Instant) = t :=
      congrArg (Instant.mk · t.fraction) (show _ = t.second by rw [hday]; omega)
    rw [ofLocal?]
    simp only [hfirst, hlast, hd', decide_true, Bool.and_self, if_true, hpoint]
    exact within?_eq_some_iff.mpr ⟨hreal.inRange, rfl⟩
  have htime : (t.second % 86400).toNat < 86400 := by omega
  simp only [ofText?, text, textWith, hdate, secondOfDay, String.toList_ofList,
    List.append_assoc, List.cons_append]
  by_cases hleap : nanosPerSecond ≤ t.fraction
  · -- A leap second is written as second sixty and read as second fifty-nine again.
    have hin : t.inLeapSecond = true := decide_eq_true hleap
    obtain ⟨hminute, hfraction⟩ := hreal.shows.resolve_left (Nat.not_lt.mpr hleap)
    have hsixty : (t.second % 86400).toNat % 60 + 1 = 60 := by omega
    simp only [hin, if_true, hsixty]
    rw [readChars_text year ⟨hm, hm'⟩ ⟨hd, Nat.le_trans hd' hlength⟩ (by omega) (by omega)
      (Nat.le_refl 60) (by omega)]
    simp only [beq_self_eq_true, if_true]
    exact hlocal _ _ (by omega) (by omega)
  · have hin : t.inLeapSecond = false := decide_eq_false hleap
    have hsecond : ((t.second % 86400).toNat % 60 == 60) = false := by
      rw [beq_eq_false_iff_ne]
      omega
    simp only [hin, Bool.false_eq_true, if_false]
    rw [readChars_text year ⟨hm, hm'⟩ ⟨hd, Nat.le_trans hd' hlength⟩ (by omega) (by omega)
      (by omega) (Nat.not_le.mp hleap)]
    simp only [hsecond, Bool.false_eq_true, if_false]
    exact hlocal _ _ (by omega) rfl

/-- A real instant is read back from its text. -/
theorem IsReal.ofJson?_toJson {t : Instant} (h : t.IsReal) : ofJson? t.toJson = some t := by
  rw [ofJson?, toJson, Json.asString?, Option.bind_some]
  exact ofText?_text h

-- ── Real instants ─────────────────────────────────────────────────────────────

/-- A time of a clock shows a second and a fraction of it. -/
theorem shows_ofNanos (n : Int) : Shows (ofNanos n).second (ofNanos n).fraction := by
  refine Or.inl ?_
  show (n % (1000000000 : Int)).toNat < 1000000000
  omega

/-- A step leads to a fraction that a clock can show. -/
theorem IsReal.shows_addNanos {t : Instant} (h : t.IsReal) (n : Int) :
    Shows (t.addNanos n).second (t.addNanos n).fraction := by
  unfold Instant.addNanos
  dsimp only
  split
  · next hleap =>
    split
    · next hwithin =>
      -- Within the leap second only the fraction moves.
      have hminute := (h.shows.resolve_left (Nat.not_lt.mpr (of_decide_eq_true hleap))).1
      rw [Bool.and_eq_true, decide_eq_true_iff, decide_eq_true_iff] at hwithin
      refine Or.inr ⟨hminute, ?_⟩
      show (t.fraction + n).toNat < 2 * nanosPerSecond
      omega
    · split <;> exact shows_ofNanos _
  · exact shows_ofNanos _

/-- Where a step leads, if it leads anywhere, is a real instant. -/
theorem IsReal.addMillis? {t u : Instant} (h : t.IsReal) {ms : Int}
    (hu : t.addMillis? ms = some u) : u.IsReal := by
  obtain ⟨hrange, rfl⟩ := within?_eq_some_iff.mp hu
  exact ⟨hrange, h.shows_addNanos _⟩

/-- A number of some digits is less than the first one that has more. -/
private theorem digitsFold_lt {cs : List Char} (h : ∀ c ∈ cs, c.isDigit = true) :
    digitsFold cs < 10 ^ cs.length := by
  induction cs using List.reverseRecOn with
  | nil => exact Nat.one_pos
  | append_singleton cs c ih =>
    have hinit := ih fun d hd => h d (List.mem_append_left _ hd)
    have hlast : c.toNat - '0'.toNat < 10 := by
      have hc := h c (List.mem_append_right _ (List.mem_singleton_self c))
      simp only [Char.isDigit, Bool.and_eq_true, decide_eq_true_eq] at hc
      have : c.toNat ≤ '9'.toNat := hc.2
      have : '9'.toNat = '0'.toNat + 9 := rfl
      omega
    rw [digitsFold, List.foldl_append, List.length_append, List.length_singleton, Nat.pow_succ]
    show digitsFold cs * 10 + (c.toNat - '0'.toNat) < _
    omega

/-- The value of the digits of a fraction is below a second. -/
private theorem fractionValue_lt {cs : List Char} (h : ∀ c ∈ cs, c.isDigit = true) :
    fractionValue cs < nanosPerSecond := by
  have hkept : (cs.take 9).length ≤ 9 := List.length_take_le 9 cs
  have hlt : digitsFold (cs.take 9) < 10 ^ (cs.take 9).length :=
    digitsFold_lt fun c hc => h c (List.mem_of_mem_take hc)
  have hpow : 10 ^ (cs.take 9).length * 10 ^ (9 - (cs.take 9).length) = nanosPerSecond := by
    rw [← Nat.pow_add, Nat.add_sub_cancel' hkept]; rfl
  rw [← hpow]
  exact Nat.mul_lt_mul_of_pos_right hlt (Nat.pow_pos (by decide))

/-- A fraction that is read stays below a second, whatever follows it. -/
private theorem readFraction_lt {cs rest : List Char} {fraction : Nat}
    (h : readFraction cs = some (fraction, rest)) : fraction < nanosPerSecond := by
  unfold readFraction at h
  split at h
  · dsimp only at h
    split at h
    · cases h
    · cases h
      exact fractionValue_lt (List.all_eq_true.mp List.all_takeWhile)
  · cases h
    decide

/-- The time that is read is one that a clock can show. -/
private theorem readTime_shows {cs rest : List Char} {time fraction : Nat}
    (h : readTime cs = some ((time, fraction), rest)) : Shows time fraction := by
  unfold readTime at h
  simp only [Option.bind_eq_bind, Option.bind_eq_some_iff, Option.pure_def] at h
  obtain ⟨⟨hour, _⟩, -, ⟨minute, _⟩, -, ⟨second, _⟩, -, ⟨f, _⟩, hfraction, h⟩ := h
  have hlt := readFraction_lt hfraction
  dsimp only at h
  split at h
  · cases h
    exact Or.inr ⟨by omega, by omega⟩
  · cases h
    exact Or.inl hlt

/-- Offsets are whole minutes. -/
private theorem readZone_whole {cs rest : List Char} {zone : Int}
    (h : readZone cs = some (zone, rest)) : zone % 60 = 0 := by
  unfold readZone at h
  split at h
  · cases h; rfl
  · split at h
    · cases h; rfl
    · cases h; rfl
    · split at h
      · simp only [Option.bind_eq_bind, Option.bind_eq_some_iff] at h
        obtain ⟨sign, -, hours, -, minutes, -, h⟩ := h
        split at h
        · cases h
          have hminutes :
              ((hours * 3600 + minutes * 60 : Nat) : Int) = 60 * (hours * 60 + minutes : Nat) := by
            omega
          rw [hminutes, Int.mul_left_comm]
          exact Int.mul_emod_right _ _
        · cases h
      · cases h
    · cases h

/-- What is read from a text is real: a leap second stands at the end of a minute. -/
theorem isReal_of_ofText? {s : String} {t : Instant} (h : ofText? s = some t) : t.IsReal := by
  unfold ofText? readChars at h
  simp only [Option.bind_eq_bind, Option.bind_eq_some_iff] at h
  obtain ⟨⟨⟨year, month, day⟩, _⟩, -, _, -, ⟨⟨time, fraction⟩, _⟩, htime, ⟨zone, _⟩, hzone, h⟩ := h
  have hshows := readTime_shows htime
  have hwhole := readZone_whole hzone
  split at h
  · unfold ofLocal? at h
    dsimp only at h
    split at h
    · obtain ⟨hrange, rfl⟩ := within?_eq_some_iff.mp h
      refine ⟨hrange, hshows.imp_right fun ⟨hlast, hlt⟩ => ⟨?_, hlt⟩⟩
      dsimp only
      omega
    · cases h
  · cases h

/-- An instant that is read is real. -/
theorem isReal_of_ofJson? {v : Json} {t : Instant} (h : ofJson? v = some t) : t.IsReal := by
  obtain ⟨s, -, hs⟩ := Option.bind_eq_some_iff.mp h
  exact isReal_of_ofText? hs

end ProofLedger.Instant

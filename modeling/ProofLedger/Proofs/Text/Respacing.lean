import Mathlib.Data.List.Forall2
import ProofLedger.Text.Blank
import ProofLedger.Text.Lines
import ProofLedger.Text.WordChar

/-!
# Texts that differ in their blanks

Two texts are respaced forms of each other if they have the same words (`respaced_iff`). Reading
them side by side, one sees the same characters as long as a word lasts, and between words each
text may have blanks of its own. `Respaced` says that as a relation to do induction on: whatever
reads a text character by character, and treats blanks alike, gets the same from both.
-/

namespace ProofLedger.Text

/-- A text that no word runs on into. -/
def EndsWord (cs : List Char) : Prop := ∀ c ∈ cs.head?, isBlank c = true

/-- Two texts that differ in their blanks only. Texts that continue a word must continue it in
    the same way. -/
inductive Respaced : (inside : Bool) → List Char → List Char → Prop
  | nil : Respaced false [] []
  | char {inside : Bool} {c : Char} {a b : List Char} : isBlank c = false → Respaced true a b →
    Respaced inside (c :: a) (c :: b)
  | left {c : Char} {a b : List Char} : isBlank c = true → Respaced false a b →
    Respaced false (c :: a) b
  | right {c : Char} {a b : List Char} : isBlank c = true → Respaced false a b →
    Respaced false a (c :: b)
  | gap {a b : List Char} : EndsWord a → EndsWord b → Respaced false a b → Respaced true a b

variable {inside : Bool} {a b : List Char}

@[simp] theorem endsWord_nil : EndsWord [] := nofun

@[simp] theorem endsWord_cons {c : Char} {cs : List Char} :
    EndsWord (c :: cs) ↔ isBlank c = true := by
  simp [EndsWord]

theorem EndsWord.append {cs : List Char} (h : EndsWord cs) {c : Char} (hc : isBlank c = true)
    (ds : List Char) : EndsWord (cs ++ c :: ds) := by
  cases cs with
  | nil => exact endsWord_cons.mpr hc
  | cons d cs => exact endsWord_cons.mpr (endsWord_cons.mp h)

-- ── Laws ──────────────────────────────────────────────────────────────────────

theorem Respaced.empty : Respaced inside [] [] := by
  cases inside with
  | false => exact .nil
  | true => exact .gap endsWord_nil endsWord_nil .nil

theorem Respaced.symm (h : Respaced inside a b) : Respaced inside b a := by
  induction h with
  | nil => exact .nil
  | char hc _ ih => exact .char hc ih
  | left hc _ ih => exact .right hc ih
  | right hc _ ih => exact .left hc ih
  | gap ha hb _ ih => exact .gap hb ha ih

/-- What continues a word can also be read on its own. -/
theorem Respaced.loose (h : Respaced inside a b) : Respaced false a b := by
  cases h with
  | nil => exact .nil
  | char hc h => exact .char hc h
  | left hc h => exact .left hc h
  | right hc h => exact .right hc h
  | gap _ _ h => exact h

/-- Inside a word the next character is the same. -/
theorem Respaced.of_cons {c : Char} (hc : isBlank c = false) (h : Respaced true (c :: a) b) :
    ∃ b', b = c :: b' ∧ Respaced true a b' := by
  cases h with
  | char _ h => exact ⟨_, rfl, h⟩
  | gap ha _ _ =>
    rw [endsWord_cons, hc] at ha
    cases ha

/-- Checks that a text is a part of a word. -/
theorem forall_not_isBlank {w : List Char} (h : (w.all fun c => !isBlank c) = true) :
    ∀ c ∈ w, isBlank c = false := by
  intro c hc
  rw [← Bool.not_eq_true']
  exact List.all_eq_true.mp h c hc

/-- The same word in front. -/
theorem Respaced.append_word {w : List Char} (hw : ∀ c ∈ w, isBlank c = false)
    (h : Respaced true a b) : Respaced true (w ++ a) (w ++ b) := by
  induction w with
  | nil => exact h
  | cons c w ih =>
    exact .char (hw c (List.mem_cons_self ..)) (ih fun d hd => hw d (List.mem_cons_of_mem _ hd))

/-- Any blanks in front. -/
theorem Respaced.append_blanks {s t : List Char} (hs : ∀ c ∈ s, isBlank c = true)
    (ht : ∀ c ∈ t, isBlank c = true) (h : Respaced false a b) :
    Respaced false (s ++ a) (t ++ b) := by
  induction s with
  | nil =>
    induction t with
    | nil => exact h
    | cons c t ih =>
      exact .right (ht c (List.mem_cons_self ..)) (ih fun d hd => ht d (List.mem_cons_of_mem _ hd))
  | cons c s ih =>
    exact .left (hs c (List.mem_cons_self ..)) (ih fun d hd => hs d (List.mem_cons_of_mem _ hd))

-- ── Words ─────────────────────────────────────────────────────────────────────

theorem words_blank {c : Char} (hc : isBlank c = true) (cs : List Char) :
    words (c :: cs) = words cs := by
  rw [words, runs.eq_def]
  exact if_pos hc

/-- A word of one character. -/
theorem words_of_endsWord {c : Char} (hc : isBlank c = false) {cs : List Char}
    (h : EndsWord cs) : words (c :: cs) = [c] :: words cs := by
  cases cs with
  | nil => rw [words, runs, hc, if_neg Bool.false_ne_true, words, runs]
  | cons d cs =>
    rw [words, runs, hc, if_neg Bool.false_ne_true]
    simp only [endsWord_cons.mp h, if_true, words]

/-- A word that goes on. -/
theorem words_cons_cons {c d : Char} (hc : isBlank c = false) (hd : isBlank d = false)
    (cs : List Char) :
    ∃ w ws, words (d :: cs) = w :: ws ∧ words (c :: d :: cs) = (c :: w) :: ws := by
  have hfirst : ∃ w ws, words (d :: cs) = w :: ws := by
    cases cs with
    | nil => exact ⟨_, _, words_of_endsWord hd endsWord_nil⟩
    | cons e cs =>
      simp only [words, runs, hd, Bool.false_eq_true, if_false]
      split
      · exact ⟨_, _, rfl⟩
      · split
        · exact ⟨_, _, rfl⟩
        · exact ⟨_, _, rfl⟩
  obtain ⟨w, ws, hw⟩ := hfirst
  refine ⟨w, ws, hw, ?_⟩
  rw [words] at hw
  rw [words, runs, hc, if_neg Bool.false_ne_true]
  simp only [hd, hw, Bool.false_eq_true, if_false]

theorem forall_isBlank_of_words_eq_nil (h : words a = []) : ∀ c ∈ a, isBlank c = true := by
  induction a with
  | nil => exact nofun
  | cons c a ih =>
    cases hc : isBlank c with
    | true =>
      rw [words_blank hc] at h
      exact List.forall_mem_cons.mpr ⟨hc, ih h⟩
    | false =>
      cases a with
      | nil =>
        rw [words_of_endsWord hc endsWord_nil] at h
        cases h
      | cons d a =>
        cases hd : isBlank d with
        | true =>
          rw [words_of_endsWord hc (endsWord_cons.mpr hd)] at h
          cases h
        | false =>
          obtain ⟨w, ws, -, hws⟩ := words_cons_cons hc hd a
          rw [hws] at h
          cases h

/-- The first word stands after blanks and before the others. -/
theorem exists_of_words_eq_cons {w : List Char} {ws : List (List Char)} (h : words a = w :: ws) :
    ∃ s r, a = s ++ w ++ r ∧ (∀ c ∈ s, isBlank c = true) ∧ (∀ c ∈ w, isBlank c = false) ∧
      w ≠ [] ∧ EndsWord r ∧ words r = ws := by
  induction a generalizing w ws with
  | nil =>
    rw [words, runs] at h
    cases h
  | cons c a ih =>
    cases hc : isBlank c with
    | true =>
      rw [words_blank hc] at h
      obtain ⟨s, r, rfl, hs, hrest⟩ := ih h
      exact ⟨c :: s, r, rfl, List.forall_mem_cons.mpr ⟨hc, hs⟩, hrest⟩
    | false =>
      by_cases ha : EndsWord a
      · rw [words_of_endsWord hc ha] at h
        obtain ⟨rfl, rfl⟩ := List.cons.inj h
        exact ⟨[], a, rfl, nofun, List.forall_mem_singleton.mpr hc, List.cons_ne_nil _ _, ha, rfl⟩
      · cases a with
        | nil => exact absurd endsWord_nil ha
        | cons d a =>
          have hd : isBlank d = false := by
            rw [endsWord_cons, Bool.not_eq_true] at ha
            exact ha
          obtain ⟨w', ws', hw', hws⟩ := words_cons_cons hc hd a
          obtain ⟨rfl, rfl⟩ := List.cons.inj (hws.symm.trans h)
          obtain ⟨s, r, heq, hs, hword, -, hr, hws'⟩ := ih hw'
          -- the word goes on right after its first character
          have hnone : s = [] := by
            cases s with
            | nil => rfl
            | cons e s =>
              obtain ⟨rfl, -⟩ := List.cons.inj heq
              rw [hs d (List.mem_cons_self ..)] at hd
              cases hd
          subst hnone
          exact ⟨[], r, congrArg (c :: ·) heq, nofun, List.forall_mem_cons.mpr ⟨hc, hword⟩,
            List.cons_ne_nil _ _, hr, hws'⟩

theorem respaced_of_words_eq (h : words a = words b) : Respaced false a b := by
  generalize hws : words b = ws at h
  induction ws generalizing a b with
  | nil =>
    have hblanks := Respaced.nil.append_blanks (forall_isBlank_of_words_eq_nil h)
      (forall_isBlank_of_words_eq_nil hws)
    rwa [List.append_nil, List.append_nil] at hblanks
  | cons w ws ih =>
    obtain ⟨s, r, rfl, hs, hw, -, hr, hwords⟩ := exists_of_words_eq_cons h
    obtain ⟨s', r', rfl, hs', -, -, hr', hwords'⟩ := exists_of_words_eq_cons hws
    rw [List.append_assoc, List.append_assoc]
    have hrest : Respaced true r r' := .gap hr hr' (ih hwords' hwords)
    exact (hrest.append_word hw).loose.append_blanks hs hs'

/-- Two texts are respaced forms of each other exactly if they have the same words. -/
theorem respaced_iff : Respaced false a b ↔ words a = words b := by
  refine ⟨fun h => ?_, respaced_of_words_eq⟩
  -- inside a word the texts are compared with the same character in front
  have hwords : ∀ {inside : Bool} {a b : List Char}, Respaced inside a b →
      if inside then ∀ c, isBlank c = false → words (c :: a) = words (c :: b)
      else words a = words b := by
    intro inside a b h
    induction h with
    | nil => rfl
    | @char inside c a b hc _ ih =>
      cases inside with
      | false => exact ih c hc
      | true =>
        intro d hd
        obtain ⟨w, ws, hw, hdw⟩ := words_cons_cons hd hc a
        obtain ⟨w', ws', hw', hdw'⟩ := words_cons_cons hd hc b
        obtain ⟨rfl, rfl⟩ := List.cons.inj (hw.symm.trans ((ih c hc).trans hw'))
        rw [hdw, hdw']
    | left hc _ ih => exact (words_blank hc _).trans ih
    | right hc _ ih => exact Eq.trans ih (words_blank hc _).symm
    | gap ha hb _ ih =>
      intro c hc
      rw [words_of_endsWord hc ha, words_of_endsWord hc hb]
      exact congrArg _ ih
  exact hwords h

/-- Where one text has ended, the other has only blanks. -/
theorem Respaced.forall_isBlank (h : Respaced inside a []) : ∀ c ∈ a, isBlank c = true :=
  forall_isBlank_of_words_eq_nil (respaced_iff.mp h.loose)

-- ── What reading from the front finds ─────────────────────────────────────────

/-- A class without blanks that holds of the next character of one text holds in the other. -/
theorem Respaced.any_head? {p : Char → Bool} (hp : ∀ c, isBlank c = true → p c = false)
    (h : Respaced true a b) : a.head?.any p = b.head?.any p := by
  have hends : ∀ {cs : List Char}, EndsWord cs → cs.head?.any p = false := by
    intro cs hcs
    cases cs with
    | nil => rfl
    | cons c cs => exact hp c (endsWord_cons.mp hcs)
  cases h with
  | char _ _ => rfl
  | gap ha hb _ => rw [hends ha, hends hb]

/-- A word is found in front of both texts or of none, and so is what follows it. -/
theorem Respaced.isPrefixOf {w : List Char} (hw : ∀ c ∈ w, isBlank c = false)
    (h : Respaced true a b) : w.isPrefixOf a = w.isPrefixOf b ∧
      (w.isPrefixOf a = true → Respaced true (a.drop w.length) (b.drop w.length)) := by
  induction w generalizing a b with
  | nil => exact ⟨rfl, fun _ => h⟩
  | cons c w ih =>
    obtain ⟨hc, hw⟩ := List.forall_mem_cons.mp hw
    have hends : ∀ {cs : List Char}, EndsWord cs → (c :: w).isPrefixOf cs = false := by
      intro cs hcs
      cases cs with
      | nil => rfl
      | cons d cs =>
        have hne : c ≠ d := by
          rintro rfl
          rw [endsWord_cons.mp hcs] at hc
          cases hc
        rw [List.isPrefixOf, beq_eq_false_iff_ne.mpr hne, Bool.false_and]
    cases h with
    | char _ h =>
      obtain ⟨heq, hrest⟩ := ih hw h
      refine ⟨by rw [List.isPrefixOf, List.isPrefixOf, heq], fun hin => ?_⟩
      rw [List.isPrefixOf, Bool.and_eq_true] at hin
      exact hrest hin.2
    | gap ha hb _ =>
      rw [hends ha, hends hb]
      exact ⟨rfl, nofun⟩

/-- Skipping a class with all blanks leads to the same place. -/
theorem Respaced.dropWhile {p : Char → Bool} (hp : ∀ c, isBlank c = true → p c = true)
    (h : Respaced inside a b) : Respaced true (a.dropWhile p) (b.dropWhile p) := by
  induction h with
  | nil => exact .empty
  | @char inside c a b hc h ih =>
    rw [List.dropWhile_cons, List.dropWhile_cons]
    split
    · exact ih
    · exact .char hc h
  | left hc _ ih => rwa [List.dropWhile_cons_of_pos (hp _ hc)]
  | right hc _ ih => rwa [List.dropWhile_cons_of_pos (hp _ hc)]
  | gap _ _ _ ih => exact ih

theorem Respaced.trimStart (h : Respaced inside a b) :
    Respaced true (trimStart a) (trimStart b) :=
  h.dropWhile fun _ hc => hc

/-- A class without blanks that begins inside a word also ends in it. -/
theorem Respaced.span {p : Char → Bool} (hp : ∀ c, isBlank c = true → p c = false)
    (h : Respaced true a b) : a.takeWhile p = b.takeWhile p ∧
      Respaced true (a.dropWhile p) (b.dropWhile p) := by
  have hends : ∀ {cs : List Char}, EndsWord cs → cs.takeWhile p = [] ∧ cs.dropWhile p = cs := by
    intro cs hcs
    cases cs with
    | nil => exact ⟨rfl, rfl⟩
    | cons c cs =>
      have hc := hp c (endsWord_cons.mp hcs)
      exact ⟨List.takeWhile_cons_of_neg (by simp [hc]), List.dropWhile_cons_of_neg (by simp [hc])⟩
  generalize hinside : true = inside at h
  induction h with
  | nil => cases hinside
  | @char inside c a b hc h ih =>
    subst hinside
    rw [List.takeWhile_cons, List.takeWhile_cons, List.dropWhile_cons, List.dropWhile_cons]
    obtain ⟨htake, hdrop⟩ := ih rfl
    split
    · exact ⟨by rw [htake], hdrop⟩
    · exact ⟨rfl, .char hc h⟩
  | left _ _ _ => cases hinside
  | right _ _ _ => cases hinside
  | gap ha hb h _ =>
    rw [(hends ha).1, (hends hb).1, (hends ha).2, (hends hb).2]
    exact ⟨rfl, .gap ha hb h⟩

-- ── Lines ─────────────────────────────────────────────────────────────────────

/-- A line end is a blank, whatever stands around it. -/
theorem Respaced.append_newline {c d : List Char} (h : Respaced inside a b)
    (hrest : Respaced false c d) : Respaced inside (a ++ '\n' :: c) (b ++ '\n' :: d) := by
  have hnewline : isBlank '\n' = true := by decide
  induction h with
  | nil => exact .left hnewline (.right hnewline hrest)
  | char hc _ ih => exact .char hc ih
  | left hc _ ih => exact .left hc ih
  | right hc _ ih => exact .right hc ih
  | gap ha hb _ ih => exact .gap (ha.append hnewline c) (hb.append hnewline d) ih

/-- Lines that are respaced one by one make a respaced text. -/
theorem Respaced.unlines {ls ms : List (List Char)} (h : Respaced inside a b)
    (hrest : List.Forall₂ (Respaced false) ls ms) :
    Respaced inside (unlines (a :: ls)) (unlines (b :: ms)) := by
  induction hrest generalizing inside a b with
  | nil => exact h
  | cons hline _ ih => exact h.append_newline (ih hline)

-- ── Words in a pattern ────────────────────────────────────────────────────────

/-- The characters that are blank. -/
def blankCodes : List Nat :=
  [9, 10, 11, 12, 13, 0x20, 0x85, 0xA0, 0x1680, 0x2000, 0x2001, 0x2002, 0x2003, 0x2004, 0x2005,
    0x2006, 0x2007, 0x2008, 0x2009, 0x200A, 0x2028, 0x2029, 0x202F, 0x205F, 0x3000]

theorem mem_blankCodes {c : Char} (h : isBlank c = true) : c.toNat ∈ blankCodes := by
  simp only [isBlank, Bool.or_eq_true, Bool.and_eq_true, decide_eq_true_eq, beq_iff_eq] at h
  simp only [blankCodes, List.mem_cons, List.not_mem_nil, or_false, Char.toNat]
  omega

/-- No blank is in a range of word characters. -/
theorem inRanges_wordRanges_of_mem {n : Nat} (h : n ∈ blankCodes) :
    inRanges wordRanges n = false := by
  have hall : ∀ n ∈ blankCodes, ∀ r ∈ wordRanges.toList, ¬ (r.1 ≤ n ∧ n ≤ r.2) := by
    decide +kernel
  rw [inRanges, ← Array.any_toList, List.any_eq_false]
  intro r hr
  rw [Bool.and_eq_true, decide_eq_true_eq, decide_eq_true_eq]
  exact hall n h r hr

/-- No blank belongs to a word. -/
theorem isWordChar_of_isBlank {c : Char} (h : isBlank c = true) : isWordChar c = false := by
  have hascii : ∀ n ∈ blankCodes, ((Char.ofNat n).isAlphanum || Char.ofNat n == '_') = false := by
    decide +kernel
  have hc := mem_blankCodes h
  rw [isWordChar]
  split
  · have hnone := hascii _ hc
    rwa [Char.ofNat_toNat] at hnone
  · exact inRanges_wordRanges_of_mem hc

theorem isWordAt_eq_any (o : Option Char) : isWordAt o = o.any isWordChar := by
  cases o <;> rfl

end ProofLedger.Text

import Mathlib.Data.List.TakeWhile
import ProofLedger.Proofs.Text.Comments
import ProofLedger.Proofs.Text.Respacing
import ProofLedger.Proofs.Text.Seams

/-!
# Normal forms

The normal form of a statement and the signature of a goal are made in steps: comments are removed,
a goal is cut after its last turnstile, and the words that are left are put side by side with one
space between them. None of the steps makes work for an earlier one. Words are neighbours only of
spaces, so that no comment and no turnstile is made where none was, and the words of the result are
the words of the text (`words_collapse`). So the forms are normal forms, and the signature is
determined by the words of the conclusion and determines them (`signature_eq_iff`).
-/

namespace ProofLedger.Text

variable {cs : List Char}

-- ── Collapsing blanks ─────────────────────────────────────────────────────────

/-- A word in front of a text that does not go on with it. -/
theorem words_append {w rest : List Char} (hne : w ≠ []) (hw : ∀ c ∈ w, isBlank c = false)
    (hrest : EndsWord rest) : words (w ++ rest) = w :: words rest := by
  induction w with
  | nil => exact absurd rfl hne
  | cons c w ih =>
    obtain ⟨hc, hw⟩ := List.forall_mem_cons.mp hw
    cases w with
    | nil => exact words_of_endsWord hc hrest
    | cons d w =>
      obtain ⟨first, others, hfirst, hlonger⟩ :=
        words_cons_cons hc (hw d List.mem_cons_self) (w ++ rest)
      obtain ⟨rfl, rfl⟩ := List.cons.inj (hfirst.symm.trans (ih (List.cons_ne_nil d w) hw))
      exact hlonger

/-- A word is a part of the text, without blanks. -/
theorem of_mem_words {w : List Char} (h : w ∈ words cs) :
    w <:+: cs ∧ w ≠ [] ∧ ∀ c ∈ w, isBlank c = false := by
  generalize hws : words cs = ws at h
  induction ws generalizing cs with
  | nil => cases h
  | cons first others ih =>
    obtain ⟨s, r, rfl, -, hfirst, hne, -, hothers⟩ := exists_of_words_eq_cons hws
    rcases List.mem_cons.mp h with rfl | h
    · exact ⟨⟨s, r, rfl⟩, hne, hfirst⟩
    · obtain ⟨hin, hword⟩ := ih hothers h
      exact ⟨hin.trans (List.suffix_append _ r).isInfix, hword⟩

/-- Words with spaces between them are read again as they are. -/
theorem words_joinWith {ws : List (List Char)}
    (h : ∀ w ∈ ws, w ≠ [] ∧ ∀ c ∈ w, isBlank c = false) : words (joinWith [' '] ws) = ws := by
  have hspace : isBlank ' ' = true := by decide
  fun_induction joinWith [' '] ws with
  | case1 => rw [words, runs]
  | case2 w =>
    obtain ⟨hne, hw⟩ := h w List.mem_cons_self
    have hword : words (w ++ []) = w :: words [] := words_append hne hw endsWord_nil
    rw [List.append_nil] at hword
    rw [hword, words, runs]
  | case3 w ws _ ih =>
    obtain ⟨⟨hne, hw⟩, hws⟩ := List.forall_mem_cons.mp h
    rw [List.append_assoc, List.singleton_append, words_append hne hw (endsWord_cons.mpr hspace),
      words_blank hspace, ih hws]

/-- Collapsing blanks keeps the words. -/
theorem words_collapse (cs : List Char) : words (collapse cs) = words cs :=
  words_joinWith fun _ hw => (of_mem_words hw).2

/-- Collapsing blanks twice is collapsing them once. -/
theorem collapse_collapse (cs : List Char) : collapse (collapse cs) = collapse cs := by
  rw [collapse, words_collapse, collapse]

/-- Blanks are collapsed to the same text exactly if the words are the same. -/
theorem collapse_eq_iff {a b : List Char} : collapse a = collapse b ↔ words a = words b := by
  constructor
  · intro h
    rw [← words_collapse a, h, words_collapse]
  · intro h
    rw [collapse, h, collapse]

/-- Joined words have the characters of the words, and blanks. -/
theorem mem_joinWith {ws : List (List Char)} {c : Char} (h : c ∈ joinWith [' '] ws) :
    c = ' ' ∨ ∃ w ∈ ws, c ∈ w := by
  fun_induction joinWith [' '] ws with
  | case1 => cases h
  | case2 w => exact .inr ⟨w, List.mem_cons_self, h⟩
  | case3 w ws _ ih =>
    rw [List.append_assoc, List.mem_append, List.singleton_append, List.mem_cons] at h
    rcases h with h | h | h
    · exact .inr ⟨w, List.mem_cons_self, h⟩
    · exact .inl h
    · refine (ih h).imp id ?_
      rintro ⟨w', hw', hc⟩
      exact ⟨w', List.mem_cons_of_mem w hw', hc⟩

/-- No character comes in but spaces. -/
theorem mem_collapse {c : Char} (h : c ∈ collapse cs) : c = ' ' ∨ c ∈ cs := by
  refine (mem_joinWith h).imp id ?_
  rintro ⟨w, hw, hc⟩
  exact (of_mem_words hw).1.subset hc

/-- Words without comments with spaces between them begin none. -/
theorem CommentFree.joinWith {ws : List (List Char)} (h : ∀ w ∈ ws, CommentFree w) :
    CommentFree (joinWith [' '] ws) := by
  fun_induction Text.joinWith [' '] ws with
  | case1 => exact commentFree_nil
  | case2 w => exact h w List.mem_cons_self
  | case3 w ws _ ih =>
    obtain ⟨hw, hws⟩ := List.forall_mem_cons.mp h
    rw [List.append_assoc]
    exact hw.append_cons (by decide) (by decide) (ih hws)

/-- Collapsing blanks makes no comment. -/
theorem CommentFree.collapse (h : CommentFree cs) : CommentFree (collapse cs) :=
  .joinWith fun _ hw => h.of_isInfix (of_mem_words hw).1

-- ── Statements ────────────────────────────────────────────────────────────────

/-- There are no comments left to strip. -/
theorem stripComments_stripComments (cs : List Char) :
    stripComments (stripComments cs) = stripComments cs :=
  (commentFree_stripComments cs).stripComments_eq

/-- A normal form is its own normal form. -/
theorem normalize_normalize (cs : List Char) : normalize (normalize cs) = normalize cs := by
  have hfree : CommentFree (normalize cs) := (commentFree_stripComments cs).collapse
  rw [hfree.normalize_eq, normalize, collapse_collapse]

/-- Removing the comments first makes no difference. -/
theorem normalize_stripComments (cs : List Char) : normalize (stripComments cs) = normalize cs := by
  rw [normalize, stripComments_stripComments, normalize]

-- ── Goals ─────────────────────────────────────────────────────────────────────

/-- After the last mark there is none. -/
theorem notMem_afterLast (mark : Char) (cs : List Char) : mark ∉ afterLast mark cs := by
  intro h
  rw [afterLast, List.mem_reverse] at h
  have hmark := List.mem_takeWhile_imp h
  rw [bne_self_eq_false] at hmark
  cases hmark

/-- What stands after the last mark is the end of the text. -/
theorem afterLast_isSuffix (mark : Char) (cs : List Char) : afterLast mark cs <:+ cs := by
  have hprefix := List.takeWhile_prefix (· != mark) (l := cs.reverse)
  rw [afterLast, ← List.reverse_prefix, List.reverse_reverse]
  exact hprefix

/-- Without a mark all is kept. -/
theorem afterLast_of_notMem {mark : Char} (h : mark ∉ cs) : afterLast mark cs = cs := by
  rw [afterLast, List.takeWhile_eq_self_iff.mpr, List.reverse_reverse]
  intro c hc
  rw [bne_iff_ne]
  rintro rfl
  exact h (List.mem_reverse.mp hc)

/-- What stands before a mark does not matter. -/
theorem afterLast_append_cons (mark : Char) (before after : List Char) :
    afterLast mark (before ++ mark :: after) = afterLast mark after := by
  rw [afterLast, afterLast, List.reverse_append, List.reverse_cons, List.append_assoc,
    List.takeWhile_append]
  split
  · next hall =>
    rw [List.singleton_append, List.takeWhile_cons_of_neg (by simp), List.append_nil,
      (List.takeWhile_prefix _).eq_of_length hall]
  · rfl

/-- What a goal says: its text without comments, after the last turnstile. -/
def conclusion (cs : List Char) : List Char := afterLast '⊢' (stripComments cs)

theorem commentFree_conclusion (cs : List Char) : CommentFree (conclusion cs) :=
  (commentFree_stripComments cs).of_isInfix (afterLast_isSuffix _ _).isInfix

theorem signature_eq (cs : List Char) : signature cs =
    if collapse (conclusion cs) = [] then none else some (collapse (conclusion cs)) := by
  rw [signature, ← conclusion]
  cases collapse (conclusion cs) with
  | nil => rfl
  | cons c r => rw [if_neg (List.cons_ne_nil c r)]

/-- A signature is the collapsed conclusion, unless this is empty. -/
theorem signature_eq_some_iff {s : List Char} :
    signature cs = some s ↔ s ≠ [] ∧ s = collapse (conclusion cs) := by
  rw [signature_eq]
  split
  · next hblank =>
    rw [hblank]
    exact ⟨nofun, fun h => absurd h.2 h.1⟩
  · next hne =>
    rw [Option.some.injEq]
    exact ⟨fun h => ⟨h ▸ hne, h.symm⟩, fun h => h.2.symm⟩

/-- A signature is its own signature. -/
theorem signature_signature {s : List Char} (h : signature cs = some s) :
    signature s = some s := by
  obtain ⟨hne, rfl⟩ := signature_eq_some_iff.mp h
  have hfree : CommentFree (collapse (conclusion cs)) := (commentFree_conclusion cs).collapse
  have hmark : '⊢' ∉ collapse (conclusion cs) := by
    intro hin
    rcases mem_collapse hin with hspace | hin
    · exact absurd hspace (by decide)
    · exact notMem_afterLast _ _ hin
  have hself : conclusion (collapse (conclusion cs)) = collapse (conclusion cs) := by
    rw [conclusion, hfree.stripComments_eq, afterLast_of_notMem hmark]
  exact signature_eq_some_iff.mpr ⟨hne, by rw [hself, collapse_collapse]⟩

/-- Goals have the same signature exactly if their conclusions have the same words. -/
theorem signature_eq_iff {a b : List Char} :
    signature a = signature b ↔ words (conclusion a) = words (conclusion b) := by
  rw [← collapse_eq_iff, signature_eq, signature_eq]
  constructor
  · intro h
    split at h
    · next ha =>
      split at h
      · next hb => rw [ha, hb]
      · cases h
    · split at h
      · cases h
      · exact Option.some.inj h
  · intro h
    rw [h]

/-- Hypotheses without comments do not count. -/
theorem signature_append {h : List Char} (hfree : CommentFree h) (c : List Char) :
    signature (h ++ '⊢' :: c) = signature ('⊢' :: c) := by
  have hconclusion : ∀ {before : List Char}, CommentFree before →
      conclusion (before ++ '⊢' :: c) = conclusion c := by
    intro before hbefore
    have hwhole : CommentFree (before ++ ['⊢']) :=
      hbefore.append_cons (by decide) (by decide) commentFree_nil
    have hseam : ∀ x ∈ (before ++ ['⊢']).getLast?, ∀ d ∈ c.head?, beginsComment x d = false := by
      intro x hx d _
      rw [List.getLast?_concat] at hx
      obtain rfl := Option.some.inj hx
      rw [← Bool.not_eq_true, beginsComment_iff]
      rintro ⟨-, hx | hx⟩ <;> exact absurd hx (by decide)
    have hstrip := hwhole.stripComments_append hseam
    rw [List.append_assoc, List.append_assoc, List.singleton_append,
      List.singleton_append] at hstrip
    rw [conclusion, hstrip, afterLast_append_cons, conclusion]
  rw [signature_eq_iff, hconclusion hfree]
  exact congrArg words (hconclusion commentFree_nil).symm

/-- A text without marks of comments has no comments. -/
theorem commentFree_of_not_isInfix (hdashes : ¬ ['-', '-'] <:+: cs)
    (hopens : ¬ ['/', '-'] <:+: cs) : CommentFree cs := by
  induction cs with
  | nil => exact commentFree_nil
  | cons c cs ih =>
    have hrest : ∀ {w : List Char}, w <:+: cs → w <:+: c :: cs :=
      fun hw => hw.trans (List.suffix_cons c cs).isInfix
    refine commentFree_cons.mpr ⟨fun d hd => ?_, ih (mt hrest hdashes) (mt hrest hopens)⟩
    obtain ⟨r, rfl⟩ := List.head?_eq_some_iff.mp hd
    rw [← Bool.not_eq_true, beginsComment_iff]
    rintro ⟨rfl, rfl | rfl⟩
    · exact hdashes ⟨[], r, rfl⟩
    · exact hopens ⟨[], r, rfl⟩

-- ── Texts ─────────────────────────────────────────────────────────────────────

theorem toList_normalizeStatement (s : String) :
    (normalizeStatement s).toList = normalize s.toList := String.toList_ofList

theorem goalSignature_eq_some_iff {t s : String} :
    goalSignature t = some s ↔ signature t.toList = some s.toList := by
  constructor
  · intro h
    obtain ⟨l, hl, rfl⟩ := Option.map_eq_some_iff.mp h
    rw [hl, String.toList_ofList]
  · intro h
    rw [goalSignature, h]
    exact congrArg some String.ofList_toList

/-- Goals have the same signature if their texts do. -/
theorem goalSignature_eq_iff {a b : String} :
    goalSignature a = goalSignature b ↔ signature a.toList = signature b.toList := by
  constructor
  · intro h
    exact Option.map_injective (fun _ _ => String.ofList_injective) h
  · intro h
    rw [goalSignature, h, goalSignature]

/-- The normal form of a statement and the signature of a goal do not change any more when they are
    made again, and comments may be removed first. Hypotheses without marks of comments have no
    part in the signature: it is that of the turnstile and what follows. Goals have the same
    signature exactly if the same words stand after their last turnstiles. -/
theorem normal_forms :
    (∀ t : String, normalizeStatement (normalizeStatement t) = normalizeStatement t ∧
      normalizeStatement (String.ofList (stripComments t.toList)) = normalizeStatement t) ∧
    (∀ t s : String, goalSignature t = some s → goalSignature s = some s) ∧
    (∀ h c : String, ¬ "--".toList <:+: h.toList → ¬ "/-".toList <:+: h.toList →
      goalSignature (h ++ "⊢" ++ c) = goalSignature ("⊢" ++ c)) ∧
    ∀ a b : String, goalSignature a = goalSignature b ↔
      words (conclusion a.toList) = words (conclusion b.toList) := by
  refine ⟨fun t => ⟨?_, ?_⟩, fun t s h => ?_, fun h c hdashes hopens => ?_, fun a b => ?_⟩
  · rw [normalizeStatement, toList_normalizeStatement, normalize_normalize, normalizeStatement]
  · rw [normalizeStatement, String.toList_ofList, normalize_stripComments, normalizeStatement]
  · rw [goalSignature_eq_some_iff] at h ⊢
    exact signature_signature h
  · have hfree : CommentFree h.toList := commentFree_of_not_isInfix hdashes hopens
    rw [goalSignature_eq_iff, String.toList_append, String.toList_append, String.toList_append,
      List.append_assoc]
    exact signature_append hfree c.toList
  · rw [goalSignature_eq_iff, signature_eq_iff]

/-- A goal with turnstiles in a comment and in a hypothesis, and hypotheses that end with a dash. -/
theorem normal_forms_turnstiles :
    let t := "n : Nat -- ⊢ n\nh : P ⊢ Q\n⊢ n /- or /- m -/ ⊢ -/ +\t0 =  n"
    let s := "n + 0 = n"
    let h := "m k : Nat\nh : m - k / 2 = k ⊢ k -"
    let c := "- n + 0\n= -- so\n n"
    (goalSignature t = some s ∧ goalSignature s = some s) ∧
      (¬ "--".toList <:+: h.toList ∧ ¬ "/-".toList <:+: h.toList) ∧
      goalSignature (h ++ "⊢" ++ c) = goalSignature ("⊢" ++ c) := by
  intro t s h c
  obtain ⟨-, hstable, hhypotheses, -⟩ := normal_forms
  have ht : goalSignature t = some s := by decide +kernel
  have hdashes : ¬ "--".toList <:+: h.toList := by decide +kernel
  have hopens : ¬ "/-".toList <:+: h.toList := by decide +kernel
  exact ⟨⟨ht, hstable t s ht⟩, ⟨hdashes, hopens⟩, hhypotheses h c hdashes hopens⟩

end ProofLedger.Text

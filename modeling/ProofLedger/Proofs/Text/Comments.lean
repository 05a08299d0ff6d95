import Mathlib.Data.List.Chain
import ProofLedger.Proofs.Text.Lines
import ProofLedger.Text.Statement

/-!
# Texts without comments

Stripping comments leaves a text in which none begins: where a comment stood, a space or the end
of the line keeps its neighbours apart. So stripping once more changes nothing, and the same holds
of every part of the text and of its lines put together again.
-/

namespace ProofLedger.Text

/-- Whether two neighbouring characters begin a comment. -/
def beginsComment (c d : Char) : Bool := d == '-' && (c == '-' || c == '/')

/-- No comment begins in a text. -/
def CommentFree (cs : List Char) : Prop := cs.IsChain fun c d => beginsComment c d = false

variable {cs ds : List Char}

theorem commentFree_nil : CommentFree [] := List.isChain_nil

theorem commentFree_cons {c : Char} :
    CommentFree (c :: cs) ↔ (∀ d ∈ cs.head?, beginsComment c d = false) ∧ CommentFree cs :=
  List.isChain_cons

theorem CommentFree.of_isInfix (h : CommentFree cs) (hin : ds <:+: cs) : CommentFree ds := by
  obtain ⟨s, t, rfl⟩ := hin
  exact (List.IsChain.left_of_append h).right_of_append

-- ── Stripping ─────────────────────────────────────────────────────────────────

/-- Only a dash that stood there before can come next. -/
theorem head?_stripFrom {region : Region} (h : (stripFrom region cs).head? = some '-') :
    region = .code ∧ cs.head? = some '-' := by
  fun_induction stripFrom region cs with
  | case1 => cases h
  | case2 r _ => cases h
  | case3 c r _ ih => cases (ih h).1
  | case4 r ih => cases (ih h).1
  | case5 r ih => cases (ih h).1
  | case6 c r _ _ _ => exact ⟨rfl, h⟩
  | case7 d r ih => cases (ih h).1
  | case8 r _ => cases h
  | case9 d r ih => cases (ih h).1
  | case10 d r _ => cases h
  | case11 d c r _ _ _ _ ih => cases (ih h).1

/-- A comment begins with a dash, after a dash or a slash. -/
theorem beginsComment_iff {c d : Char} :
    beginsComment c d = true ↔ d = '-' ∧ (c = '-' ∨ c = '/') := by
  simp only [beginsComment, Bool.and_eq_true, Bool.or_eq_true, beq_iff_eq]

/-- A character that no comment begins with or goes on with keeps two texts apart. -/
theorem CommentFree.append_cons {x : Char} (h : CommentFree cs) (hdash : x ≠ '-')
    (hslash : x ≠ '/') (hrest : CommentFree ds) : CommentFree (cs ++ x :: ds) := by
  refine List.isChain_append.mpr ⟨h, commentFree_cons.mpr ⟨fun d _ => ?_, hrest⟩, ?_⟩
  · rw [← Bool.not_eq_true, beginsComment_iff]
    rintro ⟨-, hx | hx⟩
    · exact hdash hx
    · exact hslash hx
  · intro c _ d hd
    obtain rfl := Option.some.inj hd
    rw [← Bool.not_eq_true, beginsComment_iff]
    rintro ⟨hx, -⟩
    exact hdash hx

theorem commentFree_stripFrom (region : Region) (cs : List Char) :
    CommentFree (stripFrom region cs) := by
  have hsafe : ∀ {c : Char} {ds : List Char}, c ≠ '-' → c ≠ '/' → CommentFree ds →
      CommentFree (c :: ds) := fun hdash hslash hds => commentFree_nil.append_cons hdash hslash hds
  fun_induction stripFrom region cs with
  | case1 => exact commentFree_nil
  | case2 r ih => exact hsafe (by decide) (by decide) ih
  | case3 c r _ ih => exact ih
  | case4 r ih => exact ih
  | case5 r ih => exact ih
  | case6 c r hslash hdash ih =>
    refine commentFree_cons.mpr ⟨fun d hd => ?_, ih⟩
    rw [← Bool.not_eq_true, beginsComment_iff]
    rintro ⟨rfl, hc⟩
    -- then the dash stood there before, and the comment would have been seen
    obtain ⟨r', rfl⟩ := List.head?_eq_some_iff.mp (head?_stripFrom hd).2
    rcases hc with rfl | rfl
    · exact hdash r' rfl rfl
    · exact hslash r' rfl rfl
  | case7 d r ih => exact ih
  | case8 r ih => exact hsafe (by decide) (by decide) ih
  | case9 d r ih => exact ih
  | case10 d r ih => exact hsafe (by decide) (by decide) ih
  | case11 d c r _ _ _ _ ih => exact ih

/-- Stripping leaves no comment. -/
theorem commentFree_stripComments (cs : List Char) : CommentFree (stripComments cs) :=
  commentFree_stripFrom .code cs

/-- A text without comments stays as it is, also in front of another one if none begins where the
    two meet. -/
theorem CommentFree.stripComments_append (h : CommentFree cs) {rest : List Char}
    (hseam : ∀ c ∈ cs.getLast?, ∀ d ∈ rest.head?, beginsComment c d = false) :
    stripComments (cs ++ rest) = cs ++ stripComments rest := by
  rw [stripComments, stripComments]
  induction cs with
  | nil => rfl
  | cons c cs ih =>
    obtain ⟨hnext, hrest⟩ := commentFree_cons.mp h
    have hbegins : ∀ d ∈ (cs ++ rest).head?, beginsComment c d = false := by
      cases cs with
      | nil => exact hseam c rfl
      | cons d cs => exact hnext
    have hno : ∀ r, cs ++ rest = '-' :: r → c ≠ '-' ∧ c ≠ '/' := by
      intro r hr
      have hdash := hbegins '-' (by rw [hr]; rfl)
      rw [← Bool.not_eq_true, beginsComment_iff] at hdash
      exact ⟨fun hc => hdash ⟨rfl, .inl hc⟩, fun hc => hdash ⟨rfl, .inr hc⟩⟩
    have hlast : ∀ x ∈ cs.getLast?, ∀ d ∈ rest.head?, beginsComment x d = false := by
      cases cs with
      | nil => exact nofun
      | cons d cs => exact hseam
    rw [List.cons_append, stripFrom.eq_6 c (cs ++ rest) (fun r hc hr => (hno r hr).2 hc)
      (fun r hc hr => (hno r hr).1 hc), ih hrest hlast, List.cons_append]

/-- Without comments there is nothing to strip. -/
theorem CommentFree.stripComments_eq (h : CommentFree cs) : stripComments cs = cs := by
  have hnil : stripComments [] = [] := by rw [stripComments, stripFrom]
  have hself : stripComments (cs ++ []) = cs ++ stripComments [] :=
    h.stripComments_append fun _ _ => nofun
  rwa [hnil, List.append_nil] at hself

-- ── Lines ─────────────────────────────────────────────────────────────────────

/-- The first line stands at the start of the text, and every line is a part of it. -/
theorem isInfix_of_mem_lines (cs : List Char) :
    (∀ l ∈ (lines cs).head?, l <+: cs) ∧ ∀ l ∈ lines cs, l <:+: cs := by
  have hempty : ∀ {r : List Char} (ends : List Char), (∀ l ∈ lines r, l <:+: r) →
      (∀ l ∈ ([] :: lines r).head?, l <+: ends ++ r) ∧ ∀ l ∈ [] :: lines r, l <:+: ends ++ r := by
    intro r ends ih
    refine ⟨fun l hl => ?_, List.forall_mem_cons.mpr ⟨⟨[], _, rfl⟩, fun l hl => ?_⟩⟩
    · cases hl
      exact ⟨_, rfl⟩
    · exact (ih l hl).trans (List.suffix_append ends r).isInfix
  fun_induction lines cs with
  | case1 =>
    refine ⟨fun l hl => ?_, List.forall_mem_nil _⟩
    cases hl
  | case2 r ih => exact hempty ['\n'] ih.2
  | case3 r ih => exact hempty ['\r', '\n'] ih.2
  | case4 c r _ _ _ _ =>
    refine ⟨fun l hl => ?_, List.forall_mem_singleton.mpr ⟨[], r, rfl⟩⟩
    cases hl
    exact ⟨r, rfl⟩
  | case5 c r _ _ first ls hlines ih =>
    rw [hlines] at ih
    -- the character goes on the first line
    have hfirst : c :: first <+: c :: r := List.cons_prefix_cons.mpr ⟨rfl, ih.1 first rfl⟩
    refine ⟨fun l hl => ?_, List.forall_mem_cons.mpr ⟨hfirst.isInfix, fun l hl => ?_⟩⟩
    · cases hl
      exact hfirst
    · exact (ih.2 l (List.mem_cons_of_mem _ hl)).trans (List.suffix_cons c r).isInfix

theorem CommentFree.of_mem_lines (h : CommentFree cs) {l : List Char} (hl : l ∈ lines cs) :
    CommentFree l :=
  h.of_isInfix ((isInfix_of_mem_lines cs).2 l hl)

/-- No comment begins across the end of a line. -/
theorem CommentFree.unlines {ls : List (List Char)} (h : ∀ l ∈ ls, CommentFree l) :
    CommentFree (unlines ls) := by
  fun_induction Text.unlines ls with
  | case1 => exact commentFree_nil
  | case2 l => exact h l (List.mem_singleton_self l)
  | case3 l ls _ ih =>
    obtain ⟨hl, hls⟩ := List.forall_mem_cons.mp h
    exact hl.append_cons (by decide) (by decide) (ih hls)

/-- The normal form of a text without comments. -/
theorem CommentFree.normalize_eq (h : CommentFree cs) : normalize cs = collapse cs := by
  rw [normalize, h.stripComments_eq]

end ProofLedger.Text

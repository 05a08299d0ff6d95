import ProofLedger.Text.Phrase
import ProofLedger.Proofs.Text.Lines

/-!
# Phrases in the lines of a text

A phrase that is found in a text is found as well where the text is part of a longer one, provided
that no word goes on in front of it or behind it (`occursFrom_append`, `occursFrom_extended`). For
a piece of a phrase looks no further than at the characters it passes, and an edge at the two
characters it lies between: what a piece passes it passes in the longer text too
(`Spot.Extended.mem_ends`). So whole lines may be put around a text (`occursIn_between`). The case
of letters does not matter either (`occursIn_congr`).
-/

namespace ProofLedger.Text

variable {rest : List Char} {s s' t : Spot}

/-- A spot as it is in a longer text: some more follows, and if a word goes on there, it went on
    before. -/
structure Spot.Extended (rest : List Char) (s t : Spot) : Prop where
  before : isWordAt t.before = isWordAt s.before
  after : t.after = s.after ++ rest

-- ── Pieces ────────────────────────────────────────────────────────────────────

theorem Spot.Extended.past {text : List Char} (h : Extended rest s t)
    (hpast : s.past text = some s') : ∃ t', t.past text = some t' ∧ Extended rest s' t' := by
  induction text generalizing s t with
  | nil =>
    cases hpast
    exact ⟨t, rfl, h⟩
  | cons x xs ih =>
    obtain ⟨before, after⟩ := s
    obtain ⟨before', after'⟩ := t
    obtain rfl : after' = after ++ rest := h.after
    cases after with
    | nil => cases hpast
    | cons c r =>
      simp only [Spot.past, List.cons_append] at hpast ⊢
      split at hpast
      · next hx =>
        rw [if_pos hx]
        have hnext : Extended rest ⟨some c, r⟩ ⟨some c, r ++ rest⟩ := ⟨rfl, rfl⟩
        exact ih hnext hpast
      · cases hpast

theorem mem_spotsWhile_self (p : Char → Bool) (before : Option Char) (cs : List Char) :
    ⟨before, cs⟩ ∈ spotsWhile p before cs := by
  cases cs with
  | nil => exact List.mem_singleton_self _
  | cons c r => exact List.mem_cons_self

theorem Spot.Extended.mem_spotsWhile {p : Char → Bool} {before before' : Option Char}
    {cs : List Char} (hbefore : isWordAt before' = isWordAt before)
    (hmem : s' ∈ spotsWhile p before cs) :
    ∃ t' ∈ spotsWhile p before' (cs ++ rest), Extended rest s' t' := by
  induction cs generalizing before before' with
  | nil =>
    rw [List.mem_singleton.mp hmem]
    exact ⟨_, mem_spotsWhile_self p before' rest, hbefore, rfl⟩
  | cons c r ih =>
    rcases List.mem_cons.mp hmem with rfl | hmem
    · exact ⟨_, mem_spotsWhile_self p before' (c :: r ++ rest), hbefore, rfl⟩
    · cases hp : p c with
      | false =>
        rw [hp] at hmem
        cases hmem
      | true =>
        rw [hp] at hmem
        obtain ⟨t', ht', hext⟩ := ih rfl hmem
        refine ⟨t', List.mem_cons_of_mem _ ?_, hext⟩
        rw [hp]
        exact ht'

/-- An edge lies at the end of a text exactly if it does with no word going on behind it. -/
theorem isEdge_append {before before' : Option Char} {cs : List Char}
    (hrest : isWordAt rest.head? = false) (hbefore : isWordAt before' = isWordAt before) :
    isEdge before' (cs ++ rest).head? = isEdge before cs.head? := by
  cases cs with
  | nil => rw [isEdge, isEdge, hbefore, List.nil_append, hrest]; rfl
  | cons c r => rw [isEdge, isEdge, hbefore]; rfl

/-- Where a piece may end in a text, it may end in the longer text. -/
theorem Spot.Extended.mem_ends {piece : Piece} (h : Extended rest s t)
    (hrest : isWordAt rest.head? = false) (hmem : s' ∈ piece.ends s) :
    ∃ t' ∈ piece.ends t, Extended rest s' t' := by
  obtain ⟨before, after⟩ := s
  obtain ⟨before', after'⟩ := t
  obtain ⟨hbefore, rfl⟩ : isWordAt before' = isWordAt before ∧ after' = after ++ rest :=
    ⟨h.before, h.after⟩
  cases piece with
  | word text =>
    obtain ⟨t', hpast, hext⟩ := h.past (Option.mem_toList.mp hmem)
    exact ⟨t', Option.mem_toList.mpr hpast, hext⟩
  | maybe text =>
    rcases List.mem_append.mp hmem with hmem | hmem
    · obtain ⟨t', hpast, hext⟩ := h.past (Option.mem_toList.mp hmem)
      exact ⟨t', List.mem_append_left _ (Option.mem_toList.mpr hpast), hext⟩
    · rw [List.mem_singleton.mp hmem]
      exact ⟨_, List.mem_append_right _ (List.mem_singleton_self _), h⟩
  | oneOf texts =>
    obtain ⟨text, htext, hpast⟩ := List.mem_filterMap.mp hmem
    obtain ⟨t', hpast', hext⟩ := h.past hpast
    exact ⟨t', List.mem_filterMap.mpr ⟨text, htext, hpast'⟩, hext⟩
  | edge =>
    simp only [Piece.ends, isEdge_append hrest hbefore] at hmem ⊢
    split at hmem
    · next hedge =>
      rw [if_pos hedge, List.mem_singleton.mp hmem]
      exact ⟨_, List.mem_singleton_self _, h⟩
    · cases hmem
  | blanks => exact Extended.mem_spotsWhile hbefore hmem
  | sameLine => exact Extended.mem_spotsWhile hbefore hmem
  | unquoted =>
    cases after with
    | nil => cases hmem
    | cons c r =>
      simp only [Piece.ends, List.cons_append] at hmem ⊢
      split at hmem
      · cases hmem
      · next hquote =>
        rw [if_neg hquote]
        exact Extended.mem_spotsWhile rfl hmem

-- ── Phrases ───────────────────────────────────────────────────────────────────

variable {phrase : Phrase} {before before' : Option Char} {cs : List Char}

/-- A phrase that matches in a text matches in the longer text. -/
theorem Spot.Extended.matchesAt (h : Extended rest s t) (hrest : isWordAt rest.head? = false)
    (hmatch : phrase.matchesAt s = true) : phrase.matchesAt t = true := by
  induction phrase generalizing s t with
  | nil => rfl
  | cons piece phrase ih =>
    obtain ⟨s', hs', hmatch'⟩ := List.any_eq_true.mp hmatch
    obtain ⟨t', ht', hext⟩ := h.mem_ends hrest hs'
    exact List.any_eq_true.mpr ⟨t', ht', ih hext hmatch'⟩

theorem occursFrom_of_matchesAt (h : phrase.matchesAt ⟨before, cs⟩ = true) :
    phrase.occursFrom before cs = true := by
  cases cs with
  | nil => exact h
  | cons c r => exact Bool.or_eq_true_iff.mpr (.inl h)

/-- A phrase in a text is in the text with more behind it. -/
theorem occursFrom_extended (hrest : isWordAt rest.head? = false)
    (hbefore : isWordAt before' = isWordAt before) (h : phrase.occursFrom before cs = true) :
    phrase.occursFrom before' (cs ++ rest) = true := by
  induction cs generalizing before before' with
  | nil =>
    have hext : Spot.Extended rest ⟨before, []⟩ ⟨before', rest⟩ := ⟨hbefore, rfl⟩
    exact occursFrom_of_matchesAt (hext.matchesAt hrest h)
  | cons c r ih =>
    refine Bool.or_eq_true_iff.mpr ((Bool.or_eq_true_iff.mp h).imp (fun hmatch => ?_) (ih rfl))
    have hext : Spot.Extended rest ⟨before, c :: r⟩ ⟨before', c :: r ++ rest⟩ := ⟨hbefore, rfl⟩
    exact hext.matchesAt hrest hmatch

/-- A phrase in a text is in the text with whole lines in front of it. -/
theorem occursFrom_append {above : List Char} (habove : EndsLine above)
    (hbefore : above = [] → isWordAt before = false) (h : phrase.occursFrom none cs = true) :
    phrase.occursFrom before (above ++ cs) = true := by
  induction above generalizing before with
  | nil =>
    have hnone : isWordAt before = isWordAt none := hbefore rfl
    have hcs : phrase.occursFrom before (cs ++ []) = true := occursFrom_extended rfl hnone h
    rwa [List.append_nil] at hcs
  | cons c above ih =>
    refine Bool.or_eq_true_iff.mpr (.inr (ih habove.tail fun hnil => ?_))
    subst hnil
    have hc : c = '\n' := Option.some.inj (habove.resolve_left (List.cons_ne_nil _ _))
    rw [hc]
    rfl

-- ── Texts ─────────────────────────────────────────────────────────────────────

theorem EndsLine.map_foldCase (h : EndsLine cs) : EndsLine (cs.map foldCase) := by
  rcases h with rfl | h
  · exact .inl rfl
  · refine .inr ?_
    rw [List.getLast?_map, h]
    rfl

/-- Whole lines around a text keep the phrases that are in it. -/
theorem occursIn_between {above below : List Char} (habove : EndsLine above)
    (hbelow : below = [] ∨ below.head? = some '\n') (h : phrase.occursIn cs = true) :
    phrase.occursIn (above ++ cs ++ below) = true := by
  have hrest : isWordAt (below.map foldCase).head? = false := by
    rw [List.head?_map]
    rcases hbelow with rfl | hbelow
    · rfl
    · rw [hbelow]
      rfl
  rw [Phrase.occursIn, List.map_append, List.map_append, List.append_assoc]
  exact occursFrom_append habove.map_foldCase (fun _ => rfl) (occursFrom_extended hrest rfl h)

/-- Beyond ASCII there is one case only. -/
theorem val_toLower_eq_iff {c : Char} {n : UInt32} (hn : 128 ≤ n) :
    c.toLower.val = n ↔ c.val = n := by
  by_cases hupper : 65 ≤ c.val.toNat ∧ c.val.toNat ≤ 90
  · -- a capital letter and its small form both lie within ASCII
    have hlower : c.toLower.val = c.val + 32 := congrArg Char.val (dif_pos hupper)
    have hadd : (c.val + 32).toNat = c.val.toNat + 32 := by
      rw [UInt32.toNat_add]
      exact Nat.mod_eq_of_lt (by change c.val.toNat + 32 < 2 ^ 32; omega)
    have hbound : 128 ≤ n.toNat := hn
    rw [hlower]
    constructor
    · rintro rfl
      change 128 ≤ (c.val + 32).toNat at hbound
      omega
    · rintro rfl
      omega
  · have hsame : c.toLower = c := dif_neg hupper
    rw [hsame]

/-- Letters that differ in nothing but their case are folded alike. -/
theorem foldCase_eq {c d : Char} (h : c.toLower = d.toLower) : foldCase c = foldCase d := by
  have hval : ∀ n : UInt32, 128 ≤ n → (c.val = n ↔ d.val = n) := by
    intro n hn
    rw [← val_toLower_eq_iff hn, h, val_toLower_eq_iff hn]
  simp only [foldCase, beq_iff_eq, hval 0x17F (by decide), hval 0x212A (by decide), h]

theorem map_foldCase_eq {cs ds : List Char} (h : cs.map Char.toLower = ds.map Char.toLower) :
    cs.map foldCase = ds.map foldCase := by
  induction cs generalizing ds with
  | nil =>
    cases ds with
    | nil => rfl
    | cons d ds => cases h
  | cons c cs ih =>
    cases ds with
    | nil => cases h
    | cons d ds =>
      obtain ⟨hc, hcs⟩ := List.cons.inj h
      rw [List.map_cons, List.map_cons, foldCase_eq hc, ih hcs]

/-- The case of letters does not matter. -/
theorem occursIn_congr {cs ds : List Char} (h : cs.map Char.toLower = ds.map Char.toLower) :
    phrase.occursIn cs = phrase.occursIn ds := by
  rw [Phrase.occursIn, Phrase.occursIn, map_foldCase_eq h]

end ProofLedger.Text

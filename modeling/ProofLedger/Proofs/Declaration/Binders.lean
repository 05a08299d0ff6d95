import Mathlib.Data.List.Infix
import ProofLedger.Derivation
import ProofLedger.Proofs.Declaration.Content

/-!
# What stands in brackets

The search for the statement counts brackets and looks at colons only outside of all of them. A
text whose own brackets are balanced, put between two brackets, leaves the count where it was
before the first of them, so the search goes on as if nothing had been there
(`splitHeader_bracketed`). Binders may therefore hold any types and any default values: neither
the statement nor the body nor what the declaration is recognised by depends on them
(`parseHeader_bracketed`).
-/

namespace ProofLedger

namespace Declaration

-- ── Counting brackets ─────────────────────────────────────────────────────────

/-- The number of open brackets after a text. -/
def depthThrough (depth : Nat) (cs : List Char) : Nat := cs.foldl depthAfter depth

/-- No colon in a text stands outside of all brackets, of which some may be open before it. -/
def HidesColons (depth : Nat) (cs : List Char) : Prop :=
  ∀ before, before ++ [':'] <+: cs → depthThrough depth before ≠ 0

/-- A text that closes all the brackets it opens and no others, whatever their kinds. -/
structure Balanced (cs : List Char) : Prop where
  /-- No part from the start on closes more brackets than it opens. -/
  within : ∀ p, p <+: cs → p.countP closesBracket ≤ p.countP opensBracket
  closed : cs.countP closesBracket = cs.countP opensBracket

instance (cs : List Char) : Decidable (Balanced cs) :=
  decidable_of_iff ((∀ p ∈ cs.inits, p.countP closesBracket ≤ p.countP opensBracket) ∧
      cs.countP closesBracket = cs.countP opensBracket)
    ⟨fun h => ⟨fun p hp => h.1 p ((List.mem_inits p cs).mpr hp), h.2⟩,
      fun h => ⟨fun p hp => h.within p ((List.mem_inits p cs).mp hp), h.closed⟩⟩

variable {c : Char} {cs : List Char} {depth : Nat}

theorem depthAfter_of_opens (hc : opensBracket c = true) : depthAfter depth c = depth + 1 :=
  if_pos hc

/-- No bracket closes and opens. -/
theorem opensBracket_of_closes (hc : closesBracket c = true) : opensBracket c = false := by
  simp only [closesBracket, Bool.or_eq_true, beq_iff_eq] at hc
  rcases hc with (((rfl | rfl) | rfl) | rfl) | rfl <;> decide

theorem depthAfter_of_closes (hc : closesBracket c = true) : depthAfter depth c = depth - 1 := by
  rw [depthAfter, opensBracket_of_closes hc, if_neg Bool.false_ne_true, if_pos hc]

/-- A character that closes nothing but what is open changes the number of open brackets by what it
    opens and closes. -/
theorem depthAfter_add
    (h : [c].countP closesBracket ≤ depth + [c].countP opensBracket) :
    depthAfter depth c + [c].countP closesBracket = depth + [c].countP opensBracket := by
  rw [List.countP_singleton, List.countP_singleton] at h ⊢
  by_cases hcloses : closesBracket c = true
  · rw [depthAfter_of_closes hcloses]
    rw [hcloses, opensBracket_of_closes hcloses] at h ⊢
    exact Nat.sub_add_cancel h
  · rw [if_neg hcloses]
    by_cases hopens : opensBracket c = true
    · rw [depthAfter_of_opens hopens, if_pos hopens]
    · rw [depthAfter, if_neg hopens, if_neg hopens, if_neg hcloses]

/-- A text that never closes more brackets than are open changes their number by what it opens and
    closes. -/
theorem depthThrough_add
    (h : ∀ p, p <+: cs → p.countP closesBracket ≤ depth + p.countP opensBracket) :
    depthThrough depth cs + cs.countP closesBracket = depth + cs.countP opensBracket := by
  induction cs generalizing depth with
  | nil => rfl
  | cons c cs ih =>
    have hsplit : ∀ (f : Char → Bool) (p : List Char),
        (c :: p).countP f = [c].countP f + p.countP f := fun f p => by
      rw [← List.countP_append, List.singleton_append]
    have hfirst := depthAfter_add (h [c] (List.cons_prefix_cons.mpr ⟨rfl, List.nil_prefix⟩))
    have hrest : depthThrough (depthAfter depth c) cs + cs.countP closesBracket =
        depthAfter depth c + cs.countP opensBracket := by
      refine ih fun p hp => ?_
      have hlater := h (c :: p) (List.cons_prefix_cons.mpr ⟨rfl, hp⟩)
      rw [hsplit closesBracket p, hsplit opensBracket p] at hlater
      omega
    show depthThrough (depthAfter depth c) cs + _ = _
    rw [hsplit closesBracket cs, hsplit opensBracket cs]
    omega

/-- Between two brackets a balanced text leaves the first of them open all along. -/
theorem Balanced.depthThrough_eq (h : Balanced cs) : depthThrough 1 cs = 1 := by
  have hadd : depthThrough 1 cs + cs.countP closesBracket = 1 + cs.countP opensBracket :=
    depthThrough_add fun p hp => Nat.le_add_left_of_le (h.within p hp)
  have hclosed := h.closed
  omega

theorem Balanced.hidesColons (h : Balanced cs) : HidesColons 1 cs := by
  intro before hbefore
  have hpre : before <+: cs := (List.prefix_append _ _).trans hbefore
  have hadd : depthThrough 1 before + before.countP closesBracket =
      1 + before.countP opensBracket :=
    depthThrough_add fun p hp => Nat.le_add_left_of_le (h.within p (hp.trans hpre))
  have hwithin := h.within before hpre
  omega

-- ── The search goes on ────────────────────────────────────────────────────────

theorem hidesColons_cons : HidesColons depth (c :: cs) ↔
    (c = ':' → depth ≠ 0) ∧ HidesColons (depthAfter depth c) cs := by
  constructor
  · intro h
    refine ⟨?_, fun before hbefore => h (c :: before) (List.cons_prefix_cons.mpr ⟨rfl, hbefore⟩)⟩
    rintro rfl
    exact h [] (List.cons_prefix_cons.mpr ⟨rfl, List.nil_prefix⟩)
  · rintro ⟨hc, hcs⟩ before hbefore
    cases before with
    | nil => exact hc (List.cons_prefix_cons.mp hbefore).1.symm
    | cons d before =>
      obtain ⟨rfl, hrest⟩ := List.cons_prefix_cons.mp hbefore
      exact hcs before hrest

instance decidableHidesColons : (depth : Nat) → (cs : List Char) → Decidable (HidesColons depth cs)
  | _, [] => isTrue fun _ hbefore => absurd hbefore (by simp)
  | depth, c :: cs =>
    have := decidableHidesColons (depthAfter depth c) cs
    decidable_of_iff _ hidesColons_cons.symm

/-- The search reads on through a text without a colon outside of all brackets. -/
theorem splitHeader_append (h : HidesColons depth cs) (rest : List Char) :
    splitHeader depth (cs ++ rest) = splitHeader (depthThrough depth cs) rest := by
  induction cs generalizing depth with
  | nil => rfl
  | cons c cs ih =>
    obtain ⟨hc, hcs⟩ := hidesColons_cons.mp h
    have hcolon : ¬ (decide (depth = 0) && c == ':') = true := by
      rw [Bool.and_eq_true, decide_eq_true_eq, beq_iff_eq]
      exact fun hboth => hc hboth.2 hboth.1
    rw [List.cons_append, splitHeader, if_neg hcolon]
    exact ih hcs

/-- What stands in brackets is passed over. -/
theorem splitHeader_bracketed {before inner after : List Char} {opening closing : Char}
    (hopening : opensBracket opening = true) (hclosing : closesBracket closing = true)
    (hdepth : depthThrough 0 before = 0) (hbefore : HidesColons 0 before)
    (hinner : Balanced inner) :
    splitHeader 0 (before ++ [opening] ++ inner ++ [closing] ++ after) = splitHeader 0 after := by
  have hopen : HidesColons 0 [opening] := by
    refine hidesColons_cons.mpr ⟨?_, fun p hp => absurd hp (by simp)⟩
    rintro rfl
    exact absurd hopening (by decide)
  have hclose : HidesColons 1 [closing] := by
    refine hidesColons_cons.mpr ⟨fun _ => Nat.one_ne_zero, fun p hp => absurd hp (by simp)⟩
  have hinside : depthThrough 0 [opening] = 1 := depthAfter_of_opens hopening
  have houtside : depthThrough 1 [closing] = 0 := depthAfter_of_closes hclosing
  simp only [List.append_assoc]
  rw [splitHeader_append hbefore, hdepth, splitHeader_append hopen, hinside,
    splitHeader_append hinner.hidesColons, hinner.depthThrough_eq, splitHeader_append hclose,
    houtside]

end Declaration

namespace Block

open Declaration

/-- What stands between two brackets before the statement may be replaced by any other text that is
    balanced: the statement stays the same and so does whether there is a body. A declaration that
    differs in nothing else before its statement is therefore recognised by the same identity, as
    long as it has a statement. -/
theorem parseHeader_bracketed {before inner inner' after : List Char} {opening closing : Char}
    (hopening : opensBracket opening = true) (hclosing : closesBracket closing = true)
    (hdepth : depthThrough 0 before = 0) (hbefore : HidesColons 0 before)
    (hinner : Balanced inner) (hinner' : Balanced inner') :
    let text := before ++ [opening] ++ inner ++ [closing] ++ after
    let text' := before ++ [opening] ++ inner' ++ [closing] ++ after
    parseHeader text = parseHeader text' ∧
      ∀ cs cs' : List Char, ∀ b ∈ scan cs, ∀ b' ∈ scan cs',
        b.afterName = text → b'.afterName = text' →
        b.declaration.kind = b'.declaration.kind →
        b.declaration.startLine = b'.declaration.startLine →
        b.declaration.statement = b'.declaration.statement ∧
          b.declaration.hasBody = b'.declaration.hasBody ∧
          (b.declaration.statement.isSome = true →
            Derivation.declarationIdentity b.declaration =
              Derivation.declarationIdentity b'.declaration) := by
  intro text text'
  have hheader : parseHeader text = parseHeader text' := by
    rw [parseHeader, parseHeader, splitHeader_bracketed hopening hclosing hdepth hbefore hinner,
      splitHeader_bracketed hopening hclosing hdepth hbefore hinner']
  refine ⟨hheader, ?_⟩
  intro cs cs' b hb b' hb' htext htext' hkind hline
  have hreads := reads_of_mem_scan hb
  have hreads' := reads_of_mem_scan hb'
  have hstatement : b.declaration.statement = b'.declaration.statement := by
    rw [hreads.statement, hreads'.statement, hkind, htext, htext', hheader]
  refine ⟨hstatement, ?_, fun hsome => ?_⟩
  · rw [hreads.hasBody, hreads'.hasBody, htext, htext', hheader]
  · obtain ⟨statement, hsome⟩ := Option.isSome_iff_exists.mp hsome
    rw [Derivation.declarationIdentity, Derivation.declarationIdentity, ← hstatement, hsome, hline]
    rfl

/-- A default value with a colon and a body mark in it, and a text with brackets of other kinds that
    do not fit together. -/
theorem parseHeader_bracketed_default :
    let before := " {α : Type} ".toList
    let inner := "x : Nat := (2 : Nat)".toList
    let inner' := "a ⟨: ]:= [⦄ b".toList
    let after := " : 1 = 1 := rfl".toList
    let cs := "theorem t {α : Type} (x : Nat := (2 : Nat)) : 1 = 1 := rfl".toList
    let cs' := "theorem t {α : Type} (a ⟨: ]:= [⦄ b) : 1 = 1 := rfl".toList
    depthThrough 0 before = 0 ∧ HidesColons 0 before ∧ Balanced inner ∧ Balanced inner' ∧
      parseHeader (before ++ ['('] ++ inner ++ [')'] ++ after) =
        parseHeader (before ++ ['('] ++ inner' ++ [')'] ++ after) ∧
      ∃ b ∈ scan cs, ∃ b' ∈ scan cs', b.declaration.statement = some "1 = 1" ∧
        Derivation.declarationIdentity b.declaration =
          Derivation.declarationIdentity b'.declaration := by
  intro before inner inner' after cs cs'
  have hdepth : depthThrough 0 before = 0 := by decide +kernel
  have hbefore : HidesColons 0 before := by decide +kernel
  have hinner : Balanced inner := by decide +kernel
  have hinner' : Balanced inner' := by decide +kernel
  obtain ⟨hheader, hblocks⟩ := @parseHeader_bracketed before inner inner' after '(' ')'
    (by decide) (by decide) hdepth hbefore hinner hinner'
  obtain ⟨b, hb, b', hb', htext, htext', hkind, hline, hstatement⟩ : ∃ b ∈ scan cs,
      ∃ b' ∈ scan cs', b.afterName = before ++ ['('] ++ inner ++ [')'] ++ after ∧
        b'.afterName = before ++ ['('] ++ inner' ++ [')'] ++ after ∧
        b.declaration.kind = b'.declaration.kind ∧
        b.declaration.startLine = b'.declaration.startLine ∧
        b.declaration.statement = some "1 = 1" := by
    decide +kernel
  have hidentity := (hblocks cs cs' b hb b' hb' htext htext' hkind hline).2.2
    (Option.isSome_iff_exists.mpr ⟨_, hstatement⟩)
  exact ⟨hdepth, hbefore, hinner, hinner', hheader, b, hb, b', hb', hstatement, hidentity⟩

end Block

end ProofLedger

import Mathlib.Algebra.Group.Nat.Defs
import Mathlib.Data.List.Nodup
import ProofLedger.Derivation
import ProofLedger.Proofs.Text.Lines

/-!
# Where blocks lie

The blocks of a text start on different lines, one after the other, and none reaches beyond the
last line. So a declaration is recognised by the line it starts on, and its lines are those of a
range as long as the lines of the text can be counted with 32 bits.
-/

namespace ProofLedger

namespace Block

/-- A block lies within some lines, the first of which has the given number, and has to be proved
    if its kind says so. -/
structure LiesIn (number : Nat) (ls : List (List Char)) (b : Block) : Prop where
  first : number ≤ b.declaration.startLine
  ordered : b.declaration.startLine ≤ b.declaration.endLine
  last : b.declaration.endLine < number + ls.length
  isProof : b.declaration.isProof = b.declaration.kind.isProof

theorem liesIn_ofLines (number : Nat) (kind : DeclarationKind) (line after : List Char)
    (rest : List (List Char)) (p : List Char → Bool) :
    LiesIn number (line :: rest) (ofLines number kind line after (rest.takeWhile p)) where
  first := Nat.le_refl number
  ordered := Nat.le_add_right number _
  last := by
    have hbody := (List.takeWhile_sublist p (l := rest)).length_le
    change number + (rest.takeWhile p).length < _
    rw [List.length_cons]
    omega
  isProof := rfl

theorem LiesIn.later {number : Nat} {line : List Char} {rest : List (List Char)} {b : Block}
    (h : LiesIn (number + 1) rest b) : LiesIn number (line :: rest) b where
  first := Nat.le_of_succ_le h.first
  ordered := h.ordered
  last := by
    have hlast := h.last
    rw [List.length_cons]
    omega
  isProof := h.isProof

theorem liesIn_of_mem_scanLines {number : Nat} {ls : List (List Char)} {b : Block}
    (hb : b ∈ scanLines number ls) : LiesIn number ls b := by
  induction ls generalizing number with
  | nil => cases hb
  | cons line rest ih =>
    rw [scanLines] at hb
    split at hb
    · exact (ih hb).later
    next kind after _ =>
      rcases List.mem_cons.mp hb with rfl | hb
      · exact liesIn_ofLines number kind line after rest _
      · exact (ih hb).later

/-- Blocks start one after the other. -/
theorem pairwise_startLine_scanLines (number : Nat) (ls : List (List Char)) :
    (scanLines number ls).Pairwise
      fun a b => a.declaration.startLine < b.declaration.startLine := by
  induction ls generalizing number with
  | nil => exact List.Pairwise.nil
  | cons line rest ih =>
    rw [scanLines]
    split
    · exact ih (number + 1)
    · refine List.Pairwise.cons (fun b hb => ?_) (ih (number + 1))
      exact (liesIn_of_mem_scanLines hb).first

end Block

namespace Derivation

/-- The blocks of a text lie within its lines, which count from one. -/
theorem liesIn_of_mem_blocksOf {sourceText : String} {b : Block}
    (hb : b ∈ blocksOf sourceText) :
    Block.LiesIn 1 (Text.lines (Text.stripComments sourceText.toList)) b :=
  Block.liesIn_of_mem_scanLines hb

theorem nodup_startLine_blocksOf (sourceText : String) :
    ((blocksOf sourceText).map fun b => b.declaration.startLine).Nodup := by
  refine List.pairwise_map.mpr ((Block.pairwise_startLine_scanLines 1 _).imp ?_)
  intro a b hlt heq
  exact Nat.lt_irrefl _ (heq ▸ hlt)

/-- A block is determined by the line it starts on. -/
theorem eq_of_startLine_eq {sourceText : String} {a b : Block} (ha : a ∈ blocksOf sourceText)
    (hb : b ∈ blocksOf sourceText)
    (h : a.declaration.startLine = b.declaration.startLine) : a = b :=
  List.inj_on_of_nodup_map (nodup_startLine_blocksOf sourceText) ha hb h

/-- Lines that can be counted make a range, in which they all lie. -/
theorem ofLines?_of_le {first last : Nat} (hpos : 1 ≤ first) (hle : first ≤ last)
    (hlast : last < 2 ^ 32) :
    ∃ r, SourceRange.ofLines? first.toUInt32 last.toUInt32 = some r ∧
      ∀ line, first ≤ line.toNat → line.toNat ≤ last → r.containsLine line = true := by
  have hfirst : first.toUInt32.toNat = first :=
    UInt32.toNat_ofNat_of_lt' (Nat.lt_of_le_of_lt hle hlast)
  have hlast' : last.toUInt32.toNat = last := UInt32.toNat_ofNat_of_lt' hlast
  refine ⟨⟨⟨first.toUInt32, 1⟩, ⟨last.toUInt32, 1⟩⟩, ?_, fun line h₁ h₂ => ?_⟩
  · have hzero : ∀ n : UInt32, 1 ≤ n.toNat → (n == 0) = false := fun n hn => by
      rw [beq_eq_false_iff_ne]
      rintro rfl
      exact absurd hn (by decide)
    have hnlt : ¬ last.toUInt32 < first.toUInt32 := by
      rw [UInt32.lt_iff_toNat_lt, hfirst, hlast']
      exact Nat.not_lt.mpr hle
    have hbefore : Position.before ⟨last.toUInt32, 1⟩ ⟨first.toUInt32, 1⟩ = false := by
      simp [Position.before, hnlt]
    rw [SourceRange.ofLines?, SourceRange.between?, hzero _ (hfirst.symm ▸ hpos),
      hzero _ (hlast'.symm ▸ Nat.le_trans hpos hle), hbefore]
    rfl
  · simp only [SourceRange.containsLine, UInt32.le_iff_toNat_le, hfirst, hlast', h₁, h₂,
      decide_true, Bool.and_true]

/-- The lines of a block make a range. -/
theorem range_of_mem_blocksOf {sourceText : String} {b : Block} (hb : b ∈ blocksOf sourceText)
    (hlines : (Text.lines sourceText.toList).length < 2 ^ 32) :
    ∃ r, SourceRange.ofLines? b.declaration.startLine.toUInt32
        b.declaration.endLine.toUInt32 = some r ∧
      ∀ line, b.declaration.containsLine line = true → r.containsLine line = true := by
  have hin := liesIn_of_mem_blocksOf hb
  have hlast := hin.last
  have hstrip := Text.length_lines_stripComments sourceText.toList
  obtain ⟨r, hr, hcontains⟩ := ofLines?_of_le hin.first hin.ordered (by omega)
  refine ⟨r, hr, fun line hline => ?_⟩
  rw [Declaration.containsLine, Bool.and_eq_true, decide_eq_true_eq, decide_eq_true_eq] at hline
  exact hcontains line hline.1 hline.2

end Derivation

end ProofLedger

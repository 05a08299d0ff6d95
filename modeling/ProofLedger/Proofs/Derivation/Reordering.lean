import Mathlib.Logic.Equiv.Basic
import ProofLedger.Proofs.Derivation.Coherence
import ProofLedger.Proofs.Sorting

/-!
# Diagnostics in another order

Editors report the diagnostics of a file in no particular order, and most of them are no errors. A
derivation sorts them by where they start, takes for a block the first error in it, and keeps of
errors with the same id the last one, so it depends on the order of errors that start together and
on nothing else (`derive_eq_of_sameErrors`).

The heart is that the errors in order are the errors of the sorted diagnostics
(`errorsOf_eq_filter`): what is no error may stand between them before they are sorted or after. So
the first error in a declaration is also found by a search through all sorted diagnostics
(`errorIn?_errorsOf`).
-/

namespace ProofLedger

-- ── The order of positions ────────────────────────────────────────────────────

theorem Position.before_iff {p q : Position} : p.before q = true ↔
    p.line.toNat < q.line.toNat ∨
      p.line.toNat = q.line.toNat ∧ p.column.toNat < q.column.toNat := by
  rw [Position.before, Bool.or_eq_true, Bool.and_eq_true, decide_eq_true_eq, decide_eq_true_eq,
    beq_iff_eq, UInt32.lt_iff_toNat_lt, UInt32.lt_iff_toNat_lt, UInt32.toNat_inj]

theorem Position.eq_iff_toNat {p q : Position} :
    p = q ↔ p.line.toNat = q.line.toNat ∧ p.column.toNat = q.column.toNat := by
  rw [UInt32.toNat_inj, UInt32.toNat_inj, Position.mk.injEq]

namespace Derivation

/-- Diagnostics are compared by where they start. -/
theorem sortsBy_start :
    SortsBy (fun a b : Diagnostic => !b.range.start.before a.range.start) (·.range.start) where
  trans a b c hab hbc := by
    simp only [Bool.not_eq_true', Bool.eq_false_iff, ne_eq, Position.before_iff] at *
    omega
  total a b := by
    simp only [Bool.or_eq_true, Bool.not_eq_true', Bool.eq_false_iff, ne_eq, Position.before_iff]
    omega
  same a b := by
    simp only [Bool.not_eq_true', Bool.eq_false_iff, ne_eq, Position.before_iff,
      Position.eq_iff_toNat]
    omega

-- ── Errors among other diagnostics ────────────────────────────────────────────

variable {c c' : SourceContext}

/-- It does not matter whether errors are picked out after sorting or before. -/
theorem errorsOf_eq_filter (c : SourceContext) :
    errorsOf c = sortDiagnostics (c.diagnostics.filter (·.severity.isError)) :=
  sortsBy_start.filter_mergeSort _ _

/-- The first error in a declaration is the first sorted diagnostic that is one. -/
theorem errorIn?_errorsOf (d : Declaration) (c : SourceContext) :
    errorIn? d (errorsOf c) = (sortDiagnostics c.diagnostics).find? fun e =>
      e.severity.isError && d.containsLine e.line := by
  simp only [errorIn?, errorsOf, List.find?_filter, Bool.decide_and, Bool.decide_eq_true]

/-- Contexts that differ only in their diagnostics, with the same errors: those that start together
    come in the same order, all others in any order. -/
structure SameErrors (c c' : SourceContext) : Prop where
  fileKey : c.fileKey = c'.fileKey
  sourceText : c.sourceText = c'.sourceText
  goalHints : c.goalHints = c'.goalHints
  errors : Rearranged (·.range.start) (c.diagnostics.filter (·.severity.isError))
    (c'.diagnostics.filter (·.severity.isError))

/-- The sorted errors of such contexts are the same. -/
theorem SameErrors.errorsOf_eq (h : SameErrors c c') : errorsOf c = errorsOf c' := by
  rw [errorsOf_eq_filter, errorsOf_eq_filter]
  exact sortsBy_start.mergeSort_eq h.errors

theorem SameErrors.obligations_eq (h : SameErrors c c') : obligations c = obligations c' := by
  simp only [obligations, h.errorsOf_eq, h.sourceText, h.goalHints]

/-- The order of diagnostics does not matter but for errors that start together, and what is no
    error does not matter at all: the sorted errors are the same, and so is what is derived. -/
theorem derive_eq_of_sameErrors (c c' : SourceContext) (now : Instant) (h : SameErrors c c') :
    (sortDiagnostics c.diagnostics).filter (·.severity.isError) =
        (sortDiagnostics c'.diagnostics).filter (·.severity.isError) ∧
      derive c now = derive c' now := by
  constructor
  · exact h.errorsOf_eq
  · simp only [derive, h.obligations_eq, h.sourceText, h.fileKey]

/-- The errors of the other context in another order, with a warning and a hint among them. -/
def shuffledContext : SourceContext where
  fileKey := "Main.lean"
  sourceText := "theorem a : True := by sorry\ndef d : Nat := 3\n"
  diagnostics := [⟨"declaration uses 'sorry'", .warning, ⟨⟨1, 9⟩, ⟨1, 10⟩⟩, none⟩,
    ⟨"x  y", .error, ⟨⟨9, 1⟩, ⟨9, 1⟩⟩, none⟩, ⟨"type mismatch", .error, ⟨⟨1, 5⟩, ⟨1, 9⟩⟩, none⟩,
    ⟨"try this", .hint, ⟨⟨1, 5⟩, ⟨1, 9⟩⟩, none⟩, ⟨"x y", .error, ⟨⟨9, 1⟩, ⟨9, 4⟩⟩, none⟩]

theorem derive_noisyContext_eq_shuffledContext :
    noisyContext.diagnostics ≠ shuffledContext.diagnostics ∧
      SameErrors noisyContext shuffledContext ∧
      ∀ now, derive noisyContext now = derive shuffledContext now := by
  -- the first two errors change places, the last two start together and do not
  let moved : Fin 3 ≃ Fin 3 := Equiv.swap 0 1
  have hsame : SameErrors noisyContext shuffledContext := {
    fileKey := rfl
    sourceText := rfl
    goalHints := rfl
    errors := ⟨moved, by decide, by decide⟩ }
  exact ⟨by decide, hsame, fun now =>
    (derive_eq_of_sameErrors noisyContext shuffledContext now hsame).2⟩

end Derivation

end ProofLedger

import ProofLedger.Text.Comment
import ProofLedger.Text.Lines

/-!
# Counting lines

Every newline ends a line, and any other character needs a line to stand on. Since stripping
comments keeps the newlines and otherwise only removes text or puts a space for a comment, it
makes no new lines. A text may be cut wherever a line ends: the lines of the whole are those of
the parts (`lines_append`).
-/

namespace ProofLedger.Text

@[simp] theorem lines_newline (cs : List Char) : lines ('\n' :: cs) = [] :: lines cs := by
  rw [lines]

theorem lines_crlf (cs : List Char) : lines ('\r' :: '\n' :: cs) = [] :: lines cs := by
  rw [lines]

/-- Any other character stands in front of the first line that follows, or on a line of its
    own. -/
theorem lines_cons {c : Char} {cs : List Char} (hnewline : c ≠ '\n')
    (hcrlf : ∀ r, c = '\r' → cs ≠ '\n' :: r) :
    lines (c :: cs) = (c :: (lines cs).head?.getD []) :: (lines cs).tail := by
  rw [lines.eq_4 c cs hnewline hcrlf]
  cases lines cs with
  | nil => rfl
  | cons l ls => rfl

/-- A character that ends no line makes a line only if none follows. -/
theorem length_lines_cons {c : Char} (h : c ≠ '\n') (cs : List Char) :
    (lines (c :: cs)).length = max 1 (lines cs).length := by
  by_cases hcrlf : ∃ r, c = '\r' ∧ cs = '\n' :: r
  · obtain ⟨r, rfl, rfl⟩ := hcrlf
    rw [lines_crlf, lines_newline, List.length_cons]
    omega
  · rw [lines_cons h fun r hc hcs => hcrlf ⟨r, hc, hcs⟩, List.length_cons, List.length_tail]
    omega

/-- A character more is no line less. -/
theorem length_lines_le_cons (c : Char) (cs : List Char) :
    (lines cs).length ≤ (lines (c :: cs)).length := by
  by_cases h : c = '\n'
  · rw [h, lines_newline, List.length_cons]
    omega
  · rw [length_lines_cons h]
    omega

/-- The same character in front of two texts keeps their order by lines. -/
theorem length_lines_cons_le {cs ds : List Char} (h : (lines cs).length ≤ (lines ds).length)
    (c : Char) : (lines (c :: cs)).length ≤ (lines (c :: ds)).length := by
  by_cases hc : c = '\n'
  · rw [hc, lines_newline, lines_newline, List.length_cons, List.length_cons]
    omega
  · rw [length_lines_cons hc, length_lines_cons hc]
    omega

theorem length_lines_stripFrom (region : Region) (cs : List Char) :
    (lines (stripFrom region cs)).length ≤ (lines cs).length := by
  have hdrop : ∀ (c d : Char) (r : List Char),
      (lines r).length ≤ (lines (c :: d :: r)).length := fun c d r =>
    Nat.le_trans (length_lines_le_cons d r) (length_lines_le_cons c (d :: r))
  fun_induction stripFrom region cs with
  | case1 => exact Nat.le_refl _
  | case2 r ih => exact length_lines_cons_le ih '\n'
  | case3 c r _ ih => exact Nat.le_trans ih (length_lines_le_cons c r)
  | case4 r ih => exact Nat.le_trans ih (hdrop '/' '-' r)
  | case5 r ih => exact Nat.le_trans ih (hdrop '-' '-' r)
  | case6 c r _ _ ih => exact length_lines_cons_le ih c
  | case7 d r ih => exact Nat.le_trans ih (hdrop '/' '-' r)
  | case8 r ih =>
    -- the space that a comment leaves behind stands where its last character stood
    have hspace := length_lines_cons (show ' ' ≠ '\n' by decide) (stripFrom .code r)
    have hslash := length_lines_cons (show '/' ≠ '\n' by decide) r
    have hdash := length_lines_cons (show '-' ≠ '\n' by decide) ('/' :: r)
    omega
  | case9 d r ih => exact Nat.le_trans ih (hdrop '-' '/' r)
  | case10 d r ih => exact length_lines_cons_le ih '\n'
  | case11 d c r _ _ _ _ ih => exact Nat.le_trans ih (length_lines_le_cons c r)

/-- A text without its comments has no more lines. -/
theorem length_lines_stripComments (cs : List Char) :
    (lines (stripComments cs)).length ≤ (lines cs).length :=
  length_lines_stripFrom .code cs

-- ── Lines of parts ────────────────────────────────────────────────────────────

/-- No line has a newline in it. -/
theorem newline_notMem_of_mem_lines {cs l : List Char} (h : l ∈ lines cs) : '\n' ∉ l := by
  fun_induction lines cs generalizing l with
  | case1 => cases h
  | case2 r ih | case3 r ih =>
    rcases List.mem_cons.mp h with rfl | h
    · exact List.not_mem_nil
    · exact ih h
  | case4 c r hc _ _ _ =>
    rw [List.mem_singleton.mp h, List.mem_singleton]
    exact fun hnewline => hc hnewline.symm
  | case5 c r hc _ first ls hlines ih =>
    rw [hlines] at ih
    rcases List.mem_cons.mp h with rfl | h
    · rw [List.mem_cons, not_or]
      exact ⟨fun hnewline => hc hnewline.symm, ih List.mem_cons_self⟩
    · exact ih (List.mem_cons_of_mem _ h)

/-- Every character needs a line. -/
theorem lines_ne_nil {cs : List Char} (h : cs ≠ []) : lines cs ≠ [] := by
  fun_cases lines cs with
  | case1 => exact absurd rfl h
  | _ => exact List.cons_ne_nil _ _

/-- A text that ends where a line ends. What comes after it starts a new line. -/
def EndsLine (cs : List Char) : Prop := cs = [] ∨ cs.getLast? = some '\n'

instance (cs : List Char) : Decidable (EndsLine cs) := inferInstanceAs (Decidable (_ ∨ _))

theorem EndsLine.tail {c : Char} {cs : List Char} (h : EndsLine (c :: cs)) : EndsLine cs := by
  cases cs with
  | nil => exact .inl rfl
  | cons d ds =>
    refine .inr ((List.getLast?_cons_cons).symm.trans (h.resolve_left (List.cons_ne_nil _ _)))

/-- After the end of a line the lines begin anew. -/
theorem lines_append {a : List Char} (h : EndsLine a) (b : List Char) :
    lines (a ++ b) = lines a ++ lines b := by
  fun_induction lines a with
  | case1 => rfl
  | case2 r ih => rw [List.cons_append, lines_newline, ih h.tail, List.cons_append]
  | case3 r ih =>
    rw [List.cons_append, List.cons_append, lines_crlf, ih h.tail.tail, List.cons_append]
  | case4 c r hc _ hlines _ =>
    -- the last character is no newline
    obtain rfl : r = [] := Classical.byContradiction fun hr => lines_ne_nil hr hlines
    exact absurd (Option.some.inj (h.resolve_left (List.cons_ne_nil _ _))) hc
  | case5 c r hc hcrlf first ls hlines ih =>
    have hnext : ∀ r', c = '\r' → r ++ b ≠ '\n' :: r' := by
      intro r' hreturn hnewline
      cases r with
      | nil => cases hlines
      | cons d r => exact hcrlf r hreturn (by rw [(List.cons.inj hnewline).1])
    rw [List.cons_append, lines_cons hc hnext, ih h.tail, hlines]
    rfl

end ProofLedger.Text

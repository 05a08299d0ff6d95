import Mathlib.Data.List.Chain
import ProofLedger.Proofs.Declaration.Blocks
import ProofLedger.Proofs.Declaration.Pattern
import ProofLedger.Proofs.Declaration.Positions

/-!
# Blocks part a text

The blocks of some lines lie one after the other, without a gap and without an overlap, from the
first header line to the last line. `Tiles` says so block by block, along the lines, and
`Partitions` says it of the list of blocks as a whole; `Tiles.partitions` leads from the one to the
other.
-/

namespace ProofLedger

open Text

namespace Block

-- ── The blocks, one after the other ───────────────────────────────────────────

/-- Blocks fill some lines, the first of which has the given number: each takes a header line with
    lines after it that are no headers, and the next block starts on the line after them. -/
inductive Tiles : Nat → List (List Char) → List Block → Prop where
  | nil (n : Nat) : Tiles n [] []
  | cons {n : Nat} {line : List Char} {body rest : List (List Char)} {b : Block}
      {bs : List Block} :
      Declaration.IsHeader line → (∀ l ∈ body, ¬ Declaration.IsHeader l) →
      b.declaration.startLine = n → b.declaration.endLine = n + body.length →
      b.text = unlines (line :: body) → Tiles (n + 1 + body.length) rest bs →
      Tiles n (line :: (body ++ rest)) (b :: bs)

/-- The numbers of the header lines among some lines, the first of which has the given number. -/
def headerLines (n : Nat) (ls : List (List Char)) : List Nat :=
  ((ls.zipIdx n).filter fun line => Declaration.IsHeader line.1).map (·.2)

/-- The headers of a text are those of its parts. -/
theorem headerLines_append (n : Nat) (as bs : List (List Char)) :
    headerLines n (as ++ bs) = headerLines n as ++ headerLines (n + as.length) bs := by
  rw [headerLines, List.zipIdx_append, List.filter_append, List.map_append]
  rfl

/-- Lines that are no headers have none. -/
theorem headerLines_eq_nil {ls : List (List Char)} (h : ∀ l ∈ ls, ¬ Declaration.IsHeader l)
    (n : Nat) : headerLines n ls = [] := by
  rw [headerLines, List.map_eq_nil_iff, List.filter_eq_nil_iff]
  intro entry hentry
  rw [decide_eq_true_eq]
  exact h _ (List.fst_mem_of_mem_zipIdx hentry)

/-- A header is the first one of the lines that it begins. -/
theorem headerLines_cons {line : List Char} (h : Declaration.IsHeader line) (n : Nat)
    (ls : List (List Char)) : headerLines n (line :: ls) = n :: headerLines (n + 1) ls := by
  rw [headerLines, List.zipIdx_cons, List.filter_cons, if_pos (decide_eq_true h)]
  rfl

/-- The lines from the first header on. -/
def fromHeader (ls : List (List Char)) : List (List Char) :=
  ls.dropWhile fun l => (Declaration.header? l).isNone

/-- A text is what stands before its first header, and the rest. -/
theorem bodyOf_append_fromHeader (ls : List (List Char)) : bodyOf ls ++ fromHeader ls = ls :=
  List.takeWhile_append_dropWhile

/-- No header stands before the first one. -/
theorem not_isHeader_of_mem_bodyOf {ls : List (List Char)} {l : List Char} (h : l ∈ bodyOf ls) :
    ¬ Declaration.IsHeader l := by
  rw [Declaration.not_isHeader_iff]
  exact List.mem_takeWhile_imp (p := fun l => (Declaration.header? l).isNone) h

/-- A line that is no header stands before the first one. -/
theorem bodyOf_cons_of_not_header {line : List Char} (h : ¬ Declaration.IsHeader line)
    (rest : List (List Char)) :
    bodyOf (line :: rest) = line :: bodyOf rest ∧ fromHeader (line :: rest) = fromHeader rest := by
  rw [Declaration.not_isHeader_iff] at h
  exact ⟨List.takeWhile_cons_of_pos h, List.dropWhile_cons_of_pos h⟩

/-- Nothing stands before a header that comes first. -/
theorem bodyOf_cons_of_header {line : List Char} (h : Declaration.IsHeader line)
    (rest : List (List Char)) :
    bodyOf (line :: rest) = [] ∧ fromHeader (line :: rest) = line :: rest := by
  have hsome : ¬ (Declaration.header? line).isNone = true := fun hnone =>
    (Declaration.not_isHeader_iff line).mpr hnone h
  exact ⟨List.takeWhile_cons_of_neg hsome, List.dropWhile_cons_of_neg hsome⟩

/-- The blocks of some lines fill them from the first header on. -/
theorem tiles_scanLines (n : Nat) (ls : List (List Char)) :
    Tiles (n + (bodyOf ls).length) (fromHeader ls) (scanLines n ls) := by
  induction ls generalizing n with
  | nil => exact .nil n
  | cons line rest ih =>
    rw [scanLines]
    cases hheader : Declaration.header? line with
    | none =>
      have hline : ¬ Declaration.IsHeader line := by
        rw [Declaration.not_isHeader_iff, hheader]
        rfl
      obtain ⟨hbody, hfrom⟩ := bodyOf_cons_of_not_header hline rest
      have hnext := ih (n + 1)
      rw [Nat.add_assoc, Nat.add_comm 1] at hnext
      rw [hbody, hfrom]
      exact hnext
    | some found =>
      obtain ⟨kind, after⟩ := found
      have hline : Declaration.IsHeader line :=
        ⟨kind, after, Declaration.header?_eq_some_iff.mp hheader⟩
      obtain ⟨hbody, hfrom⟩ := bodyOf_cons_of_header hline rest
      rw [hbody, hfrom, ← bodyOf_append_fromHeader rest]
      refine .cons hline (fun l hl => not_isHeader_of_mem_bodyOf hl) rfl ?_ ?_ ?_
      all_goals rw [bodyOf_append_fromHeader]
      · rfl
      · rfl
      · exact ih (n + 1)

namespace Tiles

variable {n : Nat} {ls : List (List Char)} {bs : List Block}

/-- No block ends before it starts. -/
theorem ordered (h : Tiles n ls bs) :
    ∀ b ∈ bs, b.declaration.startLine ≤ b.declaration.endLine := by
  induction h with
  | nil n => exact List.forall_mem_nil _
  | cons _ _ hstart hend _ _ ih =>
    refine List.forall_mem_cons.mpr ⟨?_, ih⟩
    rw [hstart, hend]
    exact Nat.le_add_right _ _

/-- Where there is a block, there is a header line. -/
theorem exists_isHeader (h : Tiles n ls bs) {b : Block} (hb : b ∈ bs) :
    ∃ line ∈ ls, Declaration.IsHeader line := by
  cases h with
  | nil _ => cases hb
  | cons hheader _ _ _ _ _ => exact ⟨_, List.mem_cons_self, hheader⟩

/-- The first block starts where the lines do. -/
theorem first (h : Tiles n ls bs) : ∀ b ∈ bs.head?, b.declaration.startLine = n := by
  cases h with
  | nil _ => exact fun b hb => nomatch hb
  | cons _ _ hstart _ _ _ =>
    rintro b hb
    obtain rfl := Option.some.inj hb
    exact hstart

/-- The last block ends where the lines do. -/
theorem last (h : Tiles n ls bs) :
    ∀ b ∈ bs.getLast?, b.declaration.endLine + 1 = n + ls.length := by
  induction h with
  | nil n => exact fun b hb => nomatch hb
  | @cons n line body rest b bs _ _ _ hend _ htail ih =>
    intro b' hb'
    cases htail with
    | nil _ =>
      obtain rfl : b = b' := Option.some.inj hb'
      rw [hend, List.append_nil, List.length_cons]
      exact Nat.add_assoc n _ 1
    | cons _ _ _ _ _ _ =>
      have hlast := ih b' hb'
      rw [List.length_cons, List.length_append, hlast]
      omega

/-- A block starts on the line after the one before it ends. -/
theorem adjacent (h : Tiles n ls bs) :
    bs.IsChain fun a b => a.declaration.endLine + 1 = b.declaration.startLine := by
  induction h with
  | nil n => exact .nil
  | cons _ _ _ hend _ htail ih =>
    cases htail with
    | nil _ => exact .singleton _
    | cons _ _ hstart _ _ _ =>
      refine .cons_cons ?_ ih
      rw [hend, hstart]
      omega

/-- No block starts before the first line. -/
theorem le_startLine (h : Tiles n ls bs) : ∀ b ∈ bs, n ≤ b.declaration.startLine := by
  induction h with
  | nil n => exact List.forall_mem_nil _
  | cons _ _ hstart _ _ _ ih =>
    refine List.forall_mem_cons.mpr ⟨Nat.le_of_eq hstart.symm, fun b hb => ?_⟩
    have hlater := ih b hb
    omega

/-- Blocks start one after the other. -/
theorem increasing (h : Tiles n ls bs) :
    bs.Pairwise fun a b => a.declaration.startLine < b.declaration.startLine := by
  induction h with
  | nil n => exact .nil
  | cons _ _ hstart _ _ htail ih =>
    refine .cons (fun b hb => ?_) ih
    have hlater := htail.le_startLine b hb
    omega

/-- Every line lies in exactly one block. -/
theorem covered (h : Tiles n ls bs) {k : Nat} (hfirst : n ≤ k) (hlast : k < n + ls.length) :
    ∃! b, b ∈ bs ∧ b.declaration.startLine ≤ k ∧ k ≤ b.declaration.endLine := by
  induction h with
  | nil n => exact absurd hlast (Nat.not_lt.mpr hfirst)
  | @cons n line body rest b bs _ _ hstart hend _ htail ih =>
    by_cases hk : k ≤ n + body.length
    · refine ⟨b, ⟨List.mem_cons_self, hstart.trans_le hfirst, hk.trans_eq hend.symm⟩, ?_⟩
      rintro b' ⟨hb', hle, -⟩
      rcases List.mem_cons.mp hb' with rfl | hb'
      · rfl
      · have hlater := htail.le_startLine b' hb'
        omega
    · rw [List.length_cons, List.length_append] at hlast
      obtain ⟨b', ⟨hmem, hin⟩, hunique⟩ := ih (by omega) (by omega)
      refine ⟨b', ⟨List.mem_cons_of_mem _ hmem, hin⟩, ?_⟩
      rintro c ⟨hc, hcin⟩
      rcases List.mem_cons.mp hc with rfl | hc
      · omega
      · exact hunique c ⟨hc, hcin⟩

/-- The header lines are those on which blocks start. -/
theorem starts (h : Tiles n ls bs) :
    bs.map (fun b => b.declaration.startLine) = headerLines n ls := by
  induction h with
  | nil n => rfl
  | cons hheader hbody hstart _ _ _ ih =>
    rw [headerLines_cons hheader, headerLines_append, headerLines_eq_nil hbody, List.nil_append,
      List.map_cons, hstart, ih]

end Tiles

-- ── Texts of blocks ───────────────────────────────────────────────────────────

/-- A text of two parts is that of their texts. -/
theorem unlines_append {as bs : List (List Char)} (ha : as ≠ []) (hb : bs ≠ []) :
    unlines (as ++ bs) = unlines [unlines as, unlines bs] := by
  induction as with
  | nil => exact absurd rfl ha
  | cons a as ih =>
    cases as with
    | nil =>
      cases bs with
      | nil => exact absurd rfl hb
      | cons b bs => rfl
    | cons a' as =>
      have hstep : unlines (a' :: as ++ bs) = _ := ih (List.cons_ne_nil _ _)
      show a ++ '\n' :: unlines (a' :: as ++ bs) = (a ++ '\n' :: unlines (a' :: as)) ++ '\n' :: _
      rw [hstep, List.append_assoc]
      rfl

/-- The texts of the blocks make up the text of the lines. -/
theorem Tiles.texts {n : Nat} {ls : List (List Char)} {bs : List Block} (h : Tiles n ls bs) :
    unlines (bs.map (·.text)) = unlines ls := by
  induction h with
  | nil n => rfl
  | @cons n line body rest b bs _ _ _ _ htext htail ih =>
    cases htail with
    | nil _ => rw [List.append_nil, List.map_cons, htext]; rfl
    | cons _ _ _ _ _ _ =>
      rw [← List.cons_append, unlines_append (List.cons_ne_nil _ _) (List.cons_ne_nil _ _), ← ih,
        List.map_cons, htext]
      rfl

-- ── The blocks as a whole ─────────────────────────────────────────────────────

/-- Blocks part some lines, which are numbered from one, from the first header on. -/
structure Partitions (ls : List (List Char)) (bs : List Block) : Prop where
  /-- One block starts on each header line, in order. -/
  starts : bs.map (fun b => b.declaration.startLine) = headerLines 1 ls
  increasing : bs.Pairwise fun a b => a.declaration.startLine < b.declaration.startLine
  ordered : ∀ b ∈ bs, b.declaration.startLine ≤ b.declaration.endLine
  /-- A block ends on the line before the next one. -/
  adjacent : bs.IsChain fun a b => a.declaration.endLine + 1 = b.declaration.startLine
  /-- The last block ends on the last line. -/
  last : ∀ b ∈ bs.getLast?, b.declaration.endLine = ls.length
  /-- Each line from the first header on lies in exactly one block. -/
  covered : ∀ n, (bodyOf ls).length < n → n ≤ ls.length →
    ∃! b, b ∈ bs ∧ b.declaration.startLine ≤ n ∧ n ≤ b.declaration.endLine
  /-- No line before the first header lies in a block. -/
  uncovered : ∀ n, n ≤ (bodyOf ls).length → ∀ b ∈ bs, n < b.declaration.startLine
  /-- The texts of the blocks are the lines from the first header on. -/
  texts : unlines (bs.map (·.text)) = unlines (ls.drop (bodyOf ls).length)

/-- What follows the lines before the first header begins with it. -/
theorem drop_bodyOf (ls : List (List Char)) : ls.drop (bodyOf ls).length = fromHeader ls := by
  nth_rewrite 2 [← bodyOf_append_fromHeader ls]
  exact List.drop_left

/-- There is no header line before the first one. -/
theorem headerLines_fromHeader (n : Nat) (ls : List (List Char)) :
    headerLines (n + (bodyOf ls).length) (fromHeader ls) = headerLines n ls := by
  nth_rewrite 3 [← bodyOf_append_fromHeader ls]
  rw [headerLines_append, headerLines_eq_nil fun l hl => not_isHeader_of_mem_bodyOf hl,
    List.nil_append]

/-- Blocks that tile the text from the first header on partition it. -/
theorem Tiles.partitions {ls : List (List Char)} {bs : List Block}
    (h : Tiles (1 + (bodyOf ls).length) (fromHeader ls) bs) : Partitions ls bs := by
  have hlength : (bodyOf ls).length + (fromHeader ls).length = ls.length := by
    rw [← List.length_append, bodyOf_append_fromHeader]
  exact {
    starts := by rw [h.starts, headerLines_fromHeader]
    increasing := h.increasing
    ordered := h.ordered
    adjacent := h.adjacent
    last := fun b hb => by
      have hlast := h.last b hb
      omega
    covered := fun n hfirst hlast => h.covered (by omega) (by omega)
    uncovered := fun n hn b hb => by
      have hstart := h.le_startLine b hb
      omega
    texts := by rw [h.texts, drop_bodyOf] }

/-- The blocks of a text part its lines, and they are found without leaving the range of an index
    or an offset as long as lines can be counted with 32 bits. -/
theorem scan_partitions {cs : List Char} (hlines : (lines cs).length < 2 ^ 32) :
    Partitions (lines cs) (scan cs) ∧ scanAt? cs = some (scan cs) :=
  ⟨(tiles_scanLines 1 (lines cs)).partitions, scanAt?_eq hlines⟩

/-- Two blocks after a line that belongs to none, with characters of up to four bytes. -/
theorem scan_partitions_multibyte :
    let cs := "open ℕ\n  @[simp] lemma «𝔸α» ⦃x : ℝ⦄ : x ≤ x :=\n  le_rfl\nexample: ∀ x, ⟨x⟩ = ⟨x⟩"
      |>.toList
    (lines cs).length < 2 ^ 32 ∧
    (scan cs).map (fun b => (b.declaration.startLine, b.declaration.endLine, b.declaration.label)) =
      [(2, 3, "«𝔸α»"), (4, 4, "example@4")] ∧
    Partitions (lines cs) (scan cs) ∧ scanAt? cs = some (scan cs) := by
  intro cs
  have hlines : (lines cs).length < 2 ^ 32 := by decide +kernel
  exact ⟨hlines, by decide +kernel, scan_partitions hlines⟩

end Block

end ProofLedger

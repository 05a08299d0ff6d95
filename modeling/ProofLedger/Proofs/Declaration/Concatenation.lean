import ProofLedger.Derivation
import ProofLedger.Proofs.Declaration.Content
import ProofLedger.Proofs.Declaration.Pattern
import ProofLedger.Proofs.Declaration.Positions

/-!
# Blocks of texts put together

A block ends before the next header or with the text, whichever comes first. So a text may be cut
before any header line: the blocks of the first part are the same whether the second part follows
or not, and the blocks of the second part are only moved down by the lines of the first
(`scan_append`). What they say of their declarations stays, apart from the numbers of the lines
and the names made of them.
-/

namespace ProofLedger.Block

open Text

-- ── Moving blocks down ────────────────────────────────────────────────────────

/-- A block a number of lines further down. A name that is made of the number of the line is made
    anew. -/
def shift (n : Nat) (b : Block) : Block :=
  { b with declaration := { b.declaration with
      startLine := b.declaration.startLine + n
      endLine := b.declaration.endLine + n
      label := if b.isNamedByLine
        then lineLabel b.declaration.kind (b.declaration.startLine + n)
        else b.declaration.label } }

theorem shift_ofLines {line after : List Char} {kind : DeclarationKind} (hline : '\n' ∉ line)
    (hheader : Declaration.header? line = some (kind, after)) (n number : Nat)
    (body : List (List Char)) :
    (ofLines number kind line after body).shift n = ofLines (number + n) kind line after body := by
  have hafter := afterKeyword_ofLines hline hheader number body
  have hnamed : (ofLines number kind line after body).isNamedByLine =
      (kind == .example_ || (Declaration.splitLabel (unlines (after :: body))).1.isEmpty) := by
    rw [isNamedByLine, givenName, hafter]
    rfl
  have hend : number + body.length + n = number + n + body.length := Nat.add_right_comm _ _ _
  simp only [shift, hnamed]
  simp only [ofLines, hend, Block.mk.injEq, Declaration.mk.injEq, true_and, and_true]
  split
  · rfl
  · rfl

/-- The blocks of some lines, numbered from further down. -/
theorem scanLines_add {ls : List (List Char)} (hls : ∀ l ∈ ls, '\n' ∉ l) (number n : Nat) :
    scanLines (number + n) ls = (scanLines number ls).map (shift n) := by
  induction ls generalizing number with
  | nil => rfl
  | cons line rest ih =>
    obtain ⟨hline, hrest⟩ := List.forall_mem_cons.mp hls
    have hnext : scanLines (number + n + 1) rest = (scanLines (number + 1) rest).map (shift n) := by
      rw [Nat.add_right_comm]
      exact ih hrest (number + 1)
    rw [scanLines, scanLines]
    cases hheader : Declaration.header? line with
    | none => exact hnext
    | some found =>
      obtain ⟨kind, after⟩ := found
      simp only [List.map_cons, hnext, shift_ofLines hline hheader]

-- ── Lines after other lines ───────────────────────────────────────────────────

/-- The first of some lines is a header. -/
def StartsWithHeader (ls : List (List Char)) : Prop :=
  ∃ line ∈ ls.head?, Declaration.IsHeader line

instance (ls : List (List Char)) : Decidable (StartsWithHeader ls) :=
  inferInstanceAs (Decidable (∃ line ∈ ls.head?, Declaration.IsHeader line))

/-- A header ends what belongs to the header before it, just as the end of the lines does. -/
theorem bodyOf_append {bs : List (List Char)} (hbs : StartsWithHeader bs)
    (as : List (List Char)) : bodyOf (as ++ bs) = bodyOf as := by
  obtain ⟨line, hline, hheader⟩ := hbs
  obtain ⟨rest, rfl⟩ := List.head?_eq_some_iff.mp hline
  have hstop : ¬ (Declaration.header? line).isNone = true := fun hnone =>
    (Declaration.not_isHeader_iff line).mpr hnone hheader
  induction as with
  | nil => exact List.takeWhile_cons_of_neg hstop
  | cons a as ih =>
    rw [bodyOf, List.cons_append, List.takeWhile_cons, bodyOf, List.takeWhile_cons]
    split
    · exact congrArg (a :: ·) ih
    · rfl

theorem scanLines_append {bs : List (List Char)} (hbs : StartsWithHeader bs) (number : Nat)
    (as : List (List Char)) :
    scanLines number (as ++ bs) = scanLines number as ++ scanLines (number + as.length) bs := by
  induction as generalizing number with
  | nil => rfl
  | cons line rest ih =>
    have hnext := ih (number + 1)
    rw [Nat.add_right_comm, Nat.add_assoc] at hnext
    rw [List.cons_append, scanLines, scanLines, List.length_cons]
    cases Declaration.header? line with
    | none => exact hnext
    | some found =>
      obtain ⟨kind, after⟩ := found
      have hbody := bodyOf_append hbs rest
      simp only [bodyOf] at hbody
      simp only [hbody, hnext, List.cons_append]

-- ── Texts after other texts ───────────────────────────────────────────────────

/-- The blocks of a text to which another one is added, which begins with a header line: first
    those of the text, then those of what is added, further down. -/
theorem scan_append_eq {a b : List Char} (ha : EndsLine a) (hb : StartsWithHeader (lines b)) :
    scan (a ++ b) = scan a ++ (scan b).map (shift (lines a).length) := by
  rw [scan, lines_append ha, scanLines_append hb,
    scanLines_add fun l hl => newline_notMem_of_mem_lines hl]
  rfl

/-- What the blocks are recognised by, as it is digested. -/
def identityInputs (bs : List Block) : List (List Char) :=
  bs.map fun b => (Derivation.declarationIdentity b.declaration).preimage

/-- Two texts put together have the blocks of the first and then those of the second, moved down by
    the lines of the first, if the second begins with a header line. The same is found with
    positions, in each of the three texts. So the blocks of the second text, and what they are
    recognised by, depend on no more of the first than its number of lines. -/
theorem scan_append {a b : List Char} (ha : EndsLine a) (hb : StartsWithHeader (lines b))
    (hlines : (lines a).length + (lines b).length < 2 ^ 32) :
    scan (a ++ b) = scan a ++ (scan b).map (shift (lines a).length) ∧
      (scanAt? a = some (scan a) ∧ scanAt? b = some (scan b) ∧
        scanAt? (a ++ b) = some (scan (a ++ b))) ∧
      ∀ a' : List Char, EndsLine a' → (lines a').length = (lines a).length →
        (scan (a' ++ b)).drop (scan a').length = (scan (a ++ b)).drop (scan a).length ∧
          identityInputs ((scan (a' ++ b)).drop (scan a').length) =
            identityInputs ((scan (a ++ b)).drop (scan a).length) := by
  have hwhole : (lines (a ++ b)).length < 2 ^ 32 := by
    rw [lines_append ha, List.length_append]
    exact hlines
  have hlater : ∀ a', EndsLine a' → (scan (a' ++ b)).drop (scan a').length =
      (scan b).map (shift (lines a').length) := by
    intro a' ha'
    rw [scan_append_eq ha' hb, List.drop_left]
  refine ⟨scan_append_eq ha hb, ⟨scanAt?_eq (by omega), scanAt?_eq (by omega),
    scanAt?_eq hwhole⟩, fun a' ha' hlength => ?_⟩
  have hsame : (scan (a' ++ b)).drop (scan a').length = (scan (a ++ b)).drop (scan a).length := by
    rw [hlater a' ha', hlater a ha, hlength]
  exact ⟨hsame, congrArg identityInputs hsame⟩

/-- Below a text with an example, a theorem whose name only looks like one that is made of a line
    stays what it is, while a lemma without a name and an example are numbered anew. -/
theorem scan_append_namedByLine :
    let a := "open Nat\n\r\nexample : 1 = 1 := rfl\n\n".toList
    let b := "@[simp] theorem theorem@1 : True :=\n  trivial\nlemma : 2 = 2\nexample := ()".toList
    EndsLine a ∧ StartsWithHeader (lines b) ∧ (lines a).length + (lines b).length < 2 ^ 32 ∧
      (scan b).map (·.declaration.label) = ["theorem@1", "lemma@3", "example@4"] ∧
      scan (a ++ b) = scan a ++ (scan b).map (shift 4) ∧
      (scan (a ++ b)).map (·.declaration.label) =
        ["example@3", "theorem@1", "lemma@7", "example@8"] := by
  intro a b
  have ha : EndsLine a := by decide +kernel
  have hb : StartsWithHeader (lines b) := by decide +kernel
  have hlines : (lines a).length + (lines b).length < 2 ^ 32 := by decide +kernel
  have hcount : (lines a).length = 4 := by decide +kernel
  obtain ⟨hscan, -, -⟩ := scan_append ha hb hlines
  rw [hcount] at hscan
  exact ⟨ha, hb, hlines, by decide +kernel, hscan, by decide +kernel⟩

end ProofLedger.Block

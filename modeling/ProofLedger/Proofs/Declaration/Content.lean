import Mathlib.Data.List.TakeWhile
import ProofLedger.Declaration.Block
import ProofLedger.Proofs.Text.Lines

/-!
# What the text of a block says

A block keeps its text, and its declaration can be read off that text again: the first line gives
the kind, and what stands after the keyword there and on the lines below gives the name, the
statement and whether a body follows. Besides the text, a declaration depends on nothing but the
line on which it starts (`reads_of_mem_scan`).
-/

namespace ProofLedger.Block

open Text

-- ── The parts of a text ───────────────────────────────────────────────────────

/-- What stands after the keyword of a block, on its first line and on the lines below. -/
def afterKeyword (b : Block) : List Char :=
  match Declaration.header? (b.text.takeWhile (· != '\n')) with
  | none => []
  | some (_, after) => after ++ b.text.dropWhile (· != '\n')

/-- The name that a block gives to its declaration, possibly empty. -/
def givenName (b : Block) : List Char := (Declaration.splitLabel b.afterKeyword).1

/-- What stands after the name in a block. -/
def afterName (b : Block) : List Char := (Declaration.splitLabel b.afterKeyword).2

/-- Whether a declaration is named after the line on which it starts: an example is, and so is
    whatever has no name. -/
def isNamedByLine (b : Block) : Bool := b.declaration.kind == .example_ || b.givenName.isEmpty

/-- The name after a line of a declaration of a kind. -/
def lineLabel (kind : DeclarationKind) (line : Nat) : String := kind.name ++ "@" ++ toString line

/-- A block whose declaration is what its text says. -/
structure Reads (b : Block) : Prop where
  header : ∃ after, Declaration.header? (b.text.takeWhile (· != '\n')) =
    some (b.declaration.kind, after)
  label : b.declaration.label = if b.isNamedByLine
    then lineLabel b.declaration.kind b.declaration.startLine else String.ofList b.givenName
  statement : b.declaration.statement = if b.declaration.kind.isProof
    then (Declaration.parseHeader b.afterName).1.map String.ofList else none
  isProof : b.declaration.isProof = b.declaration.kind.isProof
  hasBody : b.declaration.hasBody = (Declaration.parseHeader b.afterName).2

-- ── Blocks of lines ───────────────────────────────────────────────────────────

variable {line after : List Char} {kind : DeclarationKind}

/-- The first of some lines ends at the first newline. -/
theorem span_unlines (h : '\n' ∉ line) (body : List (List Char)) :
    (unlines (line :: body)).takeWhile (· != '\n') = line ∧
      ∀ start, start ++ (unlines (line :: body)).dropWhile (· != '\n') =
        unlines (start :: body) := by
  have hline : ∀ c ∈ line, (c != '\n') = true := fun c hc =>
    bne_iff_ne.mpr fun hnewline => h (hnewline ▸ hc)
  cases body with
  | nil =>
    rw [unlines, List.takeWhile_eq_self_iff.mpr hline, List.dropWhile_eq_nil_iff.mpr hline]
    exact ⟨rfl, fun start => List.append_nil start⟩
  | cons l ls =>
    have hcut : unlines (line :: l :: ls) = line ++ '\n' :: unlines (l :: ls) := rfl
    rw [hcut, List.takeWhile_append_of_pos hline, List.dropWhile_append_of_pos hline,
      List.takeWhile_cons_of_neg (by decide), List.dropWhile_cons_of_neg (by decide)]
    exact ⟨List.append_nil line, fun start => rfl⟩

theorem afterKeyword_ofLines (hline : '\n' ∉ line)
    (hheader : Declaration.header? line = some (kind, after)) (number : Nat)
    (body : List (List Char)) :
    (ofLines number kind line after body).afterKeyword = unlines (after :: body) := by
  obtain ⟨htake, hdrop⟩ := span_unlines hline body
  have htext : (ofLines number kind line after body).text = unlines (line :: body) := rfl
  rw [afterKeyword, htext, htake, hheader]
  exact hdrop after

theorem reads_ofLines (hline : '\n' ∉ line)
    (hheader : Declaration.header? line = some (kind, after)) (number : Nat)
    (body : List (List Char)) : Reads (ofLines number kind line after body) := by
  have hafter := afterKeyword_ofLines hline hheader number body
  refine ⟨⟨after, ?_⟩, ?_, ?_, rfl, ?_⟩
  · exact (congrArg Declaration.header? (span_unlines hline body).1).trans hheader
  · rw [isNamedByLine, givenName, hafter]
    rfl
  · rw [afterName, hafter]
    rfl
  · rw [afterName, hafter]
    rfl

theorem reads_of_mem_scanLines {ls : List (List Char)} (hls : ∀ l ∈ ls, '\n' ∉ l) (number : Nat) :
    ∀ b ∈ scanLines number ls, Reads b := by
  induction ls generalizing number with
  | nil => exact List.forall_mem_nil _
  | cons line rest ih =>
    obtain ⟨hline, hrest⟩ := List.forall_mem_cons.mp hls
    rw [scanLines]
    split
    · exact ih hrest (number + 1)
    next kind after hheader =>
      exact List.forall_mem_cons.mpr ⟨reads_ofLines hline hheader number _, ih hrest (number + 1)⟩

/-- Every declaration is what the text of its block says. -/
theorem reads_of_mem_scan {cs : List Char} {b : Block} (hb : b ∈ scan cs) : Reads b :=
  reads_of_mem_scanLines (fun _ => newline_notMem_of_mem_lines) 1 b hb

end ProofLedger.Block

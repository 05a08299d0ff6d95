import ProofLedger.Proofs.Declaration.Partition
import ProofLedger.Proofs.Derivation.Errors
import ProofLedger.Proofs.Text.Seams

/-!
# Where the last block ends

Blocks are counted by the lines of the text without comments, diagnostics by the lines of the text
itself. Both have the same newlines, so they differ by no more than a last line that has no end: it
is there only as long as something stands on it, and it is lost if that is nothing but a comment
(`EndsInComment`). Up to the last line that is left, every error from the first declaration on shows
at the declaration in whose block it lies, and nowhere else (`blocks_reach_last_line`).
-/

namespace ProofLedger

-- ── The last line ─────────────────────────────────────────────────────────────

namespace Text

/-- Whether something stands after the last newline. -/
def hasOpenLine (cs : List Char) : Bool := cs.getLast?.any (· != '\n')

/-- Something stands after the last newline, but only comments. -/
def EndsInComment (cs : List Char) : Prop :=
  hasOpenLine cs = true ∧ hasOpenLine (stripComments cs) = false

instance (cs : List Char) : Decidable (EndsInComment cs) :=
  inferInstanceAs (Decidable (_ ∧ _))

/-- Lines are as many as newlines, and one more if something stands after the last of them. -/
theorem length_lines (cs : List Char) :
    (lines cs).length = cs.count '\n' + if hasOpenLine cs then 1 else 0 := by
  induction cs with
  | nil => rfl
  | cons c cs ih =>
    have hopen : ∀ d r, cs = d :: r → hasOpenLine (c :: cs) = hasOpenLine cs := by
      rintro d r rfl
      rw [hasOpenLine, List.getLast?_cons_cons]
      rfl
    by_cases hc : c = '\n'
    · subst hc
      rw [lines_newline, List.length_cons, ih, List.count_cons_self]
      cases cs with
      | nil => rfl
      | cons d r =>
        rw [hopen d r rfl]
        omega
    · rw [length_lines_cons hc, ih, List.count_cons_of_ne hc]
      cases cs with
      | nil =>
        have hone : hasOpenLine [c] = true := bne_iff_ne.mpr hc
        rw [hone]
        rfl
      | cons d r =>
        rw [hopen d r rfl, ← ih]
        refine Nat.max_eq_right ?_
        by_cases hd : d = '\n'
        · rw [hd, lines_newline, List.length_cons]
          omega
        · rw [length_lines_cons hd]
          exact Nat.le_max_left _ _

/-- A text has the lines of what is left without comments, and one more if it ends in a comment. -/
theorem length_lines_eq (cs : List Char) :
    (lines cs).length =
      (lines (stripComments cs)).length + if EndsInComment cs then 1 else 0 := by
  have hcount : (stripComments cs).count '\n' = cs.count '\n' := count_newline_stripFrom .code cs
  have hstripped := length_lines (stripComments cs)
  rw [hcount] at hstripped
  rw [length_lines cs, hstripped]
  by_cases hcomment : EndsInComment cs
  · rw [if_pos hcomment, hcomment.1, hcomment.2]
    rfl
  · rw [if_neg hcomment, Nat.add_zero]
    have hle := length_lines_stripComments cs
    rw [length_lines cs, hstripped] at hle
    cases hopen : hasOpenLine cs with
    | true =>
      cases hleft : hasOpenLine (stripComments cs) with
      | true => rfl
      | false => exact absurd ⟨hopen, hleft⟩ hcomment
    | false =>
      cases hleft : hasOpenLine (stripComments cs) with
      | true =>
        rw [hopen, hleft] at hle
        exact absurd (Nat.le_of_add_le_add_left hle) (by decide)
      | false => rfl

/-- Stripping adds nothing but spaces. -/
theorem mem_stripFrom {region : Region} {cs : List Char} {c : Char}
    (h : c ∈ stripFrom region cs) : c ∈ cs ∨ c = ' ' := by
  have hlater : ∀ {r : List Char} (d : Char), c ∈ r ∨ c = ' ' → c ∈ d :: r ∨ c = ' ' :=
    fun d h => h.imp_left (List.mem_cons_of_mem d)
  have hhead : ∀ {r s : List Char} (d : Char), (c ∈ s → c ∈ r ∨ c = ' ') → c ∈ d :: s →
      c ∈ d :: r ∨ c = ' ' := by
    intro r s d ih hmem
    rcases List.mem_cons.mp hmem with rfl | hmem
    · exact .inl List.mem_cons_self
    · exact hlater d (ih hmem)
  fun_induction stripFrom region cs with
  | case1 => exact .inl h
  | case2 r ih => exact hhead '\n' ih h
  | case3 d r _ ih => exact hlater d (ih h)
  | case4 r ih => exact hlater '/' (hlater '-' (ih h))
  | case5 r ih => exact hlater '-' (hlater '-' (ih h))
  | case6 d r _ _ ih => exact hhead d ih h
  | case7 outer r ih => exact hlater '/' (hlater '-' (ih h))
  | case8 r ih =>
    rcases List.mem_cons.mp h with rfl | h
    · exact .inr rfl
    · exact hlater '-' (hlater '/' (ih h))
  | case9 outer r ih => exact hlater '-' (hlater '/' (ih h))
  | case10 outer r ih => exact hhead '\n' ih h
  | case11 outer d r _ _ _ _ ih => exact hlater d (ih h)

end Text

namespace Derivation

open Text

variable {c : SourceContext}

-- ── Blocks and lines ──────────────────────────────────────────────────────────

/-- The lines that blocks are counted by. -/
def codeLines (sourceText : String) : List (List Char) := lines (stripComments sourceText.toList)

theorem tiles_blocksOf (sourceText : String) :
    Block.Tiles (1 + (Block.bodyOf (codeLines sourceText)).length)
      (Block.fromHeader (codeLines sourceText)) (blocksOf sourceText) :=
  Block.tiles_scanLines 1 (codeLines sourceText)

/-- Where there is a declaration, there is a keyword, which is no blank. -/
theorem isBlankText_of_mem_blocksOf {sourceText : String} {b : Block}
    (hb : b ∈ blocksOf sourceText) : isBlankText sourceText = false := by
  obtain ⟨line, hline, hheader⟩ := (tiles_blocksOf sourceText).exists_isHeader hb
  obtain ⟨ch, hch, hsolid⟩ := hheader.exists_not_isBlank
  have hcode : line ∈ codeLines sourceText := (List.dropWhile_sublist _).subset hline
  have hstripped : ch ∈ stripComments sourceText.toList :=
    ((isInfix_of_mem_lines _).2 line hcode).subset hch
  have hsource : ch ∈ sourceText.toList := by
    rcases mem_stripFrom hstripped with hmem | rfl
    · exact hmem
    · exact absurd hsolid (by decide)
  rw [isBlankText, List.all_eq_false]
  exact ⟨ch, hsource, by rw [hsolid]; exact Bool.false_ne_true⟩

/-- The last block ends on the last line of the code. -/
theorem endLine_of_getLast? {sourceText : String} {b : Block}
    (hb : b ∈ (blocksOf sourceText).getLast?) :
    b.declaration.endLine = (codeLines sourceText).length :=
  (tiles_blocksOf sourceText).partitions.last b hb

/-- From the first block on, every line of the code lies in exactly one block. -/
theorem existsUnique_block {sourceText : String} {first : Block}
    (hfirst : first ∈ (blocksOf sourceText).head?) {line : UInt32}
    (hstart : first.declaration.startLine ≤ line.toNat)
    (hlast : line.toNat ≤ (codeLines sourceText).length) :
    ∃! b, b ∈ blocksOf sourceText ∧ b.declaration.containsLine line = true := by
  have htiles := tiles_blocksOf sourceText
  have hfrom := htiles.first first hfirst
  have hcovered := htiles.partitions.covered line.toNat (by omega) hlast
  simpa only [Declaration.containsLine, Bool.and_eq_true, decide_eq_true_eq] using hcovered

-- ── Where errors show ─────────────────────────────────────────────────────────

/-- An error shows at the declaration in whose block it lies, and nowhere else. -/
structure ShowsInBlock (c : SourceContext) (e : Diagnostic) : Prop where
  block : ∃! b, b ∈ blocksOf c.sourceText ∧ b.declaration.containsLine e.line = true
  /-- the node of the block has an error and lies around the line -/
  node : ∀ b ∈ blocksOf c.sourceText, b.declaration.containsLine e.line = true →
    (blockGoal b (errorsOf c) c.goalHints, blockNode b (errorsOf c)) ∈ obligations c ∧
      (blockNode b (errorsOf c)).status = .error ∧
      (blockNode b (errorsOf c)).range.any (·.containsLine e.line) = true
  /-- if digests do not collide, that node is in the graph -/
  kept : Identity.Distinguished (identitiesOf c) → ∀ now,
    ∀ b ∈ blocksOf c.sourceText, b.declaration.containsLine e.line = true →
      (derive c now).graph.node? (declarationIdentity b.declaration).nodeId =
        some (blockNode b (errorsOf c)).underRoot
  /-- there is no obligation for the error itself -/
  notAlone : ∀ goal n, ¬ Obliges c (diagnosticIdentity e) goal n

/-- The blocks of a context reach to a line: the last block ends there, errors up to there show in
    blocks, and errors beyond have obligations of their own. -/
structure ReachesTo (c : SourceContext) (lastLine : Nat) : Prop where
  last : ∀ b ∈ (blocksOf c.sourceText).getLast?, b.declaration.endLine = lastLine
  inside : ∀ first ∈ (blocksOf c.sourceText).head?, ∀ e ∈ c.diagnostics,
    e.severity.isError = true → first.declaration.startLine ≤ e.line.toNat →
      e.line.toNat ≤ lastLine → ShowsInBlock c e
  beyond : ∀ e ∈ c.diagnostics, e.severity.isError = true → lastLine < e.line.toNat →
    (some (diagnosticGoal e), diagnosticNode e) ∈ obligations c

/-- An error in a block has no obligation of its own, nor does another one on its line. -/
theorem not_obliges_of_covered {e : Diagnostic} {b : Block} (hb : b ∈ blocksOf c.sourceText)
    (hline : b.declaration.containsLine e.line = true) (goal : Option Goal) (n : GraphNode) :
    ¬ Obliges c (diagnosticIdentity e) goal n := by
  intro h
  generalize hi : diagnosticIdentity e = i at h
  cases h with
  | block _ => cases hi
  | @error e' he' =>
    have hsame : e.line = e'.line := UInt32.toNat_inj.mp (Identity.diagnostic.inj hi).1
    have hoff := (mem_uncovered.mp he').2 b hb
    rw [← hsame, hline] at hoff
    cases hoff

theorem showsInBlock {e : Diagnostic} (he : e ∈ errorsOf c)
    (hlines : (lines c.sourceText.toList).length < 2 ^ 32)
    (hblock : ∃! b, b ∈ blocksOf c.sourceText ∧ b.declaration.containsLine e.line = true) :
    ShowsInBlock c e where
  block := hblock
  node b hb hline := by
    obtain ⟨r, hrange, hin⟩ := range_of_mem_blocksOf hb hlines
    have hnode : (blockNode b (errorsOf c)).range = some r := hrange
    refine ⟨mem_obligations.mpr ⟨_, .block hb⟩, ?_, ?_⟩
    · exact status_blockNode_eq_error_iff.mpr ⟨e, he, hline⟩
    · rw [hnode]
      exact hin e.line hline
  kept hdigests now b hb _ := node?_of_block now (isBlankText_of_mem_blocksOf hb) hdigests hb
  notAlone := by
    obtain ⟨b, ⟨hb, hline⟩, -⟩ := hblock
    exact not_obliges_of_covered hb hline

theorem reachesTo_codeLines (c : SourceContext)
    (hlines : (lines c.sourceText.toList).length < 2 ^ 32) :
    ReachesTo c (codeLines c.sourceText).length where
  last _ hb := endLine_of_getLast? hb
  inside first hfirst e he herror hstart hlast :=
    showsInBlock (mem_errorsOf.mpr ⟨he, herror⟩) hlines (existsUnique_block hfirst hstart hlast)
  beyond e he herror hbeyond := by
    refine mem_obligations.mpr ⟨_, .error (mem_uncovered.mpr ⟨⟨he, herror⟩, fun b hb => ?_⟩)⟩
    have hend : b.declaration.endLine < 1 + (codeLines c.sourceText).length :=
      (liesIn_of_mem_blocksOf hb).last
    rw [Declaration.containsLine, Bool.and_eq_false_iff, decide_eq_false_iff_not,
      decide_eq_false_iff_not]
    right
    omega

/-- The blocks of a source text reach to its last line, unless that line has no end and nothing but
    a comment stands on it: then they reach to the line before. -/
theorem blocks_reach_last_line (c : SourceContext)
    (hlines : (lines c.sourceText.toList).length < 2 ^ 32) :
    (¬ EndsInComment c.sourceText.toList →
      ReachesTo c (lines c.sourceText.toList).length) ∧
    (EndsInComment c.sourceText.toList →
      ReachesTo c ((lines c.sourceText.toList).length - 1)) := by
  have hreach := reachesTo_codeLines c hlines
  have hlength := length_lines_eq c.sourceText.toList
  constructor
  · intro hcode
    rw [if_neg hcode, Nat.add_zero] at hlength
    rw [hlength]
    exact hreach
  · intro hcomment
    rw [if_pos hcomment] at hlength
    rw [hlength, Nat.add_sub_cancel]
    exact hreach

/-- A theorem with a comment on the last line, which has no end, and an error there. -/
def trailingComment : SourceContext where
  fileKey := "Main.lean"
  sourceText := "theorem t : True := trivial\n-- end"
  diagnostics := [⟨"unexpected end of input", .error, ⟨⟨2, 1⟩, ⟨2, 2⟩⟩, none⟩]

/-- A text that ends with a newline, and the one that ends in a comment. -/
theorem blocks_reach_last_line_trailingComment :
    ((lines noisyContext.sourceText.toList).length < 2 ^ 32 ∧
      ¬ EndsInComment noisyContext.sourceText.toList ∧ ReachesTo noisyContext 2) ∧
    (lines trailingComment.sourceText.toList).length < 2 ^ 32 ∧
      EndsInComment trailingComment.sourceText.toList ∧ ReachesTo trailingComment 1 := by
  have hcode : ¬ EndsInComment noisyContext.sourceText.toList := by decide +kernel
  have hlines : (lines trailingComment.sourceText.toList).length < 2 ^ 32 := by decide +kernel
  have hcomment : EndsInComment trailingComment.sourceText.toList := by decide +kernel
  exact ⟨⟨length_lines_noisyContext, hcode,
      (blocks_reach_last_line noisyContext length_lines_noisyContext).1 hcode⟩,
    hlines, hcomment, (blocks_reach_last_line trailingComment hlines).2 hcomment⟩

/-- The block of the theorem ends before the last of the two lines, and the error there has an
    obligation of its own. -/
theorem not_reachesTo_trailingComment :
    (lines trailingComment.sourceText.toList).length = 2 ∧
      blocksOf trailingComment.sourceText ≠ [] ∧
      ¬ ReachesTo trailingComment (lines trailingComment.sourceText.toList).length ∧
      ∃ e ∈ uncovered trailingComment, e.line = 2 := by
  have hlines : (lines trailingComment.sourceText.toList).length = 2 := by decide +kernel
  obtain ⟨b, hb, hend⟩ : ∃ b ∈ (blocksOf trailingComment.sourceText).getLast?,
      b.declaration.endLine = 1 := by decide +kernel
  refine ⟨hlines, by decide +kernel, fun hreach => ?_, ?_⟩
  · have hlast := hreach.last b hb
    rw [hend, hlines] at hlast
    exact absurd hlast (by decide)
  · refine ⟨⟨"unexpected end of input", .error, ⟨⟨2, 1⟩, ⟨2, 2⟩⟩, none⟩, ?_, rfl⟩
    exact mem_uncovered.mpr ⟨⟨List.mem_cons_self, rfl⟩, by decide +kernel⟩

end Derivation

end ProofLedger

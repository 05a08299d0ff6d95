import Mathlib.Data.List.Forall2
import ProofLedger.Derivation
import ProofLedger.Proofs.Declaration.Header

/-!
# Respacing a source keeps its obligations

Obligations are made from the declarations of a source and from whether their blocks hold the
placeholder, and never from the text itself. Blocks of sources that differ line by line only in
blanks and comments are alike in both, so everything that is derived from them is the same, ids
included: an edit that only moves text around on its line loses no history.
-/

namespace ProofLedger

open Text

-- ── The placeholder ───────────────────────────────────────────────────────────

namespace Block

variable {word : List Char} {inside : Bool} {a b : List Char}

/-- A word does not begin at a blank, and a blank is no part of the word before. -/
theorem hasWordFrom_blank (hword : ∀ c ∈ word, isBlank c = false) (hne : word ≠ []) {c : Char}
    (hc : isBlank c = true) (before : Option Char) (cs : List Char) :
    hasWordFrom word before (c :: cs) = hasWordFrom word none cs := by
  have hpre : word.isPrefixOf (c :: cs) = false := by
    cases word with
    | nil => exact absurd rfl hne
    | cons d word =>
      have hd := hword d (List.mem_cons_self ..)
      rw [List.isPrefixOf, BEq.comm, Declaration.beq_of_isBlank hd hc, Bool.false_and]
  have hbefore : ∀ ds, hasWordFrom word (some c) ds = hasWordFrom word none ds := by
    intro ds
    cases ds with
    | nil => rfl
    | cons d ds => rw [hasWordFrom, hasWordFrom, isWordAt, isWordAt, isWordChar_of_isBlank hc]
  rw [hasWordFrom, hpre, Bool.and_false, Bool.false_and, Bool.false_or, hbefore]

theorem hasWordFrom_of_endsWord (hword : ∀ c ∈ word, isBlank c = false) (hne : word ≠ [])
    {cs : List Char} (h : EndsWord cs) (before : Option Char) :
    hasWordFrom word before cs = hasWordFrom word none cs := by
  cases cs with
  | nil => rfl
  | cons c cs =>
    rw [hasWordFrom_blank hword hne (endsWord_cons.mp h),
      hasWordFrom_blank hword hne (endsWord_cons.mp h)]

/-- Respaced texts hold the same words, whatever stands before them; between words that does not
    matter. -/
theorem hasWordFrom_eq (hword : ∀ c ∈ word, isBlank c = false) (hne : word ≠ [])
    (h : Respaced inside a b) {before : Option Char} (hbefore : inside = false → before = none) :
    hasWordFrom word before a = hasWordFrom word before b := by
  induction h generalizing before with
  | nil => rfl
  | @char inside c a b hc h ih =>
    have hin : Respaced true (c :: a) (c :: b) := .char hc h
    obtain ⟨hpre, hafter⟩ := hin.isPrefixOf hword
    rw [hasWordFrom, hasWordFrom, ← hpre, ih nofun]
    -- what comes after the word matters only if the word is there
    cases hp : word.isPrefixOf (c :: a) with
    | false => simp only [Bool.and_false, Bool.false_and]
    | true =>
      rw [isWordAt_eq_any, isWordAt_eq_any, isWordAt_eq_any,
        (hafter hp).any_head? fun _ => isWordChar_of_isBlank]
  | left hc _ ih =>
    rw [hbefore rfl, hasWordFrom_blank hword hne hc]
    exact ih fun _ => rfl
  | right hc _ ih =>
    rw [hbefore rfl, hasWordFrom_blank hword hne hc]
    exact ih fun _ => rfl
  | gap ha hb _ ih =>
    rw [hasWordFrom_of_endsWord hword hne ha, hasWordFrom_of_endsWord hword hne hb]
    exact ih fun _ => rfl

-- ── Blocks ────────────────────────────────────────────────────────────────────

/-- Two blocks that differ in their texts at most. -/
structure Alike (b b' : Block) : Prop where
  declaration : b.declaration = b'.declaration
  hasPlaceholder : b.hasPlaceholder = b'.hasPlaceholder

theorem alike_ofLines {number : Nat} {kind : DeclarationKind}
    {header header' after after' : List Char} {body body' : List (List Char)}
    (hheader : Respaced false header header') (hafter : Respaced true after after')
    (hbody : List.Forall₂ (Respaced false) body body')
    (hfree : ∀ l ∈ after :: body, CommentFree l) (hfree' : ∀ l ∈ after' :: body', CommentFree l) :
    Alike (ofLines number kind header after body) (ofLines number kind header' after' body') := by
  obtain ⟨hname, hrest⟩ := Declaration.respaced_splitLabel (hafter.unlines hbody)
  have hparsed := Declaration.parseHeader_eq hrest
    ((CommentFree.unlines hfree).of_isInfix (Declaration.splitLabel_isSuffix _).isInfix)
    ((CommentFree.unlines hfree').of_isInfix (Declaration.splitLabel_isSuffix _).isInfix)
  constructor
  · simp only [ofLines, hname, hparsed, hbody.length_eq]
  · exact hasWordFrom_eq (forall_not_isBlank (by decide)) (by decide) (hheader.unlines hbody)
      fun _ => rfl

/-- Lines up to the next header correspond to each other. -/
theorem forall₂_takeWhile {p : List Char → Bool} {ls ms : List (List Char)}
    (hp : ∀ l m, Respaced false l m → p l = p m) (h : List.Forall₂ (Respaced false) ls ms) :
    List.Forall₂ (Respaced false) (ls.takeWhile p) (ms.takeWhile p) := by
  induction h with
  | nil => exact .nil
  | cons hline _ ih =>
    rw [List.takeWhile_cons, List.takeWhile_cons, hp _ _ hline]
    split
    · exact .cons hline ih
    · exact .nil

theorem isNone_header?_eq {l m : List Char} (h : Respaced false l m) :
    (Declaration.header? l).isNone = (Declaration.header? m).isNone := by
  rcases Declaration.rel_cases (Declaration.sameHeader_header? h) with
    ⟨hl, hm⟩ | ⟨_, _, hl, hm, -⟩
  · rw [hl, hm]
  · rw [hl, hm]
    rfl

theorem alike_scanLines {ls ms : List (List Char)} (h : List.Forall₂ (Respaced false) ls ms)
    (hfree : ∀ l ∈ ls, CommentFree l) (hfree' : ∀ m ∈ ms, CommentFree m) (number : Nat) :
    List.Forall₂ Alike (scanLines number ls) (scanLines number ms) := by
  induction h generalizing number with
  | nil => exact .nil
  | @cons line line' rest rest' hline hrest ih =>
    obtain ⟨hl, hls⟩ := List.forall_mem_cons.mp hfree
    obtain ⟨hm, hms⟩ := List.forall_mem_cons.mp hfree'
    have hlater := ih hls hms (number + 1)
    rw [scanLines, scanLines]
    rcases Declaration.rel_cases (Declaration.sameHeader_header? hline) with
      ⟨hx, hy⟩ | ⟨⟨kind, after⟩, ⟨kind', after'⟩, hx, hy, hkind, hafter⟩
    · rw [hx, hy]
      exact hlater
    · cases hkind
      rw [hx, hy]
      have hbody := forall₂_takeWhile (p := fun l => (Declaration.header? l).isNone)
        (fun _ _ => isNone_header?_eq) hrest
      refine .cons (alike_ofLines hline hafter hbody ?_ ?_) hlater
      · exact List.forall_mem_cons.mpr
          ⟨hl.of_isInfix (Declaration.header?_isSuffix hx).isInfix,
            fun l hin => hls l ((List.takeWhile_sublist _).subset hin)⟩
      · exact List.forall_mem_cons.mpr
          ⟨hm.of_isInfix (Declaration.header?_isSuffix hy).isInfix,
            fun l hin => hms l ((List.takeWhile_sublist _).subset hin)⟩

end Block

-- ── Derivations ───────────────────────────────────────────────────────────────

namespace Derivation

variable {bs bs' : List Block}

/-- The words of a source without its comments, line by line. -/
def wordsByLine (sourceText : String) : List (List (List Char)) :=
  (lines (stripComments sourceText.toList)).map words

/-- Sources with the same words on each line have blocks that are alike. -/
theorem alike_blocksOf {s s' : String} (h : wordsByLine s = wordsByLine s') :
    List.Forall₂ Block.Alike (blocksOf s) (blocksOf s') := by
  have hlines : List.Forall₂ (Respaced false) (lines (stripComments s.toList))
      (lines (stripComments s'.toList)) := by
    rw [wordsByLine, wordsByLine, ← List.forall₂_eq_eq_eq, List.forall₂_map_left_iff,
      List.forall₂_map_right_iff] at h
    exact h.imp fun _ _ => respaced_iff.mpr
  exact Block.alike_scanLines hlines (fun _ => (commentFree_stripComments _).of_mem_lines)
    (fun _ => (commentFree_stripComments _).of_mem_lines) 1

/-- What is made of each block in the same way is the same. -/
theorem map_eq_map_of_alike {α : Type} {f : Block → α}
    (hf : ∀ b b', Block.Alike b b' → f b = f b') (h : List.Forall₂ Block.Alike bs bs') :
    bs.map f = bs'.map f := by
  induction h with
  | nil => rfl
  | cons hb _ ih => rw [List.map_cons, List.map_cons, hf _ _ hb, ih]

theorem blockStatus_eq {b b' : Block} (h : Block.Alike b b') (error : Option Diagnostic) :
    blockStatus b error = blockStatus b' error := by
  rw [blockStatus, blockStatus, h.declaration, h.hasPlaceholder]

theorem isCovered_eq (h : List.Forall₂ Block.Alike bs bs') (line : UInt32) :
    isCovered bs line = isCovered bs' line := by
  have hmap := map_eq_map_of_alike (f := fun b => b.declaration.containsLine line)
    (fun _ _ hb => by rw [hb.declaration]) h
  have hany : ∀ cs : List Block,
      isCovered cs line = (cs.map fun b => b.declaration.containsLine line).any id := by
    intro cs
    rw [List.any_map]
    rfl
  rw [hany, hany, hmap]

/-- Obligations of contexts that agree in all but their texts. -/
theorem obligations_eq {c c' : SourceContext} (hdiagnostics : c.diagnostics = c'.diagnostics)
    (hhints : c.goalHints = c'.goalHints)
    (h : List.Forall₂ Block.Alike (blocksOf c.sourceText) (blocksOf c'.sourceText)) :
    obligations c = obligations c' := by
  have herrors : errorsOf c = errorsOf c' := by rw [errorsOf, errorsOf, hdiagnostics]
  have hblocks := map_eq_map_of_alike
    (f := fun b => (blockGoal b (errorsOf c) c.goalHints, blockNode b (errorsOf c)))
    (fun b b' hb => by
      simp only [blockGoal, blockNode, blockStatus_eq hb, hb.declaration]) h
  rw [herrors, hhints] at hblocks
  simp only [obligations, hblocks, isCovered_eq h, herrors, hhints]

/-- Nothing that is derived from a source depends on its blanks and comments, as long as every
    line keeps its words. -/
theorem derive_eq_of_wordsByLine_eq (c c' : SourceContext) (now : Instant)
    (hkey : c.fileKey = c'.fileKey) (hdiagnostics : c.diagnostics = c'.diagnostics)
    (hhints : c.goalHints = c'.goalHints) (hblank : isBlankText c.sourceText = false)
    (hblank' : isBlankText c'.sourceText = false)
    (hwords : wordsByLine c.sourceText = wordsByLine c'.sourceText) :
    derive c now = derive c' now := by
  have halike := alike_blocksOf hwords
  have hdeclarations := map_eq_map_of_alike (f := (·.declaration)) (fun _ _ hb => hb.declaration)
    halike
  rw [derive, derive, hblank, hblank', if_neg Bool.false_ne_true, if_neg Bool.false_ne_true]
  simp only [obligations_eq hdiagnostics hhints halike, hkey, hdeclarations]

/-- A theorem whose proof is missing. -/
def tidyContext : SourceContext where
  fileKey := "Main.lean"
  sourceText := "theorem a (n : Nat) : n = n := by\n  sorry\n"

/-- The same theorem with a remark on each line and blanks between its words. -/
def untidyContext : SourceContext where
  fileKey := "Main.lean"
  sourceText := "/- easy -/ theorem  a (n  : Nat) :\tn = n := by -- later\n sorry /- ! -/\n"

theorem derive_tidyContext_eq_untidyContext :
    tidyContext.sourceText ≠ untidyContext.sourceText ∧
      isBlankText tidyContext.sourceText = false ∧ isBlankText untidyContext.sourceText = false ∧
      wordsByLine tidyContext.sourceText = wordsByLine untidyContext.sourceText ∧
      ∀ now, derive tidyContext now = derive untidyContext now := by
  have hblank : isBlankText tidyContext.sourceText = false := by decide +kernel
  have hblank' : isBlankText untidyContext.sourceText = false := by decide +kernel
  have hwords : wordsByLine tidyContext.sourceText = wordsByLine untidyContext.sourceText := by
    decide +kernel
  refine ⟨by decide, hblank, hblank', hwords, fun now => ?_⟩
  exact derive_eq_of_wordsByLine_eq tidyContext untidyContext now rfl rfl rfl hblank hblank' hwords

end Derivation

end ProofLedger

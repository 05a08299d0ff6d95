import Mathlib.Data.Finset.Card
import Mathlib.Data.List.Dedup
import ProofLedger.Proofs.Declaration.Blocks
import ProofLedger.Proofs.Derivation.Gathering
import ProofLedger.Proofs.Derivation.Identity

/-!
# Obligations and their identities

An obligation is a node, with a goal if something has to be proved, and it comes either from a
block or from an error outside of all blocks (`Obliges`). What is needed of it later is the same
in both cases (`Obliges.Fits`). Two obligations of one pass with the same identity come from the
same block, or from errors that differ in nothing that a goal or the status of a node shows
(`Obliges.agree`): so it does not matter which of them a table keeps.
-/

namespace ProofLedger.Derivation

variable {c : SourceContext}

/-- The errors of a context outside of all blocks, in order. -/
def uncovered (c : SourceContext) : List Diagnostic :=
  (errorsOf c).filter fun e => !isCovered (blocksOf c.sourceText) e.line

/-- What a pass over a context digests: the identities of all blocks and of all errors outside of
    them; nothing if the text is blank. -/
def identitiesOf (c : SourceContext) : List Identity :=
  if Text.isBlankText c.sourceText then []
  else (blocksOf c.sourceText).map (fun b => declarationIdentity b.declaration) ++
    (uncovered c).map diagnosticIdentity

theorem identitiesOf_of_not_blank (h : Text.isBlankText c.sourceText = false) :
    identitiesOf c = (blocksOf c.sourceText).map (fun b => declarationIdentity b.declaration) ++
      (uncovered c).map diagnosticIdentity := by
  rw [identitiesOf, h, if_neg Bool.false_ne_true]

-- ── Where obligations come from ───────────────────────────────────────────────

/-- An identity with the goal and the node that a context has for it. -/
inductive Obliges (c : SourceContext) : Identity → Option Goal → GraphNode → Prop
  | block {b : Block} : b ∈ blocksOf c.sourceText →
    Obliges c (declarationIdentity b.declaration) (blockGoal b (errorsOf c) c.goalHints)
      (blockNode b (errorsOf c))
  | error {e : Diagnostic} : e ∈ uncovered c →
    Obliges c (diagnosticIdentity e) (some (diagnosticGoal e)) (diagnosticNode e)

theorem mem_obligations {goal : Option Goal} {n : GraphNode} :
    (goal, n) ∈ obligations c ↔ ∃ i, Obliges c i goal n := by
  constructor
  · intro hmem
    rcases List.mem_append.mp hmem with hblock | herror
    · obtain ⟨b, hb, heq⟩ := List.mem_map.mp hblock
      cases heq
      exact ⟨_, .block hb⟩
    · obtain ⟨e, he, heq⟩ := List.mem_map.mp herror
      cases heq
      exact ⟨_, .error he⟩
  · rintro ⟨i, hblock | herror⟩
    · exact List.mem_append_left _ (List.mem_map.mpr ⟨_, hblock, rfl⟩)
    · exact List.mem_append_right _ (List.mem_map.mpr ⟨_, herror, rfl⟩)

theorem mem_identitiesOf (h : Text.isBlankText c.sourceText = false) {i : Identity} :
    i ∈ identitiesOf c ↔ ∃ goal n, Obliges c i goal n := by
  rw [identitiesOf_of_not_blank h, List.mem_append]
  constructor
  · rintro (hblock | herror)
    · obtain ⟨b, hb, rfl⟩ := List.mem_map.mp hblock
      exact ⟨_, _, .block hb⟩
    · obtain ⟨e, he, rfl⟩ := List.mem_map.mp herror
      exact ⟨_, _, .error he⟩
  · rintro ⟨goal, n, hblock | herror⟩
    · exact .inl (List.mem_map.mpr ⟨_, hblock, rfl⟩)
    · exact .inr (List.mem_map.mpr ⟨_, herror, rfl⟩)

-- ── What they look like ───────────────────────────────────────────────────────

/-- How identity, goal and node of an obligation belong together. -/
structure Fits (i : Identity) (goal : Option Goal) (n : GraphNode) : Prop where
  nodeId : n.nodeId = i.nodeId
  /-- there is a goal unless the node is that of a definition -/
  isSome_goal : goal.isSome = true ↔ n.kind ≠ .definition
  goalId : n.goalId = goal.map (·.id)
  goal : ∀ g, goal = some g → g.id = i.goalId ∧ g.status = goalStatus n.status

/-- Exactly definitions need no proof. -/
theorem isProof_iff {kind : DeclarationKind} :
    kind.isProof = true ↔ NodeKind.ofDeclaration kind ≠ .definition := by
  cases kind <;> decide

theorem Obliges.fits {i : Identity} {goal : Option Goal} {n : GraphNode}
    (h : Obliges c i goal n) : Fits i goal n := by
  cases h with
  | @block b hb =>
    have hproof := (liesIn_of_mem_blocksOf hb).isProof
    have hgoal : (blockGoal b (errorsOf c) c.goalHints).isSome = b.declaration.isProof := by
      simp only [blockGoal]
      split <;> simp_all
    refine ⟨rfl, ?_, ?_, fun g hg => ?_⟩
    · rw [hgoal, hproof, isProof_iff]
      rfl
    · simp only [blockGoal, blockNode]
      split <;> rfl
    · simp only [blockGoal] at hg
      split at hg
      · cases hg
        exact ⟨rfl, rfl⟩
      · cases hg
  | error he =>
    refine ⟨rfl, ⟨fun _ => nofun, fun _ => rfl⟩, rfl, fun g hg => ?_⟩
    cases hg
    exact ⟨rfl, rfl⟩

/-- Every node has a range. -/
theorem Obliges.isSome_range {i : Identity} {goal : Option Goal} {n : GraphNode}
    (h : Obliges c i goal n) (hlines : (Text.lines c.sourceText.toList).length < 2 ^ 32) :
    n.range.isSome = true := by
  cases h with
  | block hb =>
    obtain ⟨r, hr, -⟩ := range_of_mem_blocksOf hb hlines
    exact Option.isSome_iff_exists.mpr ⟨r, hr⟩
  | error _ => rfl

/-- The identity of a block is that of no other obligation. -/
theorem Obliges.eq_of_block {b : Block} (hb : b ∈ blocksOf c.sourceText) {goal : Option Goal}
    {n : GraphNode} (h : Obliges c (declarationIdentity b.declaration) goal n) :
    goal = blockGoal b (errorsOf c) c.goalHints ∧ n = blockNode b (errorsOf c) := by
  generalize hi : declarationIdentity b.declaration = i at h
  cases h with
  | @block b' hb' =>
    have hline : b.declaration.startLine = b'.declaration.startLine := by
      simp only [declarationIdentity, Identity.declaration.injEq] at hi
      exact hi.1
    cases eq_of_startLine_eq hb hb' hline
    exact ⟨rfl, rfl⟩
  | error _ => cases hi

/-- The identity of an error is only that of errors. -/
theorem Obliges.eq_of_error {e : Diagnostic} {goal : Option Goal} {n : GraphNode}
    (h : Obliges c (diagnosticIdentity e) goal n) : ∃ e', n = diagnosticNode e' := by
  generalize hi : diagnosticIdentity e = i at h
  cases h with
  | block _ => cases hi
  | @error e' _ => exact ⟨e', rfl⟩

/-- Obligations of the same identity differ in nothing that counts. -/
theorem Obliges.agree {i : Identity} {goal goal' : Option Goal} {n n' : GraphNode}
    (h : Obliges c i goal n) (h' : Obliges c i goal' n') :
    n.kind = n'.kind ∧ n.status = n'.status := by
  cases h with
  | block hb =>
    obtain ⟨-, rfl⟩ := h'.eq_of_block hb
    exact ⟨rfl, rfl⟩
  | error _ =>
    obtain ⟨e', rfl⟩ := h'.eq_of_error
    exact ⟨rfl, rfl⟩

-- ── The goals that are kept ───────────────────────────────────────────────────

theorem ofList_concat {α : Type} (entries : List (String × α)) (e : String × α) :
    Table.ofList (entries ++ [e]) = (Table.ofList entries).insert e.1 e.2 :=
  Table.ext (List.foldl_concat _ _ _ _)

theorem mem_of_get?_ofList {α : Type} {entries : List (String × α)} {key : String} {value : α}
    (h : (Table.ofList entries).get? key = some value) : (key, value) ∈ entries := by
  induction entries using List.reverseRecOn with
  | nil => cases h
  | append_singleton entries e ih =>
    rw [ofList_concat] at h
    by_cases hkey : e.1 = key
    · subst hkey
      rw [Table.get?_insert_self] at h
      cases h
      exact List.mem_append_right _ (List.mem_singleton_self e)
    · rw [Table.get?_insert_ne _ hkey] at h
      exact List.mem_append_left _ (ih h)

theorem contains_ofList {α : Type} {entries : List (String × α)} {e : String × α}
    (h : e ∈ entries) : ∃ value, (Table.ofList entries).get? e.1 = some value := by
  induction entries using List.reverseRecOn with
  | nil => cases h
  | append_singleton entries last ih =>
    rw [ofList_concat]
    by_cases hkey : last.1 = e.1
    · exact ⟨last.2, hkey ▸ Table.get?_insert_self _ _ _⟩
    · rw [Table.get?_insert_ne _ hkey]
      refine ih ((List.mem_append.mp h).resolve_right fun hlast => hkey ?_)
      rw [List.mem_singleton.mp hlast]

/-- Every goal that is kept is the goal of an obligation. -/
theorem obliges_of_get?_collectGoals {goalId : String} {goal : Goal}
    (h : (collectGoals (obligations c)).get? goalId = some goal) :
    ∃ i n, Obliges c i (some goal) n ∧ goal.id = goalId := by
  obtain ⟨⟨goal', n⟩, hmem, heq⟩ := List.mem_filterMap.mp (mem_of_get?_ofList h)
  obtain ⟨g, rfl, hg⟩ := Option.map_eq_some_iff.mp heq
  obtain ⟨i, hi⟩ := mem_obligations.mp hmem
  cases hg
  exact ⟨i, n, hi, rfl⟩

/-- For every goal of an obligation one of its id is kept. -/
theorem get?_collectGoals_of_obliges {i : Identity} {goal : Goal} {n : GraphNode}
    (h : Obliges c i (some goal) n) :
    ∃ kept, (collectGoals (obligations c)).get? goal.id = some kept :=
  contains_ofList (e := (goal.id, goal))
    (List.mem_filterMap.mpr ⟨(some goal, n), mem_obligations.mpr ⟨i, h⟩, rfl⟩)

end ProofLedger.Derivation

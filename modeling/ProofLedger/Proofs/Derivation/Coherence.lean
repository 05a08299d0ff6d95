import Mathlib.Data.Finset.Card
import Mathlib.Data.List.Dedup
import ProofLedger.Derivation.Commit
import ProofLedger.Proofs.Derivation.Obligations

/-!
# Goals and nodes belong together

A derived graph is consistent whatever the context is, so a derivation is always committed as a
whole. If moreover the digests of a pass do not collide, goals and nodes match (`Coherent`): the
goals are those of the nodes, each belongs to one node and has the status that goes with it. Then
there are as many nodes below the root as there are blocks and different errors outside of them.

The node that is kept under an id need not be the one that was made first, but it is one of the
same identity, and those agree (`Obliges.agree`).
-/

namespace ProofLedger.Derivation

variable {c : SourceContext} {now : Instant}

-- ── The derived graph ─────────────────────────────────────────────────────────

/-- What is derived from a text that is blank. -/
def ofBlank (fileKey : String) (now : Instant) : Derivation where
  goals := Table.empty
  graph := Graph.rootOnly fileKey
  declarations := []
  derivedAt := now

/-- A blank text is derived as such. -/
theorem derive_of_blank (h : Text.isBlankText c.sourceText = true) :
    derive c now = ofBlank c.fileKey now := by
  rw [derive, if_pos h]
  rfl

/-- The graph of a text that is not blank is built from its obligations. -/
theorem graph_derive (h : Text.isBlankText c.sourceText = false) :
    (derive c now).graph = buildGraph c.fileKey (obligations c) := by
  rw [derive, h, if_neg Bool.false_ne_true]

/-- The goals of a text that is not blank are those of its obligations. -/
theorem goals_derive (h : Text.isBlankText c.sourceText = false) :
    (derive c now).goals = collectGoals (obligations c) := by
  rw [derive, h, if_neg Bool.false_ne_true]

theorem derivedAt_derive : (derive c now).derivedAt = now := by
  unfold derive
  split <;> rfl

/-- Before its root is refreshed, a graph of obligations gathers their nodes. -/
theorem gathers_attached (c : SourceContext) :
    Graph.Gathers ((obligations c).map (·.2))
      ((obligations c).foldl (fun g o => g.attachToRoot o.2) (Graph.rootOnly c.fileKey)) := by
  rw [← List.foldl_map]
  refine Graph.gathers_foldl c.fileKey fun n hn => ?_
  obtain ⟨⟨goal, n⟩, hmem, rfl⟩ := List.mem_map.mp hn
  obtain ⟨i, hi⟩ := mem_obligations.mp hmem
  rw [hi.fits.nodeId]
  exact i.nodeId_ne_root

/-- The graph of a derivation gathers the nodes of the obligations. -/
theorem gathers_derive (now : Instant) (h : Text.isBlankText c.sourceText = false) :
    Graph.Gathers ((obligations c).map (·.2)) (derive c now).graph := by
  rw [graph_derive h]
  exact (gathers_attached c).refresh

/-- The graph of a derivation is consistent. -/
theorem consistent_derive (c : SourceContext) (now : Instant) :
    (derive c now).graph.Consistent := by
  cases h : Text.isBlankText c.sourceText with
  | true =>
    rw [derive_of_blank h]
    exact (Graph.gathers_rootOnly c.fileKey).consistent
  | false => exact (gathers_derive now h).consistent

/-- Below the root there is nothing but nodes of obligations. -/
theorem obliges_of_get? (h : Text.isBlankText c.sourceText = false) {id : String}
    {n : GraphNode} (hget : (derive c now).graph.nodes.get? id = some n)
    (hid : id ≠ Graph.rootNodeId) :
    ∃ i goal m, Obliges c i goal m ∧ id = i.nodeId ∧ n = m.underRoot := by
  obtain ⟨m, hm, hmid, hn⟩ := (gathers_derive now h).child id n hget hid
  obtain ⟨⟨goal, m⟩, hmem, rfl⟩ := List.mem_map.mp hm
  obtain ⟨i, hi⟩ := mem_obligations.mp hmem
  exact ⟨i, goal, m, hi, hmid ▸ hi.fits.nodeId, hn⟩

/-- For every obligation there is the node of one with the same identity. -/
theorem get?_of_obliges (now : Instant) (h : Text.isBlankText c.sourceText = false)
    (hdigests : Identity.Distinguished (identitiesOf c)) {i : Identity} {goal : Option Goal}
    {n : GraphNode} (hi : Obliges c i goal n) :
    ∃ goal' m, Obliges c i goal' m ∧
      (derive c now).graph.nodes.get? i.nodeId = some m.underRoot := by
  have hmem : n ∈ (obligations c).map (·.2) :=
    List.mem_map.mpr ⟨(goal, n), mem_obligations.mpr ⟨i, hi⟩, rfl⟩
  obtain ⟨hne, hpresent⟩ := (gathers_derive now h).present n hmem
  rw [hi.fits.nodeId] at hne hpresent
  obtain ⟨kept, hget⟩ := Table.contains_iff.mp hpresent
  obtain ⟨i', goal', m, hi', hid, rfl⟩ := obliges_of_get? h hget hne
  have hsame : i = i' := hdigests.eq ((mem_identitiesOf h).mpr ⟨_, _, hi⟩)
    ((mem_identitiesOf h).mpr ⟨_, _, hi'⟩) (Identity.shortHash_of_nodeId hid)
  subst hsame
  exact ⟨goal', m, hi', hget⟩

-- ── Goals and nodes ───────────────────────────────────────────────────────────

/-- Goals and nodes of a derivation match. -/
structure Coherent (d : Derivation) : Prop where
  /-- every node below the root is its child, has a range, and has a goal unless it is that of a
      definition -/
  node : ∀ id n, d.graph.nodes.get? id = some n → id ≠ d.graph.rootId →
    n.parentId = some d.graph.rootId ∧ n.range.isSome = true ∧
      (n.goalId.isSome = true ↔ n.kind ≠ .definition)
  /-- every goal belongs to exactly one node -/
  goal : ∀ goalId goal, d.goals.get? goalId = some goal →
    ∃! id, ∃ n, d.graph.nodes.get? id = some n ∧ n.goalId = some goalId
  /-- the goal of a node is stored under its id and has the status that goes with the node -/
  status : ∀ id n goalId, d.graph.nodes.get? id = some n → n.goalId = some goalId →
    ∃ goal, d.goals.get? goalId = some goal ∧ goal.id = goalId ∧
      goal.status = goalStatus n.status

/-- The derivation of a blank text is coherent. -/
theorem coherent_ofBlank (fileKey : String) (now : Instant) :
    Coherent (ofBlank fileKey now) where
  node id n hget hid := by
    obtain ⟨m, hm, -⟩ := (Graph.gathers_rootOnly fileKey).child id n hget hid
    cases hm
  goal goalId goal hget := by cases hget
  status id n goalId hget hgoal := by
    by_cases hid : id = Graph.rootNodeId
    · obtain ⟨r, hr, -, -, hnone⟩ := (Graph.gathers_rootOnly fileKey).root
      subst hid
      cases hr.symm.trans hget
      rw [hnone] at hgoal
      cases hgoal
    · obtain ⟨m, hm, -⟩ := (Graph.gathers_rootOnly fileKey).child id n hget hid
      cases hm

/-- A node with a goal is below the root, and its goal id is that of its identity. -/
theorem obliges_of_goalId (h : Text.isBlankText c.sourceText = false) {id goalId : String}
    {n : GraphNode} (hget : (derive c now).graph.nodes.get? id = some n)
    (hgoal : n.goalId = some goalId) :
    ∃ i goal m, Obliges c i (some goal) m ∧ id = i.nodeId ∧ n = m.underRoot ∧
      goalId = i.goalId := by
  have hid : id ≠ Graph.rootNodeId := by
    rintro rfl
    obtain ⟨r, hr, -, -, hnone⟩ := (gathers_derive now h).root
    rw [hget] at hr
    cases hr
    rw [hnone] at hgoal
    cases hgoal
  obtain ⟨i, goal, m, hi, hid, rfl⟩ := obliges_of_get? h hget hid
  obtain ⟨g, rfl, hg⟩ := Option.map_eq_some_iff.mp (hi.fits.goalId.symm.trans hgoal)
  exact ⟨i, g, m, hi, hid, rfl, hg ▸ (hi.fits.goal g rfl).1⟩

/-- The derivation of a text that is not blank is coherent. -/
theorem coherent_derive (h : Text.isBlankText c.sourceText = false)
    (hlines : (Text.lines c.sourceText.toList).length < 2 ^ 32)
    (hdigests : Identity.Distinguished (identitiesOf c)) : Coherent (derive c now) where
  node id n hget hid := by
    rw [(gathers_derive now h).rootId] at hid ⊢
    obtain ⟨i, goal, m, hi, -, rfl⟩ := obliges_of_get? h hget hid
    refine ⟨rfl, hi.isSome_range hlines, ?_⟩
    change m.goalId.isSome = true ↔ m.kind ≠ .definition
    rw [hi.fits.goalId, Option.isSome_map, hi.fits.isSome_goal]
  goal goalId goal hget := by
    rw [goals_derive h] at hget
    obtain ⟨i, n, hi, rfl⟩ := obliges_of_get?_collectGoals hget
    obtain ⟨goal', m, hm, hnode⟩ := get?_of_obliges now h hdigests hi
    have hgoal' : goal'.isSome = true := by
      rw [hm.fits.isSome_goal, ← (hi.agree hm).1, ← hi.fits.isSome_goal]
      rfl
    obtain ⟨g, rfl⟩ := Option.isSome_iff_exists.mp hgoal'
    have hid : goal.id = i.goalId := (hi.fits.goal goal rfl).1
    refine ⟨i.nodeId, ⟨m.underRoot, hnode, ?_⟩, ?_⟩
    · change m.goalId = some goal.id
      rw [hm.fits.goalId, Option.map_some, (hm.fits.goal g rfl).1, hid]
    · rintro id' ⟨n', hget', hn'⟩
      obtain ⟨i', goal'', m', hi', rfl, -, hsame⟩ := obliges_of_goalId h hget' hn'
      have heq : i' = i := hdigests.eq ((mem_identitiesOf h).mpr ⟨_, _, hi'⟩)
        ((mem_identitiesOf h).mpr ⟨_, _, hi⟩)
        (Identity.shortHash_of_goalId (hsame.symm.trans hid))
      rw [heq]
  status id n goalId hget hgoal := by
    obtain ⟨i, goal, m, hi, -, rfl, rfl⟩ := obliges_of_goalId h hget hgoal
    have hid : goal.id = i.goalId := (hi.fits.goal goal rfl).1
    obtain ⟨kept, hkept⟩ := get?_collectGoals_of_obliges hi
    rw [hid] at hkept
    obtain ⟨i', m', hi', hkeptId⟩ := obliges_of_get?_collectGoals hkept
    have heq : i' = i := hdigests.eq ((mem_identitiesOf h).mpr ⟨_, _, hi'⟩)
      ((mem_identitiesOf h).mpr ⟨_, _, hi⟩)
      (Identity.shortHash_of_goalId ((hi'.fits.goal kept rfl).1.symm.trans hkeptId))
    subst heq
    refine ⟨kept, goals_derive h ▸ hkept, hkeptId, ?_⟩
    rw [(hi'.fits.goal kept rfl).2, (hi'.agree hi).2]
    rfl

-- ── How many nodes there are ──────────────────────────────────────────────────

/-- What an error outside of all blocks is recognised by. -/
def errorKey (e : Diagnostic) : UInt32 × String := (e.line, Text.normalizeStatement e.message)

/-- The identity of an error outside of all blocks. -/
def errorIdentity (key : UInt32 × String) : Identity := .diagnostic key.1.toNat key.2

/-- The line and the message of an error are told by its identity. -/
theorem errorIdentity_injective : Function.Injective errorIdentity := by
  intro a b h
  obtain ⟨hline, hmessage⟩ := Identity.diagnostic.inj h
  exact Prod.ext (UInt32.toNat_inj.mp hline) hmessage

/-- Blocks have different identities, and errors outside of them as many as they have keys. -/
theorem card_identitiesOf (h : Text.isBlankText c.sourceText = false) :
    (identitiesOf c).toFinset.card =
      (blocksOf c.sourceText).length + ((uncovered c).map errorKey).dedup.length := by
  have hblocks : ((blocksOf c.sourceText).map
      fun b => declarationIdentity b.declaration).Nodup := by
    refine List.Nodup.of_map Identity.line ?_
    rw [List.map_map]
    exact nodup_startLine_blocksOf c.sourceText
  have herrors : ((uncovered c).map diagnosticIdentity).toFinset =
      ((uncovered c).map errorKey).toFinset.image errorIdentity := by
    ext i
    simp only [List.mem_toFinset, Finset.mem_image, List.mem_map, exists_exists_and_eq_and]
    rfl
  have hdisjoint : Disjoint
      ((blocksOf c.sourceText).map fun b => declarationIdentity b.declaration).toFinset
      ((uncovered c).map diagnosticIdentity).toFinset := by
    rw [Finset.disjoint_left]
    intro i hblock herror
    obtain ⟨b, -, rfl⟩ := List.mem_map.mp (List.mem_toFinset.mp hblock)
    obtain ⟨e, -, he⟩ := List.mem_map.mp (List.mem_toFinset.mp herror)
    cases he
  rw [identitiesOf_of_not_blank h, List.toFinset_append, Finset.card_union_of_disjoint hdisjoint,
    List.toFinset_card_of_nodup hblocks, List.length_map, herrors,
    Finset.card_image_of_injective _ errorIdentity_injective, List.card_toFinset]

/-- The ids below the root are those of the identities of the pass. -/
theorem mem_keys_below (h : Text.isBlankText c.sourceText = false)
    (hdigests : Identity.Distinguished (identitiesOf c)) {id : String} :
    id ∈ ((derive c now).graph.nodes.erase Graph.rootNodeId).keys ↔
      ∃ i ∈ identitiesOf c, i.nodeId = id := by
  rw [Table.mem_keys, Table.contains_iff]
  constructor
  · rintro ⟨n, hget⟩
    have hid : id ≠ Graph.rootNodeId := by
      rintro rfl
      rw [Table.get?_erase_self] at hget
      cases hget
    rw [Table.get?_erase_ne _ hid.symm] at hget
    obtain ⟨i, goal, m, hi, rfl, -⟩ := obliges_of_get? h hget hid
    exact ⟨i, (mem_identitiesOf h).mpr ⟨_, _, hi⟩, rfl⟩
  · rintro ⟨i, hi, rfl⟩
    obtain ⟨goal, n, hi⟩ := (mem_identitiesOf h).mp hi
    obtain ⟨goal', m, -, hget⟩ := get?_of_obliges now h hdigests hi
    exact ⟨_, (Table.get?_erase_ne _ i.nodeId_ne_root.symm).trans hget⟩

/-- Below the root there is a node for each block and for each error outside the blocks. -/
theorem size_below (h : Text.isBlankText c.sourceText = false)
    (hdigests : Identity.Distinguished (identitiesOf c)) :
    ((derive c now).graph.nodes.erase Graph.rootNodeId).size =
      (blocksOf c.sourceText).length + ((uncovered c).map errorKey).dedup.length := by
  have hkeys : ((derive c now).graph.nodes.erase Graph.rootNodeId).keys.toFinset =
      (identitiesOf c).toFinset.image Identity.nodeId := by
    ext id
    rw [List.mem_toFinset, mem_keys_below h hdigests, Finset.mem_image]
    simp only [List.mem_toFinset]
  have hinj : Set.InjOn Identity.nodeId ↑(identitiesOf c).toFinset := by
    intro i hi j hj hij
    rw [Finset.mem_coe, List.mem_toFinset] at hi hj
    exact hdigests.eq hi hj (Identity.shortHash_of_nodeId hij)
  calc ((derive c now).graph.nodes.erase Graph.rootNodeId).size
      = ((derive c now).graph.nodes.erase Graph.rootNodeId).keys.length := by
        rw [Table.keys, List.length_map, Table.size]
    _ = ((derive c now).graph.nodes.erase Graph.rootNodeId).keys.toFinset.card :=
        (List.toFinset_card_of_nodup (Table.sorted _).nodup).symm
    _ = (identitiesOf c).toFinset.card := by rw [hkeys, Finset.card_image_of_injOn hinj]
    _ = _ := card_identitiesOf h

-- ── Derivations ───────────────────────────────────────────────────────────────

/-- A derivation passes the check of its graph and is committed as a whole. If digests do not
    collide, its goals and nodes match, and below the root it has one node for each block and
    one for each line and message of the errors outside of them. -/
theorem derive_coherent (c : SourceContext) (now : Instant)
    (hlines : (Text.lines c.sourceText.toList).length < 2 ^ 32)
    (hdigests : Identity.Distinguished (identitiesOf c)) :
    (derive c now).graph.validated? = some (derive c now).graph ∧
      (∀ fileKey, patches fileKey (derive c now) =
        [.set (StatePath.goals fileKey) (.ofTable Goal.toJson (derive c now).goals),
          .set (StatePath.graph fileKey) (derive c now).graph.toJson,
          .set (StatePath.lastSynced fileKey) now.toJson]) ∧
      Coherent (derive c now) ∧
      (Text.isBlankText c.sourceText = false →
        ((derive c now).graph.nodes.erase (derive c now).graph.rootId).size =
          (blocksOf c.sourceText).length +
            ((uncovered c).map fun e => (e.line, Text.normalizeStatement e.message)).dedup.length) ∧
      (Text.isBlankText c.sourceText = true →
        (derive c now).graph.nodes.keys = [(derive c now).graph.rootId] ∧
          (derive c now).goals.keys = []) := by
  have hconsistent : (derive c now).graph.isConsistent = true :=
    Graph.isConsistent_iff.mpr (consistent_derive c now)
  refine ⟨if_pos hconsistent, fun fileKey => ?_, ?_, fun h => ?_, fun h => ?_⟩
  · rw [patches, if_pos hconsistent, lastSyncedPatches, derivedAt_derive]
    rfl
  · cases h : Text.isBlankText c.sourceText with
    | true =>
      rw [derive_of_blank h]
      exact coherent_ofBlank c.fileKey now
    | false => exact coherent_derive h hlines hdigests
  · rw [(gathers_derive now h).rootId]
    exact size_below h hdigests
  · rw [derive_of_blank h]
    exact ⟨rfl, rfl⟩

-- ── A context with errors inside and outside of blocks ────────────────────────

/-- A theorem with an error, a definition, and an error beyond them that is reported twice in
    different spacing. -/
def noisyContext : SourceContext where
  fileKey := "Main.lean"
  sourceText := "theorem a : True := by sorry\ndef d : Nat := 3\n"
  diagnostics := [⟨"type mismatch", .error, ⟨⟨1, 5⟩, ⟨1, 9⟩⟩, none⟩,
    ⟨"x  y", .error, ⟨⟨9, 1⟩, ⟨9, 1⟩⟩, none⟩, ⟨"x y", .error, ⟨⟨9, 1⟩, ⟨9, 4⟩⟩, none⟩]

/-- The diagnostics of this context are errors, and in order. -/
theorem errorsOf_noisyContext : errorsOf noisyContext = noisyContext.diagnostics := by
  have hsorted : sortDiagnostics noisyContext.diagnostics = noisyContext.diagnostics :=
    List.mergeSort_of_pairwise (by decide)
  rw [errorsOf, hsorted]
  rfl

theorem identitiesOf_noisyContext : identitiesOf noisyContext =
    [.declaration 1 "True", .declaration 2 "definition d", .diagnostic 9 "x y",
      .diagnostic 9 "x y"] := by
  rw [identitiesOf_of_not_blank (by decide +kernel), uncovered, errorsOf_noisyContext]
  decide +kernel

/-- The three digests differ. -/
theorem distinguished_noisyContext : Identity.Distinguished (identitiesOf noisyContext) := by
  have htheorem : (Identity.declaration 1 "True").shortHash = "44f8b3de5f39448f" := by
    rw [Identity.shortHash_eq]
    decide +kernel
  have hdefinition : (Identity.declaration 2 "definition d").shortHash = "55daef968c8d5bf4" := by
    rw [Identity.shortHash_eq]
    decide +kernel
  have herror : (Identity.diagnostic 9 "x y").shortHash = "a94df3888423ba89" := by
    rw [Identity.shortHash_eq]
    decide +kernel
  have hdedup : (identitiesOf noisyContext).dedup =
      [.declaration 1 "True", .declaration 2 "definition d", .diagnostic 9 "x y"] := by
    rw [identitiesOf_noisyContext]
    decide +kernel
  refine Identity.distinguished_of_nodup ?_
  rw [hdedup, List.map_cons, List.map_cons, List.map_singleton, htheorem, hdefinition, herror]
  decide

theorem length_lines_noisyContext :
    (Text.lines noisyContext.sourceText.toList).length < 2 ^ 32 := by
  decide +kernel

/-- Of the error that is reported twice one node is kept. -/
theorem derive_coherent_noisyContext :
    (Text.lines noisyContext.sourceText.toList).length < 2 ^ 32 ∧
      Identity.Distinguished (identitiesOf noisyContext) ∧
      ∀ now, Coherent (derive noisyContext now) ∧
        ((derive noisyContext now).graph.nodes.erase
          (derive noisyContext now).graph.rootId).size = 3 := by
  refine ⟨length_lines_noisyContext, distinguished_noisyContext, fun now => ?_⟩
  obtain ⟨-, -, hcoherent, hsize, -⟩ := derive_coherent noisyContext now
    length_lines_noisyContext distinguished_noisyContext
  refine ⟨hcoherent, (hsize (by decide +kernel)).trans ?_⟩
  rw [uncovered, errorsOf_noisyContext]
  decide +kernel

end ProofLedger.Derivation

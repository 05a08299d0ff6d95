import ProofLedger.Proofs.Ledger.History

/-!
# Recording appends

The patches of an attempt write one attempt of the tree, under the id that follows from the number
of attempts so far, and leave all others as they are (`storedAttempt?_record`). That number is read
from the typed view of the tree, so the id is new if the histories can be read. The view of a tree
in which any history cannot be read has no histories at all: then the attempt is written under the
first id, also where one is stored already (`not_keepsAttempts_besideUnreadable`).
-/

namespace ProofLedger

open Json (alterAt)

/-- Whether the attempts of a history are numbered from one to their total. -/
def NodeHistory.Numbered (nodeId : String) (h : NodeHistory) : Prop :=
  h.attempts.keys.Perm ((List.range' 1 h.totalAttempts.toNat).map (attemptId nodeId))

instance (nodeId : String) (h : NodeHistory) : Decidable (h.Numbered nodeId) :=
  inferInstanceAs (Decidable (List.Perm _ _))

/-- Every id of a numbered history is that of a number up to the count. -/
theorem NodeHistory.Numbered.number {nodeId id : String} {h : NodeHistory}
    (hn : h.Numbered nodeId) {r : AttemptRecord} (hr : h.attempts.get? id = some r) :
    ∃ k, 1 ≤ k ∧ k ≤ h.totalAttempts.toNat ∧ id = attemptId nodeId k := by
  have hkey : id ∈ h.attempts.keys := List.mem_map.mpr ⟨(id, r), Table.mem_entries.mpr hr, rfl⟩
  obtain ⟨k, hk, rfl⟩ := List.mem_map.mp (hn.mem_iff.mp hkey)
  rw [List.mem_range'_1] at hk
  exact ⟨k, hk.1, by omega, rfl⟩

/-- The next number is none of those so far, not even where it starts again from zero. -/
theorem NodeHistory.next_ne {h : NodeHistory} {k : Nat} (hpos : 1 ≤ k)
    (hk : k ≤ h.totalAttempts.toNat) : k ≠ (h.totalAttempts + 1).toNat := by
  have hlt := h.totalAttempts.toNat_lt_size
  rw [UInt64.toNat_add]
  show k ≠ (h.totalAttempts.toNat + 1) % UInt64.size
  rcases Nat.lt_or_eq_of_le hlt with hroom | hfull
  · rw [Nat.mod_eq_of_lt hroom]
    omega
  · rw [← hfull, Nat.mod_self]
    omega

namespace Ledger

-- ── Attempts of a tree ────────────────────────────────────────────────────────

/-- What a tree stores as an attempt on a node, readable or not. -/
def storedAttempt? (tree : Json) (fileKey nodeId id : String) : Option Json :=
  tree.getAt? (StatePath.attempt fileKey nodeId id)

/-- The history that a tree stores for a node, read by itself; the empty one if there is none. -/
def storedHistory? (tree : Json) (fileKey nodeId : String) : Option NodeHistory :=
  match tree.getAt? (StatePath.nodeHistory fileKey nodeId) with
  | none => some {}
  | some v => NodeHistory.ofJson? v

/-- Whether every attempt of one tree is in another one, as it was. -/
def KeepsAttempts (before after : Json) : Prop :=
  ∀ fileKey nodeId id v, storedAttempt? before fileKey nodeId id = some v →
    storedAttempt? after fileKey nodeId id = some v

theorem getAt?_singleton (key : String) (v : Json) : v.getAt? [key] = v.get? key := by
  show (v.get? key).bind (Json.getAt? []) = v.get? key
  cases v.get? key <;> rfl

/-- An attempt is stored in the history of its node in that of its file. -/
theorem storedAttempt?_eq (tree : Json) (fileKey nodeId id : String) :
    storedAttempt? tree fileKey nodeId id =
      ((((tree.getD "history").getD fileKey).getD nodeId).getD "attempts").get? id := by
  rw [storedAttempt?, StatePath.attempt, Json.getAt?_cons_cons, Json.getAt?_cons_cons,
    Json.getAt?_cons_cons, Json.getAt?_cons_cons, getAt?_singleton]

theorem getAt?_nodeHistory (tree : Json) (fileKey nodeId : String) :
    tree.getAt? (StatePath.nodeHistory fileKey nodeId) =
      ((tree.getD "history").getD fileKey).get? nodeId := by
  rw [StatePath.nodeHistory, Json.getAt?_cons_cons, Json.getAt?_cons_cons, getAt?_singleton]

-- ── What the patches leave alone ──────────────────────────────────────────────

/-- A changed history has one more attempt and keeps the others. -/
theorem get?_getD_stored (h : Option NodeHistory) (r : AttemptRecord) (v : Json) (id : String) :
    ((stored h r v).getD "attempts").get? id =
      if id = r.id then some r.toJson else (v.getD "attempts").get? id := by
  rw [Json.getD, get?_attempts_stored, Option.getD_some]
  by_cases hid : id = r.id
  · rw [if_pos hid, hid, Json.get?_alterAt_self]
    rfl
  · rw [if_neg hid, Json.get?_alterAt_ne _ (Ne.symm hid)]

/-- The patches of a record write the attempt of its id and leave the others alone. -/
theorem storedAttempt?_patches (h : Option NodeHistory) (r : AttemptRecord) (tree : Json)
    (fileKey nodeId id : String) :
    storedAttempt? (Patch.applyAll (patches h r) tree) fileKey nodeId id =
      if fileKey = r.fileKey ∧ nodeId = r.nodeId ∧ id = r.id then some r.toJson
      else storedAttempt? tree fileKey nodeId id := by
  rw [applyAll_patches, StatePath.nodeHistory, storedAttempt?_eq, storedAttempt?_eq,
    Json.getD_alterAt_self]
  by_cases hfile : fileKey = r.fileKey
  · subst hfile
    rw [Json.getD_alterAt_self]
    by_cases hnode : nodeId = r.nodeId
    · subst hnode
      rw [Json.getD_alterAt_self]
      show ((stored h r _).getD "attempts").get? id = _
      rw [get?_getD_stored]
      by_cases hid : id = r.id
      · rw [if_pos hid, if_pos ⟨rfl, rfl, hid⟩]
      · rw [if_neg hid, if_neg fun hall => hid hall.2.2]
    · rw [Json.getD_alterAt_ne _ (Ne.symm hnode), if_neg fun hall => hnode hall.2.1]
  · rw [Json.getD_alterAt_ne _ (Ne.symm hfile), if_neg fun hall => hfile hall.1]

/-- The patch of a pattern leaves the stored attempts alone. -/
theorem storedAttempt?_patternPatch (p : PatternEntry) (tree : Json)
    (fileKey nodeId id : String) :
    storedAttempt? ((patternPatch p).apply tree) fileKey nodeId id =
      storedAttempt? tree fileKey nodeId id := by
  show storedAttempt? (alterAt (fun _ => p.toJson) ["patterns", p.key] tree) _ _ _ = _
  rw [storedAttempt?_eq, storedAttempt?_eq, Json.getD_alterAt_ne _ (by decide)]

/-- Recording an attempt leaves alone every attempt but that of the next id, whatever the state
    that the number is taken from. -/
theorem storedAttempt?_record (s : ProofState) (a : AttemptInput) (now : Instant) (tree : Json)
    {fileKey nodeId id : String}
    (hother : ¬(fileKey = a.fileKey ∧ nodeId = a.nodeId ∧
      id = attemptId a.nodeId (attemptsSoFar (s.nodeHistory? a.fileKey a.nodeId) + 1).toNat)) :
    storedAttempt? (Patch.applyAll (record s a now) tree) fileKey nodeId id =
      storedAttempt? tree fileKey nodeId id := by
  rw [record]
  cases a.resolvedKey? with
  | none => rfl
  | some tacticKey =>
    dsimp only
    rw [Patch.applyAll_append]
    show storedAttempt? ((patternPatch _).apply _) fileKey nodeId id = _
    rw [storedAttempt?_patternPatch, storedAttempt?_patches]
    exact if_neg hother

-- ── The next id ───────────────────────────────────────────────────────────────

variable {tree : Json} {fileKey nodeId id : String} {h : NodeHistory} {v : Json}

/-- A stored attempt is one of the attempts that the history of its node is read with. -/
theorem exists_attempt_of_stored (hwf : tree.WellFormed)
    (hown : storedHistory? tree fileKey nodeId = some h)
    (hstored : storedAttempt? tree fileKey nodeId id = some v) :
    ∃ r, h.attempts.get? id = some r := by
  rw [storedAttempt?_eq] at hstored
  rw [storedHistory?, getAt?_nodeHistory] at hown
  have hfileWf := (hwf.getD "history").getD fileKey
  cases hnode : ((tree.getD "history").getD fileKey).get? nodeId with
  | none =>
    have hnull : ((tree.getD "history").getD fileKey).getD nodeId = .null := by
      rw [Json.getD, hnode]
      rfl
    rw [hnull] at hstored
    cases hstored
  | some w =>
    have hw : ((tree.getD "history").getD fileKey).getD nodeId = w := by
      rw [Json.getD, hnode]
      rfl
    rw [hnode] at hown
    rw [hw] at hstored
    have hobject : w = .object w.fields := by
      cases w with
      | object fs => rfl
      | _ => cases hstored
    have htable := Json.holdsTable_of_defaulted (hfileWf.get? hnode)
      ((NodeHistory.ofJson?_eq_some_iff hobject).mp hown).1
    obtain ⟨r, -, hr⟩ := htable.read_of_get? hstored
    exact ⟨r, hr⟩

/-- Histories that can be read are read as they are stored. -/
theorem nodeHistory?_of_readable (hwf : tree.WellFormed)
    (hreadable : SectionReadable tree "history" (Json.asTableOf? NodeHistory.ofJson?))
    (hown : storedHistory? tree fileKey nodeId = some h) :
    ((ProofState.ofJson tree).nodeHistory? fileKey nodeId).getD {} = h := by
  have hfile := (hreadable.holdsTable hwf).nested (hwf.getD "history") fileKey
  rw [storedHistory?, getAt?_nodeHistory] at hown
  rw [nodeHistory?_eq]
  show ((((ProofState.readSection tree "history" _).get? fileKey).getD Table.empty).get?
    nodeId).getD {} = h
  cases hnode : ((tree.getD "history").getD fileKey).get? nodeId with
  | none =>
    rw [hnode] at hown
    rw [hfile.get?_eq_none hnode]
    exact Option.some.inj hown
  | some w =>
    rw [hnode] at hown
    obtain ⟨prior, hprior, ht⟩ := hfile.read_of_get? hnode
    rw [ht]
    exact Option.some.inj (hprior.symm.trans hown)

/-- Histories that cannot be read count as none. -/
theorem nodeHistory?_of_not_readable
    (hunreadable : ¬SectionReadable tree "history" (Json.asTableOf? NodeHistory.ofJson?)) :
    (ProofState.ofJson tree).nodeHistory? fileKey nodeId = none := by
  have hnone : Json.asTableOf? (Json.asTableOf? NodeHistory.ofJson?) (tree.getD "history") =
      none := by
    by_contra hsome
    exact hunreadable (Or.inr (Option.isSome_iff_ne_none.mpr hsome))
  have hempty : (ProofState.ofJson tree).history = Table.empty := by
    show ProofState.readSection tree "history" _ = _
    rw [readSection_eq, hnone]
    rfl
  rw [nodeHistory?_eq, hempty]
  rfl

/-- Whatever the rest of a tree holds, recording an attempt on a node with numbered attempts keeps
    every attempt of the tree, or else the histories cannot be read and the attempt that is lost
    is the first one of the node. -/
theorem attempt_kept_or_first (tree : Json) (a : AttemptInput) (now : Instant) (h : NodeHistory)
    (hwf : tree.WellFormed) (hown : storedHistory? tree a.fileKey a.nodeId = some h)
    (hnumbered : h.Numbered a.nodeId) (fileKey nodeId id : String) (v : Json)
    (hstored : storedAttempt? tree fileKey nodeId id = some v) :
    storedAttempt? (Patch.applyAll (record (ProofState.ofJson tree) a now) tree) fileKey nodeId
        id = some v ∨
      ¬SectionReadable tree "history" (Json.asTableOf? NodeHistory.ofJson?) ∧
        fileKey = a.fileKey ∧ nodeId = a.nodeId ∧ id = attemptId a.nodeId 1 := by
  by_cases hplace : fileKey = a.fileKey ∧ nodeId = a.nodeId ∧ id = attemptId a.nodeId
      (attemptsSoFar ((ProofState.ofJson tree).nodeHistory? a.fileKey a.nodeId) + 1).toNat
  · obtain ⟨rfl, rfl, hid⟩ := hplace
    by_cases hreadable : SectionReadable tree "history" (Json.asTableOf? NodeHistory.ofJson?)
    · exfalso
      rw [totalAttempts_getD, nodeHistory?_of_readable hwf hreadable hown] at hid
      obtain ⟨r, hr⟩ := exists_attempt_of_stored hwf hown hstored
      obtain ⟨k, hpos, hk, hnumber⟩ := hnumbered.number hr
      have hsame := attemptId_injective _ (hid.symm.trans hnumber)
      exact NodeHistory.next_ne hpos hk hsame.symm
    · rw [nodeHistory?_of_not_readable hreadable] at hid
      exact Or.inr ⟨hreadable, rfl, rfl, hid⟩
  · rw [storedAttempt?_record _ _ _ _ hplace]
    exact Or.inl hstored

/-- A history with one attempt, a success. -/
def provedOnce : Json :=
  .ofFields
    [("attempts", .ofFields
      [("n#000001", .ofFields
        [("id", .string "n#000001"), ("fileKey", .string "Main.lean"), ("nodeId", .string "n"),
          ("timestamp", .string "2024-01-01T00:00:00Z"), ("tactic", .string "ring"),
          ("tacticKey", .string "ring"), ("result", .string "success")])]),
      ("totalAttempts", .int 1)]

/-- A tree with that history, with something beside it, and with patterns. -/
def treeBeside (neighbour patterns : Json) : Json :=
  .ofFields
    [("history", .ofFields [("Main.lean", .ofFields [("m", neighbour), ("n", provedOnce)])]),
      ("patterns", patterns)]

/-- A failure on the node. -/
def failure : AttemptInput :=
  { fileKey := "Main.lean", nodeId := "n", tactic := "simp", result := .error }

private theorem wellFormed_treeBeside {neighbour patterns : Json} (hn : neighbour.WellFormed)
    (hp : patterns.WellFormed) : (treeBeside neighbour patterns).WellFormed := by
  have hattempt : provedOnce.WellFormed := .ofFields (by
    simp [Json.WellFormed.ofFields, Json.WellFormed.string, Json.WellFormed.int])
  exact .ofFields (by simp [Json.WellFormed.ofFields, hn, hp, hattempt])

/-- Patterns that cannot be read do no harm. -/
theorem attempt_kept_or_first_treeBeside :
    let tree := treeBeside (.ofFields []) (.int 5)
    tree.WellFormed ∧ (∃ h, storedHistory? tree "Main.lean" "n" = some h ∧ h.Numbered "n") ∧
      ∃ v, storedAttempt? tree "Main.lean" "n" "n#000001" = some v ∧
        storedAttempt? (Patch.applyAll (record (ProofState.ofJson tree) failure ⟨1709294400, 0⟩)
          tree) "Main.lean" "n" "n#000001" = some v := by
  intro tree
  have hwf : tree.WellFormed := wellFormed_treeBeside (.ofFields (by simp)) (.int 5)
  obtain ⟨h, hown, hnumbered⟩ : ∃ h ∈ storedHistory? tree "Main.lean" "n", h.Numbered "n" := by
    decide +kernel
  obtain ⟨v, hv⟩ := Option.isSome_iff_exists.mp
    (show (storedAttempt? tree "Main.lean" "n" "n#000001").isSome = true by decide +kernel)
  refine ⟨hwf, ⟨h, hown, hnumbered⟩, v, hv, ?_⟩
  rcases attempt_kept_or_first tree failure ⟨1709294400, 0⟩ h hwf hown hnumbered "Main.lean" "n"
    "n#000001" v hv with hkept | ⟨hunreadable, -⟩
  · exact hkept
  · exact absurd (Or.inr (by decide +kernel)) hunreadable

/-- The history of another node that cannot be read does: the failure takes the place of the
    success, although the history of its own node can be read. -/
theorem not_keepsAttempts_besideUnreadable :
    let tree := treeBeside (.int 5) (.ofFields [])
    tree.WellFormed ∧ (∃ h, storedHistory? tree "Main.lean" "n" = some h ∧ h.Numbered "n") ∧
      ¬KeepsAttempts tree
        (Patch.applyAll (record (ProofState.ofJson tree) failure ⟨1709294400, 0⟩) tree) := by
  intro tree
  obtain ⟨h, hown, hnumbered⟩ : ∃ h ∈ storedHistory? tree "Main.lean" "n", h.Numbered "n" := by
    decide +kernel
  refine ⟨wellFormed_treeBeside (.int 5) (.ofFields (by simp)), ⟨h, hown, hnumbered⟩, ?_⟩
  intro hkeeps
  obtain ⟨v, hv⟩ := Option.isSome_iff_exists.mp
    (show (storedAttempt? tree "Main.lean" "n" "n#000001").isSome = true by decide +kernel)
  have hkept := (hkeeps "Main.lean" "n" "n#000001" v hv).trans hv.symm
  have htactic := congrArg (fun v => (v.bind (·.get? "tactic")).bind Json.asString?) hkept
  exact absurd htactic (by decide +kernel)

end Ledger

end ProofLedger

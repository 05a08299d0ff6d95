import ProofLedger.Proofs.State.Operation

/-!
# Runs of operations

No operation stores a file or a history as anything but an object. So over a tree that has only
objects there, such as the empty one, a run of operations is the run of their changes.
-/

namespace ProofLedger

/-- Whether all files and histories of a tree are stored as objects. -/
structure StoresObjects (tree : Json) : Prop where
  files : ∀ fileKey, Json.ObjectAt ["files", fileKey] tree
  history : ∀ fileKey nodeId, Json.ObjectAt (StatePath.nodeHistory fileKey nodeId) tree

namespace StoresObjects

variable {tree tree' : Json} {change : Json → Json}

/-- Only the two sections matter. -/
theorem of_getD_eq (h : StoresObjects tree) (hfiles : tree'.getD "files" = tree.getD "files")
    (hhistory : tree'.getD "history" = tree.getD "history") : StoresObjects tree' where
  files fileKey := by
    have hobject := h.files fileKey
    rw [Json.objectAt_cons_cons] at hobject ⊢
    rwa [hfiles]
  history fileKey nodeId := by
    have hobject := h.history fileKey nodeId
    rw [StatePath.nodeHistory, Json.objectAt_cons_cons] at hobject ⊢
    rwa [hhistory]

/-- A change that is no shallower than a history keeps the objects, if it makes an object of a
    history that it replaces. -/
theorem alterAt (h : StoresObjects tree) {p : Path} (hlength : 3 ≤ p.length)
    (hchange : ∀ fileKey nodeId, StatePath.nodeHistory fileKey nodeId = p →
      ∀ w, (change w).isObject = true) : StoresObjects (Json.alterAt change p tree) where
  files fileKey := by
    refine (h.files fileKey).alterAt (Nat.le_of_succ_le hlength) fun hp => ?_
    rw [← hp] at hlength
    exact absurd hlength (Nat.not_succ_le_self 2)
  history fileKey nodeId := (h.history fileKey nodeId).alterAt hlength (hchange fileKey nodeId)

end StoresObjects

namespace Patch

/-- Whether a patch stores no file and no history as anything but an object. -/
def KeepsObjects (p : Patch) : Prop := ∀ tree, StoresObjects tree → StoresObjects (p.apply tree)

theorem keepsObjects_merge_history (fileKey nodeId : String) (fields : List (String × Json)) :
    (merge (StatePath.nodeHistory fileKey nodeId) (.object fields)).KeepsObjects := by
  refine fun tree h => h.alterAt (Nat.le_refl 3) fun _ _ _ w => ?_
  cases w <;> rfl

/-- Setting an attempt keeps what is stored as objects. -/
theorem keepsObjects_set_attempt (fileKey nodeId attemptId : String) (v : Json) :
    (set (StatePath.attempt fileKey nodeId attemptId) v).KeepsObjects := by
  refine fun tree h => h.alterAt (Nat.le_add_left 3 2) fun _ _ hp => ?_
  cases hp

theorem keepsObjects_set_file (fileKey field : String) (v : Json) :
    (set ["files", fileKey, field] v).KeepsObjects := by
  refine fun tree h => h.alterAt (Nat.le_refl 3) fun _ _ hp => ?_
  exact absurd (List.cons.inj hp).1 (by decide)

/-- What is stored in any other section touches neither files nor histories. -/
theorem keepsObjects_set_other {name : String} (hfiles : name ≠ "files")
    (hhistory : name ≠ "history") (key : String) (v : Json) :
    (set [name, key] v).KeepsObjects := by
  refine fun tree h => h.of_getD_eq ?_ ?_
  · exact Json.getD_alterAt_ne _ hfiles [key] tree
  · exact Json.getD_alterAt_ne _ hhistory [key] tree

theorem keepsObjects_unset_slot (key : String) :
    (unset (StatePath.suggestionSlot key)).KeepsObjects := by
  refine fun tree h => h.of_getD_eq ?_ ?_
  · exact Json.getD_removeAt_ne (by decide) key [] tree
  · exact Json.getD_removeAt_ne (by decide) key [] tree

/-- Patches that keep objects do so one after the other. -/
theorem storesObjects_applyAll {patches : List Patch} (hp : ∀ p ∈ patches, p.KeepsObjects)
    {tree : Json} (h : StoresObjects tree) : StoresObjects (applyAll patches tree) := by
  induction patches generalizing tree with
  | nil => exact h
  | cons p rest ih =>
    exact ih (fun q hq => hp q (List.mem_cons_of_mem p hq)) (hp p List.mem_cons_self tree h)

end Patch

-- ── Operations ────────────────────────────────────────────────────────────────

/-- Recording keeps objects. -/
theorem Ledger.keepsObjects_record (s : ProofState) (a : AttemptInput) (now : Instant) :
    ∀ p ∈ record s a now, p.KeepsObjects := by
  unfold record
  cases a.resolvedKey? with
  | none => exact List.forall_mem_nil _
  | some tacticKey =>
    dsimp only
    generalize nextRecord (s.nodeHistory? a.fileKey a.nodeId) a tacticKey now = r
    intro p hp
    simp only [patches, List.cons_append, List.nil_append, List.mem_cons, List.not_mem_nil,
      or_false] at hp
    obtain rfl | rfl | rfl := hp
    · exact Patch.keepsObjects_set_attempt r.fileKey r.nodeId r.id r.toJson
    · exact Patch.keepsObjects_merge_history r.fileKey r.nodeId _
    · exact Patch.keepsObjects_set_other (by decide) (by decide) _ _

/-- A refresh of a slot keeps objects. -/
theorem Recommendation.keepsObjects_suggest (settings : RankingSettings) (s : ProofState)
    (fileKey nodeId : String) (now : Instant) :
    ∀ p ∈ suggest settings s fileKey nodeId now, p.KeepsObjects := by
  unfold suggest
  cases hr : refreshSlot settings s fileKey nodeId now with
  | none => exact List.forall_mem_nil _
  | some r =>
    obtain ⟨_, _, -, -, hpatches⟩ := refreshSlot_eq_some hr
    rw [Option.map_some, Option.getD_some, hpatches, List.forall_mem_cons, List.forall_mem_map]
    exact ⟨Patch.keepsObjects_set_other (by decide) (by decide) _ _,
      fun key _ => Patch.keepsObjects_unset_slot key⟩

theorem Derivation.keepsObjects_lastSyncedPatches (fileKey : String) (now : Instant) :
    ∀ p ∈ lastSyncedPatches fileKey now, p.KeepsObjects := by
  simp [lastSyncedPatches, StatePath.lastSynced, Patch.keepsObjects_set_file]

/-- The commit of a derivation keeps objects. -/
theorem Derivation.keepsObjects_patches (fileKey : String) (d : Derivation) :
    ∀ p ∈ patches fileKey d, p.KeepsObjects := by
  unfold patches
  split
  · simp [lastSyncedPatches, StatePath.goals, StatePath.graph, StatePath.lastSynced,
      Patch.keepsObjects_set_file]
  · exact keepsObjects_lastSyncedPatches fileKey d.derivedAt

namespace Operation

/-- Every operation keeps what is stored as objects. -/
theorem keepsObjects_patches (settings : RankingSettings) (s : ProofState) (op : Operation) :
    ∀ p ∈ op.patches settings s, p.KeepsObjects := by
  cases op with
  | record a now => exact Ledger.keepsObjects_record s a now
  | suggest fileKey nodeId now =>
    exact Recommendation.keepsObjects_suggest settings s fileKey nodeId now
  | commit fileKey d => exact Derivation.keepsObjects_patches fileKey d
  | touch fileKey now => exact Derivation.keepsObjects_lastSyncedPatches fileKey now

/-- Where objects are stored every operation finds one at its home. -/
theorem homeIsObject {tree : Json} (h : StoresObjects tree) (op : Operation) :
    op.HomeIsObject tree := by
  intro path hpath
  cases op with
  | record a now =>
    obtain ⟨_, -, rfl⟩ := Option.map_eq_some_iff.mp hpath
    exact h.history a.fileKey a.nodeId
  | suggest fileKey nodeId now => cases hpath
  | commit fileKey d =>
    change (if d.graph.isConsistent then none else some ["files", fileKey]) = some path at hpath
    split at hpath
    · cases hpath
    · cases hpath
      exact h.files fileKey
  | touch fileKey now =>
    cases hpath
    exact h.files fileKey

-- ── Runs ──────────────────────────────────────────────────────────────────────

/-- The tree after operations one after the other. -/
def runAll (settings : RankingSettings) (tree : Json) (ops : List Operation) : Json :=
  ops.foldl (run settings) tree

/-- What operations one after the other mean for a typed state. -/
def changeAll (settings : RankingSettings) (s : ProofState) (ops : List Operation) : ProofState :=
  ops.foldl (fun s op => op.change settings s) s

/-- Whether every operation is given a real time. Nothing is said of their order: clocks may go
    backwards. -/
def AllReal (ops : List Operation) : Prop := ∀ op ∈ ops, op.time.IsReal

instance (ops : List Operation) : Decidable (AllReal ops) :=
  inferInstanceAs (Decidable (∀ op ∈ ops, op.time.IsReal))

/-- A run of operations represents the run of their changes: one operation after the other, the
    tree stays the one that stands for the state. -/
theorem represents_changeAll (settings : RankingSettings) {tree : Json} {s : ProofState}
    (h : Represents tree s) (hobjects : StoresObjects tree) {ops : List Operation}
    (hreal : AllReal ops) :
    Represents (runAll settings tree ops) (changeAll settings s ops) ∧
      StoresObjects (runAll settings tree ops) := by
  induction ops generalizing tree s with
  | nil => exact ⟨h, hobjects⟩
  | cons op rest ih =>
    have hstate : ProofState.ofJson tree = s := h.isStateTree.2
    have hstep : Represents (op.run settings tree) (op.change settings s) := by
      unfold run
      rw [hstate]
      exact represents_step settings h (hreal op List.mem_cons_self) (homeIsObject hobjects op)
    have hobjects' : StoresObjects (op.run settings tree) :=
      Patch.storesObjects_applyAll (keepsObjects_patches settings _ op) hobjects
    exact ih hstep hobjects' fun later hlater => hreal later (List.mem_cons_of_mem op hlater)

-- ── Empty trees ───────────────────────────────────────────────────────────────

/-- Whether a tree is empty: the object without fields, or `null`, which is what a store without
    a file starts from. -/
def IsEmptyTree (tree : Json) : Prop := tree = Json.emptyObject ∨ tree = .null

/-- An empty tree represents the empty state, and has no file and no history. -/
theorem IsEmptyTree.represents {tree : Json} (h : IsEmptyTree tree) :
    Represents tree {} ∧ StoresObjects tree := by
  have hget : ∀ key, tree.get? key = none := by
    intro key
    rcases h with rfl | rfl <;> rfl
  have hgetD : ∀ key, tree.getD key = .null := by
    intro key
    rw [Json.getD, hget]
    rfl
  have hwf : tree.WellFormed := by
    rcases h with rfl | rfl
    · exact .object Keyed.sorted_nil (List.forall_mem_nil _)
    · exact .null
  have hempty : ∀ {α : Type} (read : Json → Option α) (name : String),
      Json.HoldsTable read (tree.getD name) Table.empty := by
    intro α read name
    rw [hgetD]
    exact Json.holdsTable_null.mpr rfl
  have hnowhere : ∀ (key : String) (rest : Path), Json.ObjectAt (key :: rest) tree := by
    intro key rest w hw
    change (tree.get? key).bind _ = some w at hw
    rw [hget] at hw
    cases hw
  have hkeyed : ({} : ProofState).KeyedPatterns := by
    intro key p hp
    cases hp
  refine ⟨⟨hwf, ⟨hempty _ _, hempty _ _, hempty _ _, hempty _ _⟩, hkeyed⟩, ?_⟩
  exact ⟨fun _ => hnowhere _ _, fun _ _ => hnowhere _ _⟩

/-- What is read after a run over an empty tree is what its operations mean, one after the other,
    for the empty state. -/
theorem ofJson_runAll {settings : RankingSettings} {tree : Json} (hempty : IsEmptyTree tree)
    {ops : List Operation} (hreal : AllReal ops) :
    ProofState.ofJson (runAll settings tree ops) = changeAll settings {} ops := by
  obtain ⟨hrep, hobjects⟩ := hempty.represents
  exact (represents_changeAll settings hrep hobjects hreal).1.isStateTree.2

/-- The beginning of a run with real times has real times. -/
theorem AllReal.of_append {prior later : List Operation} (h : AllReal (prior ++ later)) :
    AllReal prior :=
  fun op hop => h op (List.mem_append_left later hop)

/-- The last operation is run on what the others leave. -/
theorem runAll_concat (settings : RankingSettings) (tree : Json) (prior : List Operation)
    (op : Operation) :
    runAll settings tree (prior ++ [op]) = op.run settings (runAll settings tree prior) :=
  List.foldl_append

theorem changeAll_concat (settings : RankingSettings) (s : ProofState) (ops : List Operation)
    (op : Operation) :
    changeAll settings s (ops ++ [op]) = op.change settings (changeAll settings s ops) :=
  List.foldl_append

end Operation

end ProofLedger

import ProofLedger.Proofs.State.Run

/-!
# Sections keep to themselves

Every operation reads the whole tree, but it writes to few sections (`writes`), and what it writes
to them depends on little. A commit depends on nothing that is stored. An attempt depends on the
history and the patterns only, but for the signature that it leaves in its pattern, which may be
that of a stored goal. So a section is what the operations that write to it make of it, whatever
happens to the others, and even if files are synced between the reading and the writing of one
operation (`Turn`).
-/

namespace ProofLedger

-- ── Keyed values ──────────────────────────────────────────────────────────────

namespace Keyed

variable {α β γ : Type}

/-- Values may be changed before or after an insertion. -/
theorem mapValues_insert (f : α → β) (key : String) (v : α) (entries : List (String × α)) :
    mapValues f (insert key v entries) = insert key (f v) (mapValues f entries) := by
  induction entries with
  | nil => rfl
  | cons head rest ih =>
    obtain ⟨k, w⟩ := head
    show mapValues f (if key < k then _ else if k = key then _ else _) =
      if key < k then _ else if k = key then _ else _
    by_cases hlt : key < k
    · rw [if_pos hlt, if_pos hlt]
      rfl
    · rw [if_neg hlt, if_neg hlt]
      by_cases heq : k = key
      · rw [if_pos heq, if_pos heq]
        rfl
      · rw [if_neg heq, if_neg heq]
        exact congrArg ((k, f w) :: ·) ih

/-- Values may be changed before or after a table is made of them. -/
theorem mapValues_ofList (f : α → β) (entries : List (String × α)) :
    mapValues f (ofList entries) = ofList (mapValues f entries) := by
  have hfold : ∀ acc : List (String × α),
      mapValues f (entries.foldl (fun acc e => insert e.1 e.2 acc) acc) =
        (mapValues f entries).foldl (fun acc e => insert e.1 e.2 acc) (mapValues f acc) := by
    induction entries with
    | nil => exact fun _ => rfl
    | cons head rest ih =>
      intro acc
      rw [List.foldl_cons, ih, mapValues_insert]
      rfl
  exact hfold []

/-- Reading changed values is reading with the change. -/
theorem traverse_mapValues (read : β → Option γ) (f : α → β) (entries : List (String × α)) :
    traverse read (mapValues f entries) = traverse (fun v => read (f v)) entries := by
  induction entries with
  | nil => rfl
  | cons head rest ih =>
    show traverse read ((head.1, f head.2) :: mapValues f rest) = _
    unfold traverse
    rw [ih]

/-- A change of all that was read can be made while reading. -/
theorem traverse_map (read : α → Option β) (f : β → γ) (entries : List (String × α)) :
    traverse (fun v => (read v).map f) entries = (traverse read entries).map (mapValues f) := by
  induction entries with
  | nil => rfl
  | cons head rest ih =>
    obtain ⟨key, v⟩ := head
    unfold traverse
    rw [ih]
    cases read v with
    | none => rfl
    | some w => cases traverse read rest <;> rfl

end Keyed

-- ── Patches within a section ──────────────────────────────────────────────────

namespace Patch

variable {name other : String} {p : Patch} {tree tree' : Json}

/-- Whether a patch changes a part of a section, and nothing outside of it. -/
def Within (name : String) (p : Patch) : Prop := ∃ next rest, p.path = name :: next :: rest

/-- A patch within a section leaves the other sections alone. -/
theorem Within.get?_ne (hp : p.Within name) (h : name ≠ other) (tree : Json) :
    (p.apply tree).get? other = tree.get? other := by
  obtain ⟨op, path, value⟩ := p
  obtain ⟨next, rest, rfl⟩ := hp
  cases op with
  | set => exact Json.get?_alterAt_ne _ h (next :: rest) tree
  | merge => exact Json.get?_alterAt_ne _ h (next :: rest) tree
  | unset => exact Json.get?_removeAt_ne h next rest tree

/-- What becomes of a section depends on nothing outside of it. -/
theorem Within.get?_congr (hp : p.Within name) (h : tree.get? other = tree'.get? other) :
    (p.apply tree).get? other = (p.apply tree').get? other := by
  by_cases hne : name = other
  · subst hne
    have hgetD : tree.getD name = tree'.getD name := congrArg (Option.getD · Json.null) h
    obtain ⟨op, path, value⟩ := p
    obtain ⟨next, rest, rfl⟩ := hp
    have halter : ∀ change : Json → Json,
        (Json.alterAt change (name :: next :: rest) tree).get? name =
          (Json.alterAt change (name :: next :: rest) tree').get? name := by
      intro change
      rw [Json.get?_alterAt_self, Json.get?_alterAt_self, hgetD]
    cases op with
    | set => exact halter _
    | merge => exact halter _
    | unset =>
      show (Json.removeAt _ tree).get? name = (Json.removeAt _ tree').get? name
      rw [Json.get?_removeAt_self, Json.get?_removeAt_self, h]
  · rw [hp.get?_ne hne, hp.get?_ne hne, h]

/-- Patches within other sections leave a section alone. -/
theorem get?_applyAll_ne {patches : List Patch}
    (hp : ∀ p ∈ patches, ∃ name, name ≠ other ∧ p.Within name) (tree : Json) :
    (applyAll patches tree).get? other = tree.get? other := by
  induction patches generalizing tree with
  | nil => rfl
  | cons p rest ih =>
    obtain ⟨name, hne, hwithin⟩ := hp p List.mem_cons_self
    exact (ih (fun q hq => hp q (List.mem_cons_of_mem p hq)) _).trans (hwithin.get?_ne hne tree)

/-- What patches make of a section depends on nothing outside of it. -/
theorem get?_applyAll_congr {patches : List Patch} (hp : ∀ p ∈ patches, ∃ name, p.Within name)
    (h : tree.get? other = tree'.get? other) :
    (applyAll patches tree).get? other = (applyAll patches tree').get? other := by
  induction patches generalizing tree tree' with
  | nil => exact h
  | cons p rest ih =>
    obtain ⟨name, hwithin⟩ := hp p List.mem_cons_self
    exact ih (fun q hq => hp q (List.mem_cons_of_mem p hq)) (hwithin.get?_congr h)

end Patch

-- ── What an operation writes ──────────────────────────────────────────────────

/-- A recorded attempt is written to the history. -/
theorem Ledger.within_patches (h : Option NodeHistory) (r : AttemptRecord) :
    ∀ p ∈ patches h r, p.Within "history" := by
  simp [patches, Patch.Within, Patch.set, Patch.merge, StatePath.attempt, StatePath.nodeHistory]

/-- The pattern of a recorded attempt is written to the patterns. -/
theorem Ledger.within_patternPatch (p : PatternEntry) : (patternPatch p).Within "patterns" :=
  ⟨p.key, [], rfl⟩

/-- A refresh writes to the suggestions. -/
theorem Recommendation.within_suggest (settings : RankingSettings) (s : ProofState)
    (fileKey nodeId : String) (now : Instant) :
    ∀ p ∈ suggest settings s fileKey nodeId now, p.Within "suggestions" := by
  unfold suggest
  cases hr : refreshSlot settings s fileKey nodeId now with
  | none => exact List.forall_mem_nil _
  | some r =>
    obtain ⟨_, _, -, -, hpatches⟩ := refreshSlot_eq_some hr
    rw [Option.map_some, Option.getD_some, hpatches, List.forall_mem_cons, List.forall_mem_map]
    exact ⟨⟨_, [], rfl⟩, fun key _ => ⟨key, [], rfl⟩⟩

theorem Derivation.within_lastSyncedPatches (fileKey : String) (now : Instant) :
    ∀ p ∈ lastSyncedPatches fileKey now, p.Within "files" :=
  List.forall_mem_singleton.mpr ⟨fileKey, _, rfl⟩

/-- A commit writes to the files. -/
theorem Derivation.within_patches (fileKey : String) (d : Derivation) :
    ∀ p ∈ patches fileKey d, p.Within "files" := by
  unfold patches
  split
  · intro p hp
    rcases List.mem_append.mp hp with hp | hp
    · rcases List.mem_pair.mp hp with rfl | rfl <;> exact ⟨fileKey, _, rfl⟩
    · exact within_lastSyncedPatches fileKey d.derivedAt p hp
  · exact within_lastSyncedPatches fileKey d.derivedAt

namespace Operation

/-- Whether an operation records an attempt. -/
def isRecord : Operation → Bool
  | record _ _ => true
  | _ => false

/-- Whether an operation refreshes suggestions. -/
def isSuggest : Operation → Bool
  | suggest _ _ _ => true
  | _ => false

/-- Whether an operation commits a derivation or notes a sync that derived nothing. -/
def isSync : Operation → Bool
  | commit _ _ | touch _ _ => true
  | _ => false

/-- The sections that an operation writes to. -/
def writes : Operation → List String
  | record _ _ => ["history", "patterns"]
  | suggest _ _ _ => ["suggestions"]
  | commit _ _ | touch _ _ => ["files"]

/-- The patches of an operation stay within the sections that it writes to. -/
theorem within_patches (settings : RankingSettings) (s : ProofState) (op : Operation) :
    ∀ p ∈ op.patches settings s, ∃ name ∈ op.writes, p.Within name := by
  cases op with
  | record a now =>
    intro p hp
    change p ∈ Ledger.record s a now at hp
    unfold Ledger.record at hp
    cases hkey : a.resolvedKey? with
    | none => rw [hkey] at hp; cases hp
    | some tacticKey =>
      rw [hkey] at hp
      rcases List.mem_append.mp hp with hp | hp
      · exact ⟨_, List.mem_cons_self, Ledger.within_patches _ _ p hp⟩
      · rw [List.mem_singleton.mp hp]
        exact ⟨_, List.mem_cons_of_mem _ List.mem_cons_self, Ledger.within_patternPatch _⟩
  | suggest fileKey nodeId now => exact fun p hp =>
      ⟨_, List.mem_cons_self, Recommendation.within_suggest settings s fileKey nodeId now p hp⟩
  | commit fileKey d => exact fun p hp =>
      ⟨_, List.mem_cons_self, Derivation.within_patches fileKey d p hp⟩
  | touch fileKey now => exact fun p hp =>
      ⟨_, List.mem_cons_self, Derivation.within_lastSyncedPatches fileKey now p hp⟩

/-- An operation leaves the sections alone that it does not write to. -/
theorem get?_applyAll_ne {op : Operation} {name : String} (h : name ∉ op.writes)
    (settings : RankingSettings) (s : ProofState) (tree : Json) :
    (Patch.applyAll (op.patches settings s) tree).get? name = tree.get? name := by
  refine Patch.get?_applyAll_ne (fun p hp => ?_) tree
  obtain ⟨written, hwritten, hwithin⟩ := within_patches settings s op p hp
  exact ⟨written, fun heq => h (heq ▸ hwritten), hwithin⟩

end Operation

-- ── Patterns without their signatures ─────────────────────────────────────────

namespace PatternEntry

/-- A pattern without the signature of a goal: what it counts and when it was counted last. -/
def unsigned (p : PatternEntry) : PatternEntry := { p with goalSignature := none }

/-- Reads a pattern without its signature. -/
def readUnsigned? (v : Json) : Option PatternEntry := (ofJson? v).map unsigned

/-- A stored signature can always be read, so it makes no difference to the rest. -/
theorem readUnsigned?_toJson (p : PatternEntry) :
    readUnsigned? p.toJson = readUnsigned? p.unsigned.toJson := by
  have hread : ∀ p : PatternEntry, readUnsigned? p.toJson =
      (Category.ofJson? p.category.toJson).bind fun category =>
        (Json.asFloat? (.ofFloat p.score)).bind fun score =>
          (Instant.ofJson? p.lastUpdated.toJson).bind fun lastUpdated =>
            some { p.unsigned with category, score, lastUpdated } := by
    intro p
    unfold readUnsigned? toJson ofJson?
    rw [Json.record?_ofPresent (by simp)]
    have hsignature : ∀ r : Json.Record, r "goalSignature" = p.goalSignature.map .string →
        r.optional "goalSignature" Json.asString? = some p.goalSignature :=
      fun r hr => Json.Record.optional_map hr (fun _ _ => rfl) rfl
    rw [Option.bind_eq_bind, Option.bind_some, hsignature _ rfl]
    simp [Json.Record.required, Keyed.find?, Json.asString?, unsigned, Function.comp_def]
  rw [hread, hread]
  rfl

end PatternEntry

open PatternEntry (unsigned readUnsigned?)

/-- What the patterns of a tree count. -/
def tallies (tree : Json) : List (String × Option PatternEntry) :=
  Keyed.mapValues readUnsigned? (tree.getD "patterns").fields

/-- Only the patterns of a tree are tallied. -/
theorem tallies_congr {tree tree' : Json} (h : tree.get? "patterns" = tree'.get? "patterns") :
    tallies tree = tallies tree' := by
  unfold tallies Json.getD
  rw [h]

/-- What patterns count is read off the tallies. -/
theorem unsigned_patterns (tree : Json) (key : String) :
    ((ProofState.ofJson tree).patterns.get? key).map unsigned =
      (Keyed.traverse id (tallies tree)).bind fun out => Keyed.find? key (Keyed.ofList out) := by
  have hsection : (ProofState.ofJson tree).patterns =
      ((Keyed.traverse PatternEntry.ofJson? (tree.getD "patterns").fields).map
        Table.ofList).getD Table.empty := by
    show ProofState.readSection tree "patterns" PatternEntry.ofJson? = _
    rw [readSection_eq]
    cases tree.getD "patterns" <;> rfl
  have htallies : Keyed.traverse id (tallies tree) =
      (Keyed.traverse PatternEntry.ofJson? (tree.getD "patterns").fields).map
        (Keyed.mapValues unsigned) :=
    (Keyed.traverse_mapValues id readUnsigned? _).trans
      (Keyed.traverse_map PatternEntry.ofJson? unsigned _)
  rw [hsection, htallies]
  cases Keyed.traverse PatternEntry.ofJson? (tree.getD "patterns").fields with
  | none => rfl
  | some out =>
    show (Keyed.find? key (Keyed.ofList out)).map unsigned =
      Keyed.find? key (Keyed.ofList (Keyed.mapValues unsigned out))
    rw [← Keyed.mapValues_ofList, Keyed.find?_mapValues]

namespace Ledger

/-- A pattern that is written is tallied without its signature. -/
theorem tallies_patternPatch (p : PatternEntry) (tree : Json) :
    tallies ((patternPatch p).apply tree) =
      Keyed.insert p.key (readUnsigned? p.unsigned.toJson) (tallies tree) := by
  show Keyed.mapValues readUnsigned?
    ((Json.alterAt (fun _ => p.toJson) ["patterns", p.key] tree).getD "patterns").fields = _
  rw [Json.getD_alterAt_self, Json.alterAt_cons, ← PatternEntry.readUnsigned?_toJson]
  exact Keyed.mapValues_insert readUnsigned? p.key p.toJson _

/-- The signature apart, the pattern of an attempt depends on what was counted before. -/
theorem unsigned_observedPattern (s : ProofState) (r : AttemptRecord)
    (signature : Option String) (now : Instant) :
    (observedPattern s r signature now).unsigned =
      (((s.patterns.get? (patternKey r.countedCategory r.tacticKey)).map unsigned).getD
        (.unused r.countedCategory r.tacticKey now)).observe r.result.isSuccess now := by
  have hknown : ((s.patterns.get? (patternKey r.countedCategory r.tacticKey)).map unsigned).getD
      (.unused r.countedCategory r.tacticKey now) =
        ((s.patterns.get? (patternKey r.countedCategory r.tacticKey)).getD
          (.unused r.countedCategory r.tacticKey now)).unsigned := by
    cases s.patterns.get? (patternKey r.countedCategory r.tacticKey) <;> rfl
  rw [hknown]
  unfold observedPattern
  dsimp only
  split <;> rfl

end Ledger

-- ── Two trees with the same records ───────────────────────────────────────────

/-- Trees with the same history, whose patterns count the same. -/
structure SameRecords (tree tree' : Json) : Prop where
  history : tree.get? "history" = tree'.get? "history"
  tallies : tallies tree = tallies tree'

namespace SameRecords

variable {tree tree' snapshot snapshot' : Json}

theorem refl (tree : Json) : SameRecords tree tree := ⟨rfl, rfl⟩

/-- Trees with the same history and the same patterns have the same records. -/
theorem of_get?_eq (hhistory : tree.get? "history" = tree'.get? "history")
    (hpatterns : tree.get? "patterns" = tree'.get? "patterns") : SameRecords tree tree' :=
  ⟨hhistory, tallies_congr hpatterns⟩

theorem trans {tree'' : Json} (h : SameRecords tree tree') (h' : SameRecords tree' tree'') :
    SameRecords tree tree'' :=
  ⟨h.history.trans h'.history, h.tallies.trans h'.tallies⟩

/-- The same records are read from them. -/
theorem nodeHistory?_eq (h : SameRecords tree tree') (fileKey nodeId : String) :
    (ProofState.ofJson tree).nodeHistory? fileKey nodeId =
      (ProofState.ofJson tree').nodeHistory? fileKey nodeId := by
  have hhistory : (ProofState.ofJson tree).history = (ProofState.ofJson tree').history := by
    show ProofState.readSection _ _ _ = ProofState.readSection _ _ _
    unfold ProofState.readSection
    rw [h.history]
  unfold ProofState.nodeHistory?
  rw [hhistory]

/-- One record more in the history, and a pattern that counts the same. -/
theorem append (h : SameRecords tree tree') (prior : Option NodeHistory) (r : AttemptRecord)
    {p p' : PatternEntry} (hp : p.unsigned = p'.unsigned) :
    SameRecords (Patch.applyAll (Ledger.patches prior r ++ [Ledger.patternPatch p]) tree)
      (Patch.applyAll (Ledger.patches prior r ++ [Ledger.patternPatch p']) tree') := by
  have hkey : p.key = p'.key :=
    show p.unsigned.key = p'.unsigned.key from congrArg (·.key) hp
  have hwithin := Ledger.within_patches prior r
  rw [Patch.applyAll_append, Patch.applyAll_append]
  constructor
  · have hhistory := Patch.get?_applyAll_congr (fun q hq => ⟨_, hwithin q hq⟩) h.history
    exact ((Ledger.within_patternPatch p).get?_ne (by decide) _).trans
      (hhistory.trans ((Ledger.within_patternPatch p').get?_ne (by decide) _).symm)
  · have hleft : ∀ tree, ProofLedger.tallies (Patch.applyAll (Ledger.patches prior r) tree) =
        ProofLedger.tallies tree := fun tree => tallies_congr
      (Patch.get?_applyAll_ne (fun q hq => ⟨_, by decide, hwithin q hq⟩) tree)
    show ProofLedger.tallies ((Ledger.patternPatch p).apply _) =
      ProofLedger.tallies ((Ledger.patternPatch p').apply _)
    rw [Ledger.tallies_patternPatch, Ledger.tallies_patternPatch, hkey, hp, hleft, hleft,
      h.tallies]

/-- An attempt that is recorded in two trees with the same records, each after a look at the same
    records, leaves the same records. -/
theorem record (h : SameRecords tree tree') (hsnapshot : SameRecords snapshot snapshot')
    (a : AttemptInput) (now : Instant) :
    SameRecords (Patch.applyAll (Ledger.record (.ofJson snapshot) a now) tree)
      (Patch.applyAll (Ledger.record (.ofJson snapshot') a now) tree') := by
  unfold Ledger.record
  cases a.resolvedKey? with
  | none => exact h
  | some tacticKey =>
    dsimp only
    rw [hsnapshot.nodeHistory?_eq]
    refine h.append _ _ ?_
    rw [Ledger.unsigned_observedPattern, Ledger.unsigned_observedPattern, unsigned_patterns,
      unsigned_patterns, hsnapshot.tallies]

end SameRecords

-- ── Runs ──────────────────────────────────────────────────────────────────────

namespace Operation

variable (settings : RankingSettings) {tree tree' snapshot : Json}

/-- A sync stores the same whatever it finds. -/
theorem files_applyAll (h : tree.get? "files" = tree'.get? "files") (op : Operation)
    (s : ProofState) :
    (Patch.applyAll (op.patches settings s) tree).get? "files" =
      (runAll settings tree' ([op].filter isSync)).get? "files" := by
  have hwithin : ∀ p ∈ op.patches settings s, ∃ name, p.Within name := fun p hp =>
    have ⟨name, _, hname⟩ := within_patches settings s op p hp
    ⟨name, hname⟩
  cases op with
  | record a now => exact (get?_applyAll_ne (by simp [writes]) settings s tree).trans h
  | suggest fileKey nodeId now =>
    exact (get?_applyAll_ne (by simp [writes]) settings s tree).trans h
  | commit fileKey d => exact Patch.get?_applyAll_congr hwithin h
  | touch fileKey now => exact Patch.get?_applyAll_congr hwithin h

/-- A run may be cut in two. -/
theorem runAll_append (tree : Json) (first second : List Operation) :
    runAll settings tree (first ++ second) =
      runAll settings (runAll settings tree first) second := List.foldl_append

/-- A run leaves a section alone that none of its operations writes to. -/
theorem get?_runAll_ne {name : String} {ops : List Operation} (h : ∀ op ∈ ops, name ∉ op.writes)
    (tree : Json) : (runAll settings tree ops).get? name = tree.get? name := by
  induction ops generalizing tree with
  | nil => rfl
  | cons op rest ih =>
    exact (ih (fun other hother => h other (List.mem_cons_of_mem op hother)) _).trans
      (get?_applyAll_ne (h op List.mem_cons_self) settings _ tree)

/-- The files after a run are what its syncs make of them. -/
theorem files_runAll (h : tree.get? "files" = tree'.get? "files") (ops : List Operation) :
    (runAll settings tree ops).get? "files" =
      (runAll settings tree' (ops.filter isSync)).get? "files" := by
  induction ops using List.reverseRecOn with
  | nil => exact h
  | append_singleton ops op ih =>
    rw [runAll_append, List.filter_append, runAll_append]
    exact files_applyAll settings ih op _

/-- An attempt that is recorded after a look at the same records leaves the same records; no other
    operation changes them. -/
theorem sameRecords_applyAll (h : SameRecords tree tree') (hsnapshot : SameRecords snapshot tree')
    (op : Operation) :
    SameRecords (Patch.applyAll (op.patches settings (.ofJson snapshot)) tree)
      (runAll settings tree' ([op].filter isRecord)) := by
  have hother : "history" ∉ op.writes → "patterns" ∉ op.writes →
      SameRecords (Patch.applyAll (op.patches settings (.ofJson snapshot)) tree) tree' :=
    fun hhistory hpatterns => .trans (.of_get?_eq (get?_applyAll_ne hhistory settings _ tree)
      (get?_applyAll_ne hpatterns settings _ tree)) h
  cases op with
  | record a now => exact h.record hsnapshot a now
  | suggest fileKey nodeId now => exact hother (by simp [writes]) (by simp [writes])
  | commit fileKey d => exact hother (by simp [writes]) (by simp [writes])
  | touch fileKey now => exact hother (by simp [writes]) (by simp [writes])

end Operation

-- ── Turns ─────────────────────────────────────────────────────────────────────

/-- An operation as it is performed: it reads the tree, then its patches are applied. Attempts and
    suggestions take turns, but files may be synced in the course of one. -/
structure Turn where
  op : Operation
  /-- what takes effect between the reading and the writing -/
  meanwhile : List Operation
  syncs : ∀ other ∈ meanwhile, other.isSync = true

namespace Turn

open Operation (isRecord isSuggest isSync)

variable (settings : RankingSettings)

/-- The tree after a turn. -/
def run (tree : Json) (t : Turn) : Json :=
  Patch.applyAll (t.op.patches settings (.ofJson tree))
    (Operation.runAll settings tree t.meanwhile)

/-- The tree after turns one after the other. -/
def runAll (tree : Json) (turns : List Turn) : Json := turns.foldl (run settings) tree

/-- The operations of turns, in the order in which they take effect. -/
def operations (turns : List Turn) : List Operation :=
  turns.flatMap fun t => t.meanwhile ++ [t.op]

/-- The last turn is taken on what the others leave. -/
theorem runAll_concat (tree : Json) (turns : List Turn) (t : Turn) :
    runAll settings tree (turns ++ [t]) = run settings (runAll settings tree turns) t :=
  List.foldl_append

/-- Syncs in the course of a turn take effect before its operation. -/
theorem operations_concat (turns : List Turn) (t : Turn) :
    operations (turns ++ [t]) = operations turns ++ t.meanwhile ++ [t.op] := by
  unfold operations
  rw [List.flatMap_append, List.flatMap_singleton, List.append_assoc]

/-- The files after turns are what their syncs make of them. -/
theorem files_runAll (tree : Json) (turns : List Turn) :
    (runAll settings tree turns).get? "files" =
      (Operation.runAll settings tree ((operations turns).filter isSync)).get? "files" := by
  induction turns using List.reverseRecOn with
  | nil => rfl
  | append_singleton turns t ih =>
    rw [runAll_concat, operations_concat, List.filter_append, List.filter_append,
      Operation.runAll_append, Operation.runAll_append]
    exact Operation.files_applyAll settings (Operation.files_runAll settings ih t.meanwhile) _ _

/-- What happens in the course of a turn leaves all sections but the files alone. -/
theorem get?_meanwhile_ne {name : String} (h : name ≠ "files") (tree : Json) (t : Turn) :
    (Operation.runAll settings tree t.meanwhile).get? name = tree.get? name := by
  refine Operation.get?_runAll_ne settings (fun sync hmem => ?_) tree
  have hsync := t.syncs sync hmem
  cases sync with
  | commit fileKey d => exact mt List.mem_singleton.mp h
  | touch fileKey now => exact mt List.mem_singleton.mp h
  | _ => cases hsync

/-- Syncs leave the records alone. -/
theorem sameRecords_meanwhile (tree : Json) (t : Turn) :
    SameRecords (Operation.runAll settings tree t.meanwhile) tree :=
  .of_get?_eq (get?_meanwhile_ne settings (by decide) tree t)
    (get?_meanwhile_ne settings (by decide) tree t)

/-- The records after turns are what their attempts make of them. -/
theorem sameRecords_runAll (tree : Json) (turns : List Turn) :
    SameRecords (runAll settings tree turns)
      (Operation.runAll settings tree ((operations turns).filter isRecord)) := by
  induction turns using List.reverseRecOn with
  | nil => exact .refl tree
  | append_singleton turns t ih =>
    have hnone : t.meanwhile.filter isRecord = [] :=
      List.filter_eq_nil_iff.mpr fun other hother hrecord => by
        have hsync := t.syncs other hother
        cases other <;> cases hsync <;> cases hrecord
    rw [runAll_concat, operations_concat, List.filter_append, List.filter_append, hnone,
      List.append_nil, Operation.runAll_append]
    exact Operation.sameRecords_applyAll settings
      ((sameRecords_meanwhile settings _ t).trans ih) ih t.op

/-- A turn that does not suggest leaves the suggestions alone. -/
theorem suggestions_run (tree : Json) (t : Turn) :
    t.op.isSuggest = true ∨
      (run settings tree t).get? "suggestions" = tree.get? "suggestions" := by
  have hmeanwhile := get?_meanwhile_ne settings (by decide : "suggestions" ≠ "files") tree t
  have hother : "suggestions" ∉ t.op.writes →
      (run settings tree t).get? "suggestions" = tree.get? "suggestions" := fun h =>
    (Operation.get?_applyAll_ne h settings _ _).trans hmeanwhile
  cases hop : t.op with
  | suggest fileKey nodeId now => exact Or.inl rfl
  | _ => exact Or.inr (hother (by simp [hop, Operation.writes]))

/-- Sections are isolated. Whatever turns are taken on a tree, its files are those that the syncs
    alone leave; its history, and its patterns but for the signatures, are those that the attempts
    alone leave; and only a suggestion changes its suggestions. -/
theorem sections_isolated (tree : Json) (turns : List Turn) :
    let all := runAll settings tree turns
    let synced := Operation.runAll settings tree ((operations turns).filter isSync)
    let recorded := Operation.runAll settings tree ((operations turns).filter isRecord)
    all.get? "files" = synced.get? "files" ∧
      all.get? "history" = recorded.get? "history" ∧
      (∀ key, ((ProofState.ofJson all).patterns.get? key).map unsigned =
        ((ProofState.ofJson recorded).patterns.get? key).map unsigned) ∧
      ∀ n, (∃ t ∈ turns[n]?, t.op.isSuggest = true) ∨
        (runAll settings tree (turns.take (n + 1))).get? "suggestions" =
          (runAll settings tree (turns.take n)).get? "suggestions" := by
  intro all synced recorded
  have hrecords : SameRecords all recorded := sameRecords_runAll settings tree turns
  refine ⟨files_runAll settings tree turns, hrecords.history, fun key => ?_, fun n => ?_⟩
  · rw [unsigned_patterns, unsigned_patterns, hrecords.tallies]
  · rw [List.take_add_one]
    cases turns[n]? with
    | none => exact Or.inr (by rw [Option.toList_none, List.append_nil])
    | some t =>
      rw [Option.toList_some, runAll_concat]
      exact (suggestions_run settings _ t).imp_left fun h => ⟨t, rfl, h⟩

end Turn

end ProofLedger

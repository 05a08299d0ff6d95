import ProofLedger.Proofs.Instant.Text
import ProofLedger.Proofs.Ranking.Finite

/-!
# Trees that hold a state

A tree holds a state if each of its four sections is missing, `null` or readable, and is read as
the state has it (`Holds`). A change below one key of a section changes that section of the state
and no other.
-/

namespace ProofLedger

open Json (HoldsTable alterAt removeAt)

/-- Whether a section of a tree is missing, `null` or readable. -/
def SectionReadable {α : Type} (tree : Json) (name : String) (read : Json → Option α) : Prop :=
  tree.getD name = .null ∨ (Json.asTableOf? read (tree.getD name)).isSome = true

/-- Whether all sections of a tree are missing, `null` or readable. -/
structure Readable (tree : Json) : Prop where
  files : SectionReadable tree "files" FileState.ofJson?
  history : SectionReadable tree "history" (Json.asTableOf? NodeHistory.ofJson?)
  patterns : SectionReadable tree "patterns" PatternEntry.ofJson?
  suggestions : SectionReadable tree "suggestions" SuggestionSlot.ofJson?

/-- A tree whose sections are read as those of a state. -/
structure Holds (tree : Json) (s : ProofState) : Prop where
  files : HoldsTable FileState.ofJson? (tree.getD "files") s.files
  history : HoldsTable (Json.asTableOf? NodeHistory.ofJson?) (tree.getD "history") s.history
  patterns : HoldsTable PatternEntry.ofJson? (tree.getD "patterns") s.patterns
  suggestions : HoldsTable SuggestionSlot.ofJson? (tree.getD "suggestions") s.suggestions

/-- Whether every pattern is stored under its own key. -/
def ProofState.KeyedPatterns (s : ProofState) : Prop :=
  ∀ key p, s.patterns.get? key = some p → p.key = key

/-- A tree that the engine can work on: a well-formed document whose sections are missing, `null`
    or readable, with every pattern under its own key. -/
structure IsStateTree (tree : Json) : Prop where
  wellFormed : tree.WellFormed
  readable : Readable tree
  keyed : (ProofState.ofJson tree).KeyedPatterns

/-- A tree that the engine can work on, and the state that it holds. -/
structure Represents (tree : Json) (s : ProofState) : Prop where
  wellFormed : tree.WellFormed
  holds : Holds tree s
  keyed : s.KeyedPatterns

-- ── Sections ──────────────────────────────────────────────────────────────────

section Sections

variable {α : Type} {tree : Json} {name : String} {read : Json → Option α} {t : Table α}

/-- A section that cannot be read counts as empty. -/
theorem readSection_eq (tree : Json) (name : String) (read : Json → Option α) :
    ProofState.readSection tree name read =
      (Json.asTableOf? read (tree.getD name)).getD Table.empty := by
  unfold ProofState.readSection Json.getD
  cases tree.get? name <;> rfl

/-- A section that can be read holds the table that it is read as. -/
theorem SectionReadable.holdsTable (hwf : tree.WellFormed) (h : SectionReadable tree name read) :
    HoldsTable read (tree.getD name) (ProofState.readSection tree name read) := by
  have hsorted := (hwf.getD name).sorted
  rw [readSection_eq]
  unfold SectionReadable at h
  generalize tree.getD name = v at h hsorted
  rcases h with rfl | h
  · exact Json.holdsTable_null.mpr rfl
  · obtain ⟨t, ht⟩ := Option.isSome_iff_exists.mp h
    rw [ht, Option.getD_some]
    exact Json.holdsTable_of_asTableOf? hsorted ht

/-- A section that holds a table can be read, as this table. -/
theorem sectionReadable_of_holdsTable (h : HoldsTable read (tree.getD name) t) :
    SectionReadable tree name read ∧ ProofState.readSection tree name read = t := by
  rw [readSection_eq]
  unfold SectionReadable
  generalize tree.getD name = v at h
  rcases h.object_or_null with hv | rfl
  · rw [h.asTableOf? hv]
    exact ⟨Or.inr rfl, rfl⟩
  · exact ⟨Or.inl rfl, (Json.holdsTable_null.mp h).symm⟩

end Sections

/-- A tree that can be read holds the state that is read from it. -/
theorem Readable.holds {tree : Json} (hwf : tree.WellFormed) (h : Readable tree) :
    Holds tree (ProofState.ofJson tree) :=
  ⟨h.files.holdsTable hwf, h.history.holdsTable hwf, h.patterns.holdsTable hwf,
    h.suggestions.holdsTable hwf⟩

/-- A tree that holds a state is read as this state. -/
theorem Holds.readable {tree : Json} {s : ProofState} (h : Holds tree s) :
    Readable tree ∧ ProofState.ofJson tree = s := by
  obtain ⟨hfiles, efiles⟩ := sectionReadable_of_holdsTable h.files
  obtain ⟨hhistory, ehistory⟩ := sectionReadable_of_holdsTable h.history
  obtain ⟨hpatterns, epatterns⟩ := sectionReadable_of_holdsTable h.patterns
  obtain ⟨hsuggestions, esuggestions⟩ := sectionReadable_of_holdsTable h.suggestions
  refine ⟨⟨hfiles, hhistory, hpatterns, hsuggestions⟩, ?_⟩
  rw [ProofState.ofJson, efiles, ehistory, epatterns, esuggestions]

/-- A tree of a state represents the state that is read from it. -/
theorem IsStateTree.represents {tree : Json} (h : IsStateTree tree) :
    Represents tree (ProofState.ofJson tree) :=
  ⟨h.wellFormed, h.readable.holds h.wellFormed, h.keyed⟩

/-- A tree that represents a state is read as this state. -/
theorem Represents.isStateTree {tree : Json} {s : ProofState} (h : Represents tree s) :
    IsStateTree tree ∧ ProofState.ofJson tree = s := by
  obtain ⟨hreadable, hstate⟩ := h.holds.readable
  exact ⟨⟨h.wellFormed, hreadable, hstate ▸ h.keyed⟩, hstate⟩

-- ── Changes of one section ────────────────────────────────────────────────────

namespace Holds

variable {tree : Json} {s : ProofState} {change : Json → Json} {key : String} {rest : Path}

/-- A change to the entry of a file changes the file. -/
theorem alterFile {f : FileState} (h : Holds tree s)
    (hf : FileState.ofJson? (alterAt change rest ((tree.getD "files").getD key)) = some f) :
    Holds (alterAt change ("files" :: key :: rest) tree)
      { s with files := s.files.insert key f } := by
  refine ⟨?_, ?_, ?_, ?_⟩
  · rw [Json.getD_alterAt_self]; exact h.files.alterAt hf
  · rw [Json.getD_alterAt_ne change (by decide)]; exact h.history
  · rw [Json.getD_alterAt_ne change (by decide)]; exact h.patterns
  · rw [Json.getD_alterAt_ne change (by decide)]; exact h.suggestions

/-- A change to the histories of a file changes these. -/
theorem alterHistory {t : Table NodeHistory} (h : Holds tree s)
    (ht : Json.asTableOf? NodeHistory.ofJson?
      (alterAt change rest ((tree.getD "history").getD key)) = some t) :
    Holds (alterAt change ("history" :: key :: rest) tree)
      { s with history := s.history.insert key t } := by
  refine ⟨?_, ?_, ?_, ?_⟩
  · rw [Json.getD_alterAt_ne change (by decide)]; exact h.files
  · rw [Json.getD_alterAt_self]; exact h.history.alterAt ht
  · rw [Json.getD_alterAt_ne change (by decide)]; exact h.patterns
  · rw [Json.getD_alterAt_ne change (by decide)]; exact h.suggestions

/-- A change to a pattern changes the pattern. -/
theorem alterPattern {p : PatternEntry} (h : Holds tree s)
    (hp : PatternEntry.ofJson? (alterAt change rest ((tree.getD "patterns").getD key)) = some p) :
    Holds (alterAt change ("patterns" :: key :: rest) tree)
      { s with patterns := s.patterns.insert key p } := by
  refine ⟨?_, ?_, ?_, ?_⟩
  · rw [Json.getD_alterAt_ne change (by decide)]; exact h.files
  · rw [Json.getD_alterAt_ne change (by decide)]; exact h.history
  · rw [Json.getD_alterAt_self]; exact h.patterns.alterAt hp
  · rw [Json.getD_alterAt_ne change (by decide)]; exact h.suggestions

/-- A change to a slot changes the slot. -/
theorem alterSlot {slot : SuggestionSlot} (h : Holds tree s)
    (hslot : SuggestionSlot.ofJson?
      (alterAt change rest ((tree.getD "suggestions").getD key)) = some slot) :
    Holds (alterAt change ("suggestions" :: key :: rest) tree)
      { s with suggestions := s.suggestions.insert key slot } := by
  refine ⟨?_, ?_, ?_, ?_⟩
  · rw [Json.getD_alterAt_ne change (by decide)]; exact h.files
  · rw [Json.getD_alterAt_ne change (by decide)]; exact h.history
  · rw [Json.getD_alterAt_ne change (by decide)]; exact h.patterns
  · rw [Json.getD_alterAt_self]; exact h.suggestions.alterAt hslot

/-- A slot that is removed is gone. -/
theorem removeSlot (h : Holds tree s) (key : String) :
    Holds (removeAt ["suggestions", key] tree)
      { s with suggestions := s.suggestions.erase key } := by
  refine ⟨?_, ?_, ?_, ?_⟩
  · rw [Json.getD_removeAt_ne (by decide)]; exact h.files
  · rw [Json.getD_removeAt_ne (by decide)]; exact h.history
  · rw [Json.getD_removeAt_ne (by decide)]; exact h.patterns
  · rw [Json.getD_removeAt_self]; exact h.suggestions.removeAt key

end Holds

-- ── What is true of every state that is read ──────────────────────────────────

/-- The scores of patterns that were read are numbers. -/
theorem Json.HoldsTable.isFinite_score {v : Json} (hwf : v.WellFormed) {t : Table PatternEntry}
    (h : HoldsTable PatternEntry.ofJson? v t) {p : PatternEntry} (hp : p ∈ t.values) :
    p.score.isFinite = true := by
  obtain ⟨⟨key, q⟩, hmem, rfl⟩ := List.mem_map.mp hp
  obtain ⟨w, hw, hread⟩ := h.get?_of_read (Table.mem_entries.mp hmem)
  exact PatternEntry.isFinite_of_ofJson? (hwf.get? hw) hread

theorem Holds.isFinite_score {tree : Json} {s : ProofState} (hwf : tree.WellFormed)
    (h : Holds tree s) {p : PatternEntry} (hp : p ∈ s.patterns.values) :
    p.score.isFinite = true := h.patterns.isFinite_score (hwf.getD _) hp

/-- The time of a slot that was read is real. -/
theorem SuggestionSlot.isReal_of_ofJson? {v : Json} {slot : SuggestionSlot}
    (h : ofJson? v = some slot) : slot.generatedAt.IsReal := by
  unfold ofJson? at h
  simp only [Option.bind_eq_bind, Option.bind_eq_some_iff, Option.pure_def,
    Option.some.injEq] at h
  obtain ⟨r, -, _, -, _, -, _, -, t, ht, rfl⟩ := h
  obtain ⟨w, -, hread⟩ := Option.bind_eq_some_iff.mp ht
  exact Instant.isReal_of_ofJson? hread

theorem Json.HoldsTable.isReal_generatedAt {v : Json} {t : Table SuggestionSlot}
    (h : HoldsTable SuggestionSlot.ofJson? v t) {slot : SuggestionSlot} (hslot : slot ∈ t.values) :
    slot.generatedAt.IsReal := by
  obtain ⟨⟨key, w⟩, hmem, rfl⟩ := List.mem_map.mp hslot
  obtain ⟨u, -, hread⟩ := h.get?_of_read (Table.mem_entries.mp hmem)
  exact SuggestionSlot.isReal_of_ofJson? hread

theorem Holds.isReal_generatedAt {tree : Json} {s : ProofState} (h : Holds tree s)
    {slot : SuggestionSlot} (hslot : slot ∈ s.suggestions.values) : slot.generatedAt.IsReal :=
  h.suggestions.isReal_generatedAt hslot

end ProofLedger

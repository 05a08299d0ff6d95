import ProofLedger.Category.Classify
import ProofLedger.Proofs.Text.Phrases

/-!
# Categories in another spelling and in context

The category of a message is the first one that recognises it (`rank_classifyChars_le`,
`recognises_classifyChars`). So a text has a category no later than that of a message whenever each
category that recognises the message recognises the text too, as is the case if the text has the
message among its lines. In other cases of letters the same categories recognise a message, and it
has the same category.
-/

namespace ProofLedger.Category

variable {c : Category} {message text : List Char}

-- ── The first category that recognises ────────────────────────────────────────

theorem mem_all (c : Category) : c ∈ all := by
  cases c <;> decide

theorem pairwise_all : all.Pairwise (·.rank < ·.rank) := by
  decide

theorem rank_le_other (c : Category) : c.rank ≤ Category.other.rank := by
  cases c <;> decide

theorem eq_other_of_rank_le (h : Category.other.rank ≤ c.rank) : c = .other := by
  cases c <;> revert h <;> decide

/-- No category before that of a message recognises it. -/
theorem rank_classifyChars_le (h : c.recognises message = true) :
    (classifyChars message).rank ≤ c.rank := by
  rw [classifyChars]
  cases hfind : all.find? fun c => c.recognises message with
  | none => exact absurd h (List.find?_eq_none.mp hfind c (mem_all c))
  | some first =>
    obtain ⟨-, earlier, later, hall, hearlier⟩ := List.find?_eq_some_iff_append.mp hfind
    have hmem : c ∈ earlier ++ first :: later := hall ▸ mem_all c
    have hrank : (first :: later).Pairwise (·.rank < ·.rank) :=
      (List.pairwise_append.mp (hall ▸ pairwise_all)).2.1
    rcases List.mem_append.mp hmem with hbefore | hafter
    · have hno := hearlier c hbefore
      rw [h] at hno
      cases hno
    · rcases List.mem_cons.mp hafter with rfl | hlater
      · exact Nat.le_refl _
      · exact Nat.le_of_lt (List.rel_of_pairwise_cons hrank hlater)

/-- A message is recognised by its category, unless no category recognises it. -/
theorem recognises_classifyChars (message : List Char) :
    classifyChars message = .other ∨ (classifyChars message).recognises message = true := by
  rw [classifyChars]
  cases hfind : all.find? fun c => c.recognises message with
  | none => exact .inl rfl
  | some first =>
    have hown := List.find?_some hfind
    exact .inr hown

/-- Where more is recognised, the category is none that comes later. -/
theorem rank_classifyChars_mono
    (h : ∀ c : Category, c.recognises message = true → c.recognises text = true) :
    (classifyChars text).rank ≤ (classifyChars message).rank := by
  rcases recognises_classifyChars message with hother | hown
  · rw [hother]
    exact rank_le_other _
  · exact rank_classifyChars_le (h _ hown)

-- ── Case ──────────────────────────────────────────────────────────────────────

theorem classifyChars_congr (h : text.map Char.toLower = message.map Char.toLower) :
    classifyChars text = classifyChars message := by
  have hsame : ∀ c : Category, c.recognises text = c.recognises message := by
    intro c
    simp only [recognises, Text.occursIn_congr h]
  simp only [classifyChars, hsame]

-- ── Context ───────────────────────────────────────────────────────────────────

/-- Whole lines around a message take nothing away that is recognised in it. -/
theorem recognises_between {above below : List Char} (habove : Text.EndsLine above)
    (hbelow : below = [] ∨ below.head? = some '\n') (h : c.recognises message = true) :
    c.recognises (above ++ message ++ below) = true := by
  obtain ⟨phrase, hphrase, hoccurs⟩ := List.any_eq_true.mp h
  exact List.any_eq_true.mpr ⟨phrase, hphrase, Text.occursIn_between habove hbelow hoccurs⟩

/-- A message with lines of context above it, below it, or both. -/
inductive InContext (message : String) : String → Prop
  | above (a : String) : InContext message (a ++ "\n" ++ message)
  | below (b : String) : InContext message (message ++ "\n" ++ b)
  | between (a b : String) : InContext message (a ++ "\n" ++ message ++ "\n" ++ b)

theorem InContext.exists_lines {message text : String} (h : InContext message text) :
    ∃ above below : List Char, Text.EndsLine above ∧ (below = [] ∨ below.head? = some '\n') ∧
      text.toList = above ++ message.toList ++ below := by
  have hline : ∀ a : String, Text.EndsLine (a.toList ++ ['\n']) := fun a =>
    .inr List.getLast?_concat
  cases h with
  | above a =>
    refine ⟨a.toList ++ ['\n'], [], hline a, .inl rfl, ?_⟩
    rw [String.toList_append, String.toList_append, List.append_nil]
    rfl
  | below b =>
    refine ⟨[], '\n' :: b.toList, .inl rfl, .inr rfl, ?_⟩
    rw [String.toList_append, String.toList_append, List.append_assoc]
    rfl
  | between a b =>
    refine ⟨a.toList ++ ['\n'], '\n' :: b.toList, hline a, .inr rfl, ?_⟩
    simp only [String.toList_append, List.append_assoc]
    rfl

/-- A message has the same category in whatever case its letters are. Among lines of context it
    has that category or an earlier one, so that what is recognised remains recognised. -/
theorem classify_steady (message : String) :
    (∀ variant : String, variant.toList.map Char.toLower = message.toList.map Char.toLower →
      classify variant = classify message) ∧
    ∀ text, InContext message text →
      (classify text).rank ≤ (classify message).rank ∧
        (classify message ≠ .other → classify text ≠ .other) := by
  refine ⟨fun variant h => classifyChars_congr h, fun text h => ?_⟩
  obtain ⟨above, below, habove, hbelow, htext⟩ := h.exists_lines
  have hrank : (classify text).rank ≤ (classify message).rank := by
    rw [classify, classify, htext]
    exact rank_classifyChars_mono fun c => recognises_between habove hbelow
  refine ⟨hrank, fun hmessage hother => hmessage ?_⟩
  rw [hother] at hrank
  exact eq_other_of_rank_le hrank

/-- A tactic that fails, in other letters and below the line of an earlier error. -/
theorem classify_steady_failedTactic :
    let message := "Tactic 'norm_num' FAILED:\nunexpected token"
    let variant := "tACTIC 'Norm_Num' failed:\nUNEXPECTED Token"
    let text := "type mismatch at k" ++ "\n" ++ message ++ "\n" ++ "timeouts, expected ')'"
    (variant.toList.map Char.toLower = message.toList.map Char.toLower ∧
        classify variant = classify message) ∧
      InContext message text ∧ classify message = .tacticFailed ∧ classify text = .typeMismatch ∧
      (classify text).rank ≤ (classify message).rank ∧ classify text ≠ .other := by
  intro message variant text
  obtain ⟨hcase, hcontext⟩ := classify_steady message
  have hvariant : variant.toList.map Char.toLower = message.toList.map Char.toLower := by
    decide +kernel
  have hmessage : classify message = .tacticFailed := by decide +kernel
  have hbetween : InContext message text := .between "type mismatch at k" "timeouts, expected ')'"
  obtain ⟨hrank, hkept⟩ := hcontext text hbetween
  exact ⟨⟨hvariant, hcase variant hvariant⟩, hbetween, hmessage, by decide +kernel, hrank,
    hkept (by rw [hmessage]; decide)⟩

end ProofLedger.Category

import Mathlib.Data.List.TakeWhile
import ProofLedger.Proofs.Text.Lowercase
import ProofLedger.Session

/-!
# Keys of tactics

The key of a tactic is made when it is executed, and made again when the attempt is recorded: the
first time from the text of the tactic, the second time from the key itself, which is trimmed and
put into lower case like one that a user has typed. A key has no blanks and only small letters, so
the second time changes nothing (`resolvedKey?_attemptOf`).
-/

namespace ProofLedger

-- ── Runs and ends of a text ───────────────────────────────────────────────────

namespace Text

/-- A run is not empty, and it is made of characters of the text that separate nothing. -/
theorem of_mem_runs (sep : Char → Bool) (cs : List Char) :
    ∀ w ∈ runs sep cs, w ≠ [] ∧ ∀ c ∈ w, c ∈ cs ∧ sep c = false := by
  have hsingle : ∀ {c : Char} {r : List Char}, ¬ sep c = true →
      [c] ≠ [] ∧ ∀ d ∈ [c], d ∈ c :: r ∧ sep d = false := by
    intro c r hc
    refine ⟨List.cons_ne_nil _ _, List.forall_mem_singleton.mpr ?_⟩
    exact ⟨List.mem_cons_self, Bool.eq_false_iff.mpr hc⟩
  have hlater : ∀ {r w : List Char} (c : Char), (w ≠ [] ∧ ∀ d ∈ w, d ∈ r ∧ sep d = false) →
      w ≠ [] ∧ ∀ d ∈ w, d ∈ c :: r ∧ sep d = false := fun c hw =>
    ⟨hw.1, fun d hd => ⟨List.mem_cons_of_mem c (hw.2 d hd).1, (hw.2 d hd).2⟩⟩
  fun_induction runs sep cs with
  | case1 => exact List.forall_mem_nil _
  | case2 c r _ ih => exact fun w hw => hlater c (ih w hw)
  | case3 c hc => exact List.forall_mem_singleton.mpr (hsingle hc)
  | case4 c hc d r _ ih =>
    exact List.forall_mem_cons.mpr ⟨hsingle hc, fun w hw => hlater c (ih w hw)⟩
  | case5 c hc d r _ hnil _ =>
    rw [hnil]
    exact List.forall_mem_singleton.mpr (hsingle hc)
  | case6 c hc d r _ first rest hruns ih =>
    -- the first run of the rest goes on to the left
    rw [hruns] at ih ⊢
    obtain ⟨⟨-, hfirst⟩, hrest⟩ := List.forall_mem_cons.mp ih
    refine List.forall_mem_cons.mpr ⟨⟨List.cons_ne_nil _ _, List.forall_mem_cons.mpr
      ⟨⟨List.mem_cons_self, Bool.eq_false_iff.mpr hc⟩, fun e he => ?_⟩⟩, fun w hw => ?_⟩
    · exact ⟨List.mem_cons_of_mem c (hfirst e he).1, (hfirst e he).2⟩
    · exact hlater c (hrest w hw)

theorem mem_of_mem_dropEnd {p : Char → Bool} {cs : List Char} {c : Char}
    (h : c ∈ dropEnd p cs) : c ∈ cs := by
  rw [dropEnd, List.mem_reverse] at h
  exact List.mem_reverse.mp ((List.dropWhile_sublist p).subset h)

/-- The end of a text that is left does not belong to what is dropped. -/
theorem exists_of_dropEnd_ne_nil {p : Char → Bool} {cs : List Char} (h : dropEnd p cs ≠ []) :
    ∃ c ∈ dropEnd p cs, p c = false := by
  have hne : cs.reverse.dropWhile p ≠ [] := fun hnil => h (by rw [dropEnd, hnil]; rfl)
  exact ⟨_, List.mem_reverse.mpr (List.head_mem hne), List.head_dropWhile_not p hne⟩

/-- Trimming leaves a text alone that has no blanks. -/
theorem trimChars_of_not_blank {cs : List Char} (h : ∀ c ∈ cs, isBlank c = false) :
    trimChars cs = cs := by
  have hkeep : ∀ {ds : List Char}, (∀ c ∈ ds, isBlank c = false) → ds.dropWhile isBlank = ds := by
    intro ds hds
    cases ds with
    | nil => rfl
    | cons d r =>
      refine List.dropWhile_cons_of_neg ?_
      rw [hds d List.mem_cons_self]
      exact Bool.false_ne_true
  rw [trimChars, trimStart, hkeep h, dropEnd, hkeep fun c hc => h c (List.mem_reverse.mp hc),
    List.reverse_reverse]

/-- A trimmed text is either empty or not blank. -/
theorem isBlankText_trim {s : String} (h : (trim s).isEmpty = false) :
    isBlankText (trim s) = false := by
  have hne : trimChars s.toList ≠ [] := by
    intro hnil
    rw [trim, hnil] at h
    exact absurd h (by decide)
  obtain ⟨c, hc, hsolid⟩ := exists_of_dropEnd_ne_nil hne
  rw [isBlankText, trim, String.toList_ofList, List.all_eq_false]
  exact ⟨c, hc, by rw [hsolid]; exact Bool.false_ne_true⟩

/-- Of a text that is not blank something is left when it is trimmed. -/
theorem isEmpty_trim {s : String} (h : isBlankText s = false) : (trim s).isEmpty = false := by
  rw [isBlankText, List.all_eq_false] at h
  obtain ⟨c, hc, hsolid⟩ := h
  have hstart : trimStart s.toList ≠ [] := by
    intro hnil
    exact hsolid (List.dropWhile_eq_nil_iff.mp hnil c hc)
  have hend : trimChars s.toList ≠ [] := by
    intro hnil
    have hblank := List.dropWhile_eq_nil_iff.mp (List.reverse_eq_nil_iff.mp hnil) _
      (List.mem_reverse.mpr (List.head_mem hstart))
    have hfirst := List.head_dropWhile_not isBlank hstart
    exact absurd (hfirst.symm.trans hblank) Bool.false_ne_true
  rw [Bool.eq_false_iff, ne_eq, String.isEmpty_iff, trim]
  intro hempty
  have hnil := congrArg String.toList hempty
  rw [String.toList_ofList] at hnil
  exact hend hnil

end Text

-- ── Keys ──────────────────────────────────────────────────────────────────────

/-- Whether a text is a key as it is made from a tactic: not empty, without blanks, and in lower
    case. -/
structure IsTacticKey (key : String) : Prop where
  nonempty : key.isEmpty = false
  solid : ∀ c ∈ key.toList, Text.isBlank c = false
  lowercase : Text.lowercase key = key

theorem IsTacticKey.trim_eq {key : String} (h : IsTacticKey key) : Text.trim key = key := by
  rw [Text.trim, Text.trimChars_of_not_blank h.solid, String.ofList_toList]

/-- A tactic that has a key is not blank, and its key is one. -/
theorem isTacticKey_of_tacticKey? {tactic key : String} (h : tacticKey? tactic = some key) :
    Text.isBlankText tactic = false ∧ IsTacticKey key := by
  rw [tacticKey?] at h
  split at h
  · cases h
  · next head rest hruns =>
    have hruns' := Text.of_mem_runs endsTacticHead tactic.toList
    rw [hruns] at hruns'
    obtain ⟨⟨hne, hhead⟩, -⟩ := List.forall_mem_cons.mp hruns'
    have hsolid : ∀ c ∈ head, Text.isBlank c = false := by
      intro c hc
      have hends := (hhead c hc).2
      simp only [endsTacticHead, Bool.or_eq_false_iff] at hends
      exact hends.1.1.1.1
    have hword : ∀ c ∈ Text.dropEnd (fun c => c == ',' || c == '.') head,
        Text.isBlank c = false := fun c hc => hsolid c (Text.mem_of_mem_dropEnd hc)
    have hlower := Text.isBlank_lowerChars hword
    have hidem := Text.lowerChars_lowerChars
      (Text.dropEnd (fun c => c == ',' || c == '.') head)
    split at h
    · cases h
    · next c r hkey =>
      obtain rfl := Option.some.inj h
      rw [hkey] at hlower hidem
      refine ⟨?_, ?_, ?_, ?_⟩
      · obtain ⟨d, hd⟩ := List.exists_mem_of_ne_nil head hne
        rw [Text.isBlankText, List.all_eq_false]
        exact ⟨d, (hhead d hd).1, by rw [hsolid d hd]; exact Bool.false_ne_true⟩
      · rw [Bool.eq_false_iff, ne_eq, String.isEmpty_iff]
        intro hempty
        have hnil := congrArg String.toList hempty
        rw [String.toList_ofList] at hnil
        cases hnil
      · rw [String.toList_ofList]
        exact hlower
      · rw [Text.lowercase, String.toList_ofList, hidem]

namespace Session

/-- The attempt that an executed tactic amounts to is counted under the key that the executor was
    sent. -/
theorem resolvedKey?_attemptOf {r : TacticRequest} (hkey : tacticKey? r.tactic = some r.tacticKey)
    (hfile : Text.isBlankText r.fileKey = false) (hnode : Text.isBlankText r.nodeId = false)
    (category : Option Category) (outcome : SettledOutcome) :
    (attemptOf r category outcome).resolvedKey? = some r.tacticKey := by
  obtain ⟨htactic, hnormal⟩ := isTacticKey_of_tacticKey? hkey
  have hblank : ¬ (Text.isBlankText (attemptOf r category outcome).fileKey ||
      Text.isBlankText (attemptOf r category outcome).nodeId ||
      Text.isBlankText (attemptOf r category outcome).tactic) = true := by
    rw [attemptOf, hfile, hnode, htactic]
    decide
  have hgiven : (attemptOf r category outcome).tacticKey.map Text.trim = some r.tacticKey :=
    congrArg some hnormal.trim_eq
  rw [AttemptInput.resolvedKey?, if_neg hblank, hgiven]
  dsimp only
  rw [hnormal.nonempty, if_neg Bool.false_ne_true, hnormal.lowercase]

end Session

-- ── Outcomes ──────────────────────────────────────────────────────────────────

/-- Whatever does not succeed has a message that is not blank. -/
theorem SettledOutcome.exists_message {o : TacticOutcome}
    (h : (ofOutcome o).result.isSuccess = false) :
    ∃ m, (ofOutcome o).errorMessage = some m ∧ Text.isBlankText m = false := by
  have hdefault : ∀ result applied, Text.isBlankText (defaultMessage result applied) = false := by
    intro result applied
    cases result <;> cases applied <;> decide
  rw [ofOutcome] at h ⊢
  dsimp only at h ⊢
  rw [h, if_neg Bool.false_ne_true]
  refine ⟨_, rfl, ?_⟩
  cases o.errorMessage with
  | none => exact hdefault _ _
  | some m =>
    rw [Option.map_some]
    dsimp only
    split
    · exact hdefault _ _
    · next hm => exact Text.isBlankText_trim (Bool.eq_false_iff.mpr hm)

end ProofLedger

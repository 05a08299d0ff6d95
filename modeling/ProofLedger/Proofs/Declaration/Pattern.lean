import ProofLedger.Proofs.Declaration.Header

/-!
# The pattern of a header line

A header line is put together from parts: blanks, attributes and modifiers with the blanks after
them, a keyword that ends at a word edge, and the rest of the line. The reader of headers takes
these parts off one after the other and never goes back. Since no part can be taken for another,
it finds a header exactly where there is such a line (`header?_eq_some_iff`).
-/

namespace ProofLedger.Declaration

open Text

-- ── The pattern ───────────────────────────────────────────────────────────────

/-- An attribute with the blanks after it. -/
def IsAttribute (cs : List Char) : Prop :=
  ∃ body blanks, cs = '@' :: '[' :: (body ++ ']' :: blanks) ∧ ']' ∉ body ∧
    ∀ c ∈ blanks, isBlank c = true

/-- A modifier with the blanks after it, of which there is at least one. -/
def IsModifier (cs : List Char) : Prop :=
  ∃ m ∈ modifiers, ∃ blank blanks, cs = m ++ blank :: blanks ∧
    ∀ c ∈ blank :: blanks, isBlank c = true

/-- A keyword of a kind with the text after it, which does not continue the word. -/
def IsKeyword (cs : List Char) (kind : DeclarationKind) (after : List Char) : Prop :=
  ∃ k ∈ keywords, cs = k.toList ++ after ∧ isWordAt after.head? = false ∧
    DeclarationKind.ofKeyword? k = some kind

/-- The pattern of a header line of a kind, with the text after the keyword. -/
def MatchesHeader (line : List Char) (kind : DeclarationKind) (after : List Char) : Prop :=
  ∃ (blanks : List Char) (attributes words : List (List Char)) (keyword : List Char),
    line = blanks ++ (attributes.flatten ++ (words.flatten ++ keyword)) ∧
    (∀ c ∈ blanks, isBlank c = true) ∧ (∀ a ∈ attributes, IsAttribute a) ∧
    (∀ w ∈ words, IsModifier w) ∧ IsKeyword keyword kind after

/-- A line that matches the pattern, whatever kind of declaration it starts. -/
def IsHeader (line : List Char) : Prop := ∃ kind after, MatchesHeader line kind after

-- ── Parts are told apart by where they start ──────────────────────────────────

/-- A small letter is no blank. -/
theorem isBlank_of_isLower {c : Char} (h : c.isLower = true) : isBlank c = false := by
  have hrange : 97 ≤ c.val.toNat ∧ c.val.toNat ≤ 122 := by
    obtain ⟨hlo, hhi⟩ := Bool.and_eq_true_iff.mp
      (show (decide ('a'.val ≤ c.val) && decide (c.val ≤ 'z'.val)) = true from h)
    exact ⟨UInt32.le_iff_toNat_le.mp (of_decide_eq_true hlo),
      UInt32.le_iff_toNat_le.mp (of_decide_eq_true hhi)⟩
  simp only [isBlank, Bool.or_eq_false_iff, Bool.and_eq_false_iff, decide_eq_false_iff_not,
    beq_eq_false_iff_ne]
  omega

/-- A text that starts with no blank is left as it is. -/
theorem trimStart_of_cons {c : Char} (h : isBlank c = false) (r : List Char) :
    trimStart (c :: r) = c :: r :=
  List.dropWhile_cons_of_neg (by rw [h]; exact Bool.false_ne_true)

/-- A keyword starts with a small letter. -/
theorem IsKeyword.starts {cs after : List Char} {kind : DeclarationKind}
    (h : IsKeyword cs kind after) : ∃ c r, cs = c :: r ∧ c.isLower = true := by
  have hkeywords : ∀ k ∈ keywords, k.toList.head?.any (·.isLower) = true := by decide
  obtain ⟨k, hk, rfl, -, -⟩ := h
  obtain ⟨c, hc, hlower⟩ := (Option.any_eq_true _ _).mp (hkeywords k hk)
  obtain ⟨r, hr⟩ := List.head?_eq_some_iff.mp hc
  exact ⟨c, r ++ after, by rw [hr, List.cons_append], hlower⟩

/-- Modifiers start with a letter, as what follows them does. -/
theorem starts_modifiers {words : List (List Char)} {cs : List Char}
    (hwords : ∀ w ∈ words, IsModifier w) (hcs : ∃ c r, cs = c :: r ∧ c.isLower = true) :
    ∃ c r, words.flatten ++ cs = c :: r ∧ c.isLower = true := by
  have hmodifiers : ∀ m ∈ modifiers, m.head?.any (·.isLower) = true := by decide
  cases words with
  | nil => exact hcs
  | cons w words =>
    obtain ⟨m, hm, blank, blanks, rfl, -⟩ := hwords w List.mem_cons_self
    obtain ⟨c, hc, hlower⟩ := (Option.any_eq_true _ _).mp (hmodifiers m hm)
    obtain ⟨r, rfl⟩ := List.head?_eq_some_iff.mp hc
    exact ⟨c, _, rfl, hlower⟩

/-- Attributes start with no blank, as what follows them does. -/
theorem starts_attributes {attributes : List (List Char)} {cs : List Char}
    (hattributes : ∀ a ∈ attributes, IsAttribute a)
    (hcs : ∃ c r, cs = c :: r ∧ c.isLower = true) :
    ∃ c r, attributes.flatten ++ cs = c :: r ∧ isBlank c = false := by
  cases attributes with
  | nil =>
    obtain ⟨c, r, rfl, hlower⟩ := hcs
    exact ⟨c, r, rfl, isBlank_of_isLower hlower⟩
  | cons a attributes =>
    obtain ⟨body, blanks, rfl, -, -⟩ := hattributes a List.mem_cons_self
    exact ⟨'@', _, rfl, by decide⟩

-- ── Every match is found ──────────────────────────────────────────────────────

/-- No modifier starts another one. -/
theorem find?_modifiers {m : List Char} (hm : m ∈ modifiers) (cs : List Char) :
    modifiers.find? (·.isPrefixOf (m ++ cs)) = some m := by
  have hdistinct : ∀ m ∈ modifiers, ∀ m' ∈ modifiers, m' <+: m ∨ m <+: m' → m' = m := by decide
  have hpre : m.isPrefixOf (m ++ cs) = true :=
    List.isPrefixOf_iff_prefix.mpr (List.prefix_append m cs)
  cases hfind : modifiers.find? (·.isPrefixOf (m ++ cs)) with
  | none => exact absurd hpre (List.find?_eq_none.mp hfind m hm)
  | some m' =>
    have hpre' : m' <+: m ++ cs := by
      have hfound := List.find?_some hfind
      exact List.isPrefixOf_iff_prefix.mp hfound
    have heq := hdistinct m hm m' (List.mem_of_find?_eq_some hfind)
      (List.prefix_or_prefix_of_prefix hpre' (List.prefix_append m cs))
    rw [heq]

/-- No keyword starts with a modifier. -/
theorem IsKeyword.not_modified {cs after : List Char} {kind : DeclarationKind}
    (h : IsKeyword cs kind after) (rest : List Char) : ¬ Modified cs rest := by
  have hdistinct : ∀ k ∈ keywords, ∀ m ∈ modifiers, ¬ (m <+: k.toList ∨ k.toList <+: m) := by
    decide
  rintro ⟨m, c, hfind, -, -⟩
  obtain ⟨k, hk, rfl, -, -⟩ := h
  have hpre : m <+: k.toList ++ after := by
    have hfound := List.find?_some hfind
    exact List.isPrefixOf_iff_prefix.mp hfound
  exact hdistinct k hk m (List.mem_of_find?_eq_some hfind)
    (List.prefix_or_prefix_of_prefix hpre (List.prefix_append _ after))

/-- Before a keyword all modifiers are skipped. -/
theorem skipModifiers_flatten {words : List (List Char)} {cs after : List Char}
    {kind : DeclarationKind} (hwords : ∀ w ∈ words, IsModifier w)
    (hcs : IsKeyword cs kind after) : skipModifiers (words.flatten ++ cs) = cs := by
  induction words with
  | nil => exact skipModifiers_of_not_modified hcs.not_modified
  | cons w words ih =>
    obtain ⟨hw, hrest⟩ := List.forall_mem_cons.mp hwords
    obtain ⟨m, hm, blank, blanks, rfl, hblanks⟩ := hw
    obtain ⟨hblank, hblanks⟩ := List.forall_mem_cons.mp hblanks
    obtain ⟨c, r, hstart, hlower⟩ := starts_modifiers hrest hcs.starts
    have htrim : trimStart (blanks ++ (words.flatten ++ cs)) = words.flatten ++ cs := by
      rw [trimStart, List.dropWhile_append_of_pos hblanks, hstart]
      exact trimStart_of_cons (isBlank_of_isLower hlower) r
    have hmodified : Modified (m ++ blank :: blanks ++ words.flatten ++ cs)
        (blanks ++ (words.flatten ++ cs)) := by
      refine ⟨m, blank, ?_, ?_, hblank⟩
      · rw [List.append_assoc, List.append_assoc]
        exact find?_modifiers hm _
      · rw [List.append_assoc, List.append_assoc, List.drop_left, List.cons_append]
    rw [List.flatten_cons, skipModifiers_of_modified hmodified, htrim, ih hrest]

/-- Before a small letter all attributes are skipped. -/
theorem skipAttributes_flatten {attributes : List (List Char)} {cs : List Char}
    (hattributes : ∀ a ∈ attributes, IsAttribute a)
    (hcs : ∃ c r, cs = c :: r ∧ c.isLower = true) :
    skipAttributes (attributes.flatten ++ cs) = cs := by
  induction attributes with
  | nil =>
    refine skipAttributes_of_not_attributed ?_
    rintro rest ⟨r, hr, -⟩
    obtain ⟨c, r', rfl, hlower⟩ := hcs
    obtain rfl : c = '@' := (List.cons.inj hr).1
    exact absurd hlower (by decide)
  | cons a attributes ih =>
    obtain ⟨ha, hrest⟩ := List.forall_mem_cons.mp hattributes
    obtain ⟨body, blanks, rfl, hbody, hblanks⟩ := ha
    obtain ⟨c, r, hstart, hsolid⟩ := starts_attributes hrest hcs
    have htrim : trimStart (blanks ++ (attributes.flatten ++ cs)) = attributes.flatten ++ cs := by
      rw [trimStart, List.dropWhile_append_of_pos hblanks, hstart]
      exact trimStart_of_cons hsolid r
    have hattributed : Attributed
        ('@' :: '[' :: (body ++ ']' :: blanks) ++ attributes.flatten ++ cs)
        (blanks ++ (attributes.flatten ++ cs)) := by
      refine ⟨body ++ (']' :: (blanks ++ (attributes.flatten ++ cs))), ?_, ?_⟩
      · simp only [List.cons_append, List.append_assoc]
      · have hkeep : ∀ c ∈ body, (c != ']') = true := fun c hc =>
          bne_iff_ne.mpr fun h => hbody (h ▸ hc)
        rw [List.dropWhile_append_of_pos hkeep, List.dropWhile_cons_of_neg (by decide)]
    rw [List.flatten_cons, skipAttributes_of_attributed hattributed, htrim, ih hrest]

/-- Two keywords that both end at a word edge of one text are the same. -/
theorem eq_of_keyword_prefix {k k' : String} {after : List Char} (hk : k ∈ keywords)
    (hk' : k' ∈ keywords) (hafter : isWordAt after.head? = false)
    (hpre : k'.toList <+: k.toList ++ after)
    (hedge : isWordAt ((k.toList ++ after).drop k'.toList.length).head? = false) : k' = k := by
  have hlonger : ∀ k ∈ keywords, ∀ k' ∈ keywords, k'.toList <+: k.toList →
      k' = k ∨ isWordAt (k.toList.drop k'.toList.length).head? = true := by decide
  rcases List.prefix_or_prefix_of_prefix hpre (List.prefix_append _ after) with hle | hle
  · rcases hlonger k hk k' hk' hle with heq | hword
    · exact heq
    · rw [List.drop_append_of_le_length hle.length_le] at hedge
      cases hdrop : k.toList.drop k'.toList.length with
      | nil =>
        rw [hdrop] at hword
        cases hword
      | cons c r =>
        rw [hdrop] at hword hedge
        exact absurd (hword.symm.trans hedge) (by decide)
  · rcases hlonger k' hk' k hk hle with heq | hword
    · exact heq.symm
    · obtain ⟨t, ht⟩ := hle
      rw [← ht, List.drop_left] at hword
      rw [← ht, List.prefix_append_right_inj] at hpre
      obtain ⟨u, rfl⟩ := hpre
      cases t with
      | nil => cases hword
      | cons c t => exact absurd (hword.symm.trans hafter) (by decide)

/-- What one of the keywords finds at the start of a text. -/
def keywordAt? (cs : List Char) (k : String) : Option (DeclarationKind × List Char) :=
  if k.toList.isPrefixOf cs then
    let rest := cs.drop k.toList.length
    if isWordAt rest.head? then none
    else (DeclarationKind.ofKeyword? k).map fun kind => (kind, rest)
  else none

theorem keyword?_eq_findSome? (cs : List Char) :
    keyword? cs = keywords.findSome? (keywordAt? cs) := rfl

/-- A keyword is read where it stands and no word goes on. -/
theorem keywordAt?_eq_some_iff {cs after : List Char} {k : String} {kind : DeclarationKind} :
    keywordAt? cs k = some (kind, after) ↔ cs = k.toList ++ after ∧
      isWordAt after.head? = false ∧ DeclarationKind.ofKeyword? k = some kind := by
  constructor
  · intro h
    rw [keywordAt?] at h
    split at h
    · next hpre =>
      obtain ⟨t, rfl⟩ := List.isPrefixOf_iff_prefix.mp hpre
      dsimp only at h
      rw [List.drop_left] at h
      split at h
      · cases h
      · next hedge =>
        obtain ⟨kind', hkind, heq⟩ := Option.map_eq_some_iff.mp h
        cases heq
        exact ⟨rfl, Bool.eq_false_of_not_eq_true hedge, hkind⟩
    · cases h
  · rintro ⟨rfl, hedge, hkind⟩
    have hpre : k.toList.isPrefixOf (k.toList ++ after) = true :=
      List.isPrefixOf_iff_prefix.mpr (List.prefix_append _ after)
    rw [keywordAt?, if_pos hpre]
    dsimp only
    rw [List.drop_left, hedge, hkind]
    rfl

/-- The keyword that is read is the one that the pattern names. -/
theorem keyword?_eq_some_iff {cs after : List Char} {kind : DeclarationKind} :
    keyword? cs = some (kind, after) ↔ IsKeyword cs kind after := by
  constructor
  · intro h
    obtain ⟨k, hk, hfound⟩ := List.exists_of_findSome?_eq_some h
    exact ⟨k, hk, keywordAt?_eq_some_iff.mp hfound⟩
  · rintro ⟨k, hk, hcs, hedge, hkind⟩
    have hself : keywordAt? cs k = some (kind, after) :=
      keywordAt?_eq_some_iff.mpr ⟨hcs, hedge, hkind⟩
    cases hfind : keyword? cs with
    | none =>
      rw [keyword?_eq_findSome?, List.findSome?_eq_none_iff] at hfind
      exact absurd (hself.symm.trans (hfind k hk)) (Option.some_ne_none _)
    | some x =>
      obtain ⟨k', hk', hfound⟩ := List.exists_of_findSome?_eq_some hfind
      have hfound' : keywordAt? cs k' = some (x.1, x.2) := hfound
      obtain ⟨hcs', hedge', -⟩ := keywordAt?_eq_some_iff.mp hfound'
      have hsame : k' = k := by
        refine eq_of_keyword_prefix hk hk' hedge ⟨x.2, hcs'.symm.trans hcs⟩ ?_
        rw [← hcs, hcs', List.drop_left]
        exact hedge'
      rw [← hself, ← hsame]
      exact hfound.symm

-- ── Nothing else is found ─────────────────────────────────────────────────────

/-- What is skipped first are attributes. -/
theorem exists_attributes (cs : List Char) :
    ∃ attributes : List (List Char), cs = attributes.flatten ++ skipAttributes cs ∧
      ∀ a ∈ attributes, IsAttribute a := by
  fun_induction skipAttributes cs with
  | case1 r rest hr ih =>
    obtain ⟨attributes, heq, hattributes⟩ := ih
    have hr' : r = r.takeWhile (· != ']') ++ ']' :: rest := by
      rw [← hr, List.takeWhile_append_dropWhile]
    have hrest : rest = rest.takeWhile isBlank ++ trimStart rest :=
      List.takeWhile_append_dropWhile.symm
    refine ⟨('@' :: '[' :: (r.takeWhile (· != ']') ++ ']' :: rest.takeWhile isBlank)) ::
      attributes, ?_, List.forall_mem_cons.mpr ⟨⟨_, _, rfl, ?_, ?_⟩, hattributes⟩⟩
    · rw [List.flatten_cons, List.append_assoc, ← heq]
      nth_rewrite 1 [hr', hrest]
      simp only [List.cons_append, List.append_assoc]
    · intro hmem
      exact absurd (List.mem_takeWhile_imp hmem) (by decide)
    · exact fun c hc => List.mem_takeWhile_imp hc
  | case2 r _ => exact ⟨[], rfl, List.forall_mem_nil _⟩
  | case3 cs _ => exact ⟨[], rfl, List.forall_mem_nil _⟩

/-- What is skipped then are modifiers. -/
theorem exists_modifiers (cs : List Char) :
    ∃ words : List (List Char), cs = words.flatten ++ skipModifiers cs ∧
      ∀ w ∈ words, IsModifier w := by
  fun_induction skipModifiers cs with
  | case1 cs _ => exact ⟨[], rfl, List.forall_mem_nil _⟩
  | case2 cs _ _ _ => exact ⟨[], rfl, List.forall_mem_nil _⟩
  | case3 cs m hm c r hdrop hc ih =>
    obtain ⟨words, heq, hwords⟩ := ih
    have hpre : m <+: cs := by
      have hfound := List.find?_some hm
      exact List.isPrefixOf_iff_prefix.mp hfound
    have hcs : cs = m ++ c :: r := by
      obtain ⟨t, rfl⟩ := hpre
      rw [List.drop_left] at hdrop
      rw [hdrop]
    have hr : r = r.takeWhile isBlank ++ trimStart r := List.takeWhile_append_dropWhile.symm
    refine ⟨(m ++ c :: r.takeWhile isBlank) :: words, ?_, List.forall_mem_cons.mpr
      ⟨⟨m, List.mem_of_find?_eq_some hm, c, _, rfl, ?_⟩, hwords⟩⟩
    · rw [List.flatten_cons, List.append_assoc, ← heq, hcs]
      nth_rewrite 1 [hr]
      simp only [List.cons_append, List.append_assoc]
    · exact List.forall_mem_cons.mpr ⟨hc, fun d hd => List.mem_takeWhile_imp hd⟩
  | case4 cs _ _ _ _ _ _ => exact ⟨[], rfl, List.forall_mem_nil _⟩

/-- The reader finds a header exactly where a line matches the pattern, with the kind and the text
    after the keyword of that match. -/
theorem header?_eq_some_iff {line after : List Char} {kind : DeclarationKind} :
    header? line = some (kind, after) ↔ MatchesHeader line kind after := by
  constructor
  · intro h
    obtain ⟨attributes, hattributes, hattribute⟩ := exists_attributes (trimStart line)
    obtain ⟨words, hwords, hword⟩ := exists_modifiers (skipAttributes (trimStart line))
    refine ⟨line.takeWhile isBlank, attributes, words, _, ?_,
      fun c hc => List.mem_takeWhile_imp hc, hattribute, hword, keyword?_eq_some_iff.mp h⟩
    rw [← hwords, ← hattributes]
    exact List.takeWhile_append_dropWhile.symm
  · rintro ⟨blanks, attributes, words, keyword, rfl, hblanks, hattributes, hwords, hkeyword⟩
    have hlower := starts_modifiers hwords hkeyword.starts
    obtain ⟨c, r, hstart, hsolid⟩ := starts_attributes hattributes hlower
    have htrim : trimStart (blanks ++ (attributes.flatten ++ (words.flatten ++ keyword))) =
        attributes.flatten ++ (words.flatten ++ keyword) := by
      rw [trimStart, List.dropWhile_append_of_pos hblanks, hstart]
      exact trimStart_of_cons hsolid r
    rw [header?, htrim, skipAttributes_flatten hattributes hlower,
      skipModifiers_flatten hwords hkeyword, keyword?_eq_some_iff]
    exact hkeyword

theorem isHeader_iff (line : List Char) : IsHeader line ↔ (header? line).isSome = true := by
  rw [Option.isSome_iff_exists, Prod.exists]
  exact exists₂_congr fun _ _ => header?_eq_some_iff.symm

theorem not_isHeader_iff (line : List Char) :
    ¬ IsHeader line ↔ (header? line).isNone = true := by
  rw [isHeader_iff, Option.not_isSome_iff_eq_none, Option.isNone_iff_eq_none]

/-- Every header line holds a keyword, which is no blank. -/
theorem IsHeader.exists_not_isBlank {line : List Char} (h : IsHeader line) :
    ∃ c ∈ line, isBlank c = false := by
  obtain ⟨kind, after, blanks, attributes, words, keyword, rfl, -, -, -, hkeyword⟩ := h
  obtain ⟨c, r, rfl, hlower⟩ := hkeyword.starts
  refine ⟨c, ?_, isBlank_of_isLower hlower⟩
  exact List.mem_append_right _ (List.mem_append_right _
    (List.mem_append_right _ List.mem_cons_self))

instance (line : List Char) : Decidable (IsHeader line) :=
  decidable_of_iff _ (isHeader_iff line).symm

end ProofLedger.Declaration

import Mathlib.Data.List.Find
import Mathlib.Data.List.TakeWhile
import Mathlib.Data.Option.Basic
import ProofLedger.Declaration.Header
import ProofLedger.Proofs.Text.Comments
import ProofLedger.Proofs.Text.Respacing

/-!
# Headers and blanks

Each part of the reader of headers meets blanks in its own way: attributes run to a bracket,
modifiers take the blanks after them, a name ends at a blank or at a bracket, and the search for
the statement counts brackets. None of them tells one run of blanks from another, so two respaced
lines are headers of the same kind, and two respaced headers have the same name, the same
statement and a body or none.
-/

namespace ProofLedger.Declaration

open Text

variable {inside : Bool} {a b : List Char}

/-- A character that is no blank is different from all blanks. -/
theorem beq_of_isBlank {c d : Char} (hd : isBlank d = false) (hc : isBlank c = true) :
    (c == d) = false := by
  rw [beq_eq_false_iff_ne]
  rintro rfl
  rw [hc] at hd
  cases hd

-- ── Attributes ────────────────────────────────────────────────────────────────

/-- A text starts with a closed attribute that another text follows. -/
def Attributed (cs rest : List Char) : Prop :=
  ∃ r, cs = '@' :: '[' :: r ∧ r.dropWhile (· != ']') = ']' :: rest

/-- An attribute is skipped with the blanks after it. -/
theorem skipAttributes_of_attributed {cs rest : List Char} (h : Attributed cs rest) :
    skipAttributes cs = skipAttributes (trimStart rest) := by
  obtain ⟨r, rfl, hr⟩ := h
  rw [skipAttributes]
  split
  · next rest' hr' =>
    rw [hr] at hr'
    cases hr'
    rfl
  · next hno => exact absurd hr (hno rest)

/-- Where no attribute stands nothing is skipped. -/
theorem skipAttributes_of_not_attributed {cs : List Char} (h : ∀ rest, ¬ Attributed cs rest) :
    skipAttributes cs = cs := by
  rw [skipAttributes.eq_def]
  split
  · split
    · next hr => exact absurd ⟨_, rfl, hr⟩ (h _)
    · rfl
  · rfl

/-- An attribute is one in any spacing. -/
theorem Attributed.respaced {rest : List Char} (ha : Attributed a rest)
    (h : Respaced true a b) : ∃ rest', Attributed b rest' ∧ Respaced true rest rest' := by
  obtain ⟨r, rfl, hr⟩ := ha
  obtain ⟨b', rfl, hopen⟩ := h.of_cons (by decide)
  obtain ⟨r', rfl, hinner⟩ := hopen.of_cons (by decide)
  have hdrop : Respaced true (r.dropWhile (· != ']')) (r'.dropWhile (· != ']')) := by
    refine hinner.dropWhile fun c hc => ?_
    rw [bne, beq_of_isBlank (by decide) hc, Bool.not_false]
  rw [hr] at hdrop
  obtain ⟨rest', hr', hrest⟩ := hdrop.of_cons (by decide)
  exact ⟨rest', ⟨r', rfl, hr'⟩, hrest⟩

/-- Skipping an attribute shortens the text. -/
theorem Attributed.length_lt {cs rest : List Char} (h : Attributed cs rest) :
    (trimStart rest).length < cs.length := by
  obtain ⟨r, rfl, hr⟩ := h
  have hdrop := (List.dropWhile_sublist (· != ']') (l := r)).length_le
  have htrim := (List.dropWhile_sublist isBlank (l := rest)).length_le
  rw [hr] at hdrop
  simp only [List.length_cons, trimStart] at hdrop htrim ⊢
  omega

/-- Texts that differ in spacing do so after their attributes. -/
theorem respaced_skipAttributes (h : Respaced true a b) :
    Respaced true (skipAttributes a) (skipAttributes b) := by
  generalize hn : a.length = n
  induction n using Nat.strongRecOn generalizing a b with
  | _ n ih =>
    by_cases ha : ∃ rest, Attributed a rest
    · obtain ⟨rest, ha⟩ := ha
      obtain ⟨rest', hb, hrest⟩ := ha.respaced h
      rw [skipAttributes_of_attributed ha, skipAttributes_of_attributed hb]
      exact ih _ (hn ▸ ha.length_lt) hrest.trimStart rfl
    · have hb : ¬ ∃ rest, Attributed b rest := fun ⟨rest, hb⟩ =>
        ha ((hb.respaced h.symm).imp fun _ h => h.1)
      rw [skipAttributes_of_not_attributed (not_exists.mp ha),
        skipAttributes_of_not_attributed (not_exists.mp hb)]
      exact h

-- ── Keywords ──────────────────────────────────────────────────────────────────

/-- What two header lines have in common. -/
def SameHeader : Option (DeclarationKind × List Char) → Option (DeclarationKind × List Char) →
    Prop :=
  Option.Rel fun x y => x.1 = y.1 ∧ Respaced true x.2 y.2

/-- Related options are there both or not at all. -/
theorem rel_cases {α β : Type} {R : α → β → Prop} {x : Option α} {y : Option β}
    (h : Option.Rel R x y) :
    (x = none ∧ y = none) ∨ ∃ a b, x = some a ∧ y = some b ∧ R a b := by
  cases h with
  | none => exact .inl ⟨rfl, rfl⟩
  | some h => exact .inr ⟨_, _, rfl, rfl, h⟩

/-- What is found first is found alike. -/
theorem rel_findSome? {α β : Type} {R : β → β → Prop} {f g : α → Option β} {ks : List α}
    (h : ∀ k ∈ ks, Option.Rel R (f k) (g k)) :
    Option.Rel R (ks.findSome? f) (ks.findSome? g) := by
  induction ks with
  | nil => exact .none
  | cons k ks ih =>
    obtain ⟨hk, hks⟩ := List.forall_mem_cons.mp h
    rw [List.findSome?_cons, List.findSome?_cons]
    rcases rel_cases hk with ⟨hf, hg⟩ | ⟨x, y, hf, hg, hxy⟩
    · rw [hf, hg]
      exact ih hks
    · rw [hf, hg]
      exact .some hxy

/-- The keyword does not depend on spacing. -/
theorem sameHeader_keyword? (h : Respaced true a b) :
    SameHeader (keyword? a) (keyword? b) := by
  have hkeywords : ∀ k ∈ keywords, (k.toList.all fun c => !isBlank c) = true := by decide
  refine rel_findSome? fun k hk => ?_
  obtain ⟨hin, hrest⟩ := h.isPrefixOf (forall_not_isBlank (hkeywords k hk))
  simp only [← hin]
  split
  · next hpre =>
    have hword := (hrest hpre).any_head? (p := isWordChar) fun _ => isWordChar_of_isBlank
    rw [isWordAt_eq_any, isWordAt_eq_any, hword]
    split
    · exact .none
    · cases DeclarationKind.ofKeyword? k with
      | none => exact .none
      | some kind => exact .some ⟨rfl, hrest hpre⟩
  · exact .none

-- ── Modifiers ─────────────────────────────────────────────────────────────────

/-- A text starts with a modifier and a blank that another text follows. -/
def Modified (cs rest : List Char) : Prop :=
  ∃ m c, modifiers.find? (·.isPrefixOf cs) = some m ∧ cs.drop m.length = c :: rest ∧
    isBlank c = true

/-- A modifier is skipped with the blanks after it. -/
theorem skipModifiers_of_modified {cs rest : List Char} (h : Modified cs rest) :
    skipModifiers cs = skipModifiers (trimStart rest) := by
  obtain ⟨m, c, hm, hdrop, hc⟩ := h
  rw [skipModifiers]
  split
  · next hnone =>
    rw [hm] at hnone
    cases hnone
  · next m' hm' =>
    obtain rfl := Option.some.inj (hm.symm.trans hm')
    split
    · next hnil =>
      rw [hdrop] at hnil
      cases hnil
    · next hcons =>
      rw [hdrop] at hcons
      cases hcons
      exact if_pos hc

/-- Where no modifier stands nothing is skipped. -/
theorem skipModifiers_of_not_modified {cs : List Char} (h : ∀ rest, ¬ Modified cs rest) :
    skipModifiers cs = cs := by
  rw [skipModifiers]
  split
  · rfl
  · next m hm =>
    split
    · rfl
    · next c r hdrop => exact if_neg fun hc => h r ⟨m, c, hm, hdrop, hc⟩

/-- Skipping a modifier shortens the text. -/
theorem Modified.length_lt {cs rest : List Char} (h : Modified cs rest) :
    (trimStart rest).length < cs.length := by
  obtain ⟨m, c, -, hdrop, -⟩ := h
  have hlength := congrArg List.length hdrop
  have htrim := (List.dropWhile_sublist isBlank (l := rest)).length_le
  simp only [List.length_drop, List.length_cons, trimStart] at hlength htrim ⊢
  omega

/-- A modifier that one text starts with is found in the other too; but there it may stand at the
    very end, if no more than blanks follow. -/
theorem Modified.respaced {rest : List Char} (ha : Modified a rest) (h : Respaced true a b) :
    (∃ rest', Modified b rest' ∧ Respaced false rest rest') ∨
      (b ∈ modifiers ∧ ∀ c ∈ rest, isBlank c = true) := by
  have hmodifiers : ∀ m ∈ modifiers, (m.all fun c => !isBlank c) = true := by decide
  obtain ⟨m, c, hm, hdrop, hc⟩ := ha
  have hmem : m ∈ modifiers := List.mem_of_find?_eq_some hm
  obtain ⟨hin, hrest⟩ := h.isPrefixOf (forall_not_isBlank (hmodifiers m hmem))
  have hpre : m.isPrefixOf a = true := List.find?_some (p := fun w : List Char => w.isPrefixOf a) hm
  have hb : modifiers.find? (·.isPrefixOf b) = some m := by
    rw [← hm]
    exact List.find?_congr fun w hw =>
      (h.isPrefixOf (forall_not_isBlank (hmodifiers w hw))).1.symm
  have hafter := hrest hpre
  rw [hdrop] at hafter
  cases hd : b.drop m.length with
  | nil =>
    rw [hd] at hafter
    obtain ⟨t, rfl⟩ := List.isPrefixOf_iff_prefix.mp (hin ▸ hpre)
    rw [List.drop_left] at hd
    rw [hd, List.append_nil]
    exact .inr ⟨hmem, (List.forall_mem_cons.mp hafter.forall_isBlank).2⟩
  | cons d rest' =>
    rw [hd] at hafter
    have hdblank : isBlank d = true := by
      cases hafter with
      | char _ _ => exact hc
      | gap _ hends _ => exact endsWord_cons.mp hends
    have hwords := respaced_iff.mp hafter.loose
    rw [words_blank hc, words_blank hdblank] at hwords
    exact .inl ⟨rest', ⟨m, d, hb, hd, hdblank⟩, respaced_iff.mpr hwords⟩

/-- Where no more than a modifier and blanks are left, there is no keyword. -/
theorem keyword?_of_modifier {m : List Char} (h : m ∈ modifiers) :
    keyword? (skipModifiers m) = none := by
  have hall : ∀ m ∈ modifiers, keyword? (skipModifiers m) = none := by decide +kernel
  exact hall m h

/-- After a modifier and blanks there is no keyword. -/
theorem keyword?_of_blank {cs rest : List Char} (h : Modified cs rest)
    (hrest : ∀ c ∈ rest, isBlank c = true) : keyword? (skipModifiers cs) = none := by
  rw [skipModifiers_of_modified h, trimStart, List.dropWhile_eq_nil_iff.2 hrest]
  decide +kernel

/-- Modifiers at the start of both texts leave the same keyword, or none. -/
theorem sameHeader_skipModifiers (h : Respaced true a b) :
    SameHeader (keyword? (skipModifiers a)) (keyword? (skipModifiers b)) := by
  generalize hn : a.length = n
  induction n using Nat.strongRecOn generalizing a b with
  | _ n ih =>
    by_cases ha : ∃ rest, Modified a rest
    · obtain ⟨rest, ha⟩ := ha
      -- a modifier that only one text has stands at the end of the other
      rcases ha.respaced h with ⟨rest', hb, hrest⟩ | ⟨hb, hrest⟩
      · rw [skipModifiers_of_modified ha, skipModifiers_of_modified hb]
        exact ih _ (hn ▸ ha.length_lt) hrest.trimStart rfl
      · rw [keyword?_of_blank ha hrest, keyword?_of_modifier hb]
        exact .none
    · by_cases hb : ∃ rest, Modified b rest
      · obtain ⟨rest, hb⟩ := hb
        rcases hb.respaced h.symm with ⟨rest', ha', -⟩ | ⟨ha', hrest⟩
        · exact absurd ⟨rest', ha'⟩ ha
        · rw [keyword?_of_modifier ha', keyword?_of_blank hb hrest]
          exact .none
      · rw [skipModifiers_of_not_modified (not_exists.mp ha),
          skipModifiers_of_not_modified (not_exists.mp hb)]
        exact sameHeader_keyword? h

/-- Respaced lines are headers of the same kind, with respaced texts after the keyword. -/
theorem sameHeader_header? (h : Respaced false a b) : SameHeader (header? a) (header? b) :=
  sameHeader_skipModifiers (respaced_skipAttributes h.trimStart)

-- ── What is left is a part of what was there ──────────────────────────────────

/-- What is left after the attributes is the end of the text. -/
theorem skipAttributes_isSuffix (cs : List Char) : skipAttributes cs <:+ cs := by
  fun_induction skipAttributes cs with
  | case1 r rest hr ih =>
    have hrest : rest <:+ r.dropWhile (· != ']') := hr ▸ List.suffix_cons ']' rest
    exact ih.trans ((List.dropWhile_suffix isBlank).trans (hrest.trans
      ((List.dropWhile_suffix _).trans (List.suffix_append ['@', '['] r))))
  | case2 _ _ => exact List.suffix_rfl
  | case3 _ _ => exact List.suffix_rfl

/-- What is left after the modifiers is the end of the text. -/
theorem skipModifiers_isSuffix (cs : List Char) : skipModifiers cs <:+ cs := by
  fun_induction skipModifiers cs with
  | case1 _ _ => exact List.suffix_rfl
  | case2 _ _ _ _ => exact List.suffix_rfl
  | case3 cs m _ c r hdrop _ ih =>
    have hrest : r <:+ cs.drop m.length := hdrop ▸ List.suffix_cons c r
    exact ih.trans ((List.dropWhile_suffix isBlank).trans (hrest.trans (List.drop_suffix ..)))
  | case4 _ _ _ _ _ _ _ => exact List.suffix_rfl

/-- What is left after the keyword is the end of the text. -/
theorem keyword?_isSuffix {cs after : List Char} {kind : DeclarationKind}
    (h : keyword? cs = some (kind, after)) : after <:+ cs := by
  obtain ⟨k, -, hk⟩ := List.exists_of_findSome?_eq_some h
  simp only at hk
  split at hk
  · split at hk
    · cases hk
    · obtain ⟨kind', -, heq⟩ := Option.map_eq_some_iff.mp hk
      cases heq
      exact List.drop_suffix ..
  · cases hk

/-- The text after the keyword of a header line is the end of the line. -/
theorem header?_isSuffix {line after : List Char} {kind : DeclarationKind}
    (h : header? line = some (kind, after)) : after <:+ line :=
  (keyword?_isSuffix h).trans ((skipModifiers_isSuffix _).trans
    ((skipAttributes_isSuffix _).trans (List.dropWhile_suffix isBlank)))

/-- What is left after the label is the end of the text. -/
theorem splitLabel_isSuffix (cs : List Char) : (splitLabel cs).2 <:+ cs :=
  (List.dropWhile_suffix _).trans (List.dropWhile_suffix isBlank)

-- ── Names and statements ──────────────────────────────────────────────────────

/-- Respaced texts start with the same name. -/
theorem respaced_splitLabel (h : Respaced inside a b) :
    (splitLabel a).1 = (splitLabel b).1 ∧ Respaced true (splitLabel a).2 (splitLabel b).2 := by
  refine h.trimStart.span fun c hc => ?_
  rw [endsLabel, hc]
  rfl

/-- The mark of a body is a colon with an equals sign right after it. -/
theorem head?_beq_equals (h : Respaced true a b) :
    (a.head? == some '=') = (b.head? == some '=') := by
  have hany : ∀ o : Option Char, (o == some '=') = o.any (· == '=') := by
    intro o
    cases o <;> rfl
  rw [hany, hany]
  exact h.any_head? fun c hc => beq_of_isBlank (by decide) hc

/-- Blanks open and close nothing. -/
theorem depthAfter_of_isBlank {c : Char} (hc : isBlank c = true) (depth : Nat) :
    depthAfter depth c = depth := by
  have hne : ∀ d, isBlank d = false → (c == d) = false := fun d hd => beq_of_isBlank hd hc
  have hopens : opensBracket c = false := by
    simp only [opensBracket, hne '(' (by decide), hne '[' (by decide), hne '{' (by decide),
      hne '⟨' (by decide), hne '⦃' (by decide), Bool.or_false]
  have hcloses : closesBracket c = false := by
    simp only [closesBracket, hne ')' (by decide), hne ']' (by decide), hne '}' (by decide),
      hne '⟩' (by decide), hne '⦄' (by decide), Bool.or_false]
  rw [depthAfter, hopens, hcloses]
  rfl

/-- A blank belongs to the statement and is no body mark. -/
theorem untilBody_blank {c : Char} (hc : isBlank c = true) (depth : Nat) (cs : List Char) :
    untilBody depth (c :: cs) = (c :: (untilBody depth cs).1, (untilBody depth cs).2) := by
  rw [untilBody, beq_of_isBlank (by decide) hc, depthAfter_of_isBlank hc, Bool.and_false,
    Bool.false_and, if_neg Bool.false_ne_true]

/-- A statement ends a word where its text does. -/
theorem endsWord_untilBody {cs : List Char} (h : EndsWord cs) (depth : Nat) :
    EndsWord (untilBody depth cs).1 := by
  cases cs with
  | nil => exact endsWord_nil
  | cons c cs =>
    rw [untilBody_blank (endsWord_cons.mp h)]
    exact endsWord_cons.mpr (endsWord_cons.mp h)

/-- The bodies of respaced texts begin at the same character. -/
theorem respaced_untilBody (depth : Nat) (h : Respaced inside a b) :
    Respaced inside (untilBody depth a).1 (untilBody depth b).1 ∧
      (untilBody depth a).2 = (untilBody depth b).2 := by
  induction h generalizing depth with
  | nil => exact ⟨.nil, rfl⟩
  | @char inside c a b hc h ih =>
    rw [untilBody, untilBody, head?_beq_equals h]
    split
    · exact ⟨.empty, rfl⟩
    · exact ⟨.char hc (ih _).1, (ih _).2⟩
  | left hc _ ih =>
    rw [untilBody_blank hc]
    exact ⟨.left hc (ih depth).1, (ih depth).2⟩
  | right hc _ ih =>
    rw [untilBody_blank hc]
    exact ⟨.right hc (ih depth).1, (ih depth).2⟩
  | gap ha hb _ ih =>
    exact ⟨.gap (endsWord_untilBody ha depth) (endsWord_untilBody hb depth) (ih depth).1,
      (ih depth).2⟩

/-- Blanks before the colon do not matter. -/
theorem splitHeader_blank {c : Char} (hc : isBlank c = true) (depth : Nat) (cs : List Char) :
    splitHeader depth (c :: cs) = splitHeader depth cs := by
  rw [splitHeader, beq_of_isBlank (by decide) hc, depthAfter_of_isBlank hc, Bool.and_false,
    if_neg Bool.false_ne_true]

/-- Respaced headers have respaced statements, or none. -/
theorem respaced_splitHeader (depth : Nat) (h : Respaced inside a b) :
    Option.Rel (Respaced false) (splitHeader depth a).1 (splitHeader depth b).1 ∧
      (splitHeader depth a).2 = (splitHeader depth b).2 := by
  induction h generalizing depth with
  | nil => exact ⟨.none, rfl⟩
  | @char inside c a b hc h ih =>
    rw [splitHeader, splitHeader, head?_beq_equals h]
    split
    · split
      · exact ⟨.none, rfl⟩
      · obtain ⟨hstatement, hbody⟩ := respaced_untilBody 0 h
        exact ⟨.some hstatement.loose, hbody⟩
    · exact ih _
  | left hc _ ih =>
    rw [splitHeader_blank hc]
    exact ih depth
  | right hc _ ih =>
    rw [splitHeader_blank hc]
    exact ih depth
  | gap _ _ _ ih => exact ih depth

/-- A statement is a beginning of the text. -/
theorem untilBody_isPrefix (depth : Nat) (cs : List Char) : (untilBody depth cs).1 <+: cs := by
  induction cs generalizing depth with
  | nil => exact ⟨[], rfl⟩
  | cons c cs ih =>
    rw [untilBody]
    split
    · exact ⟨c :: cs, rfl⟩
    · exact List.cons_prefix_cons.mpr ⟨rfl, ih _⟩

/-- The statement is a part of the header. -/
theorem splitHeader_isInfix {depth : Nat} {cs statement : List Char}
    (h : (splitHeader depth cs).1 = some statement) : statement <:+: cs := by
  induction cs generalizing depth with
  | nil => cases h
  | cons c cs ih =>
    rw [splitHeader] at h
    have hrest : cs <:+: c :: cs := (List.suffix_cons c cs).isInfix
    split at h
    · split at h
      · cases h
      · cases h
        exact (untilBody_isPrefix 0 cs).isInfix.trans hrest
    · exact (ih h).trans hrest

/-- Respaced headers without comments have the same statement, and a body or none. -/
theorem parseHeader_eq (h : Respaced inside a b) (ha : CommentFree a) (hb : CommentFree b) :
    parseHeader a = parseHeader b := by
  obtain ⟨hstatement, hbody⟩ := respaced_splitHeader 0 h
  have hnormal : (splitHeader 0 a).1.map normalize = (splitHeader 0 b).1.map normalize := by
    rcases rel_cases hstatement with ⟨hs, ht⟩ | ⟨s, t, hs, ht, hst⟩
    · rw [hs, ht]
    · rw [hs, ht, Option.map_some, Option.map_some,
        (ha.of_isInfix (splitHeader_isInfix hs)).normalize_eq,
        (hb.of_isInfix (splitHeader_isInfix ht)).normalize_eq, collapse, collapse,
        respaced_iff.mp hst]
  simp only [parseHeader, hnormal, hbody]

end ProofLedger.Declaration

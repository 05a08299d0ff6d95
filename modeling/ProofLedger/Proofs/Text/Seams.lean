import ProofLedger.Proofs.Text.Comments

/-!
# Stripping part by part

Stripping reads a text once, from left to right, and looks no further than one character ahead. So
a text may be cut wherever no mark of a comment is cut in two: what comes after the cut is stripped
as if it were read alone, from the region that the first part leaves (`stripFrom_append`). A comment
that begins outside of all comments is therefore replaced on the spot, a line comment by nothing
and a block comment by its newlines and a space, whatever texts there are around it
(`stripComments_replaces_in_place`).
-/

namespace ProofLedger.Text

/-- What the text belongs to that follows a text. -/
def regionAfter : Region → List Char → Region
  | region, [] => region
  | .lineComment, '\n' :: r => regionAfter .code r
  | .lineComment, _ :: r => regionAfter .lineComment r
  | .code, '/' :: '-' :: r => regionAfter (.blockComment 0) r
  | .code, '-' :: '-' :: r => regionAfter .lineComment r
  | .code, _ :: r => regionAfter .code r
  | .blockComment d, '/' :: '-' :: r => regionAfter (.blockComment (d + 1)) r
  | .blockComment 0, '-' :: '/' :: r => regionAfter .code r
  | .blockComment (d + 1), '-' :: '/' :: r => regionAfter (.blockComment d) r
  | .blockComment d, _ :: r => regionAfter (.blockComment d) r

/-- What follows the end of a block comment, with so many more open around the innermost; none if
    it is never closed. -/
def afterComment? : Nat → List Char → Option (List Char)
  | _, [] => none
  | d, '/' :: '-' :: r => afterComment? (d + 1) r
  | 0, '-' :: '/' :: r => some r
  | d + 1, '-' :: '/' :: r => afterComment? d r
  | d, _ :: r => afterComment? d r

/-- Whether a text does not end with a character that a mark of a comment may begin with. -/
def EndsClear (cs : List Char) : Prop := ∀ x ∈ cs.getLast?, x ≠ '-' ∧ x ≠ '/'

instance (cs : List Char) : Decidable (EndsClear cs) :=
  decidable_of_iff (cs.getLast?.all (fun x => x != '-' && x != '/') = true) (by
    rw [EndsClear]
    cases cs.getLast? <;> simp)

variable {a : List Char}

-- ── Cutting a text ────────────────────────────────────────────────────────────

theorem EndsClear.tail {x : Char} (h : EndsClear (x :: a)) : EndsClear a := by
  intro y hy
  cases a with
  | nil => cases hy
  | cons z zs =>
    refine h y ?_
    rw [List.getLast?_cons_cons]
    exact hy

/-- Where no mark begins, none begins either with what follows the text. -/
theorem EndsClear.unmarked {x first second : Char} (h : EndsClear (x :: a))
    (hfirst : first = '-' ∨ first = '/') (b : List Char)
    (hno : ∀ r, x = first → a = second :: r → False) :
    ∀ r, x = first → a ++ b = second :: r → False := by
  intro r hx hab
  cases a with
  | nil =>
    obtain ⟨hdash, hslash⟩ := h x rfl
    rcases hfirst with rfl | rfl
    · exact hdash hx
    · exact hslash hx
  | cons y ys =>
    obtain ⟨rfl, -⟩ := List.cons.inj hab
    exact hno ys hx rfl

/-- A text that is cut at no mark may be stripped part by part. -/
theorem stripFrom_append (region : Region) {a : List Char} (h : EndsClear a) (b : List Char) :
    stripFrom region (a ++ b) = stripFrom region a ++ stripFrom (regionAfter region a) b := by
  fun_induction stripFrom region a with
  | case1 region => rw [regionAfter]; rfl
  | case2 r ih =>
    rw [List.cons_append, stripFrom, ih h.tail, regionAfter]
    rfl
  | case3 x r hx ih =>
    rw [List.cons_append, stripFrom.eq_3 x _ hx, ih h.tail, regionAfter.eq_3 x r hx]
  | case4 r ih =>
    rw [List.cons_append, List.cons_append, stripFrom, ih h.tail.tail, regionAfter]
  | case5 r ih =>
    rw [List.cons_append, List.cons_append, stripFrom, ih h.tail.tail, regionAfter]
  | case6 x r hslash hdash ih =>
    rw [List.cons_append, stripFrom.eq_6 x (r ++ b) (h.unmarked (.inr rfl) b hslash)
      (h.unmarked (.inl rfl) b hdash), ih h.tail, regionAfter.eq_6 x r hslash hdash]
    rfl
  | case7 d r ih =>
    rw [List.cons_append, List.cons_append, stripFrom, ih h.tail.tail, regionAfter]
  | case8 r ih =>
    rw [List.cons_append, List.cons_append, stripFrom, ih h.tail.tail, regionAfter]
    rfl
  | case9 d r ih =>
    rw [List.cons_append, List.cons_append, stripFrom, ih h.tail.tail, regionAfter]
  | case10 d r ih =>
    rw [List.cons_append, stripFrom, ih h.tail,
      regionAfter.eq_10 d '\n' r (by simp) (by simp) (by simp)]
    rfl
  | case11 d x r hopen hclose hinner hx ih =>
    rw [List.cons_append, stripFrom.eq_11 d x (r ++ b) (h.unmarked (.inr rfl) b hopen)
      (fun r' hd => h.unmarked (.inl rfl) b (fun r hx hr => hclose r hd hx hr) r')
      (fun d' r' hd => h.unmarked (.inl rfl) b (fun r hx hr => hinner d' r hd hx hr) r') hx,
      ih h.tail, regionAfter.eq_10 d x r hopen hclose hinner]

-- ── Newlines ──────────────────────────────────────────────────────────────────

/-- Stripping keeps every newline, also those in comments. -/
theorem count_newline_stripFrom (region : Region) (cs : List Char) :
    (stripFrom region cs).count '\n' = cs.count '\n' := by
  have hskip : ∀ (x : Char) (r : List Char), x ≠ '\n' →
      (x :: r).count '\n' = r.count '\n' := by
    intro x r hx
    exact List.count_cons_of_ne hx
  have hmark : ∀ (x y : Char) (r : List Char), x ≠ '\n' → y ≠ '\n' →
      (x :: y :: r).count '\n' = r.count '\n' := by
    intro x y r hx hy
    rw [hskip x (y :: r) hx, hskip y r hy]
  fun_induction stripFrom region cs with
  | case1 => rfl
  | case2 r ih => rw [List.count_cons_self, List.count_cons_self, ih]
  | case3 x r hx ih => rw [hskip x r hx, ih]
  | case4 r ih => rw [hmark '/' '-' r (by decide) (by decide), ih]
  | case5 r ih => rw [hmark '-' '-' r (by decide) (by decide), ih]
  | case6 x r _ _ ih => rw [List.count_cons, List.count_cons, ih]
  | case7 d r ih => rw [hmark '/' '-' r (by decide) (by decide), ih]
  | case8 r ih => rw [hskip ' ' _ (by decide), hmark '-' '/' r (by decide) (by decide), ih]
  | case9 d r ih => rw [hmark '-' '/' r (by decide) (by decide), ih]
  | case10 d r ih => rw [List.count_cons_self, List.count_cons_self, ih]
  | case11 d x r _ _ _ hx ih => rw [hskip x r hx, ih]

-- ── Whole comments ────────────────────────────────────────────────────────────

/-- Of a line comment the newline at its end is left. -/
theorem stripFrom_lineComment {c : List Char} (h : '\n' ∉ c) (b : List Char) :
    stripFrom .lineComment (c ++ '\n' :: b) = '\n' :: stripFrom .code b := by
  induction c with
  | nil => rw [List.nil_append, stripFrom]
  | cons x c ih =>
    obtain ⟨hx, hc⟩ := not_or.mp (mt List.mem_cons.mpr h)
    rw [List.cons_append, stripFrom.eq_3 x _ (Ne.symm hx), ih hc]

/-- A comment that is closed is closed there whatever follows. -/
theorem afterComment?_append {outer : Nat} {cs rest : List Char}
    (h : afterComment? outer cs = some rest) (b : List Char) :
    afterComment? outer (cs ++ b) = some (rest ++ b) := by
  fun_induction afterComment? outer cs with
  | case1 => cases h
  | case2 d r ih =>
    rw [List.cons_append, List.cons_append, afterComment?]
    exact ih h
  | case3 r =>
    obtain rfl := Option.some.inj h
    rw [List.cons_append, List.cons_append, afterComment?]
  | case4 d r ih =>
    rw [List.cons_append, List.cons_append, afterComment?]
    exact ih h
  | case5 d x r hopen hclose hinner ih =>
    -- the comment is not closed yet, so the next character is there in both texts
    obtain ⟨y, ys, rfl⟩ : ∃ y ys, r = y :: ys := by
      cases r with
      | nil => cases h
      | cons y ys => exact ⟨y, ys, rfl⟩
    rw [List.cons_append, afterComment?.eq_5]
    · exact ih h
    · intro r' hx hr
      exact hopen ys hx (by rw [(List.cons.inj hr).1])
    · intro r' hd hx hr
      exact hclose ys hd hx (by rw [(List.cons.inj hr).1])
    · intro d' r' hd hx hr
      exact hinner d' ys hd hx (by rw [(List.cons.inj hr).1])

/-- Of a block comment that is closed its newlines are left, and a space. -/
theorem stripFrom_blockComment {outer : Nat} {cs rest : List Char}
    (h : afterComment? outer cs = some rest) :
    ∃ inside, cs = inside ++ rest ∧ stripFrom (.blockComment outer) cs =
      inside.filter (· == '\n') ++ ' ' :: stripFrom .code rest := by
  fun_induction afterComment? outer cs with
  | case1 => cases h
  | case2 d r ih =>
    obtain ⟨inside, rfl, hstrip⟩ := ih h
    refine ⟨'/' :: '-' :: inside, rfl, ?_⟩
    rw [stripFrom, hstrip]
    rfl
  | case3 r =>
    obtain rfl := Option.some.inj h
    refine ⟨['-', '/'], rfl, ?_⟩
    rw [stripFrom]
    rfl
  | case4 d r ih =>
    obtain ⟨inside, rfl, hstrip⟩ := ih h
    refine ⟨'-' :: '/' :: inside, rfl, ?_⟩
    rw [stripFrom, hstrip]
    rfl
  | case5 d x r hopen hclose hinner ih =>
    obtain ⟨inside, rfl, hstrip⟩ := ih h
    refine ⟨x :: inside, rfl, ?_⟩
    by_cases hx : x = '\n'
    · subst hx
      rw [stripFrom, hstrip]
      rfl
    · rw [stripFrom.eq_11 d x _ hopen hclose hinner hx, hstrip, List.filter_cons_of_neg]
      rw [beq_iff_eq]
      exact hx

/-- A text without comments has no mark of a comment in it. -/
theorem CommentFree.not_isInfix {cs : List Char} (h : CommentFree cs) {x y : Char}
    (hbegins : beginsComment x y = true) : ¬ [x, y] <:+: cs := by
  intro hin
  have hnext := (commentFree_cons.mp (h.of_isInfix hin)).1 y rfl
  rw [hbegins] at hnext
  cases hnext

/-- Stripping leaves no mark of a comment, keeps the newlines and has nothing left to do a second
    time. A comment that begins outside of all comments is replaced on the spot: a line comment up
    to its newline by nothing, and a block comment up to where it is closed by its newlines and a
    space. What stands before and after it is stripped by itself. -/
theorem stripComments_replaces_in_place (t : List Char) :
    (¬ ['-', '-'] <:+: stripComments t ∧ ¬ ['/', '-'] <:+: stripComments t) ∧
    (stripComments t).count '\n' = t.count '\n' ∧
    stripComments (stripComments t) = stripComments t ∧
    ∀ a b c : List Char, regionAfter .code a = .code → EndsClear a →
      ('\n' ∉ c → stripComments (a ++ ['-', '-'] ++ c ++ ['\n'] ++ b) =
        stripComments a ++ ['\n'] ++ stripComments b) ∧
      (afterComment? 0 (c ++ ['-', '/']) = some [] →
        stripComments (a ++ ['/', '-'] ++ c ++ ['-', '/'] ++ b) =
          stripComments a ++ c.filter (· == '\n') ++ [' '] ++ stripComments b) := by
  have hfree := commentFree_stripComments t
  refine ⟨⟨hfree.not_isInfix (by decide), hfree.not_isInfix (by decide)⟩,
    count_newline_stripFrom .code t, hfree.stripComments_eq, ?_⟩
  intro a b c hregion hclear
  have hcut : ∀ rest, stripComments (a ++ rest) = stripComments a ++ stripFrom .code rest := by
    intro rest
    rw [stripComments, stripFrom_append .code hclear rest, hregion, stripComments]
  constructor
  · intro hc
    have hline : stripFrom .code ('-' :: '-' :: (c ++ '\n' :: b)) = '\n' :: stripFrom .code b := by
      rw [stripFrom, stripFrom_lineComment hc b]
    simp only [List.append_assoc, List.cons_append, List.nil_append]
    rw [hcut, hline]
    rfl
  · intro hclosed
    obtain ⟨inside, hinside, hstrip⟩ := stripFrom_blockComment (afterComment?_append hclosed b)
    obtain rfl : c ++ ['-', '/'] = inside := List.append_cancel_right hinside
    have hmark : (c ++ ['-', '/']).filter (· == '\n') = c.filter (· == '\n') := by
      rw [List.filter_append]
      exact List.append_nil _
    have hblock : stripFrom .code ('/' :: '-' :: (c ++ '-' :: '/' :: b)) =
        c.filter (· == '\n') ++ ' ' :: stripFrom .code b := by
      rw [hmark, List.append_assoc] at hstrip
      rw [stripFrom]
      exact hstrip
    simp only [List.append_assoc, List.cons_append, List.nil_append]
    rw [hcut, hblock]
    rfl

/-- A comment within which another one lies, and marks that close nothing, between a text that has
    comments itself and one that begins with what would have closed it. -/
theorem stripComments_replaces_in_place_nested :
    let a := "/- x -/ a - b / c\n".toList
    let c := " one /- two\n-/ -- --\n-".toList
    let b := "-/ -- end".toList
    (regionAfter .code a = .code ∧ EndsClear a) ∧
      ('\n' ∉ " note -/ /-".toList ∧
        stripComments (a ++ ['-', '-'] ++ " note -/ /-".toList ++ ['\n'] ++ b) =
          stripComments a ++ ['\n'] ++ stripComments b) ∧
      (afterComment? 0 (c ++ ['-', '/']) = some [] ∧
        stripComments (a ++ ['/', '-'] ++ c ++ ['-', '/'] ++ b) =
          stripComments a ++ ['\n', '\n'] ++ [' '] ++ stripComments b) := by
  intro a c b
  have hregion : regionAfter .code a = .code := by decide +kernel
  have hclear : EndsClear a := by decide +kernel
  have hline : '\n' ∉ " note -/ /-".toList := by decide +kernel
  have hclosed : afterComment? 0 (c ++ ['-', '/']) = some [] := by decide +kernel
  obtain ⟨-, -, -, hreplaced⟩ := stripComments_replaces_in_place a
  exact ⟨⟨hregion, hclear⟩, ⟨hline, (hreplaced a b _ hregion hclear).1 hline⟩,
    hclosed, (hreplaced a b c hregion hclear).2 hclosed⟩

end ProofLedger.Text

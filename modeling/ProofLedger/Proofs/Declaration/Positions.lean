import Mathlib.Data.Nat.PSub
import ProofLedger.Declaration.Block
import ProofLedger.Proofs.Declaration.Header

/-!
# Blocks by position

A reader that does not take its text apart finds the same blocks with positions: lines have
indices, which count from zero, and the parts of a header have offsets in bytes, which must not
fall inside of a character. Here every such position is checked before it is used (`cutAt?`,
`slice?`, `linesBetween?`), and numbers of lines do not exceed 32 bits. No check ever fails, and
what is found with positions is what is found without them (`scanAt?_eq`).
-/

namespace ProofLedger

open Text

-- ── Offsets in bytes ──────────────────────────────────────────────────────────

namespace Text

/-- The number of bytes of a text. -/
def byteLength : List Char → Nat
  | [] => 0
  | c :: cs => c.utf8Size + byteLength cs

/-- A text cut at an offset, unless that is beyond its end or inside of a character. -/
def cutAt? : Nat → List Char → Option (List Char × List Char)
  | 0, cs => some ([], cs)
  | _ + 1, [] => none
  | n + 1, c :: cs =>
    if c.utf8Size ≤ n + 1 then
      (cutAt? (n + 1 - c.utf8Size) cs).map fun parts => (c :: parts.1, parts.2)
    else none

/-- The part of a text between two offsets, unless they are out of order or no place to cut. -/
def slice? (start stop : Nat) (cs : List Char) : Option (List Char) :=
  if start ≤ stop then
    (cutAt? stop cs).bind fun parts => (cutAt? start parts.1).map (·.2)
  else none

/-- The offset of the first character of a class. -/
def offsetOf? (p : Char → Bool) : List Char → Option Nat
  | [] => none
  | c :: cs => if p c then some 0 else (offsetOf? p cs).map (· + c.utf8Size)

theorem byteLength_cons (c : Char) (cs : List Char) :
    byteLength (c :: cs) = c.utf8Size + byteLength cs := rfl

theorem byteLength_append (a b : List Char) :
    byteLength (a ++ b) = byteLength a + byteLength b := by
  induction a with
  | nil => exact (Nat.zero_add _).symm
  | cons c a ih => rw [List.cons_append, byteLength_cons, byteLength_cons, ih, Nat.add_assoc]

/-- The end of the first part is a place to cut. -/
theorem cutAt?_append (a b : List Char) : cutAt? (byteLength a) (a ++ b) = some (a, b) := by
  induction a with
  | nil => rw [byteLength, List.nil_append, cutAt?]
  | cons c a ih =>
    have hpos := c.utf8Size_pos
    obtain ⟨n, hn⟩ : ∃ n, byteLength (c :: a) = n + 1 :=
      ⟨byteLength (c :: a) - 1, by rw [byteLength_cons]; omega⟩
    have hrest : n + 1 - c.utf8Size = byteLength a := by
      rw [byteLength_cons] at hn
      omega
    have hfits : c.utf8Size ≤ n + 1 := by
      rw [byteLength_cons] at hn
      omega
    rw [hn, List.cons_append, cutAt?, if_pos hfits, hrest, ih]
    rfl

theorem slice?_append (a b c : List Char) :
    slice? (byteLength a) (byteLength a + byteLength b) (a ++ b ++ c) = some b := by
  rw [slice?, if_pos (Nat.le_add_right _ _), ← byteLength_append, cutAt?_append]
  show (cutAt? (byteLength a) (a ++ b)).map (·.2) = some b
  rw [cutAt?_append]
  rfl

/-- Where a class begins, or else the text ends, the characters outside of it end. -/
theorem offsetOf?_getD (p : Char → Bool) (cs : List Char) :
    (offsetOf? p cs).getD (byteLength cs) = byteLength (cs.takeWhile (!p ·)) := by
  induction cs with
  | nil => rfl
  | cons c cs ih =>
    by_cases hc : p c = true
    · rw [offsetOf?, if_pos hc, List.takeWhile_cons_of_neg (by rw [hc]; decide)]
      rfl
    · rw [offsetOf?, if_neg hc, List.takeWhile_cons_of_pos (by simpa using hc), byteLength_cons,
        byteLength_cons, ← ih]
      cases offsetOf? p cs with
      | none => rfl
      | some n => exact Nat.add_comm n c.utf8Size

theorem unlines_append_cons (a b : List Char) (ls : List (List Char)) :
    unlines ((a ++ b) :: ls) = a ++ unlines (b :: ls) := by
  cases ls with
  | nil => rfl
  | cons l ls => exact List.append_assoc a b _

end Text

-- ── Headers ───────────────────────────────────────────────────────────────────

namespace Declaration

/-- The name after a keyword and what follows it, cut at the offset where the name ends. -/
def splitLabelAt? (cs : List Char) : Option (List Char × List Char) :=
  let trimmed := trimStart cs
  cutAt? ((offsetOf? endsLabel trimmed).getD (byteLength trimmed)) trimmed

/-- The offsets of the first colon and of the body mark, both outside of all brackets, in a text
    that starts at an offset. A colon that is known already stays. -/
def marks (depth offset : Nat) (colon : Option Nat) : List Char → Option Nat × Option Nat
  | [] => (colon, none)
  | c :: r =>
    if depth = 0 && c == ':' then
      if r.head? == some '=' then (colon, some offset)
      else marks depth (offset + c.utf8Size) (colon.or (some offset)) r
    else marks (depthAfter depth c) (offset + c.utf8Size) colon r

/-- The text between the first colon and the body mark, or else the end of the text, and whether
    there is a body mark. -/
def splitHeaderAt? (cs : List Char) : Option (Option (List Char) × Bool) :=
  match marks 0 0 none cs with
  | (none, body) => some (none, body.isSome)
  | (some colon, body) =>
    (slice? (colon + 1) (body.getD (byteLength cs)) cs).map fun statement =>
      (some statement, body.isSome)

/-- The normal form of a statement and whether there is a body, found with offsets. -/
def parseHeaderAt? (cs : List Char) : Option (Option (List Char) × Bool) :=
  (splitHeaderAt? cs).map fun (statement, hasBody) =>
    match statement.map normalize with
    | some (c :: r) => (some (c :: r), hasBody)
    | _ => (none, hasBody)

theorem splitLabelAt?_eq (cs : List Char) : splitLabelAt? cs = some (splitLabel cs) := by
  have hparts := List.takeWhile_append_dropWhile (p := (!endsLabel ·)) (l := trimStart cs)
  have hcut := cutAt?_append ((trimStart cs).takeWhile (!endsLabel ·))
    ((trimStart cs).dropWhile (!endsLabel ·))
  rw [hparts] at hcut
  rw [splitLabelAt?, offsetOf?_getD, hcut]
  rfl

/-- A colon outside of all brackets leaves the number of open brackets alone. -/
theorem depthAfter_colon {depth : Nat} {c : Char} (h : (decide (depth = 0) && c == ':') = true) :
    depthAfter depth c = 0 := by
  rw [Bool.and_eq_true, decide_eq_true_eq, beq_iff_eq] at h
  obtain ⟨rfl, rfl⟩ := h
  decide

/-- With the colon known, only the body mark is looked for. -/
theorem marks_of_colon (colon depth offset : Nat) (cs : List Char) :
    marks depth offset (some colon) cs =
      (some colon, if (untilBody depth cs).2 then
        some (offset + byteLength (untilBody depth cs).1) else none) := by
  induction cs generalizing depth offset with
  | nil => rfl
  | cons c r ih =>
    have hnext : ∀ d, marks d (offset + c.utf8Size) (some colon) r =
        (some colon, if (untilBody d r).2 then
          some (offset + byteLength (c :: (untilBody d r).1)) else none) := by
      intro d
      rw [ih, byteLength_cons, Nat.add_assoc]
    rw [marks, untilBody]
    by_cases hcolon : (decide (depth = 0) && c == ':') = true
    · rw [if_pos hcolon, hcolon, Bool.true_and, depthAfter_colon hcolon]
      by_cases hmark : (r.head? == some '=') = true
      · rw [if_pos hmark, if_pos hmark]
        rfl
      · rw [if_neg hmark, if_neg hmark, ← hnext]
        rw [Bool.and_eq_true, decide_eq_true_eq] at hcolon
        rw [hcolon.1]
        rfl
    · have hno : ¬ (decide (depth = 0) && c == ':' && r.head? == some '=') = true := by
        rw [Bool.and_eq_true]
        exact fun h => hcolon h.1
      rw [if_neg hcolon, if_neg hno, hnext]

/-- A body that is not marked leaves nothing after the statement. -/
theorem untilBody_of_not_marked {depth : Nat} {cs : List Char}
    (h : (untilBody depth cs).2 = false) : (untilBody depth cs).1 = cs := by
  induction cs generalizing depth with
  | nil => rfl
  | cons c r ih =>
    rw [untilBody] at h ⊢
    split at h
    · cases h
    · next hno =>
      rw [if_neg hno]
      exact congrArg (c :: ·) (ih h)

/-- Without a statement there is no colon. -/
theorem marks_of_no_statement {depth : Nat} {cs : List Char} (h : (splitHeader depth cs).1 = none)
    (offset : Nat) : (marks depth offset none cs).1 = none ∧
      (marks depth offset none cs).2.isSome = (splitHeader depth cs).2 := by
  induction cs generalizing depth offset with
  | nil => exact ⟨rfl, rfl⟩
  | cons c r ih =>
    rw [splitHeader] at h ⊢
    rw [marks]
    by_cases hcolon : (decide (depth = 0) && c == ':') = true
    · rw [if_pos hcolon] at h ⊢
      by_cases hmark : (r.head? == some '=') = true
      · rw [if_pos hcolon, if_pos hmark, if_pos hmark]
        exact ⟨rfl, rfl⟩
      · rw [if_neg hmark] at h
        cases h
    · rw [if_neg hcolon] at h ⊢
      rw [if_neg hcolon]
      exact ih h _

/-- A statement stands right after the colon, and it ends at the body mark or with the text. -/
theorem marks_of_statement {depth : Nat} {cs statement : List Char}
    (h : (splitHeader depth cs).1 = some statement) :
    ∃ before after, cs = before ++ [':'] ++ statement ++ after ∧
      ((splitHeader depth cs).2 = false → after = []) ∧
      ∀ offset, marks depth offset none cs = (some (offset + byteLength before),
        if (splitHeader depth cs).2 then
          some (offset + byteLength (before ++ [':'] ++ statement)) else none) := by
  induction cs generalizing depth with
  | nil => cases h
  | cons c r ih =>
    rw [splitHeader] at h ⊢
    by_cases hcolon : (decide (depth = 0) && c == ':') = true
    · rw [if_pos hcolon] at h ⊢
      by_cases hmark : (r.head? == some '=') = true
      · rw [if_pos hmark] at h
        cases h
      · rw [if_neg hmark] at h ⊢
        obtain rfl := Option.some.inj h
        obtain ⟨after, hafter⟩ := untilBody_isPrefix 0 r
        obtain ⟨hdepth, hc⟩ := Bool.and_eq_true_iff.mp hcolon
        obtain rfl := beq_iff_eq.mp hc
        obtain rfl := decide_eq_true_eq.mp hdepth
        refine ⟨[], after, congrArg (':' :: ·) hafter.symm, ?_, ?_⟩
        · intro hbody
          rw [untilBody_of_not_marked hbody] at hafter
          exact List.append_right_eq_self.mp hafter
        · intro offset
          rw [marks, if_pos hcolon, if_neg hmark]
          show marks 0 _ (some offset) r = _
          rw [marks_of_colon, List.nil_append, byteLength_append, ← Nat.add_assoc]
          rfl
    · rw [if_neg hcolon] at h ⊢
      obtain ⟨before, after, rfl, hbody, hmarks⟩ := ih h
      refine ⟨c :: before, after, rfl, hbody, fun offset => ?_⟩
      rw [marks, if_neg hcolon, hmarks, List.cons_append, List.cons_append, byteLength_cons,
        byteLength_cons, Nat.add_assoc, Nat.add_assoc]

theorem splitHeaderAt?_eq (cs : List Char) : splitHeaderAt? cs = some (splitHeader 0 cs) := by
  rw [splitHeaderAt?]
  cases hstatement : (splitHeader 0 cs).1 with
  | none =>
    obtain ⟨hcolon, hbody⟩ := marks_of_no_statement hstatement 0
    generalize marks 0 0 none cs = found at hcolon hbody
    obtain ⟨colon, body⟩ := found
    obtain rfl : colon = none := hcolon
    show some (none, body.isSome) = _
    rw [← hstatement, hbody]
  | some statement =>
    obtain ⟨before, after, hcs, hafter, hmarks⟩ := marks_of_statement hstatement
    rw [hmarks 0, Nat.zero_add, Nat.zero_add]
    have hcolon : byteLength before + 1 = byteLength (before ++ [':']) := by
      rw [byteLength_append]
      rfl
    have hstop : (if (splitHeader 0 cs).2 then some (byteLength (before ++ [':'] ++ statement))
        else none).getD (byteLength cs) = byteLength (before ++ [':']) + byteLength statement := by
      cases hbody : (splitHeader 0 cs).2 with
      | true => exact byteLength_append _ _
      | false =>
        rw [hafter hbody, List.append_nil] at hcs
        rw [← byteLength_append, ← hcs]
        rfl
    have hslice := slice?_append (before ++ [':']) statement after
    rw [← hcs] at hslice
    show (slice? (byteLength before + 1) _ cs).map _ = _
    rw [hstop, hcolon, hslice]
    refine congrArg some (Prod.ext hstatement.symm ?_)
    cases (splitHeader 0 cs).2 <;> rfl

theorem parseHeaderAt?_eq (cs : List Char) : parseHeaderAt? cs = some (parseHeader cs) := by
  rw [parseHeaderAt?, splitHeaderAt?_eq]
  rfl

end Declaration

-- ── Blocks ────────────────────────────────────────────────────────────────────

namespace Block

/-- A header line, by its index, with the offset at which its keyword ends. -/
structure HeaderAt where
  index : Nat
  kind : DeclarationKind
  keywordEnd : Nat

/-- The number of the line with an index, or the largest number there is. -/
def lineNumber (index : Nat) : Nat := min (index + 1) (2 ^ 32 - 1)

/-- The lines from an index up to another, unless they are out of order or out of range. -/
def linesBetween? (start stop : Nat) (ls : List (List Char)) : Option (List (List Char)) :=
  if start ≤ stop ∧ stop ≤ ls.length then some ((ls.take stop).drop start) else none

/-- The headers among some lines, the first of which has the given index. What follows a keyword
    is the end of its line. -/
def headersFrom (index : Nat) : List (List Char) → List HeaderAt
  | [] => []
  | line :: rest =>
    match Declaration.header? line with
    | none => headersFrom (index + 1) rest
    | some (kind, after) =>
      ⟨index, kind, byteLength line - byteLength after⟩ :: headersFrom (index + 1) rest

/-- The number of the last line of a block, which starts on a line and stops before an index: at
    the end of the text the number of lines is taken. -/
def endLineAt? (count startLine stop : Nat) : Option Nat :=
  if stop = count then some (max (min count (2 ^ 32 - 1)) startLine)
  else stop.ppred.map fun last => max (lineNumber last) startLine

/-- The block of a header that stops before the line with an index. -/
def blockAt? (ls : List (List Char)) (h : HeaderAt) (stop : Nat) : Option Block := do
  let startLine := lineNumber h.index
  let endLine ← endLineAt? ls.length startLine stop
  let text := unlines (← linesBetween? h.index stop ls)
  let (_, afterKeyword) ← cutAt? h.keywordEnd text
  let (name, rest) ← Declaration.splitLabelAt? afterKeyword
  let (statement, hasBody) ← Declaration.parseHeaderAt? rest
  return {
    declaration := {
      startLine
      endLine
      kind := h.kind
      label :=
        if h.kind == .example_ || name.isEmpty then h.kind.name ++ "@" ++ toString startLine
        else String.ofList name
      statement := if h.kind.isProof then statement.map String.ofList else none
      isProof := h.kind.isProof
      hasBody }
    text }

/-- The blocks of some headers, each of which reaches up to the next one. -/
def blocksAt? (ls : List (List Char)) : List HeaderAt → Option (List Block)
  | [] => some []
  | h :: rest => do
    let b ← blockAt? ls h ((rest.head?.map (·.index)).getD ls.length)
    return b :: (← blocksAt? ls rest)

/-- The blocks of a text without comments, found with positions. -/
def scanAt? (cs : List Char) : Option (List Block) :=
  blocksAt? (lines cs) (headersFrom 0 (lines cs))

/-- The lines that belong to a header that stands before them. -/
def bodyOf (ls : List (List Char)) : List (List Char) :=
  ls.takeWhile fun l => (Declaration.header? l).isNone

theorem lineNumber_of_lt {index : Nat} (h : index + 1 < 2 ^ 32) : lineNumber index = index + 1 :=
  Nat.min_eq_left (Nat.le_sub_one_of_lt h)

/-- Indices count from zero and numbers from one, so a block ends on the line whose number is the
    index where it stops. -/
theorem endLineAt?_eq {count startLine stop : Nat} (hpos : 1 ≤ startLine) (hle : startLine ≤ stop)
    (hstop : stop ≤ count) (hcount : count < 2 ^ 32) :
    endLineAt? count startLine stop = some stop := by
  rw [endLineAt?]
  by_cases hend : stop = count
  · rw [if_pos hend, Nat.min_eq_left (Nat.le_sub_one_of_lt hcount), ← hend, Nat.max_eq_left hle]
  · obtain ⟨last, rfl⟩ : ∃ last, stop = last + 1 := ⟨stop - 1, by omega⟩
    rw [if_neg hend, Nat.ppred_succ, Option.map_some, lineNumber_of_lt (by omega),
      Nat.max_eq_left hle]

/-- The lines of a block lie between the index of its header and the one where it stops. -/
theorem linesBetween?_append (before middle rest : List (List Char)) :
    linesBetween? before.length (before.length + middle.length) (before ++ (middle ++ rest)) =
      some middle := by
  have hrange : before.length ≤ before.length + middle.length ∧
      before.length + middle.length ≤ (before ++ (middle ++ rest)).length := by
    rw [List.length_append, List.length_append]
    omega
  rw [linesBetween?, if_pos hrange, List.take_length_add_append, List.take_left,
    List.drop_left]

/-- The next header stops a block, or else the end of the text. -/
theorem head?_headersFrom (index : Nat) (ls : List (List Char)) :
    ((headersFrom index ls).head?.map (·.index)).getD (index + ls.length) =
      index + (bodyOf ls).length := by
  induction ls generalizing index with
  | nil => rfl
  | cons line rest ih =>
    rw [headersFrom, bodyOf]
    cases hheader : Declaration.header? line with
    | none =>
      have hrest := ih (index + 1)
      rw [Nat.add_assoc, Nat.add_assoc, Nat.add_comm 1, Nat.add_comm 1] at hrest
      rw [List.takeWhile_cons_of_pos (by rw [hheader]; rfl)]
      exact hrest
    | some found =>
      rw [List.takeWhile_cons_of_neg (by rw [hheader]; exact Bool.false_ne_true)]
      rfl

/-- The keyword of a header ends at the same offset in its line and in its block. -/
theorem cutAt?_header {line after : List Char} {kind : DeclarationKind}
    (hheader : Declaration.header? line = some (kind, after)) (body : List (List Char)) :
    ∃ header, cutAt? (byteLength line - byteLength after) (unlines (line :: body)) =
      some (header, unlines (after :: body)) := by
  obtain ⟨header, rfl⟩ := Declaration.header?_isSuffix hheader
  refine ⟨header, ?_⟩
  rw [byteLength_append, Nat.add_sub_cancel, unlines_append_cons, cutAt?_append]

theorem blockAt?_eq (before body rest : List (List Char)) {line after : List Char}
    {kind : DeclarationKind} (hheader : Declaration.header? line = some (kind, after))
    (hlines : (before ++ (line :: body ++ rest)).length < 2 ^ 32) :
    blockAt? (before ++ (line :: body ++ rest))
        ⟨before.length, kind, byteLength line - byteLength after⟩
        (before.length + 1 + body.length) =
      some (ofLines (before.length + 1) kind line after body) := by
  have hlength : (before ++ (line :: body ++ rest)).length =
      before.length + 1 + body.length + rest.length := by
    rw [List.length_append, List.length_append, List.length_cons]
    omega
  rw [hlength] at hlines
  have hstart : lineNumber before.length = before.length + 1 := lineNumber_of_lt (by omega)
  have hend : endLineAt? (before ++ (line :: body ++ rest)).length (before.length + 1)
      (before.length + 1 + body.length) = some (before.length + 1 + body.length) := by
    rw [hlength]
    exact endLineAt?_eq (by omega) (by omega) (by omega) hlines
  have hbetween : linesBetween? before.length (before.length + 1 + body.length)
      (before ++ (line :: body ++ rest)) = some (line :: body) := by
    rw [Nat.add_assoc, Nat.add_comm 1]
    exact linesBetween?_append before (line :: body) rest
  obtain ⟨header, hcut⟩ := cutAt?_header hheader body
  rw [blockAt?]
  dsimp only
  rw [hstart, hend, hbetween]
  simp only [Option.bind_eq_bind, Option.bind_some, hcut, Declaration.splitLabelAt?_eq,
    Declaration.parseHeaderAt?_eq]
  rfl

/-- The blocks of the headers of some lines are the blocks of those lines, whatever lines come
    before. -/
theorem blocksAt?_headersFrom (before ls : List (List Char))
    (hlines : (before ++ ls).length < 2 ^ 32) :
    blocksAt? (before ++ ls) (headersFrom before.length ls) =
      some (scanLines (before.length + 1) ls) := by
  induction ls generalizing before with
  | nil => rfl
  | cons line rest ih =>
    have hrest : blocksAt? (before ++ line :: rest) (headersFrom (before.length + 1) rest) =
        some (scanLines (before.length + 1 + 1) rest) := by
      have hnext := ih (before ++ [line]) (by rwa [List.append_assoc])
      rw [List.append_assoc, List.length_append] at hnext
      exact hnext
    rw [headersFrom, scanLines]
    cases hheader : Declaration.header? line with
    | none => exact hrest
    | some found =>
      obtain ⟨kind, after⟩ := found
      have hstop := head?_headersFrom (before.length + 1) rest
      have hcount : (before ++ line :: rest).length = before.length + 1 + rest.length := by
        rw [List.length_append, List.length_cons]
        omega
      have hblock : blockAt? (before ++ line :: rest)
          ⟨before.length, kind, byteLength line - byteLength after⟩
          (before.length + 1 + (bodyOf rest).length) =
            some (ofLines (before.length + 1) kind line after (bodyOf rest)) := by
        have hsplit : bodyOf rest ++ rest.dropWhile (fun l => (Declaration.header? l).isNone) =
            rest := List.takeWhile_append_dropWhile
        have hblock := blockAt?_eq before (bodyOf rest)
          (rest.dropWhile fun l => (Declaration.header? l).isNone) hheader
        rw [List.cons_append, hsplit] at hblock
        exact hblock hlines
      show (blockAt? _ _ _).bind _ = _
      rw [hcount, hstop, hblock, Option.bind_some]
      show (blocksAt? _ _).bind _ = _
      rw [hrest]
      rfl

/-- No index and no offset is ever out of range or inside of a character, and the blocks that are
    found with them are the blocks of the text. -/
theorem scanAt?_eq {cs : List Char} (hlines : (lines cs).length < 2 ^ 32) :
    scanAt? cs = some (scan cs) :=
  blocksAt?_headersFrom [] (lines cs) hlines

end Block

end ProofLedger

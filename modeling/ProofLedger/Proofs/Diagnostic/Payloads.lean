import Mathlib.Data.List.Forall2
import ProofLedger.Derivation
import ProofLedger.Proofs.Json.Record

/-!
# Diagnostics in two shapes

A payload is accepted exactly if a message, a severity and a range can be read from it
(`ofPayload?_eq_some_iff`), and the two shapes differ in the range alone. What is read as a range
has lines and columns from one on and does not end before it starts, because line zero and ranges
the other way round are refused while column zero is moved to one. A range that counts from zero
and the flat one whose numbers are one more are read as the same range (`payloadRange?_nested`,
`payloadRange?_flat`), so a context has the same obligations in whichever shape its diagnostics
are sent.
-/

namespace ProofLedger

-- ── Trimmed texts ─────────────────────────────────────────────────────────────

namespace Text

variable {p : Char → Bool}

/-- Nothing is dropped from a list whose first character is not to be dropped. -/
theorem dropWhile_of_head? {cs : List Char} (h : ∀ c ∈ cs.head?, p c = false) :
    cs.dropWhile p = cs := by
  cases cs with
  | nil => rfl
  | cons c r =>
    refine List.dropWhile_cons_of_neg ?_
    rw [h c rfl]
    exact Bool.false_ne_true

/-- What remains does not begin with a character to be dropped. -/
theorem not_of_head?_dropWhile {cs : List Char} {c : Char} (h : c ∈ (cs.dropWhile p).head?) :
    p c = false := by
  have hhead := List.head?_dropWhile_not p cs
  rw [Option.mem_def.mp h] at hhead
  exact hhead

/-- What remains when the end is dropped is a beginning. -/
theorem dropEnd_isPrefix (cs : List Char) : dropEnd p cs <+: cs := by
  rw [dropEnd, ← List.reverse_suffix, List.reverse_reverse]
  exact List.dropWhile_suffix p

/-- A trimmed text neither starts nor ends with a blank. -/
theorem trimChars_trimChars (cs : List Char) : trimChars (trimChars cs) = trimChars cs := by
  have hstart : trimStart (trimChars cs) = trimChars cs := by
    refine dropWhile_of_head? fun c hc => ?_
    -- the end that was dropped leaves the head as it was
    obtain ⟨dropped, hdropped⟩ := dropEnd_isPrefix (p := isBlank) (trimStart cs)
    have hc' : (dropEnd isBlank (trimStart cs)).head? = some c := hc
    have hhead : (trimStart cs).head? = some c := by
      rw [← hdropped, List.head?_append, hc']
      rfl
    exact not_of_head?_dropWhile hhead
  have hend : dropEnd isBlank (trimChars cs) = trimChars cs := by
    refine congrArg List.reverse (dropWhile_of_head? ?_) |>.trans (List.reverse_reverse _)
    rw [trimChars, dropEnd, List.reverse_reverse]
    exact fun c hc => not_of_head?_dropWhile hc
  rw [trimChars, hstart, hend]

/-- A trimmed text stays as it is when it is trimmed again. -/
theorem trim_trim (s : String) : trim (trim s) = trim s := by
  rw [trim, trim, String.toList_ofList, trimChars_trimChars]

end Text

-- ── Positions from one on ─────────────────────────────────────────────────────

/-- A position whose line and column count from one. -/
structure Position.FromOne (p : Position) : Prop where
  line : 1 ≤ p.line
  column : 1 ≤ p.column

/-- A range of such positions that does not end before it starts. -/
structure SourceRange.FromOne (r : SourceRange) : Prop where
  start : r.start.FromOne
  stop : r.stop.FromOne
  ordered : r.stop.before r.start = false

theorem one_le_iff_ne_zero {n : UInt32} : 1 ≤ n ↔ n ≠ 0 := by
  rw [UInt32.le_iff_toNat_le, ne_eq, ← UInt32.toNat_inj]
  exact Nat.one_le_iff_ne_zero

/-- There is a range between two positions exactly if both have lines and the second is not before
    the first. -/
theorem SourceRange.between?_eq_some_iff {start stop : Position} {r : SourceRange} :
    between? start stop = some r ↔
      start.line ≠ 0 ∧ stop.line ≠ 0 ∧ stop.before start = false ∧ r = ⟨start, stop⟩ := by
  unfold between?
  split
  · next h =>
    simp only [Bool.or_eq_true, beq_iff_eq] at h
    refine iff_of_false (Option.some_ne_none _).symm ?_
    rintro ⟨hstart, hstop, hbefore, -⟩
    rw [hbefore] at h
    rcases h with (h | h) | h
    · exact hstart h
    · exact hstop h
    · cases h
  · next h =>
    simp only [Bool.or_eq_true, beq_iff_eq, not_or, Bool.not_eq_true] at h
    obtain ⟨⟨hstart, hstop⟩, hbefore⟩ := h
    rw [Option.some.injEq]
    exact ⟨fun hr => ⟨hstart, hstop, hbefore, hr.symm⟩, fun hr => hr.2.2.2.symm⟩

namespace Diagnostic

/-- A word has a next one unless it is the largest. -/
theorem next?_eq_some_iff {n m : UInt32} : next? n = some m ↔ m.toNat = n.toNat + 1 := by
  have hn := n.toNat_lt
  have hm := m.toNat_lt
  unfold next?
  split
  · next h =>
    subst h
    refine iff_of_false (Option.some_ne_none _).symm fun hmax => ?_
    have hgreatest : (0xFFFFFFFF : UInt32).toNat = 0xFFFFFFFF := rfl
    omega
  · next h =>
    have hne : n.toNat ≠ 0xFFFFFFFF := fun hmax => h (UInt32.toNat_inj.mp hmax)
    have hfits : n.toNat + 1 < 2 ^ 32 := by omega
    have hnext : (n + 1).toNat = n.toNat + 1 :=
      (UInt32.toNat_add n 1).trans (Nat.mod_eq_of_lt hfits)
    rw [Option.some.injEq, ← UInt32.toNat_inj, hnext]
    exact eq_comm

theorem one_le_next {n m : UInt32} (h : next? n = some m) : 1 ≤ m := by
  have hm := next?_eq_some_iff.mp h
  exact UInt32.le_iff_toNat_le.mpr (by show 1 ≤ m.toNat; omega)

/-- The greatest number, which has no next one, is not zero. -/
theorem one_le_next_getD (n : UInt32) : 1 ≤ (next? n).getD n := by
  cases hnext : next? n with
  | some m => exact one_le_next hnext
  | none =>
    refine one_le_iff_ne_zero.mpr fun hzero => ?_
    have hone : next? n = some 1 := next?_eq_some_iff.mpr (congrArg (·.toNat + 1) hzero).symm
    rw [hnext] at hone
    cases hone

/-- A position that is clamped counts from one. -/
theorem one_le_atLeastOne (n : UInt32) : 1 ≤ atLeastOne n := by
  unfold atLeastOne
  split
  · exact UInt32.le_refl 1
  · next h => exact one_le_iff_ne_zero.mpr h

/-- A position that counts from one anyway is not clamped. -/
theorem atLeastOne_of_one_le {n : UInt32} (h : 1 ≤ n) : atLeastOne n = n :=
  if_neg (one_le_iff_ne_zero.mp h)

-- ── What a payload is read for ────────────────────────────────────────────────

/-- The message of a payload, trimmed; none if nothing is left of it. -/
def payloadMessage? (v : Json) : Option String :=
  (((v.get? "message").bind Json.asString?).map Text.trim).filter (!·.isEmpty)

/-- The range of a payload, nested if there is a nested one. -/
def payloadRange? (v : Json) : Option SourceRange :=
  match v.get? "range" with
  | some r => nestedRange? r
  | none => flatRange? v

/-- A payload is read by its message, its severity, its range and its source. -/
theorem ofPayload?_eq (v : Json) : ofPayload? v =
    (payloadMessage? v).bind fun message => (payloadSeverity? v).bind fun severity =>
      (payloadRange? v).bind fun range => some ⟨message, severity, range, payloadSource? v⟩ := by
  simp only [ofPayload?, payloadMessage?, payloadRange?, Option.bind_eq_bind]
  cases v.get? "message" with
  | none => rfl
  | some m =>
    simp only [Option.bind_some]
    cases m.asString? with
    | none => rfl
    | some text =>
      simp only [Option.bind_some, Option.map_some, Option.filter_some]
      cases (Text.trim text).isEmpty with
      | true => rfl
      | false =>
        cases v.get? "range" with
        | none => rfl
        | some r => rfl

/-- What is read from a payload is what its four parts are read as. -/
theorem ofPayload?_eq_some_iff {v : Json} {d : Diagnostic} : ofPayload? v = some d ↔
    payloadMessage? v = some d.message ∧ payloadSeverity? v = some d.severity ∧
      payloadRange? v = some d.range ∧ payloadSource? v = d.source := by
  simp only [ofPayload?_eq, Option.bind_eq_some_iff, Option.some.injEq]
  constructor
  · rintro ⟨m, hm, s, hs, r, hr, rfl⟩
    exact ⟨hm, hs, hr, rfl⟩
  · rintro ⟨hm, hs, hr, hsource⟩
    exact ⟨_, hm, _, hs, _, hr, by rw [hsource]⟩

/-- A position that is read counts lines and columns from one. -/
theorem nestedPosition?_fromOne {v : Json} {p : Position} (h : nestedPosition? v = some p) :
    p.FromOne := by
  simp only [nestedPosition?, Option.bind_eq_bind, Option.bind_eq_some_iff] at h
  obtain ⟨_, -, _, -, line, hline, hp⟩ := h
  cases hp
  exact ⟨one_le_next hline, one_le_next_getD _⟩

theorem nestedRange?_fromOne {v : Json} {r : SourceRange} (h : nestedRange? v = some r) :
    r.FromOne := by
  simp only [nestedRange?, Option.bind_eq_bind, Option.bind_eq_some_iff] at h
  obtain ⟨_, -, start, hstart, stop, hstop, hr⟩ := h
  obtain ⟨-, -, hordered, rfl⟩ := SourceRange.between?_eq_some_iff.mp hr
  exact ⟨nestedPosition?_fromOne hstart, nestedPosition?_fromOne hstop, hordered⟩

theorem flatRange?_fromOne {v : Json} {r : SourceRange} (h : flatRange? v = some r) :
    r.FromOne := by
  simp only [flatRange?, Option.bind_eq_bind, Option.bind_eq_some_iff] at h
  obtain ⟨_, -, _, -, hr⟩ := h
  obtain ⟨hstart, hstop, hordered, rfl⟩ := SourceRange.between?_eq_some_iff.mp hr
  exact ⟨⟨one_le_iff_ne_zero.mpr hstart, one_le_atLeastOne _⟩,
    ⟨one_le_iff_ne_zero.mpr hstop, one_le_atLeastOne _⟩, hordered⟩

/-- What holds of every diagnostic that was read from a payload. -/
structure Sound (d : Diagnostic) : Prop where
  message : d.message ≠ ""
  trimmed : Text.trim d.message = d.message
  range : d.range.FromOne

/-- The message of a payload is trimmed and not empty. -/
theorem payloadMessage?_eq_some {v : Json} {message : String}
    (h : payloadMessage? v = some message) :
    message ≠ "" ∧ Text.trim message = message := by
  obtain ⟨hread, hne⟩ := Option.filter_eq_some_iff.mp h
  obtain ⟨text, -, rfl⟩ := Option.map_eq_some_iff.mp hread
  refine ⟨fun hempty => ?_, Text.trim_trim text⟩
  rw [hempty] at hne
  cases hne

/-- The range of a payload counts from one, whichever shape it has. -/
theorem payloadRange?_fromOne {v : Json} {r : SourceRange} (h : payloadRange? v = some r) :
    r.FromOne := by
  unfold payloadRange? at h
  split at h
  · exact nestedRange?_fromOne h
  · exact flatRange?_fromOne h

/-- Whatever is read from a payload is sound. -/
theorem sound_of_ofPayload? {v : Json} {d : Diagnostic} (h : ofPayload? v = some d) : d.Sound := by
  obtain ⟨hmessage, -, hrange, -⟩ := ofPayload?_eq_some_iff.mp h
  obtain ⟨hne, htrimmed⟩ := payloadMessage?_eq_some hmessage
  exact ⟨hne, htrimmed, payloadRange?_fromOne hrange⟩

-- ── The two shapes ────────────────────────────────────────────────────────────

/-- A position that counts from zero, not so far on that counting from one would not fit. -/
structure Offset where
  line : Fin 0xFFFFFFFF
  column : Fin 0xFFFFFFFF

namespace Offset

variable (o : Offset)

/-- The same position counted from one. -/
def position : Position := ⟨UInt32.ofNat (o.line + 1), UInt32.ofNat (o.column + 1)⟩

/-- A position of a nested range. -/
def toJson : Json := .ofFields [("line", .ofNat o.line), ("character", .ofNat o.column)]

end Offset

/-- A report with a nested range. -/
def nested (fields : Table Json) (start stop : Offset) : Json :=
  let range := Json.ofFields [("start", start.toJson), ("end", stop.toJson)]
  .object (fields.insert "range" range).entries

/-- The same report with a flat range. -/
def flat (fields : Table Json) (start stop : Offset) : Json :=
  let place := fields.erase "range"
    |>.insert "line" (.ofNat (start.line + 1))
    |>.insert "column" (.ofNat (start.column + 1))
    |>.insert "endLine" (.ofNat (stop.line + 1))
    |>.insert "endColumn" (.ofNat (stop.column + 1))
  .object place.entries

/-- What a report of either shape is read as. -/
structure ReadAs (fields : Table Json) (start stop : Offset) (d : Diagnostic) : Prop where
  message : payloadMessage? (.object fields.entries) = some d.message
  severity : payloadSeverity? (.object fields.entries) = some d.severity
  source : payloadSource? (.object fields.entries) = d.source
  ordered : stop.position.before start.position = false
  range : d.range = ⟨start.position, stop.position⟩

/-- A number of 32 bits is read back. -/
theorem asUInt32?_ofNat_of_lt {n : Nat} (h : n < UInt32.size) :
    (Json.ofNat n).asUInt32? = some (UInt32.ofNat n) := by
  have hread := Json.asUInt32?_ofNat (UInt32.ofNat n)
  rwa [UInt32.toNat_ofNat_of_lt' h] at hread

/-- The next word of a number that is not the largest one is that of the next number. -/
theorem next?_ofNat (n : Fin 0xFFFFFFFF) :
    next? (UInt32.ofNat n) = some (UInt32.ofNat (n + 1)) := by
  have hnext : (UInt32.ofNat (n + 1)).toNat = n + 1 :=
    UInt32.toNat_ofNat_of_lt' (Nat.succ_lt_succ n.isLt)
  have hself : (UInt32.ofNat n).toNat = n := UInt32.toNat_ofNat_of_lt' (Nat.lt_succ_of_lt n.isLt)
  rw [next?_eq_some_iff, hnext, hself]

theorem one_le_ofNat_succ (n : Fin 0xFFFFFFFF) : 1 ≤ UInt32.ofNat (n + 1) :=
  one_le_next (next?_ofNat n)

/-- An offset from zero gives a position from one. -/
theorem Offset.position_fromOne (o : Offset) : o.position.FromOne :=
  ⟨one_le_ofNat_succ o.line, one_le_ofNat_succ o.column⟩

/-- A position is read back from its encoding as offsets. -/
theorem nestedPosition?_toJson (o : Offset) : nestedPosition? o.toJson = some o.position := by
  have hline := asUInt32?_ofNat_of_lt (Nat.lt_succ_of_lt o.line.isLt)
  have hcolumn := asUInt32?_ofNat_of_lt (Nat.lt_succ_of_lt o.column.isLt)
  have hget (key : String) : o.toJson.get? key =
      Keyed.find? key [("line", .ofNat o.line), ("character", .ofNat o.column)] :=
    Json.get?_ofFields (by simp) key
  simp only [nestedPosition?, Json.firstOf?, hget, Keyed.find?, ↓reduceIte, String.reduceEq,
    Option.bind_eq_bind, Option.bind_some, hline, hcolumn, Option.getD_some, next?_ofNat]
  rfl

/-- The shapes differ in the range alone. -/
theorem ofPayload?_iff_readAs {fields : Table Json} {start stop : Offset} {v : Json}
    (hget : ∀ key ∈ ["message", "severity", "source", "code"],
      v.get? key = Json.get? key (.object fields.entries))
    (hrange : payloadRange? v = SourceRange.between? start.position stop.position)
    {d : Diagnostic} : ofPayload? v = some d ↔ ReadAs fields start stop d := by
  have hmessage : payloadMessage? v = payloadMessage? (.object fields.entries) := by
    rw [payloadMessage?, hget "message" (by simp)]
    rfl
  have hseverity : payloadSeverity? v = payloadSeverity? (.object fields.entries) := by
    rw [payloadSeverity?, hget "severity" (by simp)]
    rfl
  have hsource : payloadSource? v = payloadSource? (.object fields.entries) := by
    rw [payloadSource?, Json.firstOf?, hget "source" (by simp), hget "code" (by simp)]
    rfl
  rw [ofPayload?_eq_some_iff, hmessage, hseverity, hsource, hrange,
    SourceRange.between?_eq_some_iff]
  constructor
  · rintro ⟨hm, hs, ⟨-, -, hordered, hr⟩, hc⟩
    exact ⟨hm, hs, hc, hordered, hr⟩
  · rintro ⟨hm, hs, hc, hordered, hr⟩
    have hstart := one_le_iff_ne_zero.mp start.position_fromOne.line
    have hstop := one_le_iff_ne_zero.mp stop.position_fromOne.line
    exact ⟨hm, hs, ⟨hstart, hstop, hordered, hr⟩, hc⟩

section Shapes

variable (fields : Table Json) (start stop : Offset)

/-- Nested, the range takes one key, and the other fields keep theirs. -/
theorem get?_nested {key : String} (h : key ≠ "range") :
    (nested fields start stop).get? key = Json.get? key (.object fields.entries) :=
  fields.get?_insert_ne h.symm _

/-- Flat, the range takes several keys, and the other fields keep theirs. -/
theorem get?_flat {key : String}
    (h : key ∉ ["range", "line", "column", "endLine", "endColumn"]) :
    (flat fields start stop).get? key = Json.get? key (.object fields.entries) := by
  simp only [List.mem_cons, List.not_mem_nil, or_false, not_or] at h
  obtain ⟨hrange, hline, hcolumn, hendLine, hendColumn⟩ := h
  refine (Table.get?_insert_ne _ (Ne.symm hendColumn) _).trans ?_
  refine (Table.get?_insert_ne _ (Ne.symm hendLine) _).trans ?_
  refine (Table.get?_insert_ne _ (Ne.symm hcolumn) _).trans ?_
  refine (Table.get?_insert_ne _ (Ne.symm hline) _).trans ?_
  exact Table.get?_erase_ne _ (Ne.symm hrange)

/-- The range of a nested payload is that between its two positions. -/
theorem payloadRange?_nested : payloadRange? (nested fields start stop) =
    SourceRange.between? start.position stop.position := by
  have hrange : (nested fields start stop).get? "range" =
      some (.ofFields [("start", start.toJson), ("end", stop.toJson)]) :=
    fields.get?_insert_self _ _
  have hget (key : String) : (Json.ofFields [("start", start.toJson), ("end", stop.toJson)]).get?
      key = Keyed.find? key [("start", start.toJson), ("end", stop.toJson)] :=
    Json.get?_ofFields (by simp) key
  simp only [payloadRange?, hrange, nestedRange?, hget, Keyed.find?, ↓reduceIte, String.reduceEq,
    Option.bind_eq_bind, Option.bind_some, Option.getD_some, nestedPosition?_toJson]

/-- The range of a flat payload is that between its two positions. -/
theorem payloadRange?_flat : payloadRange? (flat fields start stop) =
    SourceRange.between? start.position stop.position := by
  have hget (key : String) : (flat fields start stop).get? key = Table.get? (fields.erase "range"
    |>.insert "line" (.ofNat (start.line + 1))
    |>.insert "column" (.ofNat (start.column + 1))
    |>.insert "endLine" (.ofNat (stop.line + 1))
    |>.insert "endColumn" (.ofNat (stop.column + 1))) key := rfl
  have hread (n : Fin 0xFFFFFFFF) :
      (Json.ofNat (n + 1)).asUInt32? = some (UInt32.ofNat (n + 1)) :=
    asUInt32?_ofNat_of_lt (Nat.succ_lt_succ n.isLt)
  simp (disch := decide) only [payloadRange?, flatRange?, Json.firstOf?, hget,
    Table.get?_insert_ne, Table.get?_insert_self, Table.get?_erase_self, Option.bind_eq_bind,
    Option.bind_some, hread, Option.getD_some, atLeastOne_of_one_le (one_le_ofNat_succ _)]
  rfl

theorem ofPayload?_nested_iff {d : Diagnostic} :
    ofPayload? (nested fields start stop) = some d ↔ ReadAs fields start stop d := by
  refine ofPayload?_iff_readAs (fun key hkey => get?_nested fields start stop ?_)
    (payloadRange?_nested fields start stop)
  rintro rfl
  revert hkey
  decide

theorem ofPayload?_flat_iff {d : Diagnostic} :
    ofPayload? (flat fields start stop) = some d ↔ ReadAs fields start stop d := by
  refine ofPayload?_iff_readAs (fun key hkey => get?_flat fields start stop fun hplace => ?_)
    (payloadRange?_flat fields start stop)
  revert key
  decide

/-- Both shapes are read alike. -/
theorem ofPayload?_nested_eq_flat :
    ofPayload? (nested fields start stop) = ofPayload? (flat fields start stop) := by
  refine Option.ext fun d => ?_
  exact (ofPayload?_nested_iff fields start stop).trans (ofPayload?_flat_iff fields start stop).symm

end Shapes

/-- Two reports that are the same or differ in their shape. -/
inductive SameReport : Json → Json → Prop
  | same (v : Json) : SameReport v v
  | flattened (fields : Table Json) (start stop : Offset) :
      SameReport (nested fields start stop) (flat fields start stop)
  | nested (fields : Table Json) (start stop : Offset) :
      SameReport (flat fields start stop) (nested fields start stop)

/-- Two encodings of one report are read alike. -/
theorem SameReport.ofPayload?_eq {v w : Json} (h : SameReport v w) :
    ofPayload? v = ofPayload? w := by
  cases h with
  | same => rfl
  | flattened fields start stop => exact ofPayload?_nested_eq_flat fields start stop
  | nested fields start stop => exact (ofPayload?_nested_eq_flat fields start stop).symm

/-- Lists of the same reports are read alike. -/
theorem filterMap_ofPayload? {vs ws : List Json} (h : List.Forall₂ SameReport vs ws) :
    vs.filterMap ofPayload? = ws.filterMap ofPayload? := by
  induction h with
  | nil => rfl
  | cons hvw _ ih => rw [List.filterMap_cons, List.filterMap_cons, hvw.ofPayload?_eq, ih]

end Diagnostic

-- ── Contexts ──────────────────────────────────────────────────────────────────

/-- The line of a hint counts from one. -/
theorem GoalHint.one_le_line {v : Json} {h : GoalHint} (hread : ofPayload? v = some h) :
    1 ≤ h.line := by
  rw [ofPayload?] at hread
  obtain ⟨_, -, hread⟩ := Option.bind_eq_some_iff.mp hread
  obtain ⟨line, -, hread⟩ := Option.bind_eq_some_iff.mp hread
  -- the same for all spellings of the goal
  have hgoal (goal : Option Json) (hg : (goal.bind fun g => g.asString?.bind fun text =>
      if line = 0 || (Text.trim text).isEmpty then none else some ⟨line, Text.trim text⟩) =
        some h) : 1 ≤ h.line := by
    obtain ⟨_, -, hg⟩ := Option.bind_eq_some_iff.mp hg
    obtain ⟨_, -, hg⟩ := Option.bind_eq_some_iff.mp hg
    split at hg
    · cases hg
    · next hbad =>
      cases hg
      refine one_le_iff_ne_zero.mpr fun hzero => hbad ?_
      obtain rfl : line = 0 := hzero
      rfl
  split at hread
  · exact hgoal (some _) hread
  · exact hgoal (v.get? "goal") hread

namespace SourceContext

/-- A context payload with some reports. -/
def reporting (fields : Table Json) (reports : List Json) : Json :=
  .object (fields.insert "diagnostics" (.array reports)).entries

/-- The diagnostics and the hints of a context are those of its lists. -/
theorem of_ofPayload? {v : Json} {c : SourceContext} (h : ofPayload? v = some c) :
    c.diagnostics = Diagnostic.listOfPayload (v.get? "diagnostics") ∧
      c.goalHints = GoalHint.listOfPayload (v.firstOf? "goalHints" "goal_hints") := by
  simp only [ofPayload?, Option.bind_eq_bind, Option.bind_eq_some_iff] at h
  obtain ⟨_, -, _, -, hc⟩ := h
  split at hc
  · cases hc
  · cases hc
    exact ⟨rfl, rfl⟩

/-- The diagnostics and hints of a context that is read are sound. -/
theorem sound_of_ofPayload? {v : Json} {c : SourceContext} (h : ofPayload? v = some c) :
    (∀ d ∈ c.diagnostics, d.Sound) ∧ ∀ hint ∈ c.goalHints, 1 ≤ hint.line := by
  obtain ⟨hdiagnostics, hhints⟩ := of_ofPayload? h
  rw [hdiagnostics, hhints]
  constructor
  · intro d hd
    obtain ⟨report, -, hread⟩ := List.mem_filterMap.mp hd
    exact Diagnostic.sound_of_ofPayload? hread
  · intro hint hhint
    obtain ⟨w, -, hread⟩ := List.mem_filterMap.mp hhint
    exact GoalHint.one_le_line hread

/-- A context is read from the diagnostics that are read, whatever reports they are read from. -/
theorem ofPayload?_reporting (fields : Table Json) {vs ws : List Json}
    (h : vs.filterMap Diagnostic.ofPayload? = ws.filterMap Diagnostic.ofPayload?) :
    ofPayload? (reporting fields vs) = ofPayload? (reporting fields ws) := by
  have hother (key : String) (hkey : "diagnostics" ≠ key) :
      (reporting fields vs).get? key = (reporting fields ws).get? key :=
    (fields.get?_insert_ne hkey _).trans (fields.get?_insert_ne hkey _).symm
  have hreports (us : List Json) : Diagnostic.listOfPayload
      ((reporting fields us).get? "diagnostics") = us.filterMap Diagnostic.ofPayload? :=
    congrArg Diagnostic.listOfPayload (fields.get?_insert_self "diagnostics" (.array us))
  have hfirst (name alternative : String) (hname : "diagnostics" ≠ name)
      (halternative : "diagnostics" ≠ alternative) :
      (reporting fields vs).firstOf? name alternative =
        (reporting fields ws).firstOf? name alternative := by
    rw [Json.firstOf?, hother name hname, hother alternative halternative]
    rfl
  rw [ofPayload?, ofPayload?, hreports, hreports, h, hfirst "fileKey" _ (by decide) (by decide),
    hfirst "sourceText" _ (by decide) (by decide), hfirst "goalHints" _ (by decide) (by decide)]

end SourceContext

namespace Diagnostic

open SourceContext (reporting)

/-- A diagnostic that is read has a trimmed message and a range that counts from one, and so does
    every diagnostic of a context. A report is read the same in either shape, and what is derived
    from a context is the same in whichever shapes its reports are sent. -/
theorem shapes_agree :
    (∀ v d, ofPayload? v = some d → d.Sound) ∧
    (∀ (fields : Table Json) (start stop : Offset),
      ofPayload? (nested fields start stop) = ofPayload? (flat fields start stop) ∧
      ∀ d, ofPayload? (nested fields start stop) = some d ↔ ReadAs fields start stop d) ∧
    (∀ v c, SourceContext.ofPayload? v = some c →
      (∀ d ∈ c.diagnostics, d.Sound) ∧ ∀ h ∈ c.goalHints, 1 ≤ h.line) ∧
    ∀ (fields : Table Json) (vs ws : List Json) (now : Instant), List.Forall₂ SameReport vs ws →
      (SourceContext.ofPayload? (reporting fields vs)).map (Derivation.derive · now) =
        (SourceContext.ofPayload? (reporting fields ws)).map (Derivation.derive · now) := by
  refine ⟨fun v d => sound_of_ofPayload?, fun fields start stop => ⟨?_, fun d => ?_⟩,
    fun v c => SourceContext.sound_of_ofPayload?, fun fields vs ws now h => ?_⟩
  · exact ofPayload?_nested_eq_flat fields start stop
  · exact ofPayload?_nested_iff fields start stop
  · rw [SourceContext.ofPayload?_reporting fields (filterMap_ofPayload? h)]

/-- The fields of a report other than its range. -/
def unsolvedGoals : Table Json :=
  .ofList [("message", .string " unsolved goals\n"), ("severity", .int 1),
    ("source", .string "Lean 4")]

/-- A context with a report that ends at the last place of all, and one that would end before it
    starts. -/
theorem shapes_agree_unsolvedGoals :
    let start : Offset := ⟨4, 2⟩
    let stop : Offset := ⟨4294967294, 4294967294⟩
    let range : SourceRange := ⟨⟨5, 3⟩, ⟨4294967295, 4294967295⟩⟩
    let d : Diagnostic := ⟨"unsolved goals", .error, range, some "Lean 4"⟩
    let fields : Table Json := .ofList [("fileKey", .string "Main.lean"),
      ("goalHints", .array [.ofFields [("line", .int 0), ("goal", .string "p")],
        .ofFields [("line", .int 7), ("goal", .string "q")]])]
    let vs := [nested unsolvedGoals start stop, nested unsolvedGoals stop start]
    let ws := [flat unsolvedGoals start stop, flat unsolvedGoals stop start]
    let c : SourceContext := ⟨"Main.lean", "", [d], [⟨7, "q"⟩]⟩
    (ofPayload? (flat unsolvedGoals start stop) = some d ∧ d.Sound) ∧
      ReadAs unsolvedGoals start stop d ∧
      (SourceContext.ofPayload? (reporting fields vs) = some c ∧
        (∀ d ∈ c.diagnostics, d.Sound) ∧ ∀ h ∈ c.goalHints, 1 ≤ h.line) ∧
      List.Forall₂ SameReport vs ws ∧
      (SourceContext.ofPayload? (reporting fields ws)).map
        (Derivation.derive · default) = some (Derivation.derive c default) := by
  intro start stop range d fields vs ws c
  obtain ⟨hsound, hshapes, hcontexts, hderive⟩ := shapes_agree
  have hnested : ofPayload? (nested unsolvedGoals start stop) = some d := by decide +kernel
  have hflat : ofPayload? (flat unsolvedGoals start stop) = some d :=
    (hshapes unsolvedGoals start stop).1.symm.trans hnested
  have hc : SourceContext.ofPayload? (reporting fields vs) = some c := by
    decide +kernel
  have hsame : List.Forall₂ SameReport vs ws :=
    .cons (.flattened _ _ _) (.cons (.flattened _ _ _) .nil)
  refine ⟨⟨hflat, hsound _ d hflat⟩, ((hshapes unsolvedGoals start stop).2 d).mp hnested,
    ⟨hc, hcontexts _ c hc⟩, hsame, ?_⟩
  rw [← hderive fields vs ws default hsame, hc]
  rfl

end Diagnostic

end ProofLedger

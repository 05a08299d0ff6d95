import ProofLedger.Proofs.Json.Tree

/-!
# Records read back

What the writers of records, lists, tables and constants produce is read back by the readers of
the same kind. A record is written with optional fields left out, so the lemmas here speak of the
payload that a written record opens to: every field that is present, under its own name.
-/

namespace ProofLedger.Json

variable {α : Type}

-- ── Payloads ──────────────────────────────────────────────────────────────────

/-- What is found in an object of fields that may be missing. -/
theorem get?_ofPresent {fs : List (String × Option Json)} (h : (fs.map (·.1)).Nodup)
    (name : String) : (ofPresent fs).get? name = (Keyed.find? name fs).join := by
  have hkeys : ((Keyed.filterMap id fs).map (·.1)).Nodup :=
    (Keyed.keys_filterMap_sublist id fs).nodup h
  exact (Keyed.find?_ofList hkeys name).trans ((Keyed.find?_filterMap h id name).trans (by
    cases Keyed.find? name fs <;> rfl))

/-- The record that opens from an object. -/
theorem record?_object {v : Json} (h : v = object v.fields) (names : List String) :
    v.record? names = some fun name => v.get? name := by
  rw [h]
  rfl

/-- An object that is written with the present fields is read as a record of them. -/
theorem record?_ofPresent {fs : List (String × Option Json)} (h : (fs.map (·.1)).Nodup)
    (names : List String) :
    (ofPresent fs).record? names = some fun name => (Keyed.find? name fs).join :=
  congrArg some (funext (get?_ofPresent h))

/-- A field is read back from an object that is written with it. -/
theorem get?_ofFields {fs : List (String × Json)} (h : (fs.map (·.1)).Nodup) (name : String) :
    (ofFields fs).get? name = Keyed.find? name fs :=
  Keyed.find?_ofList h name

/-- An object that is written with some fields is read back as the record of them. -/
theorem record?_ofFields {fs : List (String × Json)} (h : (fs.map (·.1)).Nodup)
    (names : List String) :
    (ofFields fs).record? names = some fun name => Keyed.find? name fs :=
  congrArg some (funext fun _ => Keyed.find?_ofList h _)

/-- A required field is read as it was written. -/
theorem Record.required_eq {r : Record} {name : String} {v : Json} {read : Json → Option α}
    {x : α} (hr : r name = some v) (hx : read v = some x) : r.required name read = some x := by
  rw [Record.required, hr]
  exact hx

/-- An optional field that is present is read as it was written. -/
theorem Record.optional_eq {r : Record} {name : String} {v : Json} {read : Json → Option α}
    {x : α} (hr : r name = some v) (hx : read v = some x) (hnull : read null = none) :
    r.optional name read = some (some x) := by
  unfold Record.optional
  rw [hr]
  split
  · next h => cases h
  · next h => rw [Option.some.inj h, hnull] at hx; cases hx
  · next w h => cases h; rw [hx]; rfl

/-- A field that was written from an optional value is read as that value. -/
theorem Record.optional_map {r : Record} {name : String} {o : Option α} {write : α → Json}
    {read : Json → Option α} (hr : r name = o.map write)
    (hread : ∀ x, o = some x → read (write x) = some x) (hnull : read null = none) :
    r.optional name read = some o := by
  cases o with
  | none =>
    unfold Record.optional
    rw [hr]
    rfl
  | some x => exact Record.optional_eq hr (hread x rfl) hnull

/-- A field with a default is read as it was written. -/
theorem Record.defaulted_eq {r : Record} {name : String} {v : Json} (hr : r name = some v)
    (default : α) (read : Json → Option α) : r.defaulted name default read = read v := by
  rw [Record.defaulted, hr]

/-- Only the field itself matters for how it is read with a default. -/
theorem Record.defaulted_congr {r r' : Record} {name : String} (h : r name = r' name)
    (default : α) (read : Json → Option α) :
    r.defaulted name default read = r'.defaulted name default read := by
  unfold Record.defaulted
  rw [h]

/-- Only the field itself matters for how it is read as an option. -/
theorem Record.optional_congr {r r' : Record} {name : String} (h : r name = r' name)
    (read : Json → Option α) : r.optional name read = r'.optional name read := by
  unfold Record.optional
  rw [h]

-- ── Lists, tables, constants ──────────────────────────────────────────────────

/-- A list is read back if its items are. -/
theorem asListOf?_ofList {read : Json → Option α} {write : α → Json} {items : List α}
    (h : ∀ x ∈ items, read (write x) = some x) :
    asListOf? read (ofList write items) = some items := by
  show (items.map write).mapM read = some items
  induction items with
  | nil => rfl
  | cons x rest ih =>
    rw [List.map_cons, List.mapM_cons, h x List.mem_cons_self,
      ih fun y hy => h y (List.mem_cons_of_mem x hy)]
    rfl

/-- A table is read back if its values are. -/
theorem asTableOf?_ofTable {read : Json → Option α} {write : α → Json} {t : Table α}
    (h : ∀ key x, t.get? key = some x → read (write x) = some x) :
    asTableOf? read (ofTable write t) = some t := by
  refine (asTableOf?_eq_some_iff (t.sorted.mapValues write)).mpr fun key => ?_
  rw [Keyed.find?_mapValues]
  show (((t.get? key).map write).map read) = _
  cases ht : t.get? key with
  | none => rfl
  | some x => exact congrArg some (h key x ht)

@[simp] theorem asNat?_ofNat (n : Nat) : asNat? (ofNat n) = some n := by
  show (if 0 ≤ (n : Int) then some (n : Int).toNat else none) = some n
  rw [if_pos (Int.natCast_nonneg n), Int.toNat_natCast]

@[simp] theorem asUInt32?_ofNat (n : UInt32) : asUInt32? (ofNat n.toNat) = some n := by
  simp only [asUInt32?, asNat?_ofNat]
  rw [if_pos n.toNat_lt]
  exact congrArg some n.ofNat_toNat

/-- A word is read back from its number. -/
@[simp] theorem asUInt64?_ofNat (n : UInt64) : asUInt64? (ofNat n.toNat) = some n := by
  have hfits : (some n.toNat).filter (· < UInt64.size) = some n.toNat := by
    rw [Option.filter_some, if_pos (decide_eq_true n.toNat_lt)]
  rw [asUInt64?, asWord?, asNat?_ofNat, hfits]
  exact congrArg some n.ofNat_toNat

/-- A double that is a number is read back. -/
theorem asFloat?_ofFloat {x : Float} (h : x.isFinite = true) :
    asFloat? (ofFloat x) = some x := by
  rw [ofFloat, if_pos h]
  rfl

-- ── Written documents ─────────────────────────────────────────────────────────

/-- An object that is written is well-formed if its fields are. -/
theorem WellFormed.ofFields {fs : List (String × Json)} (h : ∀ e ∈ fs, e.2.WellFormed) :
    (Json.ofFields fs).WellFormed :=
  .merge Keyed.sorted_nil (List.forall_mem_nil _) h

/-- An object that is written without its missing fields is well-formed if the others are. -/
theorem WellFormed.ofPresent {fs : List (String × Option Json)}
    (h : ∀ e ∈ fs, ∀ v, e.2 = some v → v.WellFormed) : (Json.ofPresent fs).WellFormed := by
  refine .ofFields fun e he => ?_
  obtain ⟨f, hf, hfe⟩ := List.mem_filterMap.mp he
  obtain ⟨v, hv, rfl⟩ := Option.map_eq_some_iff.mp hfe
  exact h f hf v hv

/-- A list that is written is well-formed if its items are. -/
theorem WellFormed.ofList {write : α → Json} {items : List α}
    (h : ∀ x ∈ items, (write x).WellFormed) : (Json.ofList write items).WellFormed := by
  refine .array fun v hv => ?_
  obtain ⟨x, hx, rfl⟩ := List.mem_map.mp hv
  exact h x hx

/-- A table that is written is well-formed if its values are. -/
theorem WellFormed.ofTable {write : α → Json} (t : Table α)
    (h : ∀ x, (write x).WellFormed) : (Json.ofTable write t).WellFormed := by
  refine .object (t.sorted.mapValues write) fun e he => ?_
  obtain ⟨x, -, rfl⟩ := List.mem_map.mp he
  exact h x.2

@[simp] theorem WellFormed.ofFloat (x : Float) : (Json.ofFloat x).WellFormed := by
  unfold Json.ofFloat
  split
  · next h => exact .float h
  · exact .null

@[simp] theorem WellFormed.ofNat (n : Nat) : (Json.ofNat n).WellFormed := .int n

attribute [simp] WellFormed.string

end ProofLedger.Json

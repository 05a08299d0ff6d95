import Mathlib.Tactic.Common
import ProofLedger.Patch

/-!
# Changes of a tree

What is found in a tree after a change at a path, and what a table that is stored in a tree
becomes. A table is judged by its look-ups: `HoldsTable` relates a value to the table that it is
read as, and every change of one key keeps that relation.
-/

namespace ProofLedger

namespace Json

/-- A value as a document can hold it: the fields of objects are in order, and doubles are
    finite. -/
inductive WellFormed : Json → Prop where
  | null : WellFormed null
  | bool (b : Bool) : WellFormed (bool b)
  | int (n : Int) : WellFormed (int n)
  | float {x : Float} (h : x.isFinite = true) : WellFormed (float x)
  | string (s : String) : WellFormed (string s)
  | array {items : List Json} (h : ∀ v ∈ items, WellFormed v) : WellFormed (array items)
  | object {fields : List (String × Json)} (hsorted : Keyed.Sorted fields)
      (h : ∀ e ∈ fields, WellFormed e.2) : WellFormed (object fields)

/-- The fields of an object; other values have none. -/
def fields : Json → List (String × Json)
  | object fs => fs
  | _ => []

/-- An object is the object of its fields. -/
theorem eq_object_of_isObject {v : Json} (h : v.isObject = true) : v = object v.fields := by
  cases v with
  | object fs => rfl
  | _ => cases h

/-- The value under a key is that of the field with the key; what is no object has no fields. -/
theorem get?_eq (key : String) (v : Json) : v.get? key = Keyed.find? key v.fields := by
  cases v <;> rfl

/-- The fields of a well-formed value are in the order of their keys. -/
theorem WellFormed.sorted {v : Json} (h : v.WellFormed) : Keyed.Sorted v.fields := by
  cases h with
  | object hsorted _ => exact hsorted
  | _ => exact Keyed.sorted_nil

/-- The fields of a well-formed value are well-formed. -/
theorem WellFormed.get? {v w : Json} (h : v.WellFormed) {key : String}
    (hw : v.get? key = some w) : w.WellFormed := by
  cases h with
  | object _ hfields => exact hfields _ (Keyed.mem_of_find? hw)
  | _ => cases hw

/-- What is found at a key, `null` if nothing is. -/
def getD (key : String) (v : Json) : Json := (v.get? key).getD null

/-- What is found at a key, or the `null` that stands for it, is well-formed. -/
theorem WellFormed.getD {v : Json} (h : v.WellFormed) (key : String) :
    (v.getD key).WellFormed := by
  unfold Json.getD
  cases hw : v.get? key with
  | none => exact .null
  | some w => exact h.get? hw

/-- A longer path is followed below its first key. -/
theorem getAt?_cons_cons (key next : String) (rest : Path) (v : Json) :
    getAt? (key :: next :: rest) v = getAt? (next :: rest) (v.getD key) := by
  show (v.get? key).bind (getAt? (next :: rest)) = _
  unfold Json.getD
  cases v.get? key <;> rfl

/-- Whether there is an object at a path, or nothing. -/
def ObjectAt (path : Path) (v : Json) : Prop :=
  ∀ w, v.getAt? path = some w → w.isObject = true

/-- What is at a longer path is below its first key. -/
theorem objectAt_cons_cons {key next : String} {rest : Path} {v : Json} :
    ObjectAt (key :: next :: rest) v ↔ ObjectAt (next :: rest) (v.getD key) := by
  unfold ObjectAt
  rw [getAt?_cons_cons]

/-- What a key holds is an object, if anything at the key is one. -/
theorem ObjectAt.eq_object {key : String} {v w : Json} (h : ObjectAt [key] v)
    (hw : v.get? key = some w) : w = object w.fields := by
  refine eq_object_of_isObject (h w ?_)
  show (v.get? key).bind (getAt? []) = some w
  rw [hw]
  rfl

-- ── Changes at a path ─────────────────────────────────────────────────────────

variable {change : Json → Json}

/-- A change below a key, whatever the value was. -/
theorem alterAt_cons (change : Json → Json) (key : String) (rest : Path) (v : Json) :
    alterAt change (key :: rest) v =
      object (Keyed.insert key (alterAt change rest (v.getD key)) v.fields) := by
  cases v <;> rfl

/-- A change at a path changes what is below its first key. -/
@[simp] theorem get?_alterAt_self (change : Json → Json) (key : String) (rest : Path)
    (v : Json) :
    (alterAt change (key :: rest) v).get? key = some (alterAt change rest (v.getD key)) := by
  rw [alterAt_cons]
  exact Keyed.find?_insert_self _ _ _

/-- A change at a path leaves what is below other keys alone. -/
theorem get?_alterAt_ne (change : Json → Json) {key other : String} (h : key ≠ other)
    (rest : Path) (v : Json) :
    (alterAt change (key :: rest) v).get? other = v.get? other := by
  rw [alterAt_cons, get?_eq other v]
  exact Keyed.find?_insert_ne h _ _

@[simp] theorem getD_alterAt_self (change : Json → Json) (key : String) (rest : Path)
    (v : Json) : (alterAt change (key :: rest) v).getD key = alterAt change rest (v.getD key) := by
  rw [getD, get?_alterAt_self]
  rfl

/-- The other keys are left alone, whether they are there or not. -/
theorem getD_alterAt_ne (change : Json → Json) {key other : String} (h : key ≠ other)
    (rest : Path) (v : Json) : (alterAt change (key :: rest) v).getD other = v.getD other := by
  rw [getD, get?_alterAt_ne change h]
  rfl

/-- A change at a longer path is a change at its beginning. -/
theorem alterAt_append (change : Json → Json) (p q : Path) (v : Json) :
    alterAt change (p ++ q) v = alterAt (alterAt change q) p v := by
  induction p generalizing v with
  | nil => rfl
  | cons key rest ih => rw [List.cons_append, alterAt_cons, alterAt_cons, ih]

/-- Two changes at a path are one. -/
theorem alterAt_alterAt (second first : Json → Json) (p : Path) (v : Json) :
    alterAt second p (alterAt first p v) = alterAt (fun w => second (first w)) p v := by
  induction p generalizing v with
  | nil => rfl
  | cons key rest ih =>
    rw [alterAt_cons second, getD_alterAt_self, ih, alterAt_cons first, alterAt_cons]
    show object (Keyed.insert key _ (Keyed.insert key _ v.fields)) = _
    rw [Keyed.insert_insert]

/-- A value that is changed below a key is an object afterwards. -/
theorem isObject_alterAt {p : Path} (hchange : p = [] → ∀ w, (change w).isObject = true)
    (v : Json) : (alterAt change p v).isObject = true := by
  cases p with
  | nil => exact hchange rfl v
  | cons key rest => rw [alterAt_cons]; rfl

/-- A change at a path or below it leaves an object there, if it makes objects of what it
    changes. A change elsewhere leaves what is there. -/
theorem ObjectAt.alterAt {path p : Path} {v : Json} (h : ObjectAt path v)
    (hlength : path.length ≤ p.length) (hchange : path = p → ∀ w, (change w).isObject = true) :
    ObjectAt path (Json.alterAt change p v) := by
  induction path generalizing p v with
  | nil =>
    rintro w ⟨⟩
    exact isObject_alterAt (fun hp => hchange hp.symm) v
  | cons other tail ih =>
    cases p with
    | nil => cases hlength
    | cons key rest =>
      intro w hw
      change ((Json.alterAt change (key :: rest) v).get? other).bind (getAt? tail) = some w at hw
      by_cases hkey : key = other
      · subst hkey
        have hrest : tail = rest → ∀ w, (change w).isObject = true :=
          fun htail => hchange (congrArg (key :: ·) htail)
        rw [get?_alterAt_self] at hw
        cases tail with
        | nil =>
          cases hw
          exact isObject_alterAt (fun hr => hrest hr.symm) _
        | cons next tail =>
          exact ih (objectAt_cons_cons.mp h) (Nat.le_of_succ_le_succ hlength) hrest w hw
      · rw [get?_alterAt_ne change hkey] at hw
        exact h w hw

/-- Where the first key of a path is missing there is nothing to remove. -/
theorem removeAt_none {key next : String} {fs : List (String × Json)}
    (h : Keyed.find? key fs = none) (rest : Path) :
    removeAt (key :: next :: rest) (object fs) = object fs := by
  simp only [removeAt, h]

/-- Where the first key of a path is there, what is below it is removed. -/
theorem removeAt_some {key next : String} {fs : List (String × Json)} {w : Json}
    (h : Keyed.find? key fs = some w) (rest : Path) :
    removeAt (key :: next :: rest) (object fs) =
      object (Keyed.insert key (removeAt (next :: rest) w) fs) := by
  simp only [removeAt, h]

/-- Removing at a longer path removes below its first key. -/
theorem get?_removeAt_self (key next : String) (rest : Path) (v : Json) :
    (removeAt (key :: next :: rest) v).get? key = (v.get? key).map (removeAt (next :: rest)) := by
  cases v with
  | object fs =>
    show (removeAt (key :: next :: rest) (object fs)).get? key = (Keyed.find? key fs).map _
    cases hw : Keyed.find? key fs with
    | none => rw [removeAt_none hw]; exact hw
    | some w => rw [removeAt_some hw]; exact Keyed.find?_insert_self _ _ _
  | _ => rfl

/-- Removing at a path leaves what is below other keys alone. -/
theorem get?_removeAt_ne {key other : String} (h : key ≠ other) (next : String) (rest : Path)
    (v : Json) : (removeAt (key :: next :: rest) v).get? other = v.get? other := by
  cases v with
  | object fs =>
    cases hw : Keyed.find? key fs with
    | none => rw [removeAt_none hw]
    | some w => rw [removeAt_some hw]; exact Keyed.find?_insert_ne h _ _
  | _ => rfl

theorem getD_removeAt_ne {key other : String} (h : key ≠ other) (next : String) (rest : Path)
    (v : Json) : (removeAt (key :: next :: rest) v).getD other = v.getD other := by
  rw [getD, get?_removeAt_ne h]
  rfl

/-- Removing a key of a part of a value is removing it from the part. -/
theorem getD_removeAt_self (key next : String) (v : Json) :
    (removeAt [key, next] v).getD key = removeAt [next] (v.getD key) := by
  rw [getD, get?_removeAt_self, getD]
  cases v.get? key <;> rfl

/-- An object laid over a value: its own fields count first. -/
theorem get?_mergeWith {new : List (String × Json)} (h : Keyed.Sorted new) (key : String)
    (v : Json) :
    (mergeWith (some (object new)) v).get? key = (Keyed.find? key new).or (v.get? key) := by
  cases v with
  | object fs => exact Keyed.find?_merge h.nodup fs key
  | _ => exact Keyed.find?_merge h.nodup [] key

-- ── Changes of documents ──────────────────────────────────────────────────────

/-- Each field of a well-formed value is well-formed. -/
theorem WellFormed.of_mem_fields {v : Json} (h : v.WellFormed) {e : String × Json}
    (he : e ∈ v.fields) : e.2.WellFormed := by
  cases h with
  | object _ hfields => exact hfields e he
  | _ => cases he

/-- Inserting a well-formed value into well-formed fields keeps them so. -/
theorem WellFormed.insert {fs : List (String × Json)} (hsorted : Keyed.Sorted fs)
    (h : ∀ e ∈ fs, e.2.WellFormed) (key : String) {v : Json} (hv : v.WellFormed) :
    (Json.object (Keyed.insert key v fs)).WellFormed := by
  refine .object (hsorted.insert key v) fun e he => ?_
  rcases Keyed.mem_insert he with rfl | he
  · exact hv
  · exact h e he

/-- A change that keeps values well-formed does so at any path. -/
theorem WellFormed.alterAt {v : Json} (h : v.WellFormed)
    (hchange : ∀ w, w.WellFormed → (change w).WellFormed) (p : Path) :
    (Json.alterAt change p v).WellFormed := by
  induction p generalizing v with
  | nil => exact hchange v h
  | cons key rest ih =>
    rw [alterAt_cons]
    exact .insert h.sorted (fun e he => h.of_mem_fields he) key (ih (h.getD key))

/-- Merging well-formed fields into well-formed ones keeps them so. -/
theorem WellFormed.merge {fs new : List (String × Json)} (hsorted : Keyed.Sorted fs)
    (h : ∀ e ∈ fs, e.2.WellFormed) (hnew : ∀ e ∈ new, e.2.WellFormed) :
    (Json.object (Keyed.merge fs new)).WellFormed := by
  induction new generalizing fs with
  | nil => exact .object hsorted h
  | cons e rest ih =>
    have hinsert := WellFormed.insert hsorted h e.1 (hnew e List.mem_cons_self)
    exact ih hinsert.sorted (fun _ he => hinsert.of_mem_fields he)
      fun d hd => hnew d (List.mem_cons_of_mem e hd)

/-- A merge with a well-formed value keeps values well-formed. -/
theorem WellFormed.mergeWith {incoming v : Json} (hi : incoming.WellFormed)
    (h : v.WellFormed) : (Json.mergeWith (some incoming) v).WellFormed := by
  cases hi with
  | object hsorted hfields =>
    cases h with
    | object hs hf => exact .merge hs hf hfields
    | _ => exact .merge Keyed.sorted_nil (List.forall_mem_nil _) hfields
  | null => exact .null
  | bool b => exact .bool b
  | int n => exact .int n
  | float hfinite => exact .float hfinite
  | string s => exact .string s
  | array hitems => exact .array hitems

/-- Removing a part keeps values well-formed. -/
theorem WellFormed.removeAt {v : Json} (h : v.WellFormed) (p : Path) :
    (Json.removeAt p v).WellFormed := by
  induction p generalizing v with
  | nil => exact .null
  | cons key rest ih =>
    cases h with
    | @object fs hsorted hfields =>
      cases rest with
      | nil =>
        exact .object (hsorted.erase key) fun e he => hfields e (List.mem_filter.mp he).1
      | cons next rest =>
        cases hw : Keyed.find? key fs with
        | none =>
          rw [removeAt_none hw]
          exact .object hsorted hfields
        | some w =>
          rw [removeAt_some hw]
          exact .insert hsorted hfields key (ih (hfields _ (Keyed.mem_of_find? hw)))
    | null => cases rest <;> exact .null
    | bool b => cases rest <;> exact .bool b
    | int n => cases rest <;> exact .int n
    | float hfinite => cases rest <;> exact .float hfinite
    | string s => cases rest <;> exact .string s
    | array hitems => cases rest <;> exact .array hitems

-- ── Tables ────────────────────────────────────────────────────────────────────

variable {α : Type} {read : Json → Option α} {v : Json} {t : Table α}

/-- An object in order is read as a table if every field is read as what the table holds. -/
theorem asTableOf?_eq_some_iff {fs : List (String × Json)} (h : Keyed.Sorted fs) :
    asTableOf? read (object fs) = some t ↔
      ∀ key, (Keyed.find? key fs).map read = (t.get? key).map some := by
  have hread : ∀ {out}, Keyed.traverse read fs = some out →
      ∀ key, (Keyed.find? key fs).map read = ((Table.ofList out).get? key).map some := by
    intro out hout key
    rw [Keyed.find?_traverse key hout]
    exact congrArg _ (Keyed.find?_ofList (h.traverse hout).nodup key).symm
  constructor
  · intro ht key
    obtain ⟨out, hout, rfl⟩ := Option.map_eq_some_iff.mp ht
    exact hread hout key
  · intro hagree
    have hall : ∀ e ∈ fs, (read e.2).isSome = true := by
      intro e he
      have hkey := hagree e.1
      rw [h.find?_of_mem he] at hkey
      cases ht : t.get? e.1 with
      | none => rw [ht] at hkey; cases hkey
      | some x =>
        rw [ht] at hkey
        rw [Option.some.inj hkey]
        rfl
    obtain ⟨out, hout⟩ := Keyed.traverse_eq_some hall
    refine Option.map_eq_some_iff.mpr ⟨out, hout, Table.ext_get? fun key => ?_⟩
    have hsame := (hread hout key).symm.trans (hagree key)
    exact Option.map_injective (fun _ _ => Option.some.inj) hsame

/-- A value that is read as a table; `null` stands for the empty one. -/
structure HoldsTable (read : Json → Option α) (v : Json) (t : Table α) : Prop where
  object_or_null : v = object v.fields ∨ v = null
  sorted : Keyed.Sorted v.fields
  agree : ∀ key, (v.get? key).map read = (t.get? key).map some

/-- A value that holds a table is read as this table. -/
theorem HoldsTable.asTableOf? (h : HoldsTable read v t) (hv : v = object v.fields) :
    asTableOf? read v = some t := by
  rw [hv]
  refine (asTableOf?_eq_some_iff h.sorted).mpr fun key => ?_
  rw [← get?_eq]
  exact h.agree key

/-- What is read as a table is held, if the fields are in order. -/
theorem holdsTable_of_asTableOf? (hsorted : Keyed.Sorted v.fields)
    (h : Json.asTableOf? read v = some t) : HoldsTable read v t := by
  cases v with
  | object fs => exact ⟨Or.inl rfl, hsorted, (asTableOf?_eq_some_iff hsorted).mp h⟩
  | _ => cases h

/-- No table is held by `null` but the empty one. -/
theorem holdsTable_null : HoldsTable read null t ↔ t = Table.empty := by
  constructor
  · intro h
    refine Table.ext_get? fun key => ?_
    cases ht : t.get? key with
    | none => rfl
    | some x =>
      have hkey := h.agree key
      rw [ht] at hkey
      cases hkey
  · rintro rfl
    exact ⟨Or.inr rfl, Keyed.sorted_nil, fun _ => rfl⟩

/-- What is stored under a key is read as what the table has there. -/
theorem HoldsTable.read_of_get? (h : HoldsTable read v t) {key : String} {w : Json}
    (hw : v.get? key = some w) : ∃ x, read w = some x ∧ t.get? key = some x := by
  have hkey := h.agree key
  rw [hw] at hkey
  cases ht : t.get? key with
  | none => rw [ht] at hkey; cases hkey
  | some x =>
    rw [ht] at hkey
    exact ⟨x, Option.some.inj hkey, rfl⟩

/-- What the table has under a key is read from what is stored there. -/
theorem HoldsTable.get?_of_read (h : HoldsTable read v t) {key : String} {x : α}
    (hx : t.get? key = some x) : ∃ w, v.get? key = some w ∧ read w = some x := by
  have hkey := h.agree key
  rw [hx] at hkey
  cases hw : v.get? key with
  | none => rw [hw] at hkey; cases hkey
  | some w =>
    rw [hw] at hkey
    exact ⟨w, rfl, Option.some.inj hkey⟩

/-- A key that is missing is missing from the table. -/
theorem HoldsTable.get?_eq_none (h : HoldsTable read v t) {key : String}
    (hw : v.get? key = none) : t.get? key = none := by
  have hkey := h.agree key
  rw [hw] at hkey
  cases ht : t.get? key with
  | none => rfl
  | some x => rw [ht] at hkey; cases hkey

/-- A table in a field that may be missing. -/
theorem holdsTable_of_defaulted (hwf : v.WellFormed) {name : String}
    (h : Record.defaulted (fun key => v.get? key) name Table.empty (Json.asTableOf? read) =
      some t) : HoldsTable read (v.getD name) t := by
  unfold Record.defaulted at h
  dsimp only at h
  unfold getD
  cases hw : v.get? name with
  | none =>
    rw [hw] at h
    cases h
    exact holdsTable_null.mpr rfl
  | some w =>
    rw [hw] at h
    exact holdsTable_of_asTableOf? (hwf.get? hw).sorted h

/-- A table of tables holds a table under every key, the empty one where nothing is. -/
theorem HoldsTable.nested {tables : Table (Table α)} (hwf : v.WellFormed)
    (h : HoldsTable (Json.asTableOf? read) v tables) (key : String) :
    HoldsTable read (v.getD key) ((tables.get? key).getD Table.empty) := by
  unfold getD
  cases hw : v.get? key with
  | none =>
    rw [h.get?_eq_none hw]
    exact holdsTable_null.mpr rfl
  | some w =>
    obtain ⟨t, ht, htables⟩ := h.read_of_get? hw
    rw [htables]
    exact holdsTable_of_asTableOf? (hwf.get? hw).sorted ht

/-- A change below a key stores what the new value is read as. -/
theorem HoldsTable.alterAt (h : HoldsTable read v t) {key : String} {rest : Path} {x : α}
    (hx : read (alterAt change rest (v.getD key)) = some x) :
    HoldsTable read (Json.alterAt change (key :: rest) v) (t.insert key x) := by
  refine ⟨Or.inl ?_, ?_, fun other => ?_⟩
  · rw [alterAt_cons]; rfl
  · rw [alterAt_cons]; exact h.sorted.insert _ _
  · by_cases hk : key = other
    · subst hk
      rw [get?_alterAt_self, Table.get?_insert_self]
      exact congrArg some hx
    · rw [get?_alterAt_ne change hk, Table.get?_insert_ne _ hk]
      exact h.agree other

/-- Removing a key removes it from the table. -/
theorem HoldsTable.removeAt (h : HoldsTable read v t) (key : String) :
    HoldsTable read (Json.removeAt [key] v) (t.erase key) := by
  rcases h.object_or_null with hv | rfl
  · rw [hv]
    refine ⟨Or.inl rfl, h.sorted.erase key, fun other => ?_⟩
    show (Keyed.find? other (Keyed.erase key v.fields)).map read = _
    by_cases hk : key = other
    · subst hk
      rw [Keyed.find?_erase_self, Table.get?_erase_self]
      rfl
    · rw [Keyed.find?_erase_ne hk, Table.get?_erase_ne _ hk, ← get?_eq]
      exact h.agree other
  · rw [holdsTable_null.mp h]
    exact holdsTable_null.mpr (Table.erase_eq_self rfl)

end Json

-- ── Patches of documents ──────────────────────────────────────────────────────

namespace Patch

/-- Whether the value of a patch is well-formed, if it has one. -/
def WellFormed (p : Patch) : Prop := ∀ v, p.value = some v → v.WellFormed

theorem wellFormed_set (path : Path) {v : Json} (h : v.WellFormed) : (set path v).WellFormed :=
  fun _ hw => Option.some.inj hw ▸ h

theorem wellFormed_merge (path : Path) {v : Json} (h : v.WellFormed) :
    (merge path v).WellFormed :=
  fun _ hw => Option.some.inj hw ▸ h

theorem wellFormed_unset (path : Path) : (unset path).WellFormed := fun _ hw => nomatch hw

/-- A well-formed patch keeps trees well-formed. -/
theorem wellFormed_apply {p : Patch} (hp : p.WellFormed) {tree : Json} (h : tree.WellFormed) :
    (p.apply tree).WellFormed := by
  obtain ⟨op, path, value⟩ := p
  cases op with
  | set =>
    refine h.alterAt (fun _ _ => ?_) path
    cases value with
    | none => exact .null
    | some v => exact hp v rfl
  | merge =>
    refine h.alterAt (fun w hw => ?_) path
    cases value with
    | none => exact hw
    | some v => exact (hp v rfl).mergeWith hw
  | unset => exact h.removeAt path

/-- Patches with well-formed values leave a tree well-formed. -/
theorem wellFormed_applyAll {patches : List Patch} (hp : ∀ p ∈ patches, p.WellFormed)
    {tree : Json} (h : tree.WellFormed) : (applyAll patches tree).WellFormed := by
  induction patches generalizing tree with
  | nil => exact h
  | cons p rest ih =>
    exact ih (fun q hq => hp q (List.mem_cons_of_mem p hq))
      (wellFormed_apply (hp p List.mem_cons_self) h)

/-- Patches are applied one after the other. -/
theorem applyAll_append (first second : List Patch) (tree : Json) :
    applyAll (first ++ second) tree = applyAll second (applyAll first tree) :=
  List.foldl_append

end Patch

end ProofLedger

import ProofLedger.Keyed

/-!
# Tables

A table maps strings to values; its entries are sorted by key, so that equal tables are equal
as data. The order is part of the type and every operation keeps it.
-/

namespace ProofLedger

/-- A finite map from strings, with its entries in increasing order of keys. -/
structure Table (α : Type) where
  /-- the entries in order -/
  entries : List (String × α)
  sorted : Keyed.Sorted entries

namespace Table

variable {α β : Type}

/-- The table without entries. -/
def empty : Table α := ⟨[], Keyed.sorted_nil⟩

instance : Inhabited (Table α) := ⟨empty⟩

/-- The value under a key. -/
def get? (t : Table α) (key : String) : Option α := Keyed.find? key t.entries

/-- Whether a key is present. -/
def contains (t : Table α) (key : String) : Bool := (t.get? key).isSome

/-- Stores a value under a key. -/
def insert (t : Table α) (key : String) (value : α) : Table α :=
  ⟨Keyed.insert key value t.entries, t.sorted.insert key value⟩

/-- Removes a key. -/
def erase (t : Table α) (key : String) : Table α :=
  ⟨Keyed.erase key t.entries, t.sorted.erase key⟩

/-- The table with its values changed, without those that have none. -/
def filterMap (f : α → Option β) (t : Table α) : Table β :=
  ⟨Keyed.filterMap f t.entries, t.sorted.filterMap⟩

/-- The table of a list of entries, the last of equal keys kept. -/
def ofList (entries : List (String × α)) : Table α :=
  ⟨Keyed.ofList entries, Keyed.sorted_ofList entries⟩

/-- The number of entries. -/
def size (t : Table α) : Nat := t.entries.length

/-- The keys in order. -/
def keys (t : Table α) : List String := t.entries.map (·.1)

/-- The values in the order of their keys. -/
def values (t : Table α) : List α := t.entries.map (·.2)

theorem ext {s t : Table α} (h : s.entries = t.entries) : s = t := by
  cases s; cases t; cases h; rfl

instance [DecidableEq α] : DecidableEq (Table α) := fun s t =>
  if h : s.entries = t.entries then isTrue (ext h)
  else isFalse fun he => h (congrArg entries he)

instance [Repr α] : Repr (Table α) := ⟨fun t n => reprPrec t.entries n⟩

@[simp] theorem get?_empty (key : String) : (empty : Table α).get? key = none := rfl

@[simp] theorem get?_insert_self (t : Table α) (key : String) (value : α) :
    (t.insert key value).get? key = some value :=
  Keyed.find?_insert_self key value t.entries

theorem get?_insert_ne (t : Table α) {key other : String} (h : key ≠ other) (value : α) :
    (t.insert key value).get? other = t.get? other :=
  Keyed.find?_insert_ne h value t.entries

@[simp] theorem get?_erase_self (t : Table α) (key : String) : (t.erase key).get? key = none :=
  Keyed.find?_erase_self key t.entries

theorem get?_erase_ne (t : Table α) {key other : String} (h : key ≠ other) :
    (t.erase key).get? other = t.get? other :=
  Keyed.find?_erase_ne h t.entries

@[simp] theorem get?_filterMap (f : α → Option β) (t : Table α) (key : String) :
    (t.filterMap f).get? key = (t.get? key).bind f :=
  Keyed.find?_filterMap t.sorted.nodup f key

theorem mem_entries {t : Table α} {key : String} {value : α} :
    (key, value) ∈ t.entries ↔ t.get? key = some value :=
  t.sorted.mem_iff_find?

theorem mem_values {t : Table α} {value : α} :
    value ∈ t.values ↔ ∃ key, t.get? key = some value := by
  constructor
  · intro hmem
    obtain ⟨⟨key, v⟩, he, rfl⟩ := List.mem_map.mp hmem
    exact ⟨key, mem_entries.mp he⟩
  · rintro ⟨key, hget⟩
    exact List.mem_map.mpr ⟨(key, value), mem_entries.mpr hget, rfl⟩

theorem contains_iff {t : Table α} {key : String} :
    t.contains key = true ↔ ∃ value, t.get? key = some value :=
  Option.isSome_iff_exists

theorem mem_keys {t : Table α} {key : String} : key ∈ t.keys ↔ t.contains key = true := by
  rw [contains_iff]
  constructor
  · intro hmem
    obtain ⟨⟨k, v⟩, he, rfl⟩ := List.mem_map.mp hmem
    exact ⟨v, mem_entries.mp he⟩
  · rintro ⟨value, hget⟩
    exact List.mem_map.mpr ⟨(key, value), mem_entries.mpr hget, rfl⟩

/-- Tables are equal if they hold the same values under the same keys. -/
theorem ext_get? {s t : Table α} (h : ∀ key, s.get? key = t.get? key) : s = t :=
  ext (Keyed.eq_of_find?_eq s.sorted t.sorted h)

theorem entries_perm_of_get? {t : Table α} {key : String} {value : α}
    (h : t.get? key = some value) : t.entries.Perm ((key, value) :: (t.erase key).entries) :=
  Keyed.perm_cons_erase t.sorted h

theorem erase_eq_self {t : Table α} {key : String} (h : t.get? key = none) : t.erase key = t :=
  ext (Keyed.erase_eq_self h)

@[simp] theorem erase_insert (t : Table α) (key : String) (value : α) :
    (t.insert key value).erase key = t.erase key := by
  refine ext_get? fun other => ?_
  by_cases hk : key = other
  · subst hk; rw [get?_erase_self, get?_erase_self]
  · rw [get?_erase_ne _ hk, get?_erase_ne _ hk, get?_insert_ne _ hk]

theorem entries_insert_perm (t : Table α) (key : String) (value : α) :
    (t.insert key value).entries.Perm ((key, value) :: (t.erase key).entries) :=
  Keyed.insert_perm t.sorted key value

/-- A value under a new key joins the others. -/
theorem values_insert_perm {t : Table α} {key : String} (h : t.get? key = none) (value : α) :
    (t.insert key value).values.Perm (value :: t.values) := by
  have hperm := (entries_insert_perm t key value).map (·.2)
  rwa [erase_eq_self h] at hperm

end Table

end ProofLedger

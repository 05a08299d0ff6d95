/-!
# Entries sorted by key

Objects and tables list their entries in increasing order of their keys, each key once. The
operations here keep that order. What a look-up finds after an insertion or a removal holds of
every list; only extensionality (`eq_of_find?_eq`) needs the order.
-/

namespace ProofLedger.Keyed

variable {α β : Type}

/-- Keys strictly increase along the entries. -/
def Sorted (entries : List (String × α)) : Prop :=
  entries.Pairwise fun a b => a.1 < b.1

/-- The value stored under a key. -/
def find? (key : String) : List (String × α) → Option α
  | [] => none
  | (k, v) :: rest => if k = key then some v else find? key rest

/-- Stores a value at its place in the order, replacing the one under the same key. -/
def insert (key : String) (value : α) : List (String × α) → List (String × α)
  | [] => [(key, value)]
  | (k, v) :: rest =>
    if key < k then (key, value) :: (k, v) :: rest
    else if k = key then (key, value) :: rest
    else (k, v) :: insert key value rest

/-- Removes the entry under a key. -/
def erase (key : String) (entries : List (String × α)) : List (String × α) :=
  entries.filter fun e => e.1 != key

/-- Entries in any order, the last of equal keys kept. -/
def ofList (entries : List (String × α)) : List (String × α) :=
  entries.foldl (fun acc e => insert e.1 e.2 acc) []

/-- The entries of one list, overridden by those of another. -/
def merge (old incoming : List (String × α)) : List (String × α) :=
  incoming.foldl (fun acc e => insert e.1 e.2 acc) old

/-- Entries with their values changed. -/
def mapValues (f : α → β) (entries : List (String × α)) : List (String × β) :=
  entries.map fun e => (e.1, f e.2)

/-- Entries with their values changed, without those that have none. -/
def filterMap (f : α → Option β) (entries : List (String × α)) : List (String × β) :=
  entries.filterMap fun e => (f e.2).map fun v => (e.1, v)

/-- Reads every value, or fails as soon as one cannot be read. -/
def traverse (f : α → Option β) : List (String × α) → Option (List (String × β))
  | [] => some []
  | (k, v) :: rest => do
    let w ← f v
    let ws ← traverse f rest
    return (k, w) :: ws

-- ── Order ─────────────────────────────────────────────────────────────────────

theorem sorted_nil : Sorted ([] : List (String × α)) := List.Pairwise.nil

theorem mem_insert {key : String} {value : α} {e : String × α} {entries : List (String × α)} :
    e ∈ insert key value entries → e = (key, value) ∨ e ∈ entries := by
  induction entries with
  | nil => simp [insert]
  | cons head rest ih =>
    obtain ⟨k, v⟩ := head
    rw [insert]
    split
    · simp
    · split
      · simp only [List.mem_cons]; rintro (h | h)
        · exact Or.inl h
        · exact Or.inr (Or.inr h)
      · simp only [List.mem_cons]; rintro (h | h)
        · exact Or.inr (Or.inl h)
        · exact (ih h).imp id Or.inr

theorem Sorted.insert {entries : List (String × α)} (h : Sorted entries) (key : String)
    (value : α) : Sorted (insert key value entries) := by
  induction entries with
  | nil => simp [Sorted, Keyed.insert]
  | cons head rest ih =>
    obtain ⟨k, v⟩ := head
    have hrest : Sorted rest := List.Pairwise.of_cons h
    have hhead : ∀ e ∈ rest, k < e.1 := fun e he => List.rel_of_pairwise_cons h he
    rw [Keyed.insert]
    split
    · next hlt =>
      refine List.Pairwise.cons (fun e he => ?_) h
      rcases List.mem_cons.mp he with rfl | he
      · exact hlt
      · exact String.lt_trans hlt (hhead e he)
    · next hnlt =>
      split
      · next heq => subst heq; exact List.Pairwise.cons hhead hrest
      · next hne =>
        refine List.Pairwise.cons (fun e he => ?_) (ih hrest)
        rcases mem_insert he with rfl | he
        · rcases Decidable.em (k < key) with hk | hk
          · exact hk
          · exact absurd (String.le_antisymm hnlt hk) hne
        · exact hhead e he

theorem Sorted.erase {entries : List (String × α)} (h : Sorted entries) (key : String) :
    Sorted (erase key entries) := List.Pairwise.filter _ h

theorem Sorted.merge {old : List (String × α)} (h : Sorted old) (incoming : List (String × α)) :
    Sorted (merge old incoming) := by
  unfold Keyed.merge
  induction incoming generalizing old with
  | nil => exact h
  | cons e rest ih => exact ih (h.insert e.1 e.2)

theorem sorted_ofList (entries : List (String × α)) : Sorted (ofList entries) :=
  sorted_nil.merge entries

theorem keys_of_traverse {f : α → Option β} :
    ∀ {entries : List (String × α)} {out : List (String × β)},
      traverse f entries = some out → out.map (·.1) = entries.map (·.1)
  | [], out, h => by simp only [traverse, Option.some.injEq] at h; subst h; rfl
  | (k, v) :: rest, out, h => by
    simp only [traverse, Option.bind_eq_bind, Option.bind_eq_some_iff, Option.pure_def,
      Option.some.injEq] at h
    obtain ⟨w, _, ws, hws, rfl⟩ := h
    simp [keys_of_traverse hws]

theorem sorted_iff_keys {entries : List (String × α)} :
    Sorted entries ↔ (entries.map (·.1)).Pairwise (· < ·) := by
  simp [Sorted, List.pairwise_map]

theorem Sorted.filterMap {f : α → Option β} {entries : List (String × α)} (h : Sorted entries) :
    Sorted (filterMap f entries) := by
  refine List.Pairwise.filterMap _ (fun a b hab c hc d hd => ?_) h
  obtain ⟨_, _, rfl⟩ := Option.map_eq_some_iff.mp hc
  obtain ⟨_, _, rfl⟩ := Option.map_eq_some_iff.mp hd
  exact hab

theorem Sorted.mapValues {entries : List (String × α)} (h : Sorted entries) (f : α → β) :
    Sorted (mapValues f entries) :=
  List.pairwise_map.mpr h

theorem keys_filterMap_sublist (f : α → Option β) (entries : List (String × α)) :
    ((filterMap f entries).map (·.1)).Sublist (entries.map (·.1)) := by
  induction entries with
  | nil => exact List.Sublist.refl _
  | cons head rest ih =>
    cases hv : f head.2 with
    | none => simpa [filterMap, hv] using ih.cons head.1
    | some w => simpa [filterMap, hv] using ih.cons_cons head.1

theorem Sorted.traverse {f : α → Option β} {entries : List (String × α)}
    {out : List (String × β)} (h : Sorted entries) (ht : traverse f entries = some out) :
    Sorted out := by
  rw [sorted_iff_keys] at h ⊢
  rwa [keys_of_traverse ht]

-- ── Look-ups ──────────────────────────────────────────────────────────────────

theorem find?_insert_self (key : String) (value : α) (entries : List (String × α)) :
    find? key (insert key value entries) = some value := by
  induction entries with
  | nil => simp [insert, find?]
  | cons head rest ih =>
    obtain ⟨k, v⟩ := head
    rw [insert]
    split
    · simp [find?]
    · split
      · simp [find?]
      · next hne => simp [find?, hne, ih]

theorem find?_insert_ne {key other : String} (h : key ≠ other) (value : α)
    (entries : List (String × α)) :
    find? other (insert key value entries) = find? other entries := by
  induction entries with
  | nil => simp [insert, find?, h]
  | cons head rest ih =>
    obtain ⟨k, v⟩ := head
    rw [insert]
    split
    · simp [find?, h]
    · split
      · next heq => subst heq; simp [find?, h]
      · simp [find?, ih]

theorem find?_erase_self (key : String) (entries : List (String × α)) :
    find? key (erase key entries) = none := by
  induction entries with
  | nil => rfl
  | cons head rest ih =>
    obtain ⟨k, v⟩ := head
    by_cases h : k = key
    · simpa [erase, h] using ih
    · simpa [erase, find?, h] using ih

theorem find?_erase_ne {key other : String} (h : key ≠ other) (entries : List (String × α)) :
    find? other (erase key entries) = find? other entries := by
  induction entries with
  | nil => rfl
  | cons head rest ih =>
    obtain ⟨k, v⟩ := head
    by_cases hk : k = key
    · subst hk; simpa [erase, find?, h] using ih
    · have herase : erase key ((k, v) :: rest) = (k, v) :: erase key rest := by simp [erase, hk]
      rw [herase]; simp only [find?, ih]

theorem mem_of_find? {key : String} {value : α} {entries : List (String × α)}
    (h : find? key entries = some value) : (key, value) ∈ entries := by
  induction entries with
  | nil => cases h
  | cons head rest ih =>
    obtain ⟨k, v⟩ := head
    rw [find?] at h
    split at h
    · next hk => cases h; subst hk; exact List.mem_cons_self
    · exact List.mem_cons_of_mem _ (ih h)

theorem find?_eq_none {key : String} {entries : List (String × α)} :
    find? key entries = none ↔ ∀ e ∈ entries, e.1 ≠ key := by
  induction entries with
  | nil => simp [find?]
  | cons head rest ih =>
    obtain ⟨k, v⟩ := head
    by_cases h : k = key <;> simp [find?, h, ih]

/-- In sorted entries every entry is found under its key. -/
theorem Sorted.find?_of_mem {entries : List (String × α)} (h : Sorted entries) {key : String}
    {value : α} (hm : (key, value) ∈ entries) : find? key entries = some value := by
  induction entries with
  | nil => cases hm
  | cons head rest ih =>
    obtain ⟨k, v⟩ := head
    rcases List.mem_cons.mp hm with heq | hrest
    · cases heq; simp [find?]
    · have hlt : k < key := List.rel_of_pairwise_cons h hrest
      have hne : k ≠ key := fun he => String.lt_irrefl key (he ▸ hlt)
      rw [find?, if_neg hne]
      exact ih (List.Pairwise.of_cons h) hrest

theorem Sorted.mem_iff_find? {entries : List (String × α)} (h : Sorted entries) {key : String}
    {value : α} : (key, value) ∈ entries ↔ find? key entries = some value :=
  ⟨h.find?_of_mem, mem_of_find?⟩

theorem find?_mapValues (f : α → β) (key : String) (entries : List (String × α)) :
    find? key (mapValues f entries) = (find? key entries).map f := by
  induction entries with
  | nil => rfl
  | cons head rest ih =>
    obtain ⟨k, v⟩ := head
    by_cases h : k = key
    · simp [mapValues, find?, h]
    · simpa [mapValues, find?, h] using ih

theorem Sorted.nodup {entries : List (String × α)} (h : Sorted entries) :
    (entries.map (·.1)).Nodup := by
  refine List.Pairwise.imp ?_ (sorted_iff_keys.mp h)
  intro a b hlt heq
  exact String.lt_irrefl b (heq ▸ hlt)

theorem find?_eq_none_of_fresh {key : String} {entries : List (String × α)}
    (h : key ∉ entries.map (·.1)) : find? key entries = none :=
  find?_eq_none.mpr fun e he heq => h (List.mem_map.mpr ⟨e, he, heq⟩)

/-- Keys must differ: otherwise a value that is dropped could hide another. -/
theorem find?_filterMap {entries : List (String × α)} (h : (entries.map (·.1)).Nodup)
    (f : α → Option β) (key : String) :
    find? key (filterMap f entries) = (find? key entries).bind f := by
  induction entries with
  | nil => rfl
  | cons head rest ih =>
    obtain ⟨k, v⟩ := head
    obtain ⟨hfresh, hrest⟩ := List.nodup_cons.mp h
    have htail := ih hrest
    by_cases hk : k = key
    · have hnone : find? key rest = none := find?_eq_none_of_fresh (hk ▸ hfresh)
      rw [hnone] at htail
      cases hv : f v with
      | none => simpa [filterMap, find?, hk, hv] using htail
      | some w => simp [filterMap, find?, hk, hv]
    · cases hv : f v with
      | none => simpa [filterMap, find?, hk, hv] using htail
      | some w => simpa [filterMap, find?, hk, hv] using htail

theorem find?_merge {new : List (String × α)} (h : (new.map (·.1)).Nodup)
    (old : List (String × α)) (key : String) :
    find? key (merge old new) = (find? key new).or (find? key old) := by
  induction new generalizing old with
  | nil => rfl
  | cons head rest ih =>
    obtain ⟨k, v⟩ := head
    obtain ⟨hfresh, hrest⟩ := List.nodup_cons.mp h
    have htail : find? key (merge old ((k, v) :: rest)) =
        (find? key rest).or (find? key (insert k v old)) := ih hrest _
    rw [htail]
    by_cases hk : k = key
    · have hnone : find? key rest = none := find?_eq_none_of_fresh (hk ▸ hfresh)
      subst hk
      rw [hnone, find?_insert_self]
      simp [find?]
    · rw [find?_insert_ne hk]
      simp [find?, hk]

theorem find?_ofList {entries : List (String × α)} (h : (entries.map (·.1)).Nodup)
    (key : String) : find? key (ofList entries) = find? key entries :=
  (find?_merge h [] key).trans (Option.or_none)

theorem find?_traverse {f : α → Option β} (key : String) :
    ∀ {entries : List (String × α)} {out : List (String × β)},
      traverse f entries = some out → (find? key entries).map f = (find? key out).map some
  | [], out, h => by simp only [traverse, Option.some.injEq] at h; subst h; rfl
  | (k, v) :: rest, out, h => by
    simp only [traverse, Option.bind_eq_bind, Option.bind_eq_some_iff, Option.pure_def,
      Option.some.injEq] at h
    obtain ⟨w, hw, ws, hws, rfl⟩ := h
    by_cases hk : k = key
    · simp [find?, hk, hw]
    · simpa [find?, hk] using find?_traverse key hws

theorem traverse_eq_some {f : α → Option β} :
    ∀ {entries : List (String × α)}, (∀ e ∈ entries, (f e.2).isSome = true) →
      ∃ out, traverse f entries = some out
  | [], _ => ⟨[], rfl⟩
  | (k, v) :: rest, h => by
    obtain ⟨w, hw⟩ := Option.isSome_iff_exists.mp (h (k, v) List.mem_cons_self)
    obtain ⟨ws, hws⟩ := traverse_eq_some fun e he => h e (List.mem_cons_of_mem _ he)
    exact ⟨(k, w) :: ws, by simp [traverse, hw, hws]⟩

theorem insert_insert (key : String) (value old : α) (entries : List (String × α)) :
    insert key value (insert key old entries) = insert key value entries := by
  induction entries with
  | nil => simp [insert]
  | cons head rest ih =>
    obtain ⟨k, v⟩ := head
    by_cases hlt : key < k
    · simp [insert, hlt]
    · by_cases hk : k = key
      · simp [insert, hk]
      · simp [insert, hlt, hk, ih]

/-- Sorted entries are determined by what is found in them. -/
theorem eq_of_find?_eq {s t : List (String × α)} (hs : Sorted s) (ht : Sorted t)
    (h : ∀ key, find? key s = find? key t) : s = t := by
  have hmem : ∀ e, e ∈ s ↔ e ∈ t := by
    rintro ⟨k, v⟩
    rw [hs.mem_iff_find?, ht.mem_iff_find?, h]
  have hnodup : ∀ {l : List (String × α)}, Sorted l → l.Nodup := fun hl => by
    rw [List.nodup_iff_pairwise_ne]
    refine hl.imp fun {a b} hab heq => ?_
    exact String.lt_irrefl b.1 (heq ▸ hab)
  have hperm : s.Perm t := (List.perm_ext_iff_of_nodup (hnodup hs) (hnodup ht)).mpr hmem
  exact hperm.eq_of_pairwise (fun a b _ _ hab hba => absurd (String.lt_trans hab hba)
    (String.lt_irrefl _)) hs ht

-- ── Rearrangement ─────────────────────────────────────────────────────────────

theorem erase_eq_self {key : String} {entries : List (String × α)}
    (h : find? key entries = none) : erase key entries = entries :=
  List.filter_eq_self.mpr fun e he => by simpa using find?_eq_none.mp h e he

theorem insert_perm {entries : List (String × α)} (h : Sorted entries) (key : String)
    (value : α) : (insert key value entries).Perm ((key, value) :: erase key entries) := by
  induction entries with
  | nil => exact List.Perm.refl _
  | cons head rest ih =>
    obtain ⟨k, v⟩ := head
    have hrest : Sorted rest := List.Pairwise.of_cons h
    have hhead : ∀ e ∈ rest, k < e.1 := fun e he => List.rel_of_pairwise_cons h he
    rw [insert]
    split
    · next hlt =>
      rw [erase_eq_self (find?_eq_none.mpr fun e he heq => ?_)]
      have hle : key < e.1 := by
        rcases List.mem_cons.mp he with rfl | he
        · exact hlt
        · exact String.lt_trans hlt (hhead e he)
      exact String.lt_irrefl _ (heq ▸ hle)
    · split
      · next heq =>
        subst heq
        have hgone : erase k ((k, v) :: rest) = rest := by
          have hnone : find? k rest = none :=
            find?_eq_none.mpr fun e he hk => String.lt_irrefl _ (hk ▸ hhead e he)
          simpa [erase] using erase_eq_self hnone
        rw [hgone]
      · next hne =>
        have herase : erase key ((k, v) :: rest) = (k, v) :: erase key rest := by
          simp [erase, hne]
        rw [herase]
        exact ((ih hrest).cons _).trans (List.Perm.swap _ _ _)

theorem perm_cons_erase {entries : List (String × α)} (h : Sorted entries) {key : String}
    {value : α} (hf : find? key entries = some value) :
    entries.Perm ((key, value) :: erase key entries) := by
  have hsame : insert key value entries = entries :=
    eq_of_find?_eq (h.insert key value) h fun other => by
      by_cases hk : key = other
      · subst hk; rw [find?_insert_self, hf]
      · exact find?_insert_ne hk value entries
  rw [← hsame]
  have herase : erase key (insert key value entries) = erase key entries := by rw [hsame]
  rw [herase]
  exact insert_perm h key value

end ProofLedger.Keyed

import ProofLedger.Proofs.Json.Frame

/-!
# Patches field by field

A patch acts on what is found where its path starts, and nothing may be found there: to set or to
merge makes something of nothing, and to unset makes nothing of something. Told like this, a patch
does one of two things. Either it replaces what it finds as a whole, and then it does not matter
what that was (`act_of_replaces`). Or it keeps the fields that it does not mention: then each
field becomes what a patch with a shorter path makes of it (`field?_act`), and there is an object
or some other value afterwards if there was one before or if the patch needs one (`shape_act`).
-/

namespace ProofLedger

namespace Json

/-- Whether what is found is well-formed, if anything is. -/
def WellFormedAt (found : Option Json) : Prop := ∀ v, found = some v → v.WellFormed

/-- A field of what is found. -/
def field? (key : String) (found : Option Json) : Option Json := found.bind (get? key)

/-- How much is found: nothing, a value without fields, or an object. -/
def shape : Option Json → Nat
  | none => 0
  | some v => if v.isObject then 2 else 1

theorem shape_le_two (found : Option Json) : shape found ≤ 2 := by
  cases found with
  | none => exact Nat.zero_le 2
  | some v =>
    show (if v.isObject then 2 else 1) ≤ 2
    split <;> omega

theorem shape_eq_two {found : Option Json} (h : shape found = 2) :
    ∃ fields, found = some (object fields) := by
  cases found with
  | none => cases h
  | some v =>
    cases v with
    | object fields => exact ⟨fields, rfl⟩
    | _ => cases h

theorem WellFormedAt.field? {found : Option Json} (h : WellFormedAt found) (key : String) :
    WellFormedAt (field? key found) := by
  intro w hw
  obtain ⟨v, hv, hget⟩ := Option.bind_eq_some_iff.mp hw
  exact (h v hv).get? hget

/-- Objects with the same fields are the same. -/
theorem eq_of_field?_eq {a b : Option Json} (ha : WellFormedAt a) (hb : WellFormedAt b)
    (hshape : shape a = 2) (hshape' : shape b = 2) (h : ∀ key, field? key a = field? key b) :
    a = b := by
  obtain ⟨fs, rfl⟩ := shape_eq_two hshape
  obtain ⟨gs, rfl⟩ := shape_eq_two hshape'
  have hsorted : Keyed.Sorted fs := (ha _ rfl).sorted
  exact congrArg (fun fields => some (object fields))
    (Keyed.eq_of_find?_eq hsorted (hb _ rfl).sorted h)

theorem get?_removeAt_singleton_self (key : String) (v : Json) :
    (removeAt [key] v).get? key = none := by
  cases v with
  | object fs => exact Keyed.find?_erase_self key fs
  | _ => rfl

theorem isObject_removeAt (key : String) (rest : Path) (v : Json) :
    (removeAt (key :: rest) v).isObject = v.isObject := by
  cases v with
  | object fs =>
    cases rest with
    | nil => rfl
    | cons next rest =>
      cases hw : Keyed.find? key fs with
      | none => rw [removeAt_none hw]
      | some w => rw [removeAt_some hw]; rfl
  | _ => cases rest <;> rfl

/-- Below a value that is no object there is nothing to remove. -/
theorem removeAt_of_not_isObject {v : Json} (h : v.isObject = false) (key : String)
    (rest : Path) : removeAt (key :: rest) v = v := by
  cases v with
  | object fs => cases h
  | _ => cases rest <;> rfl

end Json

namespace Patch

open Json

/-- What a patch makes of what is found where its path starts. -/
def act (p : Patch) (found : Option Json) : Option Json :=
  match p.op with
  | .unset => if p.path = [] then none else found.map p.apply
  | _ => some (p.apply (found.getD .null))

/-- What patches make of it in order. -/
def actAll (patches : List Patch) (found : Option Json) : Option Json :=
  patches.foldl (fun f p => p.act f) found

/-- Whether a patch replaces all that it finds. -/
def replaces (p : Patch) : Bool :=
  p.path.isEmpty && match p.op, p.value with
    | .merge, none => false
    | .merge, some v => !v.isObject
    | _, _ => true

/-- The shape that a patch needs, and makes if it is not there. -/
def demand (p : Patch) : Nat :=
  match p.op with
  | .unset => 0
  | .set => 2
  | .merge => if p.path = [] ∧ p.value.isNone then 1 else 2

/-- What a patch does to a field of what it finds, if it mentions the field. -/
def below (key : String) (p : Patch) : Option Patch :=
  match p.path with
  | [] => (p.value.bind (get? key)).map (set [])
  | k :: rest => if k = key then some { p with path := rest } else none

variable {p q : Patch} {found : Option Json}

theorem below_cons (key : String) (op : PatchOp) (k : String) (rest : Path)
    (value : Option Json) :
    below key ⟨op, k :: rest, value⟩ = if k = key then some ⟨op, rest, value⟩ else none := rfl

theorem actAll_cons (p : Patch) (rest : List Patch) (found : Option Json) :
    actAll (p :: rest) found = actAll rest (p.act found) := rfl

theorem actAll_append (first second : List Patch) (found : Option Json) :
    actAll (first ++ second) found = actAll second (actAll first found) :=
  List.foldl_append

/-- At the root a patch leaves `null` where it leaves nothing. -/
theorem getD_act (p : Patch) (found : Option Json) :
    (p.act found).getD .null = p.apply (found.getD .null) := by
  obtain ⟨op, path, value⟩ := p
  cases op with
  | set => rfl
  | merge => rfl
  | unset =>
    cases path with
    | nil => rfl
    | cons key rest =>
      cases found with
      | none => cases rest <;> rfl
      | some v => rfl

theorem getD_actAll (patches : List Patch) (found : Option Json) :
    (actAll patches found).getD .null = applyAll patches (found.getD .null) := by
  induction patches generalizing found with
  | nil => rfl
  | cons p rest ih => rw [actAll_cons, ih, getD_act, applyAll_cons]

theorem wellFormedAt_act (hp : p.WellFormed) (h : WellFormedAt found) :
    WellFormedAt (p.act found) := by
  have hroot : (found.getD .null).WellFormed := by
    cases found with
    | none => exact .null
    | some v => exact h v rfl
  have happly := wellFormed_apply hp hroot
  rw [← getD_act] at happly
  intro w hw
  rwa [hw] at happly

theorem wellFormedAt_actAll {patches : List Patch} (hp : ∀ p ∈ patches, p.WellFormed)
    (h : WellFormedAt found) : WellFormedAt (actAll patches found) := by
  induction patches generalizing found with
  | nil => exact h
  | cons p rest ih =>
    obtain ⟨hfirst, hrest⟩ := List.forall_mem_cons.mp hp
    exact ih hrest (wellFormedAt_act hfirst h)

-- ── What a patch does ─────────────────────────────────────────────────────────

/-- A patch that replaces what it finds makes the same of everything. -/
theorem act_of_replaces (h : p.replaces = true) (found other : Option Json) :
    p.act found = p.act other := by
  obtain ⟨op, path, value⟩ := p
  cases path with
  | cons key rest => cases h
  | nil =>
    cases op with
    | set => rfl
    | unset => rfl
    | merge =>
      cases value with
      | none => cases h
      | some v =>
        cases v with
        | object fs => cases h
        | _ => rfl

/-- The cases of a patch that does not replace what it finds. -/
theorem cases_of_not_replaces (h : p.replaces = false) :
    (∃ key rest, p.path = key :: rest) ∨
      (p.op = .merge ∧ p.path = [] ∧ (p.value = none ∨ ∃ fs, p.value = some (object fs))) := by
  obtain ⟨op, path, value⟩ := p
  cases path with
  | cons key rest => exact .inl ⟨key, rest, rfl⟩
  | nil =>
    cases op with
    | set => cases h
    | unset => cases h
    | merge =>
      refine .inr ⟨rfl, rfl, ?_⟩
      cases value with
      | none => exact .inl rfl
      | some v =>
        cases v with
        | object fs => exact .inr ⟨fs, rfl⟩
        | _ => cases h

/-- A patch with a longer path does to a field what the rest of it does where the field is. -/
theorem field?_act_cons (op : PatchOp) (key : String) (rest : Path) (value : Option Json)
    (found : Option Json) :
    field? key (act ⟨op, key :: rest, value⟩ found) = act ⟨op, rest, value⟩ (field? key found) := by
  have hroot : (found.getD .null).getD key = (field? key found).getD .null := by
    cases found <;> rfl
  cases op with
  | set =>
    show (alterAt _ (key :: rest) (found.getD .null)).get? key = some (alterAt _ rest _)
    rw [get?_alterAt_self, hroot]
  | merge =>
    show (alterAt _ (key :: rest) (found.getD .null)).get? key = some (alterAt _ rest _)
    rw [get?_alterAt_self, hroot]
  | unset =>
    cases found with
    | none => cases rest <;> rfl
    | some v =>
      cases rest with
      | nil => exact get?_removeAt_singleton_self key v
      | cons next rest => exact get?_removeAt_self key next rest v

/-- It leaves the other fields alone. -/
theorem field?_act_cons_ne {key other : String} (h : key ≠ other) (op : PatchOp) (rest : Path)
    (value : Option Json) (found : Option Json) :
    field? other (act ⟨op, key :: rest, value⟩ found) = field? other found := by
  have hroot : (found.getD .null).get? other = field? other found := by
    cases found <;> rfl
  cases op with
  | set => exact (get?_alterAt_ne _ h rest _).trans hroot
  | merge => exact (get?_alterAt_ne _ h rest _).trans hroot
  | unset =>
    cases found with
    | none => rfl
    | some v =>
      cases rest with
      | nil => exact get?_removeAt_singleton_ne h v
      | cons next rest => exact get?_removeAt_ne h next rest v

/-- A patch that does not replace what it finds acts on each field by itself. -/
theorem field?_act (h : p.replaces = false) (hp : p.WellFormed) (key : String)
    (found : Option Json) :
    field? key (p.act found) = actAll (p.below key).toList (field? key found) := by
  rcases cases_of_not_replaces h with ⟨k, rest, hpath⟩ | ⟨hop, hpath, hvalue⟩
  · obtain ⟨op, path, value⟩ := p
    obtain rfl : path = k :: rest := hpath
    by_cases hk : k = key
    · subst hk
      rw [field?_act_cons, below_cons, if_pos rfl]
      rfl
    · rw [field?_act_cons_ne hk, below_cons, if_neg hk]
      rfl
  · have hroot : (found.getD .null).get? key = field? key found := by
      cases found <;> rfl
    obtain ⟨op, path, value⟩ := p
    obtain rfl : op = .merge := hop
    obtain rfl : path = [] := hpath
    rcases hvalue with rfl | ⟨fs, rfl⟩
    · exact hroot
    · have hsorted : Keyed.Sorted fs := (hp _ rfl).sorted
      show (mergeWith (some (object fs)) (found.getD .null)).get? key = _
      rw [get?_mergeWith hsorted, hroot]
      show _ = actAll ((Keyed.find? key fs).map (set [])).toList (field? key found)
      cases Keyed.find? key fs <;> rfl

/-- A patch that does not replace what it finds keeps its shape, or makes the one it needs. -/
theorem shape_act (h : p.replaces = false) (found : Option Json) :
    shape (p.act found) = max (shape found) p.demand := by
  have hle := shape_le_two found
  rcases cases_of_not_replaces h with ⟨key, rest, hpath⟩ | ⟨hop, hpath, hvalue⟩
  · obtain ⟨op, path, value⟩ := p
    obtain rfl : path = key :: rest := hpath
    have hmade : ∀ change : Json → Json,
        shape (some (alterAt change (key :: rest) (found.getD .null))) = 2 := by
      intro change
      rw [alterAt_cons]
      rfl
    cases op with
    | set => exact (hmade _).trans (Nat.max_eq_right hle).symm
    | merge => exact (hmade _).trans (Nat.max_eq_right hle).symm
    | unset =>
      refine Eq.trans ?_ (Nat.max_eq_left (Nat.zero_le _)).symm
      cases found with
      | none => rfl
      | some v =>
        show (if (removeAt (key :: rest) v).isObject then 2 else 1) = _
        rw [isObject_removeAt]
        rfl
  · obtain ⟨op, path, value⟩ := p
    obtain rfl : op = .merge := hop
    obtain rfl : path = [] := hpath
    rcases hvalue with rfl | ⟨fs, rfl⟩
    · cases found with
      | none => rfl
      | some v =>
        show shape (some v) = max (shape (some v)) 1
        refine (Nat.max_eq_left ?_).symm
        show 1 ≤ if v.isObject then 2 else 1
        split <;> omega
    · refine Eq.trans ?_ (Nat.max_eq_right hle).symm
      show shape (some (mergeWith (some (object fs)) (found.getD .null))) = 2
      cases found.getD .null <;> rfl

/-- Where there is all that a patch needs and no object, it changes nothing. -/
theorem act_of_demand_le (h : p.replaces = false) (hdemand : p.demand ≤ shape found)
    (hshape : shape found ≠ 2) : p.act found = found := by
  have hle := shape_le_two found
  rcases cases_of_not_replaces h with ⟨key, rest, hpath⟩ | ⟨hop, hpath, hvalue⟩
  · obtain ⟨op, path, value⟩ := p
    obtain rfl : path = key :: rest := hpath
    cases op with
    | set => exact absurd (Nat.le_antisymm hle hdemand) hshape
    | merge => exact absurd (Nat.le_antisymm hle hdemand) hshape
    | unset =>
      cases found with
      | none => rfl
      | some v =>
        have hplain : v.isObject = false := by
          rw [← Bool.not_eq_true]
          exact fun hv => hshape (if_pos hv)
        exact congrArg some (removeAt_of_not_isObject hplain key rest)
  · obtain ⟨op, path, value⟩ := p
    obtain rfl : op = .merge := hop
    obtain rfl : path = [] := hpath
    rcases hvalue with rfl | ⟨fs, rfl⟩
    · cases found with
      | none => cases hdemand
      | some v => rfl
    · exact absurd (Nat.le_antisymm hle hdemand) hshape

/-- What a patch does to a field is again a well-formed patch. -/
theorem wellFormed_below (hp : p.WellFormed) {key : String} (hq : p.below key = some q) :
    q.WellFormed := by
  obtain ⟨op, path, value⟩ := p
  cases path with
  | nil =>
    obtain ⟨w, hw, rfl⟩ := Option.map_eq_some_iff.mp hq
    obtain ⟨v, hv, hget⟩ := Option.bind_eq_some_iff.mp hw
    exact wellFormed_set [] ((hp v hv).get? hget)
  | cons k rest =>
    by_cases hk : k = key
    · rw [below_cons, if_pos hk] at hq
      cases hq
      exact hp
    · rw [below_cons, if_neg hk] at hq
      cases hq

/-- What patches do field by field, if none replaces what it finds. -/
theorem field?_actAll {patches : List Patch} (hkeeps : ∀ p ∈ patches, p.replaces = false)
    (hp : ∀ p ∈ patches, p.WellFormed) (key : String) (found : Option Json) :
    field? key (actAll patches found) =
      actAll (patches.filterMap (below key)) (field? key found) := by
  induction patches generalizing found with
  | nil => rfl
  | cons p rest ih =>
    obtain ⟨hkeep, hkeeps⟩ := List.forall_mem_cons.mp hkeeps
    obtain ⟨hfirst, hrest⟩ := List.forall_mem_cons.mp hp
    rw [actAll_cons, ih hkeeps hrest, field?_act hkeep hfirst, ← actAll_append]
    cases hbelow : p.below key with
    | none => rw [List.filterMap_cons_none hbelow]; rfl
    | some q => rw [List.filterMap_cons_some hbelow]; rfl

end Patch

end ProofLedger

import ProofLedger.Proofs.Json.Tree

/-!
# What a change leaves alone

Two paths are apart if neither continues the other. A change at one path leaves alone what is
found at every path apart from it, whatever is in its way; what it does at its own path it does to
the value that was there, or to `null`.
-/

namespace ProofLedger

/-- Neither of two paths continues the other. -/
def Path.Apart (p q : Path) : Prop := ¬ p <+: q ∧ ¬ q <+: p

theorem Path.apart_cons_iff {key other : String} {p q : Path} :
    Path.Apart (key :: p) (other :: q) ↔ (key = other → Path.Apart p q) := by
  unfold Path.Apart
  rw [List.cons_prefix_cons, List.cons_prefix_cons]
  by_cases h : key = other
  · simp [h]
  · simp [h, Ne.symm h]

theorem Path.not_apart_nil (p : Path) : ¬ Path.Apart p [] := fun h => h.2 List.nil_prefix

theorem Path.not_nil_apart (p : Path) : ¬ Path.Apart [] p := fun h => h.1 List.nil_prefix

namespace Json

/-- Below a key that has no value nothing is found, and nothing is found below `null`. -/
theorem getAt?_getD {tail : Path} (h : tail ≠ []) (key : String) (v : Json) :
    getAt? tail (v.getD key) = getAt? (key :: tail) v := by
  cases tail with
  | nil => exact absurd rfl h
  | cons next rest => exact (getAt?_cons_cons key next rest v).symm

theorem get?_removeAt_singleton_ne {key other : String} (h : key ≠ other) (v : Json) :
    (removeAt [key] v).get? other = v.get? other := by
  cases v with
  | object fs => exact Keyed.find?_erase_ne h fs
  | _ => rfl

theorem getAt?_alterAt_self (change : Json → Json) (p : Path) (v : Json) :
    getAt? p (alterAt change p v) = some (change ((getAt? p v).getD null)) := by
  induction p generalizing v with
  | nil => rfl
  | cons key rest ih =>
    show ((alterAt change (key :: rest) v).get? key).bind (getAt? rest) = _
    rw [get?_alterAt_self, Option.bind_some, ih]
    by_cases hrest : rest = []
    · subst hrest
      show some (change (v.getD key)) = some (change (((v.get? key).bind some).getD null))
      cases hv : v.get? key <;> simp only [getD, hv] <;> rfl
    · rw [getAt?_getD hrest]

theorem getAt?_alterAt_of_apart {p q : Path} (h : Path.Apart p q) (change : Json → Json)
    (v : Json) : getAt? q (alterAt change p v) = getAt? q v := by
  induction p generalizing q v with
  | nil => exact absurd h (Path.not_nil_apart q)
  | cons key rest ih =>
    cases q with
    | nil => exact absurd h (Path.not_apart_nil _)
    | cons other tail =>
      show ((alterAt change (key :: rest) v).get? other).bind (getAt? tail) =
        (v.get? other).bind (getAt? tail)
      by_cases hkey : key = other
      · subst hkey
        have htail := Path.apart_cons_iff.mp h rfl
        have hne : tail ≠ [] := fun he => Path.not_apart_nil rest (he ▸ htail)
        rw [get?_alterAt_self, Option.bind_some, ih htail, getAt?_getD hne]
        rfl
      · rw [get?_alterAt_ne change hkey]

theorem getAt?_removeAt_of_apart {p q : Path} (h : Path.Apart p q) (v : Json) :
    getAt? q (removeAt p v) = getAt? q v := by
  induction p generalizing q v with
  | nil => exact absurd h (Path.not_nil_apart q)
  | cons key rest ih =>
    cases q with
    | nil => exact absurd h (Path.not_apart_nil _)
    | cons other tail =>
      show ((removeAt (key :: rest) v).get? other).bind (getAt? tail) =
        (v.get? other).bind (getAt? tail)
      by_cases hkey : key = other
      · subst hkey
        have htail := Path.apart_cons_iff.mp h rfl
        cases rest with
        | nil => exact absurd htail (Path.not_nil_apart tail)
        | cons next rest =>
          rw [get?_removeAt_self, Option.bind_map]
          exact Option.bind_congr fun w _ => ih htail w
      · cases rest with
        | nil => rw [get?_removeAt_singleton_ne hkey]
        | cons next rest => rw [get?_removeAt_ne hkey]

end Json

namespace Patch

variable {q : Path}

theorem applyAll_cons (p : Patch) (rest : List Patch) (tree : Json) :
    applyAll (p :: rest) tree = applyAll rest (p.apply tree) := rfl

/-- A patch acts at its path only. -/
theorem getAt?_apply_of_apart {p : Patch} (h : Path.Apart p.path q) (tree : Json) :
    (p.apply tree).getAt? q = tree.getAt? q := by
  obtain ⟨op, path, value⟩ := p
  cases op with
  | set => exact Json.getAt?_alterAt_of_apart h _ tree
  | merge => exact Json.getAt?_alterAt_of_apart h _ tree
  | unset => exact Json.getAt?_removeAt_of_apart h tree

theorem getAt?_applyAll_of_apart {patches : List Patch}
    (h : ∀ p ∈ patches, Path.Apart p.path q) (tree : Json) :
    (applyAll patches tree).getAt? q = tree.getAt? q := by
  induction patches generalizing tree with
  | nil => rfl
  | cons p rest ih =>
    rw [applyAll_cons, ih fun r hr => h r (List.mem_cons_of_mem p hr)]
    exact getAt?_apply_of_apart (h p List.mem_cons_self) tree

end Patch

end ProofLedger

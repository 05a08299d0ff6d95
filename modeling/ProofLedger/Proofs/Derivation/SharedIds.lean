import ProofLedger.Proofs.Derivation.Coherence

/-!
# When obligations share an id

Not only the text of an identity tells it from all others, its bytes do too, and those are what is
digested (`digested_injective`). An id is a word in front of hexadecimal digits, from which the
bytes of the digest can be read back (`Digest.hex_injective`). So two obligations, be they of one
pass or of two, share an id only if they have the same identity or if two different texts have the
same digest (`shared_id_same_identity`).
-/

namespace ProofLedger

-- ── Hexadecimal digits ────────────────────────────────────────────────────────

namespace Digest

theorem digitChar_injective {m n : Nat} (hm : m < 16) (hn : n < 16)
    (h : Nat.digitChar m = Nat.digitChar n) : m = n := by
  have hall : ∀ m < 16, ∀ n < 16, Nat.digitChar m = Nat.digitChar n → m = n := by decide
  exact hall m hm n hn h

theorem hexByte_injective {a b : UInt8} (h : hexByte a = hexByte b) : a = b := by
  have ha := a.toNat_lt
  have hb := b.toNat_lt
  obtain ⟨hhigh, htail⟩ := List.cons.inj h
  obtain ⟨hlow, -⟩ := List.cons.inj htail
  have hhigh' : a.toNat / 16 = b.toNat / 16 :=
    digitChar_injective (by omega) (by omega) hhigh
  have hlow' : a.toNat % 16 = b.toNat % 16 := digitChar_injective (by omega) (by omega) hlow
  exact UInt8.toNat_inj.mp (by omega)

theorem hex_cons (a : UInt8) (bytes : List UInt8) : hex (a :: bytes) = hexByte a ++ hex bytes :=
  List.flatMap_cons

theorem hex_injective : Function.Injective hex := by
  intro as bs h
  induction as generalizing bs with
  | nil =>
    cases bs with
    | nil => rfl
    | cons b bs => cases h
  | cons a as ih =>
    cases bs with
    | nil => cases h
    | cons b bs =>
      rw [hex_cons, hex_cons] at h
      obtain ⟨hbyte, hbytes⟩ := List.append_inj h rfl
      rw [hexByte_injective hbyte, ih hbytes]

/-- Different messages whose digests begin alike, as far as an id shows them. -/
def Collide (a b : List UInt8) : Prop := a ≠ b ∧ (sha256 a).take 8 = (sha256 b).take 8

end Digest

-- ── Digested bytes ────────────────────────────────────────────────────────────

namespace Identity

/-- The bytes that are digested. -/
def digested (i : Identity) : List UInt8 := (String.ofList i.preimage).toUTF8.toList

theorem byteArray_toList_injective : Function.Injective ByteArray.toList := by
  intro a b h
  rw [ByteArray.toList, ByteArray.toList, toList_loop, toList_loop] at h
  exact ByteArray.ext (Array.toList_inj.mp h)

/-- Different identities are digested from different bytes. -/
theorem digested_injective : Function.Injective digested := by
  intro i j h
  have htext : String.ofList i.preimage = String.ofList j.preimage :=
    String.toByteArray_inj.mp (byteArray_toList_injective h)
  exact preimage_injective (String.ofList_injective htext)

theorem shortHash_eq_iff {i j : Identity} : i.shortHash = j.shortHash ↔
    (Digest.sha256 i.digested).take 8 = (Digest.sha256 j.digested).take 8 := by
  constructor
  · intro h
    exact Digest.hex_injective (String.ofList_injective h)
  · intro h
    rw [shortHash, shortHash]
    exact congrArg (fun bytes => String.ofList (Digest.hex bytes)) h

/-- Identities with the same digest are the same, unless their bytes collide. -/
theorem eq_or_collide {i j : Identity} (h : i.shortHash = j.shortHash) :
    i = j ∨ Digest.Collide i.digested j.digested := by
  by_cases hij : i = j
  · exact .inl hij
  · exact .inr ⟨fun hbytes => hij (digested_injective hbytes), shortHash_eq_iff.mp h⟩

end Identity

-- ── Obligations ───────────────────────────────────────────────────────────────

namespace Derivation

/-- What obligations have in common that share an id: their nodes have the same id, or their goals
    have. -/
def ShareId (goal : Option Goal) (n : GraphNode) (goal' : Option Goal) (n' : GraphNode) : Prop :=
  n.nodeId = n'.nodeId ∨ ∃ g g', goal = some g ∧ goal' = some g' ∧ g.id = g'.id

theorem Obliges.shortHash_eq {c c' : SourceContext} {i j : Identity} {goal goal' : Option Goal}
    {n n' : GraphNode} (hi : Obliges c i goal n) (hj : Obliges c' j goal' n')
    (h : ShareId goal n goal' n') : i.shortHash = j.shortHash := by
  rcases h with hnode | ⟨g, g', hg, hg', hgoal⟩
  · rw [hi.fits.nodeId, hj.fits.nodeId] at hnode
    exact Identity.shortHash_of_nodeId hnode
  · rw [(hi.fits.goal g hg).1, (hj.fits.goal g' hg').1] at hgoal
    exact Identity.shortHash_of_goalId hgoal

/-- The digested bytes tell an identity: whether it is that of a declaration or of an error, its
    line and its text, whatever characters the text has. So obligations of any passes that share
    an id have the same identity, unless digests collide. -/
theorem shared_id_same_identity :
    (∀ i j : Identity, i.digested = j.digested → i = j) ∧
    ∀ (c c' : SourceContext) (i j : Identity) (goal goal' : Option Goal) (n n' : GraphNode),
      Obliges c i goal n → Obliges c' j goal' n' → ShareId goal n goal' n' →
        i = j ∨ Digest.Collide i.digested j.digested := by
  refine ⟨fun i j h => Identity.digested_injective h, ?_⟩
  intro c c' i j goal goal' n n' hi hj h
  exact Identity.eq_or_collide (hi.shortHash_eq hj h)

/-- The error that is reported twice has one identity, and both reports have the same ids. -/
theorem shared_id_same_identity_repeatedError :
    let e : Diagnostic := ⟨"x  y", .error, ⟨⟨9, 1⟩, ⟨9, 1⟩⟩, none⟩
    let e' : Diagnostic := ⟨"x y", .error, ⟨⟨9, 1⟩, ⟨9, 4⟩⟩, none⟩
    e ∈ uncovered noisyContext ∧ e' ∈ uncovered noisyContext ∧
      ((diagnosticIdentity e).digested = (diagnosticIdentity e').digested ∧
        diagnosticIdentity e = diagnosticIdentity e') ∧
      ShareId (some (diagnosticGoal e)) (diagnosticNode e) (some (diagnosticGoal e'))
        (diagnosticNode e') ∧
      (diagnosticIdentity e = diagnosticIdentity e' ∨
        Digest.Collide (diagnosticIdentity e).digested (diagnosticIdentity e').digested) := by
  intro e e'
  obtain ⟨hbytes, hids⟩ := shared_id_same_identity
  have he : e ∈ uncovered noisyContext := by
    rw [uncovered, errorsOf_noisyContext]
    decide +kernel
  have he' : e' ∈ uncovered noisyContext := by
    rw [uncovered, errorsOf_noisyContext]
    decide +kernel
  have hdigested : (diagnosticIdentity e).digested = (diagnosticIdentity e').digested := by
    rw [Identity.digested, Identity.digested, Identity.toList_toUTF8, Identity.toList_toUTF8]
    decide +kernel
  have hsame := hbytes _ _ hdigested
  have hshare : ShareId (some (diagnosticGoal e)) (diagnosticNode e) (some (diagnosticGoal e'))
      (diagnosticNode e') := .inl (congrArg Identity.nodeId hsame)
  exact ⟨he, he', ⟨hdigested, hsame⟩, hshare,
    hids noisyContext noisyContext _ _ _ _ _ _ (.error he) (.error he') hshare⟩

end Derivation

end ProofLedger

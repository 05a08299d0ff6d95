import Mathlib.Data.List.Dedup
import ProofLedger.Graph
import ProofLedger.Identity

/-!
# Telling identities apart

An identity can be read back from the text that is digested: the number of a line holds no NUL,
so the first NUL ends it, and the word in front of the identity of an error is no number. Ids
are words put in front of a digest. Hence two identities share an id only if their digests agree,
and if digests do not collide they are the same.
-/

namespace ProofLedger.Identity

-- ── The digested text ─────────────────────────────────────────────────────────

theorem toList_line (n : Nat) : (toString n).toList = Nat.toDigits 10 n :=
  String.toList_ofList

/-- The digits of a line are followed by the first NUL. -/
theorem nul_notMem_line (n : Nat) : '\x00' ∉ (toString n).toList := by
  intro hmem
  rw [toList_line] at hmem
  have hdigit : ('\x00' : Char).isDigit = true :=
    Nat.isDigit_of_mem_toDigits (by decide) (by decide) hmem
  exact absurd hdigit (by decide)

theorem toString_line_injective {m n : Nat} (h : (toString m).toList = (toString n).toList) :
    m = n := by
  rw [toList_line, toList_line] at h
  have hvalue := congrArg (Nat.ofDigitChars 10 · 0) h
  simpa only [Nat.ofDigitChars_ten_toDigits] using hvalue

/-- The first NUL of a text is found again. -/
theorem nul_injective {a b s t : List Char} (ha : '\x00' ∉ a) (hb : '\x00' ∉ b)
    (h : a ++ '\x00' :: s = b ++ '\x00' :: t) : a = b ∧ s = t := by
  have htake : ∀ l r : List Char, '\x00' ∉ l →
      (l ++ '\x00' :: r).takeWhile (· != '\x00') = l := by
    intro l r hl
    rw [List.takeWhile_append_of_pos, List.takeWhile_cons_of_neg (by decide), List.append_nil]
    intro c hc
    exact bne_iff_ne.mpr fun heq => hl (heq ▸ hc)
  have hfront : a = b := by
    rw [← htake a s ha, ← htake b t hb, h]
  subst hfront
  exact ⟨rfl, (List.cons.inj (List.append_cancel_left h)).2⟩

theorem preimage_declaration (line : Nat) (key : String) :
    (declaration line key).preimage = (toString line).toList ++ '\x00' :: key.toList := rfl

theorem preimage_diagnostic (line : Nat) (message : String) :
    (diagnostic line message).preimage = "diagnostic".toList ++
      '\x00' :: ((toString line).toList ++ '\x00' :: message.toList) := rfl

/-- No number is the word that an error is introduced by. -/
theorem preimage_declaration_ne (line : Nat) (key : String) (errorLine : Nat)
    (message : String) :
    (declaration line key).preimage ≠ (diagnostic errorLine message).preimage := by
  intro h
  rw [preimage_declaration, preimage_diagnostic] at h
  obtain ⟨hword, -⟩ := nul_injective (nul_notMem_line line) (by decide) h
  have hmem : 'd' ∈ Nat.toDigits 10 line := by
    rw [← toList_line, hword]
    decide
  have hdigit : 'd'.isDigit = true := Nat.isDigit_of_mem_toDigits (by decide) (by decide) hmem
  exact absurd hdigit (by decide)

/-- Different identities are digested from different texts. -/
theorem preimage_injective : Function.Injective preimage := by
  intro i j h
  match i, j with
  | .declaration m s, .declaration n t =>
    obtain ⟨hline, htext⟩ := nul_injective (nul_notMem_line m) (nul_notMem_line n) h
    rw [toString_line_injective hline, String.toList_injective htext]
  | .diagnostic m s, .diagnostic n t =>
    have hrest := (List.cons.inj (List.append_cancel_left h)).2
    obtain ⟨hline, htext⟩ := nul_injective (nul_notMem_line m) (nul_notMem_line n) hrest
    rw [toString_line_injective hline, String.toList_injective htext]
  | .declaration m s, .diagnostic n t => exact absurd h (preimage_declaration_ne m s n t)
  | .diagnostic m s, .declaration n t => exact absurd h.symm (preimage_declaration_ne n t m s)

/-- Digests do not collide on some identities: what is digested to the same is the same text. -/
def Distinguished (ids : List Identity) : Prop :=
  ∀ i ∈ ids, ∀ j ∈ ids, i.shortHash = j.shortHash → i.preimage = j.preimage

theorem Distinguished.eq {ids : List Identity} (h : Distinguished ids) {i j : Identity}
    (hi : i ∈ ids) (hj : j ∈ ids) (hhash : i.shortHash = j.shortHash) : i = j :=
  preimage_injective (h i hi j hj hhash)

/-- Digests do not collide if those of different identities differ. -/
theorem distinguished_of_nodup {ids : List Identity} (h : (ids.dedup.map shortHash).Nodup) :
    Distinguished ids := by
  intro i hi j hj hhash
  rw [List.inj_on_of_nodup_map h (List.mem_dedup.mpr hi) (List.mem_dedup.mpr hj) hhash]

-- ── Digested bytes ────────────────────────────────────────────────────────────

/-- The bytes of an array from some place on, after those that were read. -/
theorem toList_loop (bs : ByteArray) (i : Nat) (read : List UInt8) :
    ByteArray.toList.loop bs i read = read.reverse ++ bs.data.toList.drop i := by
  fun_induction ByteArray.toList.loop bs i read with
  | case1 i read h ih =>
    have hget : bs.get! i = bs.data.toList[i] := getElem!_pos bs.data i h
    rw [ih, hget, List.reverse_cons, List.append_assoc, List.singleton_append,
      ← List.drop_eq_getElem_cons h]
  | case2 i read h =>
    rw [List.drop_eq_nil_of_le (Nat.le_of_not_lt h), List.append_nil]

/-- A text is digested character by character. -/
theorem toList_toUTF8 (cs : List Char) :
    (String.ofList cs).toUTF8.toList = cs.flatMap String.utf8EncodeChar := by
  rw [String.toUTF8_eq_toByteArray, String.toByteArray_ofList, ByteArray.toList, toList_loop,
    List.utf8Encode, List.toList_data_toByteArray]
  rfl

/-- The digest in a form that can be evaluated. -/
theorem shortHash_eq (i : Identity) : i.shortHash = String.ofList
    (Digest.hex ((Digest.sha256 (i.preimage.flatMap String.utf8EncodeChar)).take 8)) := by
  rw [shortHash, toList_toUTF8]

-- ── Ids ───────────────────────────────────────────────────────────────────────

theorem shortHash_of_goalId {i j : Identity} (h : i.goalId = j.goalId) :
    i.shortHash = j.shortHash := by
  have hlists := congrArg String.toList h
  simp only [goalId, String.toList_append] at hlists
  exact String.toList_injective (List.append_cancel_left hlists)

/-- The line of an identity. -/
def line : Identity → Nat
  | .declaration line _ => line
  | .diagnostic line _ => line

/-- The word in front of the id of a node. -/
def nodeWord : Identity → String
  | .declaration _ _ => "decl-"
  | .diagnostic _ _ => "diag-"

theorem nodeId_eq (i : Identity) : i.nodeId = i.nodeWord ++ i.shortHash := by
  cases i <;> rfl

theorem shortHash_of_nodeId {i j : Identity} (h : i.nodeId = j.nodeId) :
    i.shortHash = j.shortHash := by
  have hlists := congrArg String.toList h
  simp only [nodeId_eq, String.toList_append] at hlists
  have hlength : i.nodeWord.toList.length = j.nodeWord.toList.length := by
    cases i <;> cases j <;> simp [nodeWord]
  exact String.toList_injective (List.append_inj hlists hlength).2

/-- No obligation has the id of the root. -/
theorem nodeId_ne_root (i : Identity) : i.nodeId ≠ Graph.rootNodeId := by
  intro h
  have hhead := congrArg (fun s => s.toList.head?) h
  simp only [nodeId_eq, String.toList_append] at hhead
  cases i with
  | declaration line key => simp [nodeWord, Graph.rootNodeId] at hhead
  | diagnostic line message => simp [nodeWord, Graph.rootNodeId] at hhead

end ProofLedger.Identity

import Mathlib.Data.List.Forall2
import Mathlib.Data.List.Induction
import PointLedger.Proofs.ChainValidity
import PointLedger.Proofs.FirstBreak

/-!
What the last hash of a chain stands for. A chain that verifies is fixed by its last hash: that
hash fixes the fields of the last entry, one of which is the hash before it, and so on down to the
genesis hash, which no digest equals.
-/

namespace PointLedger

theorem Sha256.length_hex (message : List UInt8) : (hex message).length = 64 := by
  simp [hex, hexWord, Text.length_digits]

theorem Entry.not_mem_computeHash {c : Char} (foreign : Text.isForeign c = true) (e : Entry) :
    c ∉ e.computeHash.toList := by
  have word (w : UInt32) : c ∉ Sha256.hexWord w :=
    Text.not_mem_digits foreign (by decide) (by decide) _
  simp [computeHash, Sha256.hexOfText, Sha256.hex, word]

/-- No entry carries the genesis hash as its digest. -/
theorem Entry.computeHash_ne_genesisHash (e : Entry) : e.computeHash ≠ genesisHash := by
  intro same
  have lengths := congrArg String.length same
  rw [computeHash, Sha256.hexOfText, Sha256.length_hex] at lengths
  exact absurd lengths (by decide)

/-- What agrees on the hashed fields has one digest. -/
theorem Entry.HashedAlike.computeHash {e e' : Entry} (alike : e.HashedAlike e') :
    e.computeHash = e'.computeHash :=
  congrArg Sha256.hexOfText alike.encoding

/-- What it takes for a chain to verify up to its last entry. -/
theorem verifyFrom_concat_valid {link : String} {checked : Nat} {entries : List Entry} {e : Entry}
    (valid : (verifyFrom link checked (entries ++ [e])).valid = true) :
    (verifyFrom link checked entries).valid = true ∧
      (verifyFrom link checked entries).tailHash = e.previousHash ∧ e.computeHash = e.hash ∧
      (verifyFrom link checked (entries ++ [e])).tailHash = e.hash := by
  induction entries generalizing link checked with
  | nil =>
    cases fault : e.fault? link with
    | some fault => simp [verifyFrom, fault] at valid
    | none =>
      obtain ⟨digest, linked⟩ := Entry.fault?_eq_none_iff.mp fault
      simp [verifyFrom, fault, digest, linked]
  | cons first rest ih =>
    rw [List.cons_append, verifyFrom] at valid ⊢
    cases fault : first.fault? link with
    | some fault => simp [fault] at valid
    | none =>
      simp only [fault] at valid ⊢
      simp only [verifyFrom, fault]
      exact ih valid

/-- A chain that verifies and ends with the genesis hash is empty. -/
theorem eq_nil_of_tailHash {entries : List Entry} (valid : (verifyChain entries).valid = true)
    (tail : (verifyChain entries).tailHash = genesisHash) : entries = [] := by
  rcases List.eq_nil_or_concat entries with rfl | ⟨init, e, rfl⟩
  · rfl
  · rw [List.concat_eq_append] at valid tail
    obtain ⟨-, -, digest, last⟩ := verifyFrom_concat_valid valid
    exact absurd (digest.trans (last.symm.trans tail)) e.computeHash_ne_genesisHash

/-- Two chains that verify up to the same last hash are the same in all that is hashed, provided
that different encodings of their entries have different digests: they are of one length, and in
every place the entries agree on the stored hash and on the hashed fields, on what is shown of the
time. Where leap seconds stand at the end of a minute only, the times themselves agree. -/
theorem verifyChain_commits (xs ys : List Entry)
    (unbarred : ∀ e ∈ xs, e.Unbarred) (unbarred' : ∀ e ∈ ys, e.Unbarred)
    (injective : ∀ e ∈ xs, ∀ e' ∈ ys,
      Sha256.hexOfText e.encoding = Sha256.hexOfText e'.encoding → e.encoding = e'.encoding)
    (valid : (verifyChain xs).valid = true) (valid' : (verifyChain ys).valid = true)
    (tails : (verifyChain xs).tailHash = (verifyChain ys).tailHash) :
    xs.length = ys.length ∧
      List.Forall₂ (fun e e' => e.hash = e'.hash ∧ e.shown.HashedAlike e'.shown ∧
        (e.createdAt.Legible → e'.createdAt.Legible → e.HashedAlike e')) xs ys := by
  induction xs using List.reverseRecOn generalizing ys with
  | nil =>
    obtain rfl := eq_nil_of_tailHash valid' tails.symm
    exact ⟨rfl, .nil⟩
  | append_singleton xs e ih =>
    rcases List.eq_nil_or_concat ys with rfl | ⟨ys, e', rfl⟩
    · exact absurd (eq_nil_of_tailHash valid tails) (by simp)
    rw [List.concat_eq_append] at unbarred' injective valid' tails ⊢
    obtain ⟨before, link, digest, last⟩ := verifyFrom_concat_valid valid
    obtain ⟨before', link', digest', last'⟩ := verifyFrom_concat_valid valid'
    have hashes : e.hash = e'.hash := last.symm.trans (tails.trans last')
    have digests : e.computeHash = e'.computeHash := by rw [digest, digest', hashes]
    have alike : e.shown.HashedAlike e'.shown :=
      Entry.alike_of_encoding (unbarred e (by simp)) (unbarred' e' (by simp))
        (injective e (by simp) e' (by simp) digests)
    have agrees (legible : e.createdAt.Legible) (legible' : e'.createdAt.Legible) :
        e.HashedAlike e' := by
      rw [Entry.shown_eq_self_iff.mpr legible, Entry.shown_eq_self_iff.mpr legible'] at alike
      exact alike
    -- The last entries agree on the hash before them, with which the rest of the chains end.
    have tails : (verifyChain xs).tailHash = (verifyChain ys).tailHash :=
      link.trans (alike.previousHash.trans link'.symm)
    obtain ⟨lengths, agree⟩ := ih ys (fun x member => unbarred x (by simp [member]))
      (fun y member => unbarred' y (by simp [member]))
      (fun x member y member' => injective x (by simp [member]) y (by simp [member']))
      before before' tails
    exact ⟨by simp [lengths], List.rel_append agree (.cons ⟨hashes, alike, agrees⟩ .nil)⟩

/-- Two entries, and copies of them that nothing hashed tells apart: one has metadata, the other a
time that is later by less than a microsecond. -/
theorem verifyChain_commits_later_copy :
    let first : Entry := Draft.sealed {
      id := ⟨Uuid.ofNat 1⟩, account := ⟨"acme", "ann"⟩, kind := .credit, amount := ⟨10, by decide⟩
      transactionId := "19700101-00000A", referenceId := "first", description := "a|user_id=b"
      metadata := default, previousHash := genesisHash, createdAt := Timestamp.epoch }
    let second : Entry := Draft.sealed {
      id := ⟨Uuid.ofNat 2⟩, account := ⟨"acme", "ann"⟩, kind := .debit, amount := ⟨4, by decide⟩
      transactionId := "19700101-00000B", referenceId := "second", description := ""
      metadata := default, previousHash := first.hash
      createdAt := ⟨Date.epoch, 0, 0, 59, 1000000000, by decide⟩ }
    let first' : Entry := { first with metadata := { extra := [("k", .null)] } }
    let second' : Entry := { second with
      createdAt := ⟨Date.epoch, 0, 0, 59, 1000000999, by decide⟩ }
    second ≠ second' ∧ [first, second].length = [first', second'].length ∧
      List.Forall₂ (fun e e' => e.hash = e'.hash ∧ e.shown.HashedAlike e'.shown ∧
        (e.createdAt.Legible → e'.createdAt.Legible → e.HashedAlike e'))
        [first, second] [first', second'] := by
  intro first second first' second'
  have different : second ≠ second' := fun equal =>
    absurd (congrArg (·.createdAt.nano) equal) (by decide)
  have alike : first.HashedAlike first' := ⟨rfl, rfl, rfl, rfl, rfl, rfl, rfl, rfl, rfl, rfl⟩
  have alike' : second.HashedAlike second' :=
    ⟨rfl, by decide, rfl, rfl, rfl, rfl, rfl, rfl, rfl, rfl⟩
  have unbarred : first.Unbarred := by constructor <;> decide
  have unbarred' : second.Unbarred :=
    ⟨by decide, by decide, by decide, by decide, first.not_mem_computeHash (by decide)⟩
  have plain : ∀ e ∈ [first, second], e.Unbarred :=
    List.forall_mem_cons.mpr ⟨unbarred, List.forall_mem_singleton.mpr unbarred'⟩
  have plain' : ∀ e ∈ [first', second'], e.Unbarred :=
    List.forall_mem_cons.mpr ⟨⟨unbarred.organizationId, unbarred.userId, unbarred.referenceId,
      unbarred.transactionId, unbarred.previousHash⟩,
      List.forall_mem_singleton.mpr ⟨unbarred'.organizationId, unbarred'.userId,
        unbarred'.referenceId, unbarred'.transactionId, unbarred'.previousHash⟩⟩
  have digest : first.computeHash = first.hash := Draft.computeHash_sealed _
  have digest' : second.computeHash = second.hash := Draft.computeHash_sealed _
  have verified : verifyChain [first, second] = ⟨true, 2, second.hash, none⟩ :=
    (verifyFrom_cons digest rfl).trans (verifyFrom_singleton digest' rfl)
  have verified' : verifyChain [first', second'] = ⟨true, 2, second.hash, none⟩ :=
    (verifyFrom_cons (alike.computeHash.symm.trans digest) rfl).trans
      (verifyFrom_singleton (alike'.computeHash.symm.trans digest') rfl)
  have apart : Sha256.hexOfText first.encoding ≠ Sha256.hexOfText second.encoding := by
    decide +kernel
  refine ⟨different, verifyChain_commits [first, second] [first', second'] plain plain' ?_ ?_ ?_ ?_⟩
  · refine List.forall_mem_cons.mpr ⟨?_, List.forall_mem_singleton.mpr ?_⟩ <;>
      refine List.forall_mem_cons.mpr ⟨?_, List.forall_mem_singleton.mpr ?_⟩
    · exact fun _ => alike.encoding
    · rw [← alike'.encoding]
      exact fun same => absurd same apart
    · rw [← alike.encoding]
      exact fun same => absurd same.symm apart
    · exact fun _ => alike'.encoding
  · rw [verified]
  · rw [verified']
  · rw [verified, verified']

/-- Two chains that verify up to one hash, though the time of one is a leap second that follows noon
and 30 seconds, and that of the other is the ordinary second after. -/
theorem verifyChain_alike_hidden_leap_second :
    let e : Entry := Draft.sealed {
      id := ⟨Uuid.ofNat 1⟩, account := ⟨"acme", "ann"⟩, kind := .credit, amount := ⟨10, by decide⟩
      transactionId := "20250101-00000A", referenceId := "first", description := ""
      metadata := default, previousHash := genesisHash
      createdAt := ⟨⟨2025, 1, 1, by decide⟩, 12, 0, 30, 1500000000, by decide⟩ }
    let e' : Entry := { e with
      createdAt := ⟨⟨2025, 1, 1, by decide⟩, 12, 0, 31, 500000000, by decide⟩ }
    e.Unbarred ∧ e'.Unbarred ∧ e.encoding = e'.encoding ∧
      (verifyChain [e]).valid = true ∧ (verifyChain [e']).valid = true ∧
      (verifyChain [e]).tailHash = (verifyChain [e']).tailHash ∧
      ¬ List.Forall₂ (fun e e' => e.hash = e'.hash ∧ e.HashedAlike e') [e] [e'] := by
  intro e e'
  have unbarred : e.Unbarred := by constructor <;> decide
  have time : e.createdAt.shown = e'.createdAt := by decide
  have same : e.encoding = e'.encoding := by
    rw [← e.encoding_shown, Entry.shown, time]
  have digest : e.computeHash = e.hash := Draft.computeHash_sealed _
  have digest' : e'.computeHash = e'.hash :=
    (congrArg Sha256.hexOfText same.symm).trans digest
  have verified : verifyChain [e] = ⟨true, 1, e.hash, none⟩ := verifyFrom_singleton digest rfl
  have verified' : verifyChain [e'] = ⟨true, 1, e.hash, none⟩ := verifyFrom_singleton digest' rfl
  refine ⟨unbarred, ⟨unbarred.organizationId, unbarred.userId, unbarred.referenceId,
    unbarred.transactionId, unbarred.previousHash⟩, same, ?_, ?_, ?_, fun agree => ?_⟩
  · rw [verified]
  · rw [verified']
  · rw [verified, verified']
  · cases agree with
    | cons agrees _ => exact absurd agrees.2.createdAt (by decide)

end PointLedger

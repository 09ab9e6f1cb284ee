import PointLedger.Proofs.InterleavedChains
import PointLedger.Proofs.Refusals

/-!
Reversals. However calls take turns, no entry is reverted twice, and every reversal repeats an entry
that stands before it in its chain; no caller can forge the link. That an entry is reverted once
rests on references alone: a reversal takes the transaction id of the entry as its reference. So a
reversal can also be refused because something else has that reference.
-/

namespace PointLedger

namespace Books

variable {b : Books} {calls : List Call} {e : Entry}

namespace Catalogued

/-- Every reversal reverts an entry that was committed before it. -/
theorem exists_original (catalogued : b.Catalogued calls) {earlier later : List Entry}
    (split : b.entries = earlier ++ e :: later) (reverts : e.isReversal = true) :
    ∃ original ∈ earlier, e.ReversalOf original := by
  obtain ⟨c, -, made⟩ := catalogued.made earlier e later split
  exact made.exists_original reverts

/-- An entry that names another one reverts it. -/
theorem exists_reverted (catalogued : b.Catalogued calls) (member : e ∈ b.entries) {id : EntryId}
    (names : e.reverts? = some id) :
    ∃ original ∈ b.entries, original.id = id ∧ e.ReversalOf original := by
  obtain ⟨earlier, later, split⟩ := List.append_of_mem member
  obtain ⟨original, before, reversal⟩ :=
    catalogued.exists_original split (Entry.isReversal_iff.mpr ⟨id, names⟩)
  exact ⟨original, split ▸ List.mem_append_left _ before,
    Option.some.inj (reversal.reverts?_eq.symm.trans names), reversal⟩

/-- No entry is reverted twice: both reversals would have the same reference. -/
theorem nodup_reverts? (catalogued : b.Catalogued calls) (apart : calls.Pairwise Call.Apart) :
    (b.entries.filterMap Entry.reverts?).Nodup := by
  have distinct : b.entries.Pairwise fun e e' => e.key ≠ e'.key :=
    List.pairwise_map.mp catalogued.keys
  refine List.pairwise_filterMap.mpr (distinct.imp_of_mem ?_)
  rintro e e' member member' different id names id' names' rfl
  -- An identifier stands for one entry, so both revert the same one.
  obtain ⟨original, found, rfl, reversal⟩ := catalogued.exists_reverted member names
  obtain ⟨original', found', same, reversal'⟩ := catalogued.exists_reverted member' names'
  obtain rfl := catalogued.eq_of_id apart found' found same
  exact different (reversal.key_eq.trans reversal'.key_eq.symm)

end Catalogued

end Books

/-- However calls take turns on an empty store, no entry is reverted twice; every reversal stands
in the chain of the entry that it reverts, after it, with its kind and amount, the hash that it has
and its transaction id as the reference; and the link that an entry shows is the one that its call
asked for, which is none for a new entry, whatever metadata the caller sends. -/
theorem Concurrent.reverted_once {ι : Type} [DecidableEq ι] (calls : ι → Call)
    (apart : ∀ i j, i ≠ j → (calls i).Apart (calls j)) (schedule : List ι)
    (fits : ({} : Concurrent ι).ClockInRange calls schedule) :
    let b := (run calls schedule).memory.books
    (b.entries.filterMap Entry.reverts?).Nodup ∧
      (∀ e ∈ b.entries, e.isReversal = true → ∃ earlier original later,
        b.findEntries (.chain e.account) = earlier ++ e :: later ∧ original ∈ earlier ∧
        e.ReversalOf original) ∧
      ∀ e ∈ b.entries, ∃ i, e.id = (calls i).entryId ∧ e.reverts? = (calls i).reverts? ∧
        e.metadata.toJson.member "reverts" = Json.option RevertLink.toJson e.metadata.reverts := by
  intro b
  obtain ⟨order, g, explains, -⟩ := exists_explains apart schedule
  have catalogued := explains.catalogued
  refine ⟨catalogued.nodup_reverts? (explains.ordered.apart apart), ?_, ?_⟩
  · intro e member reverts
    obtain ⟨earlier, later, split⟩ := List.append_of_mem member
    obtain ⟨original, before, reversal⟩ := catalogued.exists_original split reverts
    refine ⟨earlier.filter (·.account == e.account), original,
      later.filter (·.account == e.account), ?_, ?_, reversal⟩
    · rw [Books.findEntries_chain (chained apart schedule fits e.account), Books.rows, split]
      simp
    · exact List.mem_filter.mpr ⟨before, beq_iff_eq.mpr reversal.account.symm⟩
  · intro e member
    obtain ⟨earlier, later, split⟩ := List.append_of_mem member
    obtain ⟨c, called, made⟩ := catalogued.made earlier e later split
    obtain ⟨i, -, rfl⟩ := List.mem_map.mp called
    exact ⟨i, made.id, made.reverts?_eq, made.member_reverts⟩

theorem Concurrent.reverted_once_by_two_calls :
    let calls (i : Fin 3) := Call.numbered i (if i = 0 then
      .add ⟨"acme", "ann", .credit, ⟨10, by decide⟩, "first", "", []⟩ else .revert ⟨Uuid.ofNat 0⟩)
    let schedule := List.replicate 30 0 ++ (List.replicate 30 [1, 2]).flatten
    let s := run calls schedule
    let b := s.memory.books
    ({} : Concurrent (Fin 3)).ClockInRange calls schedule ∧
    b.entries.map Entry.reverts? = [none, some ⟨Uuid.ofNat 0⟩] ∧
    (s.phases 1).result?.map Except.isOk = some true ∧
    (s.phases 2).result? = some (.error (.alreadyExists "acme" "19700101-000000")) ∧
    (b.entries.filterMap Entry.reverts?).Nodup ∧
      (∀ e ∈ b.entries, e.isReversal = true → ∃ earlier original later,
        b.findEntries (.chain e.account) = earlier ++ e :: later ∧ original ∈ earlier ∧
        e.ReversalOf original) ∧
      ∀ e ∈ b.entries, ∃ i, e.id = (calls i).entryId ∧ e.reverts? = (calls i).reverts? ∧
        e.metadata.toJson.member "reverts" =
          Json.option RevertLink.toJson e.metadata.reverts := by
  intro calls schedule
  have apart : ∀ i j, i ≠ j → (calls i).Apart (calls j) := fun i j different =>
    Call.numbered_apart (Fin.val_ne_of_ne different) (by omega) (by omega)
  have fits : ({} : Concurrent (Fin 3)).ClockInRange calls schedule := by decide +kernel
  exact ⟨fits, by decide +kernel, by decide +kernel, by decide +kernel,
    reverted_once calls apart schedule fits⟩

/-! ### What a reversal is refused over -/

/-- Who can have an entry's transaction id as a reference: its own reversal, a new entry, or the
reversal of another entry with the same transaction id. -/
theorem Books.Catalogued.hasKey_transactionId_iff {b : Books} {calls : List Call}
    (catalogued : b.Catalogued calls) (apart : calls.Pairwise Call.Apart) {original : Entry}
    (committed : original ∈ b.entries) :
    b.HasKey (original.organizationId, original.transactionId) ↔
      (∃ e ∈ b.entries, e.reverts? = some original.id) ∨
      (∃ e ∈ b.entries, e.isReversal = false ∧
        e.hasReference original.organizationId original.transactionId = true) ∨
      ∃ other ∈ b.entries, other ≠ original ∧
        other.organizationId = original.organizationId ∧
        other.transactionId = original.transactionId ∧
        ∃ e ∈ b.entries, e.reverts? = some other.id := by
  constructor
  · rintro ⟨e, member, key⟩
    cases reverts : e.isReversal with
    | false => exact .inr (.inl ⟨e, member, reverts, Entry.hasReference_iff.mpr key⟩)
    | true =>
      obtain ⟨id, names⟩ := Entry.isReversal_iff.mp reverts
      obtain ⟨other, found, rfl, reversal⟩ := catalogued.exists_reverted member names
      by_cases same : other = original
      · exact .inl ⟨e, member, same ▸ names⟩
      · obtain ⟨organization, transaction⟩ := Prod.mk.inj (reversal.key_eq.symm.trans key)
        exact .inr (.inr ⟨other, found, same, organization, transaction, e, member, names⟩)
  · rintro (⟨e, member, names⟩ | ⟨e, member, -, reference⟩ |
      ⟨other, found, -, organization, transaction, e, member, names⟩)
    · obtain ⟨original', found, same, reversal⟩ := catalogued.exists_reverted member names
      obtain rfl := catalogued.eq_of_id apart found committed same
      exact ⟨e, member, reversal.key_eq⟩
    · exact ⟨e, member, Entry.hasReference_iff.mp reference⟩
    · obtain ⟨other', found', same, reversal⟩ := catalogued.exists_reverted member names
      obtain rfl := catalogued.eq_of_id apart found' found same
      exact ⟨e, member, organization ▸ transaction ▸ reversal.key_eq⟩

/-- After any calls on an empty store, the reversal of a committed entry is refused over a
reference exactly when the entry was reverted, or a new entry has its transaction id as a
reference, or another entry that has the same transaction id was reverted. The last two are no
reversals of the entry. -/
theorem Memory.revert_refused_iff {calls : List Call} (apart : calls.Pairwise Call.Apart)
    {m : Memory} (served : (({} : Memory).serve calls).2 = m) {original : Entry}
    (committed : original ∈ m.books.entries) {c : Call}
    (asked : c.mutation = .revert original.id) :
    (∃ organizationId referenceId,
        (c.run m).1 = .error (.alreadyExists organizationId referenceId)) ↔
      (∃ e ∈ m.books.entries, e.reverts? = some original.id) ∨
      (∃ e ∈ m.books.entries, e.isReversal = false ∧
        e.hasReference original.organizationId original.transactionId = true) ∨
      ∃ other ∈ m.books.entries, other ≠ original ∧
        other.organizationId = original.organizationId ∧
        other.transactionId = original.transactionId ∧
        ∃ e ∈ m.books.entries, e.reverts? = some other.id := by
  obtain ⟨-, books, rest⟩ := serve_eq_applyAll atRest_empty calls
  have catalogued := Books.catalogued_applyAll calls
  rw [← books, served] at catalogued
  rw [served] at rest
  rw [(c.run_eq_apply rest).1, ← catalogued.hasKey_transactionId_iff apart committed,
    ← Books.post_revert_eq_alreadyExists_iff asked (catalogued.findEntry_byId apart committed)]
  unfold Books.apply
  cases m.books.post c <;> simp

/-- Two entries with one transaction id, of which the second was reverted: the first cannot be. -/
theorem Memory.revert_refused_same_transaction_id :
    let add (n : Nat) (referenceId : String) := Call.numbered n
      (.add ⟨"acme", "ann", .credit, ⟨10, by decide⟩, referenceId, "", []⟩)
    let calls := [add 0 "first", add 1 "second", Call.numbered 2 (.revert ⟨Uuid.ofNat 3⟩)]
    let m := (({} : Memory).serve calls).2
    let c := Call.numbered 3 (.revert ⟨Uuid.ofNat 0⟩)
    calls.Pairwise Call.Apart ∧
    m.books.entries.map Entry.reverts? = [none, none, some ⟨Uuid.ofNat 3⟩] ∧
    (c.run m).1 = .error (.alreadyExists "acme" "19700101-000000") ∧
    ∃ original ∈ m.books.entries, c.mutation = .revert original.id ∧
      ((∃ organizationId referenceId,
          (c.run m).1 = .error (.alreadyExists organizationId referenceId)) ↔
        (∃ e ∈ m.books.entries, e.reverts? = some original.id) ∨
        (∃ e ∈ m.books.entries, e.isReversal = false ∧
          e.hasReference original.organizationId original.transactionId = true) ∨
        ∃ other ∈ m.books.entries, other ≠ original ∧
          other.organizationId = original.organizationId ∧
          other.transactionId = original.transactionId ∧
          ∃ e ∈ m.books.entries, e.reverts? = some other.id) := by
  intro add calls m c
  have apart : calls.Pairwise Call.Apart := by
    repeat' apply List.Pairwise.cons
    all_goals simp [add, Call.numbered_apart]
  have served : (({} : Memory).serve calls).2 = m := rfl
  obtain ⟨original, committed, asked⟩ :
      ∃ original ∈ m.books.entries, c.mutation = .revert original.id := by decide +kernel
  exact ⟨apart, by decide +kernel, by decide +kernel, original, committed, asked,
    revert_refused_iff apart served committed asked⟩

/-- A new entry that takes another one's transaction id as its reference: the other one was never
reverted, and cannot be. -/
theorem Memory.revert_refused_never_reverted :
    let add (n : Nat) (referenceId : String) := Call.numbered n
      (.add ⟨"acme", "ann", .credit, ⟨10, by decide⟩, referenceId, "", []⟩)
    let m := (({} : Memory).serve [add 0 "first", add 1 "19700101-000000"]).2
    let c := Call.numbered 2 (.revert ⟨Uuid.ofNat 0⟩)
    ∃ original ∈ m.books.entries, original.id = ⟨Uuid.ofNat 0⟩ ∧
      (c.run m).1 = .error (.alreadyExists "acme" "19700101-000000") ∧
      ∀ e ∈ m.books.entries, e.reverts? ≠ some original.id := by
  decide +kernel

end PointLedger

import Mathlib.Data.List.Forall2
import PointLedger.Proofs.InterleavedChains
import PointLedger.Proofs.Refusals

/-!
References as idempotency keys. What a call returns is so, whoever else is at work: an entry that it
returns is committed, and is the only one with its reference; and a call that is refused because
its reference exists names one that a committed entry has. No other rule on unique rows shows.
-/

namespace PointLedger

namespace Books

variable {b after : Books} {calls : List Call} {c : Call} {result : Except LedgerError Entry}

theorem Sourced.hasPoolOf_eq_false (sourced : b.Sourced calls)
    (apart : ∀ c' ∈ calls, c'.Apart c) : b.hasPoolOf c.entryId = false := by
  rw [hasPoolOf_eq, List.any_eq_false]
  intro key opened same
  obtain ⟨c', called, rfl⟩ := List.mem_map.mp (sourced.subset opened)
  exact apart c' called 0 0 (congrArg EntryId.uuid (eq_of_beq same))

/-- What a call returns is so in these books. A new entry is there, made by the call, with the
reference that it asked for. A call that is refused over a unique row says which reference some
entry has, and for a new entry this is its own. -/
structure Confirms (b : Books) (c : Call) (result : Except LedgerError Entry) : Prop where
  added : ∀ r e, c.mutation = .add r → result = .ok e →
    e ∈ b.entries ∧ e.id = c.entryId ∧ e.key = (r.organizationId, r.referenceId)
  refused : ∀ error, result = .error error → error.isConflict = true →
    ∃ organizationId referenceId, error = .alreadyExists organizationId referenceId ∧
      b.HasKey (organizationId, referenceId) ∧
      ∀ r, c.mutation = .add r → organizationId = r.organizationId ∧ referenceId = r.referenceId

/-- It stays so, as entries are only added. -/
theorem Confirms.later (confirms : b.Confirms c result) (kept : b.entries ⊆ after.entries) :
    after.Confirms c result where
  added r e asked returned := by
    obtain ⟨member, made⟩ := confirms.added r e asked returned
    exact ⟨kept member, made⟩
  refused error returned conflict := by
    obtain ⟨organizationId, referenceId, named, ⟨e, member, key⟩, own⟩ :=
      confirms.refused error returned conflict
    exact ⟨organizationId, referenceId, named, ⟨e, kept member, key⟩, own⟩

theorem subset_entries_apply (b : Books) (c : Call) : b.entries ⊆ (b.apply c).2.entries := by
  cases posted : b.post c with
  | error error => simp [Books.apply, posted]
  | ok added =>
    obtain ⟨result, after⟩ := added
    obtain ⟨e, -, entries, -⟩ := continues_of_post posted
    simp [Books.apply, posted, entries]

/-- It is so in the books that the call leaves. -/
theorem confirms_apply (fresh : b.hasPoolOf c.entryId = false) :
    (b.apply c).2.Confirms c (b.apply c).1 := by
  cases posted : b.post c with
  | error error =>
    simp only [Books.apply, posted]
    constructor
    · intro r e _ returned
      cases returned
    · rintro _ ⟨⟩ conflict
      obtain ⟨organizationId, referenceId, named, wanted, taken⟩ :=
        post_eq_conflict (fun _ _ => fresh) posted conflict
      refine ⟨organizationId, referenceId, named, taken, fun r asked => ?_⟩
      simp only [Books.wanted, asked, Option.some.injEq, Prod.mk.injEq] at wanted
      exact ⟨wanted.1.symm, wanted.2.symm⟩
  | ok added =>
    obtain ⟨result, after⟩ := added
    obtain ⟨e, entries, made, -, returned⟩ := made_of_post posted
    simp only [Books.apply, posted]
    constructor
    · rintro r _ asked ⟨⟩
      obtain rfl := returned r asked
      have own := made.asked
      rw [asked] at own
      exact ⟨by simp [entries], made.id, own.1⟩
    · intro error failed
      cases failed

/-- What calls return, one after the other, is so in the books in the end. -/
theorem confirms_applyAll (apart : calls.Pairwise Call.Apart) :
    List.Forall₂ (applyAll {} calls).2.Confirms calls (applyAll {} calls).1 := by
  induction calls using List.reverseRecOn with
  | nil => exact .nil
  | append_singleton calls c ih =>
    obtain ⟨apart, -, last⟩ := List.pairwise_append.mp apart
    -- Pools stand for entries of the calls before, none of which has drawn this identifier.
    have fresh : (applyAll {} calls).2.hasPoolOf c.entryId = false :=
      (sourced_applyAll apart).hasPoolOf_eq_false fun c' called => last c' called c (by simp)
    rw [applyAll_concat]
    refine List.rel_append ((ih apart).imp fun c' result confirms => ?_) (.cons ?_ .nil)
    · exact confirms.later (subset_entries_apply _ c)
    · exact confirms_apply fresh

/-- An entry is the only one with its reference. -/
theorem Catalogued.filter_hasReference (catalogued : b.Catalogued calls) {e : Entry}
    (member : e ∈ b.entries) {organizationId referenceId : String}
    (key : e.key = (organizationId, referenceId)) :
    b.entries.filter (·.hasReference organizationId referenceId) = [e] := by
  obtain ⟨earlier, later, split⟩ := List.append_of_mem member
  have distinct := catalogued.keys
  rw [split, List.map_append, List.map_cons, List.nodup_append, List.nodup_cons] at distinct
  obtain ⟨-, ⟨after, -⟩, before⟩ := distinct
  have none_before : earlier.filter (·.hasReference organizationId referenceId) = [] := by
    refine List.filter_eq_nil_iff.mpr fun e' old same => ?_
    exact before _ (List.mem_map_of_mem old) _ (by simp)
      ((Entry.hasReference_iff.mp same).trans key.symm)
  have none_after : later.filter (·.hasReference organizationId referenceId) = [] := by
    refine List.filter_eq_nil_iff.mpr fun e' new same => after ?_
    rw [key, ← Entry.hasReference_iff.mp same]
    exact List.mem_map_of_mem new
  rw [split, List.filter_append, none_before, List.nil_append]
  simp only [List.filter_cons, Entry.hasReference_iff.mpr key, none_after, if_true]

end Books

/-! ### Calls that take turns -/

section

variable {ι : Type} {calls : ι → Call} {s : Concurrent ι} {order : List ι} {g : ι → Progress}

/-- What a call has returned is so from then on. -/
theorem Explains.confirms (explains : Explains calls s order g)
    (apart : ∀ i j, i ≠ j → (calls i).Apart (calls j)) {i : ι}
    {result : Except LedgerError Entry} (finished : s.phases i = .finished result) :
    s.memory.books.Confirms (calls i) result := by
  obtain ⟨k, place, returned⟩ := explains.result_at finished
  have all := Books.confirms_applyAll (explains.ordered.apart apart)
  rw [explains.ordered.books] at all
  have call : (order.map calls)[k]? = some (calls i) := by
    rw [List.getElem?_map, place]
    rfl
  obtain ⟨inside, call⟩ := List.getElem?_eq_some_iff.mp call
  obtain ⟨inside', returned⟩ := List.getElem?_eq_some_iff.mp returned
  have so := all.get inside inside'
  rwa [List.get_eq_getElem, List.get_eq_getElem, call, returned] at so

/-- However calls take turns on an empty store, and at any moment: when a call for a new entry has
returned one, it is the only committed entry with its reference, and no other call returns one for
that reference; a call for a new entry that has returned that the reference exists says so of its
own reference, which a committed entry has; and no call returns that a row is not unique. -/
theorem Concurrent.reference_exactly_once [DecidableEq ι] (calls : ι → Call)
    (apart : ∀ i j, i ≠ j → (calls i).Apart (calls j)) (schedule : List ι) :
    let s := run calls schedule
    let entries := s.memory.books.entries
    (∀ i r e, (calls i).mutation = .add r → s.phases i = .finished (.ok e) →
      entries.filter (·.hasReference r.organizationId r.referenceId) = [e] ∧
      ∀ j r' e', (calls j).mutation = .add r' → s.phases j = .finished (.ok e') →
        r'.organizationId = r.organizationId → r'.referenceId = r.referenceId → j = i) ∧
    (∀ i r organizationId referenceId, (calls i).mutation = .add r →
      s.phases i = .finished (.error (.alreadyExists organizationId referenceId)) →
      organizationId = r.organizationId ∧ referenceId = r.referenceId ∧
      ∃ e ∈ entries, e.hasReference organizationId referenceId = true) ∧
    ∀ i constraint, s.phases i ≠ .finished (.error (.store (.uniqueViolation constraint))) := by
  intro s entries
  obtain ⟨order, g, explains, -⟩ := exists_explains apart schedule
  have catalogued := explains.catalogued
  refine ⟨?_, ?_, ?_⟩
  · intro i r e asked finished
    obtain ⟨member, id, key⟩ := (explains.confirms apart finished).added r e asked rfl
    refine ⟨catalogued.filter_hasReference member key, ?_⟩
    intro j r' e' asked' finished' same same'
    obtain ⟨member', id', key'⟩ := (explains.confirms apart finished').added r' e' asked' rfl
    -- Both calls have returned the same entry, which one call has made.
    obtain rfl := catalogued.eq_of_key member' member (by rw [key', key, same, same'])
    by_contra other
    exact apart j i other 0 0 (congrArg EntryId.uuid (id'.symm.trans id))
  · intro i r organizationId referenceId asked finished
    have confirms := explains.confirms apart finished
    obtain ⟨_, _, named, ⟨e, member, key⟩, own⟩ := confirms.refused _ rfl rfl
    cases named
    obtain ⟨organization, reference⟩ := own r asked
    exact ⟨organization, reference, e, member, Entry.hasReference_iff.mpr key⟩
  · intro i constraint finished
    obtain ⟨_, _, named, -⟩ := (explains.confirms apart finished).refused _ rfl rfl
    cases named

theorem Concurrent.reference_exactly_once_shared :
    let calls (i : Fin 2) := Call.numbered i (.add
      ⟨"acme", if i = 0 then "ann" else "bob", .credit, ⟨10, by decide⟩, "first", "", []⟩)
    let schedule := (List.replicate 30 [0, 1]).flatten
    let s := run calls schedule
    let entries := s.memory.books.entries
    (s.phases 0).result?.map Except.isOk = some true ∧
    (s.phases 1).result? = some (.error (.alreadyExists "acme" "first")) ∧
    (∀ i r e, (calls i).mutation = .add r → s.phases i = .finished (.ok e) →
      entries.filter (·.hasReference r.organizationId r.referenceId) = [e] ∧
      ∀ j r' e', (calls j).mutation = .add r' → s.phases j = .finished (.ok e') →
        r'.organizationId = r.organizationId → r'.referenceId = r.referenceId → j = i) ∧
    (∀ i r organizationId referenceId, (calls i).mutation = .add r →
      s.phases i = .finished (.error (.alreadyExists organizationId referenceId)) →
      organizationId = r.organizationId ∧ referenceId = r.referenceId ∧
      ∃ e ∈ entries, e.hasReference organizationId referenceId = true) ∧
    ∀ i constraint, s.phases i ≠ .finished (.error (.store (.uniqueViolation constraint))) := by
  intro calls schedule
  have apart : ∀ i j, i ≠ j → (calls i).Apart (calls j) := fun i j different =>
    Call.numbered_apart (Fin.val_ne_of_ne different) (by omega) (by omega)
  exact ⟨by decide +kernel, by decide +kernel, reference_exactly_once calls apart schedule⟩

end

end PointLedger

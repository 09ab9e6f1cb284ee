import PointLedger.Proofs.Deadlock
import PointLedger.Proofs.FittingRows
import PointLedger.Proofs.Isolation

/-!
Locks and accounts. The key of a lock is the two parts of an account around a control character, and
none passes in an identifier, so valid accounts with one key are one account. A call locks the
account that it works on. For a new entry that account is checked before anything is asked; for a
reversal it is that of an entry of the books, and every entry that a run puts there is of an account
that was checked before. So a call only ever waits for a call on its own account.
-/

namespace PointLedger

/-! ### Keys -/

namespace Account

/-- Both parts of the account pass as identifiers. -/
structure Valid (a : Account) : Prop where
  organization : validateIdentifier "organization_id" a.organizationId = .ok ()
  user : validateIdentifier "user_id" a.userId = .ok ()

/-- Valid accounts have one lock only if they are one account. -/
theorem lockKey_eq_iff {a b : Account} (valid : a.Valid) (valid' : b.Valid) :
    a.lockKey = b.lockKey ↔ a = b := by
  refine ⟨fun same => ?_, congrArg lockKey⟩
  have control : Text.isControl (Char.ofNat 0x1F) = true := by decide
  obtain ⟨organization, user⟩ := append_cons_inj_of_unmarked
    (not_mem_of_validateIdentifier valid.organization control)
    (not_mem_of_validateIdentifier valid'.organization control) (String.ofList_inj.mp same)
  cases a
  cases b
  rw [mk.injEq]
  exact ⟨String.toList_inj.mp organization, String.toList_inj.mp user⟩

end Account

/-! ### The account of a call -/

/-- The account whose lock is asked for, or to whose chain an entry is added. -/
def Request.concerns? : Request → Option Account
  | .lockAccount _ a => some a
  | .createEntry _ e => some e.account
  | _ => none

namespace Errand

variable {errand : Errand} {tx : TxId} {xs : List Exchange} {ended : Prop} {x : Exchange}
  {a : Account}

/-- A session locks the account of its errand, and adds to the chain of that account. -/
theorem Session.concerns_eq (session : errand.Session tx xs ended) (member : x ∈ xs)
    (concerns : x.request.concerns? = some a) : errand.account = a := by
  obtain ⟨reads, writes, closing, rfl, obeyed, -⟩ := session
  rcases List.mem_append.mp member with member | closed
  · rcases List.mem_append.mp member with read | written
    · have planned := obeyed.inOrder.subset (List.mem_map_of_mem (f := Exchange.request) read)
      unfold Errand.reads at planned
      cases request : x.request <;>
        simp_all [Request.concerns?]
    · cases writes with
      | nil => cases written
      | cons first rest =>
        rcases List.mem_cons.mp written with rfl | later
        · obtain ⟨e, same, own⟩ := obeyed.entryFirst x rfl
          rw [same] at concerns
          exact own.symm.trans (Option.some.inj concerns)
        · obtain ⟨-, b, changes, -⟩ := obeyed.ownRows x later
          cases request : x.request <;> simp_all [Request.concerns?, Request.changes?]
  · rcases obeyed.closes with rfl | ⟨answer, rfl⟩ | ⟨⟨answer, rfl⟩, -⟩
    · cases closed
    · rw [List.mem_singleton.mp closed] at concerns
      cases concerns
    · rw [List.mem_singleton.mp closed] at concerns
      cases concerns

end Errand

namespace Call

variable {c : Call} {xs : List Exchange} {outcome : Option (Except LedgerError Entry)}
  {x : Exchange} {a : Account}

/-- A call locks the account of its errand, and adds to the chain of that account, in the
transaction that it was given. -/
theorem concerns_eq (exhibits : c.program.Exhibits xs outcome) (member : x ∈ xs)
    (concerns : x.request.concerns? = some a) : ∃ errand tx, c.errand? xs = some errand ∧
      errand.account = a ∧ x.request.tx? = some tx ∧ .begun tx ∈ xs := by
  obtain ⟨tx, named⟩ : ∃ tx, x.request.tx? = some tx := by
    cases request : x.request <;> simp_all [Request.concerns?, Request.tx?]
  obtain ⟨foreign, own⟩ := c.disciplined exhibits
  have on : x ∈ Exchange.on tx xs := List.mem_filter.mpr ⟨member, by simp [named]⟩
  have begun : .begun tx ∈ xs := by
    by_contra absent
    rw [foreign tx absent] at on
    cases on
  obtain ⟨before, after, errand, rfl, earlier, told, session⟩ := own tx begun
  rw [Exchange.on_append, earlier, List.nil_append, ← List.singleton_append,
    Exchange.on_append] at on
  have later : x ∈ Exchange.on tx after := on
  exact ⟨errand, tx, told, session.concerns_eq later concerns, named, begun⟩

theorem valid_of_validateRequest {r : EntryRequest} (valid : validateRequest r = .ok ()) :
    r.account.Valid := by
  obtain ⟨_, organization, rest⟩ := eq_ok_of_bind valid
  obtain ⟨_, user, -⟩ := eq_ok_of_bind rest
  exact ⟨organization, user⟩

/-- A reversal is told its errand by an entry that it finds. -/
theorem found_of_errand? {id : EntryId} {errand : Errand} (mutation : c.mutation = .revert id)
    (told : c.errand? xs = some errand) :
    ∃ lookup reverted, ⟨.findEntry lookup, some (.ok (some reverted))⟩ ∈ xs ∧
      errand.account = reverted.account := by
  unfold errand? at told
  rw [mutation] at told
  rcases xs with _ | ⟨⟨request, answer⟩, rest⟩
  · cases told
  · cases request with
    | findEntry lookup =>
      rcases answer with _ | error | _ | reverted
      · cases told
      · cases told
      · cases told
      · cases told
        exact ⟨lookup, reverted, List.mem_cons_self, rfl⟩
    | _ => cases told

/-- A call that has asked for something works on a valid account, if it has found only entries of
valid accounts. -/
theorem valid_errand (exhibits : c.program.Exhibits xs outcome) (asked : xs ≠ [])
    (found : ∀ lookup e, ⟨.findEntry lookup, some (.ok (some e))⟩ ∈ xs → e.account.Valid)
    {errand : Errand} (told : c.errand? xs = some errand) : errand.account.Valid := by
  cases mutation : c.mutation with
  | add request =>
    simp only [errand?, mutation, Option.some.injEq] at told
    subst told
    unfold Call.program at exhibits
    rw [mutation] at exhibits
    obtain ⟨result, exhibits, -⟩ := exhibits_observed
      (fun value => by cases value <;> exact ⟨_, _, rfl⟩) exhibits
    cases valid : validateRequest request with
    | ok _ => exact valid_of_validateRequest valid
    | error violation =>
      unfold Ledger.tryAdd at exhibits
      rw [valid] at exhibits
      exact absurd exhibits.of_done.1 asked
  | revert id =>
    obtain ⟨lookup, reverted, member, same⟩ := found_of_errand? mutation told
    rw [same]
    exact found lookup reverted member

end Call

/-! ### Operations that only read -/

theorem Request.isLock_of_readsCommitted {request : Request}
    (reads : request.readsCommitted = true) : request.isLock = false := by
  cases request with
  | lockAccount tx a => cases reads
  | _ => rfl

/-- All that an operation that only reads asks for is committed. -/
theorem Program.OnlyReads.of_exhibits {α : Type} {program : Program α} {xs : List Exchange}
    {outcome : Option α} (reads : program.OnlyReads) (exhibits : program.Exhibits xs outcome) :
    ∀ x ∈ xs, x.request.readsCommitted = true := by
  induction exhibits with
  | dropped program | done value => exact fun _ member => (List.not_mem_nil member).elim
  | waiting => exact fun x member => List.mem_singleton.mp member ▸ reads.1
  | ask answer _ ih | askInTime answer _ ih =>
    intro x member
    rcases List.mem_cons.mp member with rfl | later
    · exact reads.1
    · exact ih (reads.2 answer) x later
  | startTimer _ ih | report _ ih => exact ih reads
  | clock value _ ih | fresh value _ ih | random value _ ih => exact ih (reads value)

/-! ### Where entries come from -/

namespace Memory

variable {m : Memory} {request : Request}

/-- An entry is staged only on request. -/
theorem mem_staged_perform (wf : m.WellFormed) {tx : TxId} {t' : Transaction} {e : Entry}
    (held : (m.perform request).2.tx? tx = some t') (staged : e ∈ t'.entries) :
    (∃ t, m.tx? tx = some t ∧ e ∈ t.entries) ∨ ∃ own, request = .createEntry own e := by
  rcases tx?_perform wf held with former | rfl | ⟨t, live, -, becomes⟩
  · exact .inl ⟨t', former, staged⟩
  · cases staged
  · cases becomes with
    | entry own e' =>
      rcases List.mem_append.mp staged with old | new
      · exact .inl ⟨t, live, old⟩
      · exact .inr ⟨own, by rw [List.mem_singleton.mp new]⟩
    | _ => exact .inl ⟨t, live, staged⟩

/-- An entry gets into the books only from a live transaction. -/
theorem mem_entries_perform {e : Entry} (member : e ∈ (m.perform request).2.books.entries) :
    e ∈ m.books.entries ∨ ∃ tx t, m.tx? tx = some t ∧ e ∈ t.entries := by
  change e ∈ (m.step (.request request)).books.entries at member
  cases m.evolves_step (.request request) with
  | nothing books _ | changed _ _ _ _ _ _ _ books _ | ended _ books _ =>
    rw [books] at member
    exact .inl member
  | begun same =>
    rw [same] at member
    exact .inl member
  | committed tx t held accepted _ =>
    obtain ⟨-, -, -, after⟩ := Books.commit_eq_ok accepted
    rw [after] at member
    exact (List.mem_append.mp member).imp_right fun new => ⟨tx, t, held, new⟩

/-- An entry that the store finds is in its books. -/
theorem mem_entries_of_found {lookup : EntryLookup} {e : Entry} {after : Memory}
    (ran : m.perform (.findEntry lookup) = (some (.ok (some e)), after)) :
    e ∈ m.books.entries := by
  have found : m.books.findEntry lookup = some e := by
    simpa [perform] using congrArg Prod.fst ran
  exact List.mem_of_find?_eq_some found

end Memory

namespace Traffic

variable {ι : Type} {calls : ι → Call} {s s' : Traffic ι} {i : ι}

/-- What an occurrence does to the store, and to what the calls have exchanged with it. -/
inductive Happens [DecidableEq ι] (s s' : Traffic ι) : Prop where
  | silent (memory : s'.memory = s.memory) (exchanges : s'.exchanges = s.exchanges)
  | unanswered (i : ι) (request : Request) (asks : (s.phases i).asks? = some request)
      (ran : s.memory.perform request = (none, s'.memory)) (exchanges : s'.exchanges = s.exchanges)
  | answered (i : ι) (request : Request) (answer : Except StoreError request.Answer)
      (asks : (s.phases i).asks? = some request)
      (ran : s.memory.perform request = (some answer, s'.memory))
      (exchanges : s'.exchanges = s.note i (some ⟨request, some answer⟩))
  | abandoned (i : ι) (request : Request) (asks : (s.phases i).asks? = some request)
      (memory : s'.memory = s.memory)
      (exchanges : s'.exchanges = s.note i (some ⟨request, none⟩))

theorem happens [DecidableEq ι] (calls : ι → Call) (s : Traffic ι) (occurrence : Occurrence ι) :
    s.Happens (s.step calls occurrence) := by
  cases occurrence with
  | timeout i =>
    cases phase : s.phases i with
    | running d program =>
      cases program with
      | askInTime request next =>
        exact .abandoned i request (by rw [phase]; rfl) rfl
          (by simp [step, phase, Phase.abandoned?])
      | _ => exact .silent rfl (by simp [step, phase, Phase.abandoned?])
    | _ => exact .silent rfl (by simp [step, phase, Phase.abandoned?])
  | turn i =>
    cases phase : s.phases i with
    | running d program =>
      cases program with
      | ask request next | askInTime request next =>
        have asks : (s.phases i).asks? = some request := by rw [phase]; rfl
        rcases ran : s.memory.perform request with ⟨_ | answer, after⟩
        · refine .unanswered i request asks ?_ ?_
          · simp [step, Concurrent.turn, Phase.turn, phase, ran]
          · simp [step, phase, Phase.exchange?, Phase.asks?, ran]
        · refine .answered i request answer asks ?_ ?_
          · simp [step, Concurrent.turn, Phase.turn, phase, ran]
          · simp [step, phase, Phase.exchange?, Phase.asks?, ran]
      | _ =>
        refine .silent ?_ ?_
        · simp [step, Concurrent.turn, Phase.turn, phase]
        · simp [step, phase, Phase.exchange?, Phase.asks?]
    | _ =>
      refine .silent ?_ ?_
      · simp [step, Concurrent.turn, Phase.turn, phase]
      · simp [step, phase, Phase.exchange?, Phase.asks?]

theorem mem_note [DecidableEq ι] {x y : Exchange} {j : ι} :
    x ∈ s.note i (some y) j ↔ x ∈ s.exchanges j ∨ j = i ∧ x = y := by
  by_cases own : j = i
  · subst own
    simp
  · simp [s.note_of_ne own, own]

/-- Every lock that is held was asked for, and every entry that is staged, committed or found is of
a valid account. -/
structure Vetted (s : Traffic ι) : Prop where
  locks : ∀ tx t key, s.memory.tx? tx = some t → key ∈ t.locks →
    ∃ i a answer, ⟨.lockAccount tx a, answer⟩ ∈ s.exchanges i ∧ a.lockKey = key
  staged : ∀ tx t e, s.memory.tx? tx = some t → e ∈ t.entries → e.account.Valid
  committed : ∀ e ∈ s.memory.books.entries, e.account.Valid
  found : ∀ i lookup e, ⟨.findEntry lookup, some (.ok (some e))⟩ ∈ s.exchanges i →
    e.account.Valid

namespace Vetted

theorem start : Vetted ({ memory := {} } : Traffic ι) where
  locks tx t key held := by cases held
  staged tx t e held := by cases held
  committed e member := (List.not_mem_nil member).elim
  found i lookup e member := (List.not_mem_nil member).elim

/-- Calls ask to lock valid accounts, and to add to their chains. -/
theorem valid (vetted : s.Vetted) (tracked : Tracked calls s) {request : Request} {a : Account}
    (asks : (s.phases i).asks? = some request) (concerns : request.concerns? = some a) :
    a.Valid := by
  have exhibits := (tracked.fits i).exhibits_asked asks
  obtain ⟨errand, tx, told, rfl, -, -⟩ := Call.concerns_eq exhibits
    (List.mem_append_right _ (List.mem_singleton_self _)) concerns
  refine Call.valid_errand exhibits (by simp) (fun lookup e member => ?_) told
  rcases List.mem_append.mp member with old | new
  · exact vetted.found i lookup e old
  · cases List.mem_singleton.mp new

/-- Nothing is staged, committed or locked, and what is exchanged brings no answer. -/
theorem mono (vetted : s.Vetted) (books : s'.memory.books = s.memory.books)
    (live : s'.memory.live = s.memory.live)
    (grown : ∀ j, ∀ x ∈ s.exchanges j, x ∈ s'.exchanges j)
    (silent : ∀ j, ∀ x ∈ s'.exchanges j, x ∈ s.exchanges j ∨ x.answer = none) : s'.Vetted := by
  have same := Memory.tx?_eq_of_live_eq live
  refine ⟨fun tx t key held taken => ?_, fun tx t e held => ?_, books ▸ vetted.committed,
    fun j lookup e member => ?_⟩
  · obtain ⟨j, a, answer, member, named⟩ := vetted.locks tx t key (same tx ▸ held) taken
    exact ⟨j, a, answer, grown j _ member, named⟩
  · exact vetted.staged tx t e (same tx ▸ held)
  · rcases silent j _ member with old | none
    · exact vetted.found j lookup e old
    · cases none

variable [DecidableEq ι]

/-- The store answers what a call asks. -/
theorem answered (vetted : s.Vetted) (tracked : Tracked calls s) {request : Request}
    {answer : Except StoreError request.Answer} (asks : (s.phases i).asks? = some request)
    (ran : s.memory.perform request = (some answer, s'.memory))
    (exchanges : s'.exchanges = s.note i (some ⟨request, some answer⟩)) : s'.Vetted := by
  have wf := tracked.wellFormed
  have after : s'.memory = (s.memory.perform request).2 := (congrArg Prod.snd ran).symm
  constructor
  case locks =>
    intro tx t key held taken
    rw [after] at held
    rw [exchanges]
    rcases Memory.mem_locks_perform wf held taken with ⟨t', old, there⟩ | ⟨a, rfl, named⟩
    · obtain ⟨j, a, answer', member, named⟩ := vetted.locks tx t' key old there
      exact ⟨j, a, answer', mem_note.mpr (.inl member), named⟩
    · exact ⟨i, a, some answer, mem_note.mpr (.inr ⟨rfl, rfl⟩), named⟩
  case staged =>
    intro tx t e held staged
    rw [after] at held
    rcases Memory.mem_staged_perform wf held staged with ⟨t', old, there⟩ | ⟨own, rfl⟩
    · exact vetted.staged tx t' e old there
    · exact vetted.valid tracked asks rfl
  case committed =>
    intro e member
    rw [after] at member
    rcases Memory.mem_entries_perform member with old | ⟨tx, t, held, staged⟩
    · exact vetted.committed e old
    · exact vetted.staged tx t e held staged
  case found =>
    intro j lookup e member
    rw [exchanges] at member
    rcases mem_note.mp member with old | ⟨-, new⟩
    · exact vetted.found j lookup e old
    · cases new
      exact vetted.committed e (Memory.mem_entries_of_found ran)

theorem step (vetted : s.Vetted) (tracked : Tracked calls s) (occurrence : Occurrence ι) :
    (s.step calls occurrence).Vetted := by
  cases s.happens calls occurrence with
  | silent memory exchanges =>
    exact vetted.mono (by rw [memory]) (by rw [memory]) (fun j x => by rw [exchanges]; exact id)
      fun j x => by rw [exchanges]; exact .inl
  | unanswered i request asks ran exchanges =>
    obtain ⟨books, live⟩ := Memory.perform_unanswered ran
    exact vetted.mono books live (fun j x => by rw [exchanges]; exact id)
      fun j x => by rw [exchanges]; exact .inl
  | abandoned i request asks memory exchanges =>
    refine vetted.mono (by rw [memory]) (by rw [memory]) (fun j x member => ?_)
      (fun j x member => ?_)
    · rw [exchanges]
      exact mem_note.mpr (.inl member)
    · rw [exchanges] at member
      exact (mem_note.mp member).imp_right fun new => by rw [new.2]
  | answered i request answer asks ran exchanges =>
    exact vetted.answered tracked asks ran exchanges

end Vetted

/-! ### Waiting for locks -/

/-- The account that a call works on, once the call has been told. -/
def account? (calls : ι → Call) (s : Traffic ι) (i : ι) : Option Account :=
  ((calls i).errand? (s.exchanges i)).map Errand.account

/-- The call waits for the lock with a key. -/
def WaitsFor (s : Traffic ι) (i : ι) (key : String) : Prop :=
  ∃ tx a, (s.phases i).asks? = some (.lockAccount tx a) ∧ a.lockKey = key ∧
    (s.memory.perform (.lockAccount tx a)).1 = none

/-- A call that waits for a lock waits for that of the account it works on. -/
theorem Vetted.account_of_waitsFor (vetted : s.Vetted) (tracked : Tracked calls s) {key : String}
    (waits : s.WaitsFor i key) :
    ∃ a, s.account? calls i = some a ∧ a.Valid ∧ a.lockKey = key := by
  obtain ⟨tx, a, asks, named, -⟩ := waits
  obtain ⟨errand, tx', told, own, -, begun⟩ := Call.concerns_eq (a := a)
    ((tracked.fits i).exhibits_asked asks) (List.mem_append_right _ (List.mem_singleton_self _)) rfl
  have former : .begun tx' ∈ s.exchanges i := by
    rcases List.mem_append.mp begun with old | new
    · exact old
    · cases List.mem_singleton.mp new
  have same (x : Exchange) : (s.exchanges i ++ [x]).head? = (s.exchanges i).head? :=
    List.head?_append_of_ne_nil _ (List.ne_nil_of_mem former)
  refine ⟨a, ?_, vetted.valid tracked asks rfl, named⟩
  rw [account?, ← own, ← Option.map_some, ← told, Call.errand?, Call.errand?, same]

/-- A call that holds a lock holds that of the account it works on. -/
theorem Vetted.account_of_holds (vetted : s.Vetted) (tracked : Tracked calls s) {key : String}
    (holds : s.Holds i key) :
    ∃ a, s.account? calls i = some a ∧ a.Valid ∧ a.lockKey = key := by
  obtain ⟨tx, own, taken⟩ := holds
  obtain ⟨t, held, member⟩ := tracked.distinct.holds_iff.mp taken
  obtain ⟨j, a, answer, asked, named⟩ := vetted.locks tx t key held member
  obtain ⟨outcome, exhibits⟩ := (tracked.fits j).exhibits
  obtain ⟨errand, tx', told, account, request, begun⟩ := Call.concerns_eq exhibits asked rfl
  cases request
  have mine : tx ∈ Exchange.handles (s.exchanges j) :=
    List.mem_filterMap.mpr ⟨_, begun, rfl⟩
  obtain rfl := tracked.unshared i j tx own mine
  refine ⟨a, by rw [account?, told, Option.map_some, account], ?_, named⟩
  rw [← account]
  exact Call.valid_errand exhibits (List.ne_nil_of_mem asked) (vetted.found i) told

variable [DecidableEq ι]

/-- However calls take turns on an empty store, and whatever runs out of time. -/
theorem vetted_run (calls : ι → Call) (occurrences : List (Occurrence ι)) :
    (run calls {} occurrences).Vetted := by
  induction occurrences using List.reverseRecOn with
  | nil => exact .start
  | append_singleton occurrences occurrence ih =>
    have tracked : Tracked calls (run calls {} occurrences) := .run Memory.atRest_empty occurrences
    have next : run calls {} (occurrences ++ [occurrence]) =
        (run calls {} occurrences).step calls occurrence := List.foldl_concat _ _ _ _
    rw [next]
    exact ih.step tracked occurrence

/-- Calls wait only for calls on their own account. -/
structure LocksApart (calls : ι → Call) (s : Traffic ι) : Prop where
  /-- Of two calls on different accounts neither holds a lock that the other waits for. -/
  apart : ∀ i j a b, s.account? calls i = some a → s.account? calls j = some b → a ≠ b →
    ∀ key, s.WaitsFor i key → ¬ s.Holds j key
  /-- Whoever waits, waits for another call on the same account. -/
  within : ∀ i key, s.WaitsFor i key → ∃ j a, j ≠ i ∧ s.account? calls i = some a ∧
    s.account? calls j = some a ∧ a.lockKey = key ∧ s.Holds j key
  /-- An operation that only reads never waits and leaves the store as it is. -/
  inquiries : ∀ (q : Inquiry) xs outcome, q.program.Exhibits xs outcome → ∀ x ∈ xs,
    (s.memory.perform x.request).1 ≠ none ∧ (s.memory.perform x.request).2 = s.memory

/-- Valid accounts have locks of their own. So however calls on any accounts take turns on an empty
store, and whichever of their timers run out, none waits for a lock of a call on another account. -/
theorem locks_apart (calls : ι → Call) (occurrences : List (Occurrence ι)) :
    (∀ a b : Account, a.Valid → b.Valid → (a.lockKey = b.lockKey ↔ a = b)) ∧
      (run calls {} occurrences).LocksApart calls := by
  have tracked : Tracked calls (run calls {} occurrences) := .run Memory.atRest_empty occurrences
  have vetted := vetted_run calls occurrences
  refine ⟨fun a b => Account.lockKey_eq_iff, ?_, ?_, ?_⟩
  · intro i j a b first second other key waits holds
    obtain ⟨a', told, valid, named⟩ := vetted.account_of_waitsFor tracked waits
    obtain ⟨b', told', valid', named'⟩ := vetted.account_of_holds tracked holds
    rw [first] at told
    rw [second] at told'
    cases told
    cases told'
    exact other ((Account.lockKey_eq_iff valid valid').mp (named.trans named'.symm))
  · intro i key waits
    obtain ⟨a, told, valid, named⟩ := vetted.account_of_waitsFor tracked waits
    obtain ⟨tx, a', asks, same, unanswered⟩ := waits
    obtain ⟨holder, taken⟩ := Memory.exists_holds_of_waiting unanswered
    obtain ⟨t, held, -⟩ := tracked.distinct.holds_iff.mp taken
    obtain ⟨j, own⟩ := tracked.owned holder t held
    have holds : (run calls {} occurrences).Holds j key := ⟨holder, own, same ▸ taken⟩
    obtain ⟨b, told', valid', named'⟩ := vetted.account_of_holds tracked holds
    obtain rfl := (Account.lockKey_eq_iff valid valid').mp (named.trans named'.symm)
    refine ⟨j, a, ?_, told, told', named, holds⟩
    rintro rfl
    exact (tracked.holder_goesOn holds).2 ⟨_, asks, unanswered⟩
  · intro q xs outcome exhibits x member
    have reads := q.onlyReads_program.of_exhibits exhibits x member
    obtain ⟨answer, after, ran⟩ := (run calls {} occurrences).memory.perform_answers_of_not_isLock
      (Request.isLock_of_readsCommitted reads)
    exact ⟨by simp [ran], Memory.perform_of_readsCommitted _ reads⟩

/-- Two accounts whose parts make the same text when nothing stands between them. A second call on
the first account waits, and the call on the other account has its lock. -/
theorem locks_apart_same_text :
    let ann : Account := ⟨"acme", "ann"⟩
    let nn : Account := ⟨"acmea", "nn"⟩
    let calls (i : Fin 3) := Call.numbered i (.add (if i = 2
      then ⟨"acmea", "nn", .credit, ⟨10, by decide⟩, "first", "", []⟩
      else ⟨"acme", "ann", .credit, ⟨10, by decide⟩, "first", "", []⟩))
    let s := run calls {}
      (List.replicate 7 (.turn 0) ++ List.replicate 9 (.turn 1) ++ List.replicate 7 (.turn 2))
    (ann.Valid ∧ nn.Valid ∧ ann.lockKey ≠ nn.lockKey) ∧
      (s.account? calls 1 = some ann ∧ s.WaitsFor 1 ann.lockKey) ∧
      (s.account? calls 2 = some nn ∧ s.Holds 2 nn.lockKey ∧ ¬ s.Holds 2 ann.lockKey) ∧
      ∃ j, j ≠ 1 ∧ s.account? calls j = some ann ∧ s.Holds j ann.lockKey := by
  intro ann nn calls s
  obtain ⟨keys, apart⟩ := locks_apart calls
    (List.replicate 7 (.turn 0) ++ List.replicate 9 (.turn 1) ++ List.replicate 7 (.turn 2))
  have valid : ann.Valid := ⟨by decide, by decide⟩
  have valid' : nn.Valid := ⟨by decide, by decide⟩
  have other : ann ≠ nn := by decide
  have works : s.account? calls 1 = some ann := by decide +kernel
  have works' : s.account? calls 2 = some nn := by decide +kernel
  have waits : s.WaitsFor 1 ann.lockKey :=
    ⟨⟨1⟩, ann, by decide +kernel, rfl, Option.isNone_iff_eq_none.mp (by decide +kernel)⟩
  have holds : s.Holds 2 nn.lockKey := ⟨⟨2⟩, by decide +kernel, by decide +kernel⟩
  obtain ⟨j, a, foreign, told, told', -, taken⟩ := apart.within 1 _ waits
  rw [works] at told
  cases told
  exact ⟨⟨valid, valid', fun same => other ((keys ann nn valid valid').mp same)⟩,
    ⟨works, waits⟩, ⟨works', holds, apart.apart 1 2 ann nn works works' other _ waits⟩,
    j, foreign, told', taken⟩

end Traffic
end PointLedger

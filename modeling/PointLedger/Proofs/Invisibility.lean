import PointLedger.Proofs.StoreCalls

/-!
What is not committed stays invisible. A transaction that never commits, and on whose locks nobody
waits, can be taken out of any sequence of calls: all other calls are answered as before. Handles
are numbered in the order in which transactions start, so the handles of the later ones move up by
one when it is taken out.
-/

namespace PointLedger

/-! ### Other handles -/

/-- The request made with other handles. -/
def Request.rename (f : TxId → TxId) : Request → Request
  | .beginTx => .beginTx
  | .commit tx => .commit (f tx)
  | .rollback tx => .rollback (f tx)
  | .lockAccount tx account => .lockAccount (f tx) account
  | .findEntries filter => .findEntries filter
  | .countEntries filter => .countEntries filter
  | .findEntry lookup => .findEntry lookup
  | .findEntryIn tx lookup => .findEntryIn (f tx) lookup
  | .lastEntry tx account => .lastEntry (f tx) account
  | .createEntry tx entry => .createEntry (f tx) entry
  | .findPools filter => .findPools filter
  | .openPools tx account => .openPools (f tx) account
  | .createPool tx pool => .createPool (f tx) pool
  | .updatePool tx pool => .updatePool (f tx) pool
  | .findBalance account => .findBalance account
  | .balanceForUpdate tx account => .balanceForUpdate (f tx) account
  | .createBalance tx balance => .createBalance (f tx) balance
  | .updateBalance tx balance => .updateBalance (f tx) balance

/-- The answer with other handles; only the start of a transaction is answered with one. -/
def Request.renameAnswer (f : TxId → TxId) : (request : Request) → request.Answer →
    (request.rename f).Answer
  | .beginTx, tx => f tx
  | .commit _, done => done
  | .rollback _, done => done
  | .lockAccount _ _, done => done
  | .findEntries _, entries => entries
  | .countEntries _, count => count
  | .findEntry _, entry => entry
  | .findEntryIn _ _, entry => entry
  | .lastEntry _ _, entry => entry
  | .createEntry _ _, done => done
  | .findPools _, pools => pools
  | .openPools _ _, pools => pools
  | .createPool _ _, done => done
  | .updatePool _ _, done => done
  | .findBalance _, balance => balance
  | .balanceForUpdate _ _, balance => balance
  | .createBalance _ _, done => done
  | .updateBalance _ _, done => done

namespace StoreCall

/-- The call made with other handles. -/
def rename (f : TxId → TxId) : StoreCall → StoreCall
  | .use (.request request) => .use (.request (request.rename f))
  | .use (.drop tx) => .use (.drop (f tx))
  | .replace e => .replace e

/-- The transaction that asks for a lock, and the account. -/
def lock? : StoreCall → Option (TxId × Account)
  | .use (.request (.lockAccount tx a)) => some (tx, a)
  | _ => none

/-- What a call is answered with. There is no answer to a request that waits. -/
def Answer : StoreCall → Type
  | .use (.request request) => Option (Except StoreError request.Answer)
  | .use (.drop _) => Unit
  | .replace _ => Except StoreError Unit

/-- The answer with other handles. -/
def renameAnswer (f : TxId → TxId) : (c : StoreCall) → c.Answer → (c.rename f).Answer
  | .use (.request request), answer => answer.map (Except.map (request.renameAnswer f))
  | .use (.drop _), done => done
  | .replace _, answer => answer

end StoreCall

/-- The handle that a transaction has when another one is never started. -/
def TxId.without (gone tx : TxId) : TxId :=
  if gone.number < tx.number then ⟨tx.number - 1⟩ else tx

theorem TxId.without_inj {gone tx tx' : TxId} (other : tx ≠ gone) (other' : tx' ≠ gone) :
    gone.without tx = gone.without tx' ↔ tx = tx' := by
  obtain ⟨g⟩ := gone
  obtain ⟨n⟩ := tx
  obtain ⟨n'⟩ := tx'
  simp only [without, ne_eq, TxId.mk.injEq] at other other' ⊢
  split <;> split <;> simp only [TxId.mk.injEq] <;> omega

namespace Memory

/-- What a call is answered with. -/
def answer (m : Memory) : (c : StoreCall) → c.Answer
  | .use (.request request) => (m.perform request).1
  | .use (.drop _) => ()
  | .replace e => (m.books.replaceEntry e).map fun _ => ()

/-- Calls and their answers. -/
def transcript (m : Memory) : List StoreCall → List ((c : StoreCall) × c.Answer)
  | [] => []
  | c :: rest => ⟨c, m.answer c⟩ :: (m.call c).transcript rest

/-- True for the calls of a transaction: the one that starts it, and all that name its handle. -/
def isCallOf (m : Memory) (tx : TxId) : StoreCall → Bool
  | .use (.request .beginTx) => m.started == tx.number
  | .use (.request request) => request.tx? == some tx
  | .use (.drop tx') => tx' == tx
  | .replace _ => false

/-- The calls without those of a transaction. -/
def callsWithout (gone : TxId) (m : Memory) : List StoreCall → List StoreCall
  | [] => []
  | c :: rest =>
    if m.isCallOf gone c then callsWithout gone (m.call c) rest
    else c.rename gone.without :: callsWithout gone (m.call c) rest

/-- Calls and their answers without those of a transaction. -/
def transcriptWithout (gone : TxId) (m : Memory) :
    List StoreCall → List ((c : StoreCall) × c.Answer)
  | [] => []
  | c :: rest =>
    if m.isCallOf gone c then transcriptWithout gone (m.call c) rest
    else ⟨c.rename gone.without, c.renameAnswer gone.without (m.answer c)⟩ ::
      transcriptWithout gone (m.call c) rest

/-- A commit of the transaction has no success. -/
def Uncommitted (gone : TxId) (m : Memory) (c : StoreCall) : Prop :=
  c = .use (.request (.commit gone)) → m.grants (.commit gone) = false

/-- Nobody waits for a lock that the transaction holds. -/
def Unawaited (gone : TxId) (m : Memory) (c : StoreCall) : Prop :=
  ∀ asked ∈ c.lock?, asked.1 ≠ gone → (m.perform (.lockAccount asked.1 asked.2)).1 = none →
    ¬ m.Holds gone asked.2.lockKey

instance (gone : TxId) (m : Memory) (c : StoreCall) : Decidable (m.Uncommitted gone c) :=
  inferInstanceAs (Decidable (_ → _))

instance (gone : TxId) (m : Memory) (c : StoreCall) : Decidable (m.Unawaited gone c) :=
  inferInstanceAs (Decidable (∀ asked ∈ c.lock?, asked.1 ≠ gone → _ = none → ¬ _))

/-! ### A store without the transaction -/

/-- The live transactions without one of them. -/
def liveWithout (gone : TxId) (live : List (TxId × Transaction)) : List (TxId × Transaction) :=
  live.filterMap fun row => if row.1 = gone then none else some (gone.without row.1, row.2)

/-- A store is as if a transaction had never been started. -/
structure Without (gone : TxId) (m m' : Memory) : Prop where
  books : m'.books = m.books
  live : m'.live = liveWithout gone m.live
  started : m'.started = if gone.number < m.started then m.started - 1 else m.started

variable {gone tx : TxId} {m m' after : Memory}

theorem liveWithout_cons_of_ne (foreign : tx ≠ gone) (t : Transaction)
    (rest : List (TxId × Transaction)) :
    liveWithout gone ((tx, t) :: rest) = (gone.without tx, t) :: liveWithout gone rest := by
  simp [liveWithout, foreign]

theorem liveWithout_cons_self (t : Transaction) (rest : List (TxId × Transaction)) :
    liveWithout gone ((gone, t) :: rest) = liveWithout gone rest := by
  simp [liveWithout]

theorem liveWithout_append (live live' : List (TxId × Transaction)) :
    liveWithout gone (live ++ live') = liveWithout gone live ++ liveWithout gone live' :=
  List.filterMap_append

theorem lookup_liveWithout (foreign : tx ≠ gone) (live : List (TxId × Transaction)) :
    List.lookup (gone.without tx) (liveWithout gone live) = List.lookup tx live := by
  induction live with
  | nil => rfl
  | cons row rest ih =>
    obtain ⟨tx', t⟩ := row
    by_cases own : tx' = gone
    · subst own
      have missed : (tx == tx') = false := by simpa using foreign
      rw [liveWithout_cons_self, ih, List.lookup_cons, missed]
    · have same : (gone.without tx == gone.without tx') = (tx == tx') := by
        simp only [Bool.beq_eq_decide_eq, TxId.without_inj foreign own]
      rw [liveWithout_cons_of_ne own, List.lookup_cons, List.lookup_cons, same, ih]

theorem any_liveWithout (foreign : tx ≠ gone) {key : String} {live : List (TxId × Transaction)}
    (free : ∀ t, (gone, t) ∈ live → key ∉ t.locks) :
    ((liveWithout gone live).any fun row =>
      !(row.1 == gone.without tx) && row.2.locks.contains key) =
      live.any fun row => !(row.1 == tx) && row.2.locks.contains key := by
  induction live with
  | nil => rfl
  | cons row rest ih =>
    obtain ⟨tx', t⟩ := row
    have ih := ih fun t member => free t (List.mem_cons_of_mem _ member)
    by_cases own : tx' = gone
    · subst own
      have untaken := free t List.mem_cons_self
      rw [liveWithout_cons_self, ih]
      simp [untaken]
    · have same : (gone.without tx' == gone.without tx) = (tx' == tx) := by
        simp only [Bool.beq_eq_decide_eq, TxId.without_inj own foreign]
      rw [liveWithout_cons_of_ne own, List.any_cons, List.any_cons, same, ih]

/-- What another transaction holds can be replaced before or after one is taken out. -/
theorem liveWithout_map (foreign : tx ≠ gone) (t : Transaction)
    (live : List (TxId × Transaction)) :
    liveWithout gone (live.map fun row => if row.1 == tx then (tx, t) else row) =
      (liveWithout gone live).map fun row =>
        if row.1 == gone.without tx then (gone.without tx, t) else row := by
  simp only [liveWithout, List.filterMap_map, List.map_filterMap]
  refine List.filterMap_congr fun row _ => ?_
  by_cases own : row.1 = gone
  · simp [own, Ne.symm foreign]
  · by_cases same : row.1 = tx <;> simp [own, same, foreign, TxId.without_inj own foreign]

/-- Another transaction can end before or after one is taken out. -/
theorem liveWithout_filter (foreign : tx ≠ gone) (live : List (TxId × Transaction)) :
    liveWithout gone (live.filter fun row => !(row.1 == tx)) =
      (liveWithout gone live).filter fun row => !(row.1 == gone.without tx) := by
  simp only [liveWithout, List.filterMap_filter, List.filter_filterMap]
  refine List.filterMap_congr fun row _ => ?_
  by_cases own : row.1 = gone
  · simp [own]
  · by_cases same : row.1 = tx <;>
      simp [own, same, foreign, Option.filter, TxId.without_inj own foreign]

/-- What the transaction itself holds makes no difference. -/
theorem liveWithout_map_self (t : Transaction) (live : List (TxId × Transaction)) :
    liveWithout gone (live.map fun row => if row.1 == gone then (gone, t) else row) =
      liveWithout gone live := by
  simp only [liveWithout, List.filterMap_map]
  refine List.filterMap_congr fun row _ => ?_
  by_cases own : row.1 = gone <;> simp [own]

theorem liveWithout_filter_self (live : List (TxId × Transaction)) :
    liveWithout gone (live.filter fun row => !(row.1 == gone)) = liveWithout gone live := by
  simp only [liveWithout, List.filterMap_filter]
  refine List.filterMap_congr fun row _ => ?_
  by_cases own : row.1 = gone <;> simp [own]

namespace Without

/-- The next transaction has the handle that it has when the other one is never started. -/
theorem handle (without : Without gone m m') :
    (⟨m'.started⟩ : TxId) = gone.without ⟨m.started⟩ := by
  rw [without.started, TxId.without]
  split <;> rfl

theorem tx?_eq (without : Without gone m m') (foreign : tx ≠ gone) :
    m'.tx? (gone.without tx) = m.tx? tx := by
  rw [tx?, without.live, lookup_liveWithout foreign, tx?]

theorem isHeldByOther_eq (without : Without gone m m') (foreign : tx ≠ gone) {key : String}
    (free : ¬ m.Holds gone key) :
    m'.isHeldByOther (gone.without tx) key = m.isHeldByOther tx key := by
  rw [isHeldByOther, without.live, isHeldByOther]
  exact any_liveWithout foreign fun t live taken => free ⟨t, live, taken⟩

theorem setTx (without : Without gone m m') (foreign : tx ≠ gone) (t : Transaction) :
    Without gone (m.setTx tx t) (m'.setTx (gone.without tx) t) where
  books := without.books
  live := by simp only [Memory.setTx, without.live, liveWithout_map foreign]
  started := without.started

theorem endTx (without : Without gone m m') (foreign : tx ≠ gone) :
    Without gone (m.endTx tx) (m'.endTx (gone.without tx)) where
  books := without.books
  live := by simp only [Memory.endTx, without.live, liveWithout_filter foreign]
  started := without.started

theorem knowLock (without : Without gone m m') (key : String) :
    Without gone (m.knowLock key) (m'.knowLock key) where
  books := by simp [without.books]
  live := by simp [without.live]
  started := by simp [without.started]

/-- Another transaction starts. -/
theorem begun (without : Without gone m m') (foreign : (⟨m.started⟩ : TxId) ≠ gone) :
    Without gone (m.perform .beginTx).2 (m'.perform .beginTx).2 where
  books := without.books
  live := by
    simp only [perform, without.live, liveWithout_append, liveWithout_cons_of_ne foreign,
      ← without.handle]
    rfl
  started := by
    have before := without.started
    have other : m.started ≠ gone.number := fun same => foreign (congrArg TxId.mk same)
    simp only [perform]
    grind

/-- The transaction itself starts. -/
theorem begun_self (without : Without gone m m') (own : m.started = gone.number) :
    Without gone (m.perform .beginTx).2 m' where
  books := without.books
  live := by
    have handle : (⟨m.started⟩ : TxId) = gone := congrArg TxId.mk own
    simp only [perform, without.live, liveWithout_append, handle, liveWithout_cons_self]
    exact (List.append_nil _).symm
  started := by
    have before := without.started
    simp only [perform]
    grind

theorem readIn (without : Without gone m m') (foreign : tx ≠ gone) {α : Type}
    (read : Transaction → Except StoreError α) :
    (m'.readIn (gone.without tx) read).1 = (m.readIn tx read).1 ∧
      Without gone (m.readIn tx read).2 (m'.readIn (gone.without tx) read).2 := by
  simp only [Memory.readIn, without.tx?_eq foreign]
  cases m.tx? tx with
  | none => exact ⟨rfl, without⟩
  | some t => exact ⟨rfl, without⟩

theorem stage (without : Without gone m m') (foreign : tx ≠ gone)
    (write : Transaction → Except StoreError Transaction) :
    (m'.stage (gone.without tx) write).1 = (m.stage tx write).1 ∧
      Without gone (m.stage tx write).2 (m'.stage (gone.without tx) write).2 := by
  simp only [Memory.stage, without.tx?_eq foreign]
  cases m.tx? tx with
  | none => exact ⟨rfl, without⟩
  | some t =>
    cases written : write t with
    | error _ =>
      simp only [written]
      exact ⟨trivial, without⟩
    | ok t' =>
      simp only [written]
      exact ⟨trivial, without.setTx foreign t'⟩

/-- A lock is taken or waited for as before, unless it is the transaction that holds it. -/
theorem lock (without : Without gone m m') (foreign : tx ≠ gone) {key : String}
    (unawaited : (m.lock tx key).1 = none → ¬ m.Holds gone key) :
    (m'.lock (gone.without tx) key).1 = (m.lock tx key).1 ∧
      Without gone (m.lock tx key).2 (m'.lock (gone.without tx) key).2 := by
  have found := without.tx?_eq foreign
  cases held : m.tx? tx with
  | none =>
    rw [held] at found
    simp only [Memory.lock, held, found]
    exact ⟨trivial, without⟩
  | some t =>
    rw [held] at found
    by_cases own : key ∈ t.locks
    · rw [lock_of_mem held own, lock_of_mem found own]
      exact ⟨rfl, without⟩
    · have free : ¬ m.Holds gone key := by
        intro taken
        have busy := isHeldByOther_iff.mpr ⟨gone, Ne.symm foreign, taken⟩
        exact unawaited (by rw [lock_of_taken held own busy]) taken
      have same := without.isHeldByOther_eq foreign free
      cases busy : m.isHeldByOther tx key with
      | true =>
        rw [lock_of_taken held own busy, lock_of_taken found own (same.trans busy)]
        exact ⟨rfl, without.knowLock key⟩
      | false =>
        rw [lock_of_free held own busy, lock_of_free found own (same.trans busy)]
        exact ⟨rfl, (without.knowLock key).setTx foreign _⟩

theorem commit (without : Without gone m m') (foreign : tx ≠ gone) :
    (m'.perform (.commit (gone.without tx))).1 = (m.perform (.commit tx)).1 ∧
      Without gone (m.perform (.commit tx)).2 (m'.perform (.commit (gone.without tx))).2 := by
  simp only [Memory.perform, without.tx?_eq foreign, without.books]
  cases m.tx? tx with
  | none => exact ⟨rfl, without⟩
  | some t =>
    have ended := without.endTx foreign
    cases committed : m.books.commit t with
    | error _ =>
      simp only [committed]
      exact ⟨trivial, ended⟩
    | ok books =>
      simp only [committed]
      exact ⟨trivial, { books := rfl, live := ended.live, started := ended.started }⟩

theorem rollback (without : Without gone m m') (foreign : tx ≠ gone) :
    (m'.perform (.rollback (gone.without tx))).1 = (m.perform (.rollback tx)).1 ∧
      Without gone (m.perform (.rollback tx)).2 (m'.perform (.rollback (gone.without tx))).2 := by
  simp only [Memory.perform, without.tx?_eq foreign]
  cases m.tx? tx with
  | none => exact ⟨rfl, without⟩
  | some t => exact ⟨rfl, without.endTx foreign⟩

private theorem map_map_done {α ε : Type} (answer : Option (Except ε α)) :
    answer = answer.map (Except.map fun done => done) := by
  rcases answer with _ | _ | _ <;> rfl

/-- A request of another transaction, or of none, is answered as before. -/
theorem perform (without : Without gone m m') {request : Request}
    (foreign : m.isCallOf gone (.use (.request request)) = false)
    (unawaited : m.Unawaited gone (.use (.request request))) :
    (m'.perform (request.rename gone.without)).1 =
        (m.perform request).1.map (Except.map (request.renameAnswer gone.without)) ∧
      Without gone (m.perform request).2 (m'.perform (request.rename gone.without)).2 := by
  cases request with
  | beginTx =>
    have other : (⟨m.started⟩ : TxId) ≠ gone := by
      rintro rfl
      simp [isCallOf] at foreign
    refine ⟨?_, without.begun other⟩
    exact congrArg (fun tx : TxId => some (Except.ok tx)) without.handle
  | findEntries _ | countEntries _ | findEntry _ | findPools _ | findBalance _ =>
    simp only [Memory.perform, Request.rename, without.books]
    exact ⟨rfl, without⟩
  | commit tx =>
    have other : tx ≠ gone := by simpa [isCallOf, Request.tx?] using foreign
    obtain ⟨same, after⟩ := without.commit other
    exact ⟨same.trans (map_map_done _), after⟩
  | rollback tx =>
    have other : tx ≠ gone := by simpa [isCallOf, Request.tx?] using foreign
    obtain ⟨same, after⟩ := without.rollback other
    exact ⟨same.trans (map_map_done _), after⟩
  | lockAccount tx a =>
    have other : tx ≠ gone := by simpa [isCallOf, Request.tx?] using foreign
    obtain ⟨same, after⟩ := without.lock other (unawaited (tx, a) rfl other)
    exact ⟨same.trans (map_map_done _), after⟩
  | findEntryIn tx _ | lastEntry tx _ | openPools tx _ | balanceForUpdate tx _ =>
    have other : tx ≠ gone := by simpa [isCallOf, Request.tx?] using foreign
    simp only [Memory.perform, Request.rename, without.books]
    obtain ⟨same, after⟩ := without.readIn other _
    exact ⟨same.trans (map_map_done _), after⟩
  | createEntry tx _ | createPool tx _ | updatePool tx _ | createBalance tx _
  | updateBalance tx _ =>
    have other : tx ≠ gone := by simpa [isCallOf, Request.tx?] using foreign
    simp only [Memory.perform, Request.rename, without.books]
    obtain ⟨same, after⟩ := without.stage other _
    exact ⟨same.trans (map_map_done _), after⟩

theorem of_changes (without : Without gone m m') {request : Request}
    (named : request.tx? = some gone) (changes : m.Changes request after)
    (uncommitted : request = .commit gone → m.grants (.commit gone) = false) :
    Without gone after m' := by
  cases changes with
  | nothing books live started =>
    exact ⟨by rw [without.books, books], by rw [without.live, live],
      by rw [without.started, started]⟩
  | begun asked _ _ _ =>
    subst asked
    cases named
  | rewritten tx _ t' named' _ _ books live started =>
    obtain rfl : gone = tx := Option.some.inj (named.symm.trans named')
    exact ⟨by rw [without.books, books],
      by rw [without.live, live, Memory.setTx, liveWithout_map_self],
      by rw [without.started, started]⟩
  | ended tx named' live started books =>
    obtain rfl : gone = tx := Option.some.inj (named.symm.trans named')
    refine ⟨?_, by rw [without.live, live, Memory.endTx, liveWithout_filter_self],
      by rw [without.started, started]⟩
    rcases books with same | ⟨t, asked, held, committed⟩
    · rw [without.books, same]
    · have refused := uncommitted asked
      rw [grants_commit_iff.mpr ⟨t, after.books, held, committed⟩] at refused
      cases refused

/-- No request of the transaction itself makes a difference, unless it commits. -/
theorem perform_self (without : Without gone m m') {request : Request}
    (own : m.isCallOf gone (.use (.request request)) = true)
    (uncommitted : request = .commit gone → m.grants (.commit gone) = false) :
    Without gone (m.perform request).2 m' := by
  cases request with
  | beginTx => exact without.begun_self (by simpa [isCallOf] using own)
  | _ => exact without.of_changes (by simpa [isCallOf] using own) (perform_changes rfl) uncommitted

/-- Every call of others is answered as before, and no call of the transaction makes a
difference. -/
theorem call (without : Without gone m m') {c : StoreCall} (uncommitted : m.Uncommitted gone c)
    (unawaited : m.Unawaited gone c) :
    if m.isCallOf gone c then Without gone (m.call c) m'
    else m'.answer (c.rename gone.without) = c.renameAnswer gone.without (m.answer c) ∧
      Without gone (m.call c) (m'.call (c.rename gone.without)) := by
  split
  · rename_i own
    match c with
    | .use (.request request) =>
      exact without.perform_self own fun asked => uncommitted (by rw [asked])
    | .use (.drop tx) =>
      obtain rfl : tx = gone := by simpa [isCallOf] using own
      exact ⟨without.books, without.live.trans (liveWithout_filter_self _).symm, without.started⟩
    | .replace e => simp [isCallOf] at own
  · rename_i foreign
    rw [Bool.not_eq_true] at foreign
    match c with
    | .use (.request request) => exact without.perform foreign unawaited
    | .use (.drop tx) => exact ⟨rfl, without.endTx (by simpa [isCallOf] using foreign)⟩
    | .replace e =>
      simp only [StoreCall.rename, answer, Memory.call, without.books]
      refine ⟨rfl, ?_⟩
      cases m.books.replaceEntry e with
      | error _ => exact without
      | ok b => exact ⟨rfl, without.live, without.started⟩

/-- The calls without those of the transaction are answered as before. -/
theorem transcript_eq (without : Without gone m m') {cs : List StoreCall}
    (uncommitted : m.Along (Uncommitted gone) cs) (unawaited : m.Along (Unawaited gone) cs) :
    m'.transcript (m.callsWithout gone cs) = m.transcriptWithout gone cs ∧
      (m'.calls (m.callsWithout gone cs)).books = (m.calls cs).books := by
  induction cs generalizing m m' with
  | nil => exact ⟨rfl, without.books⟩
  | cons c rest ih =>
    have next := without.call uncommitted.1 unawaited.1
    unfold callsWithout transcriptWithout
    split <;> rename_i own
    · rw [if_pos own] at next
      exact ih next uncommitted.2 unawaited.2
    · rw [if_neg own] at next
      obtain ⟨same, after⟩ := next
      obtain ⟨heard, books⟩ := ih after uncommitted.2 unawaited.2
      refine ⟨?_, books⟩
      rw [transcript, same, heard]

end Without

/-- Uncommitted work is invisible: without the calls of a transaction that never commits and whose
locks nobody waits for, every other call is answered as before, and the same rows are committed. -/
theorem uncommitted_invisible (gone : TxId) (cs : List StoreCall)
    (uncommitted : ({} : Memory).Along (Uncommitted gone) cs)
    (unawaited : ({} : Memory).Along (Unawaited gone) cs) :
    ({} : Memory).transcript (callsWithout gone {} cs) = transcriptWithout gone {} cs ∧
      (({} : Memory).calls (callsWithout gone {} cs)).books = (({} : Memory).calls cs).books := by
  have start : Without gone {} {} := by
    refine ⟨rfl, rfl, ?_⟩
    split <;> rfl
  exact start.transcript_eq uncommitted unawaited

/-- A transaction would let Ann's pool grow and is refused when it commits. Bob's balance row is
created meanwhile. -/
theorem uncommitted_invisible_refused_commit :
    let ann := CreditPool.opened ⟨.ofNat 1⟩ ⟨"acme", "ann"⟩ ⟨.ofNat 2⟩ ⟨10, by decide⟩ .epoch
    let bob := Balance.opened ⟨.ofNat 3⟩ ⟨"acme", "bob"⟩ ⟨10, by decide⟩ .epoch
    let start : List StoreCall := [.use (.request .beginTx),
      .use (.request (.lockAccount ⟨0⟩ ann.account)), .use (.request (.createPool ⟨0⟩ ann)),
      .use (.request (.commit ⟨0⟩))]
    let meanwhile (tx : TxId) : List StoreCall := [.use (.request .beginTx),
      .use (.request (.lockAccount tx bob.account)), .use (.request (.createBalance tx bob)),
      .use (.request (.findPools (.all ann.account)))]
    let finish (tx : TxId) : List StoreCall := [.use (.request (.commit tx)),
      .use (.request (.findBalance bob.account))]
    let cs := start ++ [.use (.request .beginTx), .use (.request (.lockAccount ⟨1⟩ ann.account)),
      .use (.request (.updatePool ⟨1⟩ { ann with remaining := ⟨12, by decide⟩ }))] ++
      meanwhile ⟨2⟩ ++ [.use (.request (.commit ⟨1⟩))] ++ finish ⟨2⟩
    let others := start ++ meanwhile ⟨1⟩ ++ finish ⟨1⟩
    callsWithout ⟨1⟩ {} cs = others ∧
      ({} : Memory).transcript others = transcriptWithout ⟨1⟩ {} cs ∧
      (({} : Memory).calls others).books = (({} : Memory).calls cs).books := by
  intro ann bob start meanwhile finish cs others
  have rest : callsWithout ⟨1⟩ {} cs = others := by decide +kernel
  have invisible := uncommitted_invisible ⟨1⟩ cs (by decide +kernel) (by decide +kernel)
  rw [rest] at invisible
  exact ⟨rest, invisible⟩

end Memory
end PointLedger

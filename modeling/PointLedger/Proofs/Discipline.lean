import PointLedger.Proofs.Call
import PointLedger.Proofs.StagedOrder

/-!
The discipline of transactions, whatever the store answers and wherever the timer runs out. A call
obtains at most one handle and uses no other. On the handle it does its staged work in order, and it
ends the transaction once, with a commit only when everything succeeded.
-/

namespace PointLedger

namespace Exchange

/-- The store hands out the handle of a new transaction. -/
def begun (tx : TxId) : Exchange := ⟨.beginTx, some (.ok tx)⟩

/-- The exchanges on the handle of a transaction. -/
def on (tx : TxId) (xs : List Exchange) : List Exchange :=
  xs.filter fun x => x.request.tx? = some tx

end Exchange

namespace Errand

/-- What a call does with the handle of its transaction: it reads, then it writes, then it ends the
transaction. -/
structure Obeyed (errand : Errand) (tx : TxId) (reads writes closing : List Exchange) : Prop where
  inOrder : reads.map Exchange.request <+: errand.reads tx
  /-- Everything is read before the first write. -/
  readsFirst : writes ≠ [] → reads.map Exchange.request = errand.reads tx
  /-- The first write is the entry. -/
  entryFirst : ∀ x ∈ writes.head?, ∃ e, x.request = .createEntry tx e ∧
    e.account = errand.account
  /-- The other writes are of pools and balance rows, of the account if the store is honest. -/
  ownRows : ∀ x ∈ writes.tail, x.request.tx? = some tx ∧ ∃ a, x.request.changes? = some a ∧
    ((∀ y ∈ reads, y.Honest) → a = errand.account)
  /-- Nothing more is read or written after a request that did not succeed. -/
  stops : ∀ x ∈ (reads ++ writes).dropLast, x.succeeded = true
  /-- The transaction is ended at most once, and committed only when everything succeeded. -/
  closes : closing = [] ∨ (∃ answer, closing = [⟨.rollback tx, answer⟩]) ∨
    (∃ answer, closing = [⟨.commit tx, answer⟩]) ∧ writes ≠ [] ∧
      ∀ x ∈ reads ++ writes, x.succeeded = true
  /-- The lock is asked for before the transaction is ended. -/
  lockFirst : closing ≠ [] → reads ≠ []

/-- What happens on the handle is in order, and in a call that ends the transaction is ended. -/
def Session (errand : Errand) (tx : TxId) (xs : List Exchange) (ended : Prop) : Prop :=
  ∃ reads writes closing, xs = reads ++ writes ++ closing ∧
    errand.Obeyed tx reads writes closing ∧ (ended → closing ≠ [])

end Errand

/-- What a call is to do, once it has been told: a reversal first looks for the entry that it
reverts. -/
def Call.errand? (c : Call) (xs : List Exchange) : Option Errand :=
  match c.mutation, xs.head? with
  | .add request, _ => some ⟨request.account, request.referenceId, request.kind = .debit⟩
  | .revert _, some ⟨.findEntry _, some (.ok (some reverted))⟩ =>
    some ⟨reverted.account, reverted.transactionId, false⟩
  | .revert _, _ => none

/-- The discipline of a call: it uses only the handle that the store gave it, after it was given
the handle, for its errand and in order. -/
structure Call.Disciplined (c : Call) (xs : List Exchange) (ended : Prop) : Prop where
  foreign : ∀ tx, .begun tx ∉ xs → Exchange.on tx xs = []
  own : ∀ tx, .begun tx ∈ xs → ∃ before after errand, xs = before ++ .begun tx :: after ∧
    Exchange.on tx before = [] ∧ c.errand? xs = some errand ∧
    errand.Session tx (Exchange.on tx after) ended

/-! ### Transactions -/

/-- The request names no transaction, and none is begun. -/
def Exchange.Plain (x : Exchange) : Prop :=
  x.request.tx? = none ∧ ∀ tx, x ≠ .begun tx

/-- A call never obtains a transaction, or it obtains one for its errand. -/
def Errand.Kept (errand : Errand) (xs : List Exchange) (ended : Prop) : Prop :=
  (∀ x ∈ xs, x.Plain) ∨ ∃ tx before session after,
    xs = before ++ .begun tx :: (session ++ after) ∧ (∀ x ∈ before, x.Plain) ∧
    (∀ x ∈ after, x.Plain) ∧ errand.Session tx session ended

namespace Errand

variable {errand : Errand} {tx : TxId} {xs ys reads writes closing : List Exchange}
  {ended ended' : Prop}

theorem Session.mono (session : errand.Session tx xs ended) (sooner : ended' → ended) :
    errand.Session tx xs ended' := by
  obtain ⟨reads, writes, closing, split, obeyed, closes⟩ := session
  exact ⟨reads, writes, closing, split, obeyed, fun ends => closes (sooner ends)⟩

theorem Kept.mono (kept : errand.Kept xs ended) (sooner : ended' → ended) :
    errand.Kept xs ended' := by
  rcases kept with plain | ⟨tx, before, session, after, split, earlier, later, held⟩
  · exact .inl plain
  · exact .inr ⟨tx, before, session, after, split, earlier, later, held.mono sooner⟩

theorem Kept.append_plain (kept : errand.Kept xs ended) (plain : ∀ y ∈ ys, y.Plain) :
    errand.Kept (xs ++ ys) ended := by
  rcases kept with none | ⟨tx, before, session, after, rfl, earlier, later, held⟩
  · exact .inl fun x member => (List.mem_append.mp member).elim (none x) (plain x)
  · refine .inr ⟨tx, before, session, after ++ ys, by simp, earlier, ?_, held⟩
    exact fun x member => (List.mem_append.mp member).elim (later x) (plain x)

theorem Kept.plain_append (plain : ∀ y ∈ ys, y.Plain) (kept : errand.Kept xs ended) :
    errand.Kept (ys ++ xs) ended := by
  rcases kept with none | ⟨tx, before, session, after, rfl, earlier, later, held⟩
  · exact .inl fun x member => (List.mem_append.mp member).elim (plain x) (none x)
  · refine .inr ⟨tx, ys ++ before, session, after, by simp, ?_, later, held⟩
    exact fun x member => (List.mem_append.mp member).elim (plain x) (earlier x)

end Errand

namespace Attempt

variable {α β : Type} {tx : TxId} {errand : Errand} {xs : List Exchange}

/-- A request is never made, or it is made and the attempt goes on only with what it was answered
with. -/
theorem exhibits_ask {request : Request} {outcome : Option (Except LedgerError request.Answer)}
    (exhibits : (ask request).run.Exhibits xs outcome) :
    (xs = [] ∧ outcome = none) ∨ ∃ answer, xs = [⟨request, answer⟩] ∧
      ∀ value, outcome = some (.ok value) → answer = some (.ok value) := by
  cases exhibits with
  | dropped => exact .inl ⟨rfl, rfl⟩
  | waiting => exact .inr ⟨none, rfl, nofun⟩
  | ask answer rest =>
    rcases answer with error | value
    · obtain ⟨rfl, same⟩ := rest.of_done
      exact .inr ⟨_, rfl, fun value succeeded => by cases same _ succeeded⟩
    · obtain ⟨rfl, same⟩ := rest.of_done
      exact .inr ⟨_, rfl, fun value succeeded => by cases same _ succeeded; rfl⟩

theorem exhibits_discard {outcome : Option Unit} (exhibits : (discard tx).Exhibits xs outcome) :
    (xs = [] ∧ outcome = none) ∨ ∃ answer, xs = [⟨.rollback tx, answer⟩] := by
  cases exhibits with
  | dropped => exact .inl ⟨rfl, rfl⟩
  | waiting => exact .inr ⟨none, rfl⟩
  | ask answer rest =>
    rcases answer with error | done
    · cases rest with
      | dropped => exact .inr ⟨_, rfl⟩
      | report rest =>
        obtain ⟨rfl, -⟩ := rest.of_done
        exact .inr ⟨_, rfl⟩
    · obtain ⟨rfl, -⟩ := rest.of_done
      exact .inr ⟨_, rfl⟩

/-- A transaction is committed only after work that succeeded. -/
theorem exhibits_settle {config : EngineConfig} {work : Except Interruption α}
    {outcome : Option (Except LedgerError α)}
    (exhibits : (settle config tx work).run.Exhibits xs outcome) :
    (xs = [] ∧ outcome = none) ∨ (∃ answer, xs = [⟨.rollback tx, answer⟩]) ∨
      (∃ answer, xs = [⟨.commit tx, answer⟩]) ∧ ∃ value, work = .ok value := by
  have rolled {error : LedgerError}
      (exhibits : ((liftM (discard tx) : Attempt Unit) >>= fun _ => throw error).run.Exhibits xs
        outcome) : (xs = [] ∧ outcome = none) ∨ ∃ answer, xs = [⟨.rollback tx, answer⟩] := by
    rcases exhibits.of_bindLift with ⟨dropped, rfl⟩ | ⟨_, ys, zs, rfl, discarded, thrown⟩
    · exact (exhibits_discard dropped).imp_left fun none => ⟨none.1, rfl⟩
    · obtain ⟨rfl, -⟩ := Program.Exhibits.of_done thrown
      rw [List.append_nil]
      rcases exhibits_discard discarded with ⟨-, ended⟩ | rolled
      · cases ended
      · exact .inr rolled
  rcases work with (error | _) | value
  · exact (rolled exhibits).imp_right .inl
  · exact (rolled exhibits).imp_right .inl
  · rcases exhibits.of_bindExcept with ⟨_, asked, ends, -⟩ | ⟨_, ys, zs, rfl, asked, done⟩
    · rcases exhibits_ask asked with ⟨rfl, rfl⟩ | ⟨answer, rfl, -⟩
      · exact .inl ⟨rfl, by simpa using ends⟩
      · exact .inr (.inr ⟨⟨answer, rfl⟩, value, rfl⟩)
    · obtain ⟨rfl, -⟩ := Program.Exhibits.of_done done
      rcases exhibits_ask asked with ⟨-, ended⟩ | ⟨answer, rfl, -⟩
      · cases ended
      · exact .inr (.inr ⟨⟨answer, rfl⟩, value, rfl⟩)

/-- How staged work and the end of its transaction make up a session. -/
theorem session_of_script {reads writes closing : List Exchange} {ended : Prop}
    {work : Option (Except Interruption α)}
    (script : Staged.Script tx errand.account True (errand.reads tx) reads writes work)
    (closes : closing = [] ∨ (∃ answer, closing = [⟨.rollback tx, answer⟩]) ∨
      (∃ answer, closing = [⟨.commit tx, answer⟩]) ∧ ∃ value, work = some (.ok value))
    (asked : closing ≠ [] → reads ++ writes ≠ []) (ends : ended → closing ≠ []) :
    errand.Session tx (reads ++ writes ++ closing) ended := by
  refine ⟨reads, writes, closing, rfl, ?_, ends⟩
  refine ⟨script.inOrder, script.readsFirst, script.entryFirst, ?_, script.orderly.stops, ?_, ?_⟩
  · intro x member
    obtain ⟨named, owner, changes, own⟩ := script.ownRows x member
    exact ⟨named, owner, changes, own trivial⟩
  · rcases closes with none | rolled | ⟨committed, value, succeeded⟩
    · exact .inl none
    · exact .inr (.inl rolled)
    · exact .inr (.inr ⟨committed, script.written value succeeded,
        script.orderly.succeeds value succeeded⟩)
  · rintro some rfl
    have written : writes ≠ [] := by simpa using asked some
    cases script.readsFirst written

theorem exhibits_adapt {attempt : Attempt α} {change : LedgerError → LedgerError}
    {outcome : Option (Except LedgerError α)}
    (exhibits : (ExceptT.adapt change attempt).run.Exhibits xs outcome) :
    ∃ result, attempt.run.Exhibits xs result ∧ (outcome.isSome → result.isSome) := by
  rcases Program.Exhibits.of_bind exhibits with
    ⟨dropped, rfl⟩ | ⟨result, ys, zs, rfl, first, done⟩
  · exact ⟨none, dropped, id⟩
  · obtain ⟨rfl, -⟩ := Program.Exhibits.of_done done
    exact ⟨some result, by rwa [List.append_nil], fun _ => rfl⟩

/-- What happens on the handle of a transaction from its start to its end. -/
theorem session_of_exhibits {config : EngineConfig} {work : Staged α}
    {change : LedgerError → LedgerError} {outcome : Option (Except LedgerError α)}
    (performs : work.Performs tx errand.account True (errand.reads tx))
    (asks : ∃ request next, work.run = .askInTime request next)
    (exhibits : ((liftM work.run : Attempt (Except Interruption α)) >>= fun result =>
      ExceptT.adapt change (settle config tx result)).run.Exhibits xs outcome) :
    errand.Session tx xs outcome.isSome := by
  rcases exhibits.of_bindLift with ⟨dropped, rfl⟩ | ⟨result, ys, zs, rfl, staged, settled⟩
  · obtain ⟨reads, writes, rfl, script⟩ := performs xs none dropped
    rw [← List.append_nil (reads ++ writes)]
    exact session_of_script script (.inl rfl) (absurd rfl) nofun
  · obtain ⟨settling, settled, ends⟩ := exhibits_adapt settled
    have begun : ys ≠ [] := by
      rintro rfl
      obtain ⟨request, next, same⟩ := asks
      rw [same] at staged
      cases staged
    obtain ⟨reads, writes, rfl, script⟩ := performs ys (some result) staged
    rcases exhibits_settle settled with
      ⟨rfl, rfl⟩ | ⟨answer, rfl⟩ | ⟨⟨answer, rfl⟩, value, rfl⟩
    · exact session_of_script script (.inl rfl) (absurd rfl) fun ended => by cases ends ended
    · exact session_of_script script (.inr (.inl ⟨answer, rfl⟩)) (fun _ => begun) fun _ => nofun
    · exact session_of_script script (.inr (.inr ⟨⟨answer, rfl⟩, value, rfl⟩)) (fun _ => begun)
        fun _ => nofun

theorem kept_inTransaction {config : EngineConfig} {organizationId referenceId : String}
    {work : TxId → Staged α} {outcome : Option (Except LedgerError α)}
    (performs : ∀ tx, (work tx).Performs tx errand.account True (errand.reads tx))
    (asks : ∀ tx, ∃ request next, (work tx).run = .askInTime request next)
    (exhibits : (inTransaction config organizationId referenceId work).run.Exhibits xs outcome) :
    errand.Kept xs outcome.isSome := by
  have refused {answer} (none : ∀ tx : TxId, answer ≠ some (.ok tx)) :
      errand.Kept [⟨.beginTx, answer⟩] outcome.isSome := by
    refine .inl fun x member => ?_
    rw [List.mem_singleton.mp member]
    refine ⟨rfl, fun tx same => none tx ?_⟩
    cases same
    rfl
  cases exhibits with
  | dropped => exact .inl fun _ => nofun
  | startTimer exhibits =>
    cases exhibits with
    | dropped => exact .inl fun _ => nofun
    | askInTime answer rest =>
      rcases answer with _ | error | tx
      · obtain ⟨rfl, -⟩ := rest.of_done
        exact refused nofun
      · obtain ⟨rfl, -⟩ := rest.of_done
        exact refused nofun
      · have session := session_of_exhibits (performs tx) (asks tx) rest
        exact .inr ⟨tx, [], _, [], by rw [List.append_nil]; rfl, fun _ => nofun, fun _ => nofun,
          session⟩

/-! ### Calls -/

/-- The attempt has nothing to do with transactions. -/
def Aside (attempt : Attempt α) : Prop :=
  ∀ xs outcome, attempt.run.Exhibits xs outcome → ∀ x ∈ xs, x.Plain

/-- The attempt begins at most one transaction, for the errand, and keeps to its discipline. -/
def Runs (errand : Errand) (attempt : Attempt α) : Prop :=
  ∀ xs outcome, attempt.run.Exhibits xs outcome → errand.Kept xs outcome.isSome

namespace Aside

theorem done (result : Except LedgerError α) : Aside (.mk (.done result) : Attempt α) := by
  intro xs outcome exhibits
  obtain ⟨rfl, -⟩ := exhibits.of_done
  exact fun _ => nofun

/-- Looking for an entry outside the transaction. -/
theorem findEntry (lookup : EntryLookup) : Aside (ask (.findEntry lookup)) := by
  intro xs outcome exhibits x member
  rcases exhibits_ask exhibits with ⟨rfl, -⟩ | ⟨answer, rfl, -⟩
  · cases member
  · rw [List.mem_singleton.mp member]
    exact ⟨rfl, fun tx same => by cases same⟩

theorem newTransactionId : Aside newTransactionId := by
  intro xs outcome exhibits
  cases exhibits with
  | dropped => exact fun _ => nofun
  | clock time exhibits =>
    cases exhibits with
    | dropped => exact fun _ => nofun
    | random bytes rest =>
      rcases bytes with reason | bytes
      · exact done _ xs outcome rest
      · exact done _ xs outcome rest

theorem refuseTaken (organizationId referenceId : String) (found : Option Entry) :
    Aside (Ledger.refuseTaken throw organizationId referenceId found) := by
  cases found with
  | none => exact done (.ok ())
  | some taken => exact done (.error _)

theorem bind {first : Attempt α} {next : α → Attempt β} (aside : Aside first)
    (rest : ∀ value, Aside (next value)) : Aside (first >>= next) := by
  intro xs outcome exhibits
  rcases exhibits.of_bindExcept with ⟨_, early, -, -⟩ | ⟨value, ys, zs, rfl, first, second⟩
  · exact aside xs _ early
  · exact fun x member => (List.mem_append.mp member).elim (aside ys _ first x)
      (rest value zs outcome second x)

end Aside

namespace Runs

theorem after {first : Attempt α} {next : α → Attempt β} (aside : Aside first)
    (rest : ∀ value, Runs errand (next value)) : Runs errand (first >>= next) := by
  intro xs outcome exhibits
  rcases exhibits.of_bindExcept with ⟨_, early, -, -⟩ | ⟨value, ys, zs, rfl, first, second⟩
  · exact .inl (aside xs _ early)
  · exact (rest value zs outcome second).plain_append (aside ys _ first)

theorem andThen {first : Attempt α} {next : α → Attempt β} (runs : Runs errand first)
    (rest : ∀ value, Aside (next value)) : Runs errand (first >>= next) := by
  intro xs outcome exhibits
  rcases exhibits.of_bindExcept with ⟨_, early, ends, -⟩ | ⟨value, ys, zs, rfl, first, second⟩
  · exact (runs xs _ early).mono ends
  · exact ((runs ys _ first).append_plain (rest value zs outcome second)).mono fun _ => rfl

end Runs

theorem runs_tryAdd (config : EngineConfig) (request : EntryRequest) :
    Runs ⟨request.account, request.referenceId, request.kind = .debit⟩
      (Ledger.tryAdd config request) := by
  refine .after (.done _) fun _ => .after (.findEntry _) fun found => ?_
  refine .after (.refuseTaken _ _ found) fun _ => .after .newTransactionId fun transactionId => ?_
  refine .andThen ?_ fun _ => (Aside.findEntry _).bind fun found => ?_
  · intro xs outcome exhibits
    exact kept_inTransaction (fun tx => Staged.performs_stageAdd request transactionId)
      (fun tx => ⟨_, _, rfl⟩) exhibits
  · cases found with
    | some entry => exact .done (.ok entry)
    | none => exact .done (.error _)

theorem runs_revert (config : EngineConfig) (reverted : Entry)
    {next : Entry → Attempt β} (rest : ∀ reversal, Aside (next reversal)) :
    Runs ⟨reverted.account, reverted.transactionId, false⟩ (do
      let found ←
        ask (.findEntry (.byReference reverted.organizationId reverted.transactionId))
      Ledger.refuseTaken throw reverted.organizationId reverted.transactionId found
      let transactionId ← newTransactionId
      let reversal ← inTransaction config reverted.organizationId reverted.transactionId
        (Ledger.stageRevert reverted transactionId)
      next reversal) := by
  refine .after (.findEntry _) fun found => .after (.refuseTaken _ _ found) fun _ => ?_
  refine .after .newTransactionId fun transactionId => .andThen ?_ rest
  intro xs outcome exhibits
  exact kept_inTransaction (fun tx => Staged.performs_stageRevert reverted transactionId)
    (fun tx => ⟨_, _, rfl⟩) exhibits

/-- A reversal is about the entry that the store finds for it first. -/
theorem exhibits_tryRevert {config : EngineConfig} {id : EntryId}
    {outcome : Option (Except LedgerError (Entry × Entry))}
    (exhibits : (Ledger.tryRevert config id).run.Exhibits xs outcome) :
    (∀ x ∈ xs, x.Plain) ∨ ∃ reverted rest,
      xs = ⟨.findEntry (.byId id), some (.ok (some reverted))⟩ :: rest ∧
      Errand.Kept ⟨reverted.account, reverted.transactionId, false⟩ xs outcome.isSome := by
  rcases exhibits.of_bindExcept with ⟨_, early, -, -⟩ | ⟨value, ys, zs, rfl, first, second⟩
  · exact .inl (Aside.findEntry _ xs _ early)
  · have looked := Aside.findEntry _ ys _ first
    cases value with
    | none =>
      obtain ⟨rfl, -⟩ := Program.Exhibits.of_done second
      exact .inl (by rwa [List.append_nil])
    | some reverted =>
      rcases exhibits_ask first with ⟨-, ended⟩ | ⟨answer, rfl, answered⟩
      · cases ended
      obtain rfl := answered _ rfl
      refine .inr ⟨reverted, zs, rfl, Errand.Kept.plain_append looked ?_⟩
      refine runs_revert config reverted (fun reversal => ?_) zs outcome second
      refine (Aside.findEntry _).bind fun found => ?_
      cases found with
      | some current => exact .done (.ok _)
      | none => exact .done (.error _)

end Attempt

/-! ### The discipline -/

namespace Errand

variable {errand : Errand} {tx : TxId} {xs : List Exchange} {ended : Prop}

/-- All of a session is on the handle of the transaction. -/
theorem Session.named (session : errand.Session tx xs ended) :
    ∀ x ∈ xs, x.request.tx? = some tx := by
  obtain ⟨reads, writes, closing, rfl, obeyed, -⟩ := session
  have plan : ∀ request ∈ errand.reads tx, request.tx? = some tx := by
    intro request member
    simp only [Errand.reads, List.mem_cons] at member
    rcases member with rfl | rfl | rfl | rfl | draws
    · rfl
    · rfl
    · rfl
    · rfl
    · split at draws
      · rw [List.mem_singleton.mp draws]
        rfl
      · cases draws
  intro x member
  rcases List.mem_append.mp member with member | closed
  · rcases List.mem_append.mp member with read | written
    · exact plan _ (obeyed.inOrder.subset (List.mem_map_of_mem read))
    · cases writes with
      | nil => cases written
      | cons first rest =>
        rcases List.mem_cons.mp written with rfl | later
        · obtain ⟨e, same, -⟩ := obeyed.entryFirst x rfl
          rw [same]
          rfl
        · exact (obeyed.ownRows x later).1
  · rcases obeyed.closes with rfl | ⟨answer, rfl⟩ | ⟨⟨answer, rfl⟩, -⟩
    · cases closed
    · rw [List.mem_singleton.mp closed]
      rfl
    · rw [List.mem_singleton.mp closed]
      rfl

end Errand

namespace Exchange

variable {tx : TxId} {xs : List Exchange}

theorem on_append (tx : TxId) (xs ys : List Exchange) :
    on tx (xs ++ ys) = on tx xs ++ on tx ys := List.filter_append xs ys

theorem on_of_foreign (foreign : ∀ x ∈ xs, x.request.tx? ≠ some tx) : on tx xs = [] :=
  List.filter_eq_nil_iff.mpr fun x member => by simpa using foreign x member

theorem on_of_plain (plain : ∀ x ∈ xs, x.Plain) : on tx xs = [] :=
  on_of_foreign fun x member named => by cases (plain x member).1.symm.trans named

theorem on_of_named (named : ∀ x ∈ xs, x.request.tx? = some tx) : on tx xs = xs :=
  List.filter_eq_self.mpr fun x member => by simp [named x member]

end Exchange

namespace Call

variable {c : Call} {errand : Errand} {xs : List Exchange} {ended : Prop}

theorem disciplined_of_plain (plain : ∀ x ∈ xs, x.Plain) : c.Disciplined xs ended where
  foreign _ _ := Exchange.on_of_plain plain
  own tx begun := absurd rfl ((plain _ begun).2 tx)

theorem disciplined_of_kept (kept : errand.Kept xs ended) (told : c.errand? xs = some errand) :
    c.Disciplined xs ended := by
  rcases kept with plain | ⟨tx, before, session, after, rfl, earlier, later, held⟩
  · exact disciplined_of_plain plain
  · have named := held.named
    refine ⟨fun tx' foreign => ?_, fun tx' begun => ?_⟩
    · have other : tx ≠ tx' := by
        rintro rfl
        exact foreign (List.mem_append_right _ List.mem_cons_self)
      have unused : Exchange.on tx' session = [] :=
        Exchange.on_of_foreign fun x member same =>
          other (Option.some.inj ((named x member).symm.trans same))
      rw [Exchange.on_append, Exchange.on_of_plain earlier, ← List.singleton_append,
        Exchange.on_append, Exchange.on_append, unused, Exchange.on_of_plain later]
      rfl
    · -- No other transaction was begun.
      have same : tx' = tx := by
        simp only [List.mem_append, List.mem_cons] at begun
        rcases begun with begun | same | begun | begun
        · exact absurd rfl ((earlier _ begun).2 tx')
        · cases same
          rfl
        · cases named _ begun
        · exact absurd rfl ((later _ begun).2 tx')
      subst same
      refine ⟨before, session ++ after, errand, rfl, Exchange.on_of_plain earlier, told, ?_⟩
      rw [Exchange.on_append, Exchange.on_of_named named, Exchange.on_of_plain later,
        List.append_nil]
      exact held

/-- Reporting how an operation ended asks the store nothing. -/
theorem exhibits_observed {α β : Type} {program : Program α} {next : α → Program β}
    {outcome : Option β} (silent : ∀ value, ∃ signal result, next value =
      .report signal (.done result)) (exhibits : (program.bind next).Exhibits xs outcome) :
    ∃ result, program.Exhibits xs result ∧ (outcome.isSome → result.isSome) := by
  rcases exhibits.of_bind with ⟨dropped, rfl⟩ | ⟨value, ys, zs, rfl, first, second⟩
  · exact ⟨none, dropped, id⟩
  · obtain ⟨signal, result, same⟩ := silent value
    rw [same] at second
    have none : zs = [] := by
      cases second with
      | dropped => rfl
      | report rest => exact rest.of_done.1
    exact ⟨some value, by rwa [none, List.append_nil], fun _ => rfl⟩

/-- Whatever the store answers, however long it takes and wherever the call is dropped, the call
keeps to the discipline of its transaction. -/
theorem disciplined (c : Call) {xs : List Exchange}
    {outcome : Option (Except LedgerError Entry)} (exhibits : c.program.Exhibits xs outcome) :
    c.Disciplined xs outcome.isSome := by
  unfold Call.program at exhibits
  cases mutation : c.mutation with
  | add request =>
    rw [mutation] at exhibits
    obtain ⟨result, exhibits, ends⟩ := exhibits_observed
      (fun value => by cases value <;> exact ⟨_, _, rfl⟩) exhibits
    have kept := Attempt.runs_tryAdd c.config request xs result exhibits
    exact disciplined_of_kept (kept.mono ends) (by rw [errand?, mutation])
  | revert id =>
    rw [mutation] at exhibits
    obtain ⟨result, exhibits, ends⟩ := exhibits_observed
      (fun value => by cases value <;> exact ⟨_, _, rfl⟩) exhibits
    rcases Attempt.exhibits_tryRevert exhibits with plain | ⟨reverted, rest, rfl, kept⟩
    · exact disciplined_of_plain plain
    · exact disciplined_of_kept (kept.mono ends) (by rw [errand?, mutation]; rfl)

/-- A debit on an account with a credit: once it goes through, and once the store takes too long
over the pool. -/
theorem disciplined_debit :
    let call (n : Nat) (kind : EntryKind) (reference : String) := Call.numbered n
      (.add ⟨"acme", "ann", kind, ⟨10, by decide⟩, reference, "", []⟩)
    let debit := call 1 .debit "second"
    let world (faults : List FaultRule) : World :=
      { source := debit.source, memory := ((call 0 .credit "first").run {}).2, faults }
    let record (faults : List FaultRule) := debit.program.record World.host (world faults)
    let names (faults : List FaultRule) :=
      (Exchange.on ⟨1⟩ (record faults)).map (·.request.name)
    let reads := ["lock_account", "find_entry_in", "last_entry_for_update",
      "find_balance_for_update", "open_pools_for_update"]
    let slow : List FaultRule := [{ method := "update_credit_pool", nth := 1, act := .delay 9 }]
    (names [] = reads ++ ["create_entry", "update_credit_pool", "update_balance", "commit"] ∧
      debit.Disciplined (record []) True) ∧
    (names slow = reads ++ ["create_entry", "update_credit_pool", "rollback"] ∧
      debit.Disciplined (record slow) True) := by
  intro call debit world record names reads slow
  have kept (faults : List FaultRule) : debit.Disciplined (record faults) True :=
    eq_true (rfl : (some (debit.program.run World.host (world faults)).1).isSome = true) ▸
      disciplined debit (Program.exhibits_record World.host debit.program (world faults))
  exact ⟨⟨by decide +kernel, kept []⟩, by decide +kernel, kept slow⟩

end Call
end PointLedger

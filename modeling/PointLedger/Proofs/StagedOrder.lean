import PointLedger.Proofs.Amounts
import PointLedger.Proofs.Exchanges
import PointLedger.Engine.Mutation

/-!
The order of staged work, whatever the store answers and wherever the timer runs out. The work of a
transaction first reads, in a fixed order that begins with the lock of its account; then it writes,
beginning with the entry; and it stops at the first request that is not answered with success.
-/

namespace PointLedger

/-- The account of the pool or the balance row that a request writes. -/
def Request.changes? : Request → Option Account
  | .createPool _ p | .updatePool _ p => some p.account
  | .createBalance _ row | .updateBalance _ row => some row.account
  | _ => none

namespace Exchange

/-- The pools and the balance row that the store gives are of the account that it was asked for. -/
def Honest : Exchange → Prop
  | ⟨.openPools _ a, some (.ok pools)⟩ => ∀ p ∈ pools, p.account = a
  | ⟨.balanceForUpdate _ a, some (.ok row)⟩ => ∀ b ∈ row, b.account = a
  | _ => True

end Exchange

/-- What a call is to do in its transaction. -/
structure Errand where
  account : Account
  /-- The reference of the new entry. -/
  referenceId : String
  /-- The call draws on pools. -/
  draws : Bool
  deriving DecidableEq

namespace Errand

/-- What is read in the transaction, in this order. -/
def reads (errand : Errand) (tx : TxId) : List Request :=
  .lockAccount tx errand.account ::
  .findEntryIn tx (.byReference errand.account.organizationId errand.referenceId) ::
  .lastEntry tx errand.account ::
  .balanceForUpdate tx errand.account ::
  if errand.draws then [.openPools tx errand.account] else []

end Errand

/-! ### Staged work -/

namespace Staged

variable {α β : Type} {tx : TxId} {a : Account} {honest : Prop} {xs ys : List Exchange}

/-- The work stops at the first request that is not answered with success, and does not succeed
then. -/
structure Orderly (xs : List Exchange) (outcome : Option (Except Interruption α)) : Prop where
  stops : ∀ x ∈ xs.dropLast, x.succeeded = true
  succeeds : ∀ value, outcome = some (.ok value) → ∀ x ∈ xs, x.succeeded = true

namespace Orderly

/-- Work that asked nothing. -/
theorem nil {outcome : Option (Except Interruption α)} : Orderly [] outcome :=
  ⟨fun _ => nofun, fun _ _ _ => nofun⟩

/-- Work that ended early ends the work that it is a part of. -/
theorem early {first : Option (Except Interruption α)} {outcome : Option (Except Interruption β)}
    (orderly : Orderly xs first) (failed : ∀ value, outcome ≠ some (.ok value)) :
    Orderly xs outcome :=
  ⟨orderly.stops, fun value succeeded => absurd succeeded (failed value)⟩

theorem append {value : α} {outcome : Option (Except Interruption β)}
    (first : Orderly xs (some (Except.ok value))) (rest : Orderly ys outcome) :
    Orderly (xs ++ ys) outcome := by
  have done := first.succeeds value rfl
  refine ⟨?_, ?_⟩
  · intro x member
    by_cases last : ys = []
    · rw [last, List.append_nil] at member
      exact done x (List.dropLast_subset xs member)
    · rw [List.dropLast_append_of_ne_nil last] at member
      exact (List.mem_append.mp member).elim (done x) (rest.stops x)
  · intro value succeeded x member
    exact (List.mem_append.mp member).elim (done x) (rest.succeeds value succeeded x)

end Orderly

/-- A request under the timer is never made, or it is made and the work goes on only with what it
was answered with. -/
theorem exhibits_ask {request : Request} {outcome : Option (Except Interruption request.Answer)}
    (exhibits : (Staged.ask request).run.Exhibits xs outcome) :
    (xs = [] ∧ outcome = none) ∨ ∃ answer, xs = [⟨request, answer⟩] ∧
      ∀ value, outcome = some (.ok value) → answer = some (.ok value) := by
  cases exhibits with
  | dropped => exact .inl ⟨rfl, rfl⟩
  | askInTime answer rest =>
    rcases answer with _ | error | value
    · obtain ⟨rfl, same⟩ := rest.of_done
      exact .inr ⟨_, rfl, fun value succeeded => by cases same _ succeeded⟩
    · obtain ⟨rfl, same⟩ := rest.of_done
      exact .inr ⟨_, rfl, fun value succeeded => by cases same _ succeeded⟩
    · obtain ⟨rfl, same⟩ := rest.of_done
      exact .inr ⟨_, rfl, fun value succeeded => by cases same _ succeeded; rfl⟩

theorem orderly_ask {request : Request} {outcome : Option (Except Interruption request.Answer)}
    (exhibits : (Staged.ask request).run.Exhibits xs outcome) : Orderly xs outcome := by
  rcases exhibits_ask exhibits with ⟨rfl, -⟩ | ⟨answer, rfl, answered⟩
  · exact .nil
  · refine ⟨fun _ => nofun, fun value succeeded x member => ?_⟩
    rw [List.mem_singleton.mp member, answered value succeeded]
    rfl

/-! ### Work that asks nothing -/

/-- The work asks the store nothing. -/
def Silent (work : Staged α) : Prop := ∀ xs outcome, work.run.Exhibits xs outcome → xs = []

theorem silent_done (result : Except Interruption α) : Silent (.mk (.done result)) :=
  fun _ _ exhibits => exhibits.of_done.1

theorem silent_ofExcept (outcome : Except LedgerError α) : Silent (Staged.ofExcept outcome) := by
  cases outcome with
  | ok value => exact silent_done (.ok value)
  | error error => exact silent_done (.error (.failed error))

theorem silent_fresh : Silent Staged.fresh := by
  intro xs outcome exhibits
  cases exhibits with
  | dropped => rfl
  | fresh id rest => exact rest.of_done.1

theorem silent_clock : Silent Staged.clock := by
  intro xs outcome exhibits
  cases exhibits with
  | dropped => rfl
  | clock time rest => exact rest.of_done.1

theorem silent_refuseTaken (organizationId referenceId : String) (found : Option Entry) :
    Silent (Ledger.refuseTaken Staged.fail organizationId referenceId found) := by
  cases found with
  | none => exact silent_done _
  | some taken => exact silent_done _

/-! ### Reading -/

/-- The work reads as planned, stops at the first read that fails, and when it succeeds then what
`tells` says of its value, if the store was honest. -/
def Reads (plan : List Request) (tells : α → Prop) (work : Staged α) : Prop :=
  ∀ xs outcome, work.run.Exhibits xs outcome →
    Orderly xs outcome ∧ xs.map Exchange.request <+: plan ∧ ∀ value, outcome = some (.ok value) →
      xs.map Exchange.request = plan ∧ ((∀ x ∈ xs, x.Honest) → tells value)

namespace Reads

theorem silent {work : Staged α} (silent : Silent work) : Reads [] (fun _ => True) work := by
  intro xs outcome exhibits
  obtain rfl := silent xs outcome exhibits
  exact ⟨.nil, List.prefix_rfl, fun _ _ => ⟨rfl, fun _ => trivial⟩⟩

theorem ask (request : Request) :
    Reads [request] (fun value => (⟨request, some (.ok value)⟩ : Exchange).Honest)
      (Staged.ask request) := by
  intro xs outcome exhibits
  refine ⟨orderly_ask exhibits, ?_⟩
  rcases exhibits_ask exhibits with ⟨rfl, rfl⟩ | ⟨answer, rfl, answered⟩
  · exact ⟨List.nil_prefix, nofun⟩
  · refine ⟨List.prefix_rfl, fun value succeeded => ⟨rfl, fun honest => ?_⟩⟩
    have said := honest _ List.mem_cons_self
    rwa [answered value succeeded] at said

theorem bind {plan later : List Request} {first : Staged α} {next : α → Staged β}
    {tells : α → Prop} {tells' : β → Prop} (reads : Reads plan tells first)
    (rest : ∀ value, Reads later tells' (next value)) :
    Reads (plan ++ later) tells' (first >>= next) := by
  intro xs outcome exhibits
  rcases exhibits.of_bindExcept with ⟨_, early, -, failed⟩ | ⟨value, ys, zs, rfl, done, second⟩
  · obtain ⟨orderly, inOrder, -⟩ := reads xs _ early
    exact ⟨orderly.early failed, inOrder.trans (List.prefix_append _ _), fun value succeeded =>
      absurd succeeded (failed value)⟩
  · obtain ⟨orderly, -, complete⟩ := reads ys _ done
    obtain ⟨orderly', inOrder', complete'⟩ := rest value zs outcome second
    rw [List.map_append, (complete value rfl).1]
    refine ⟨orderly.append orderly', (List.prefix_append_right_inj _).mpr inOrder', ?_⟩
    intro value succeeded
    obtain ⟨all, told⟩ := complete' value succeeded
    exact ⟨by rw [all], fun honest => told fun x member => honest x (List.mem_append_right _ member)⟩

end Reads

/-- The start of the work: the lock, the reference and the tail of the chain. -/
theorem reads_openChain (tx : TxId) (a : Account) (referenceId : String) :
    Reads [.lockAccount tx a, .findEntryIn tx (.byReference a.organizationId referenceId),
      .lastEntry tx a] (fun _ => True) (Ledger.openChain tx a referenceId) := by
  refine (Reads.ask (.lockAccount tx a)).bind fun _ => ?_
  refine (Reads.ask (.findEntryIn tx _)).bind fun found => ?_
  refine (Reads.silent (silent_refuseTaken _ _ found)).bind fun _ => ?_
  exact Reads.ask (.lastEntry tx a)

/-! ### Writing pools and balance rows -/

/-- The work writes pools and balance rows in its transaction, of the account if the store was
honest, and stops at the first write that fails. -/
def Writes (tx : TxId) (a : Account) (honest : Prop) (work : Staged α) : Prop :=
  ∀ xs outcome, work.run.Exhibits xs outcome → Orderly xs outcome ∧ ∀ x ∈ xs,
    x.request.tx? = some tx ∧ ∃ owner, x.request.changes? = some owner ∧ (honest → owner = a)

namespace Writes

theorem silent {work : Staged α} (silent : Silent work) : Writes tx a honest work := by
  intro xs outcome exhibits
  obtain rfl := silent xs outcome exhibits
  exact ⟨.nil, fun _ => nofun⟩

theorem ask {request : Request} {owner : Account} (named : request.tx? = some tx)
    (changes : request.changes? = some owner) (own : honest → owner = a) :
    Writes tx a honest (Staged.ask request) := by
  intro xs outcome exhibits
  refine ⟨orderly_ask exhibits, fun x member => ?_⟩
  rcases exhibits_ask exhibits with ⟨rfl, -⟩ | ⟨answer, rfl, -⟩
  · cases member
  · rw [List.mem_singleton.mp member]
    exact ⟨named, owner, changes, own⟩

theorem bind {first : Staged α} {next : α → Staged β} (writes : Writes tx a honest first)
    (rest : ∀ value, Writes tx a honest (next value)) :
    Writes tx a honest (first >>= next) := by
  intro xs outcome exhibits
  rcases exhibits.of_bindExcept with ⟨_, early, -, failed⟩ | ⟨value, ys, zs, rfl, done, second⟩
  · obtain ⟨orderly, own⟩ := writes xs _ early
    exact ⟨orderly.early failed, own⟩
  · obtain ⟨orderly, own⟩ := writes ys _ done
    obtain ⟨orderly', own'⟩ := rest value zs outcome second
    exact ⟨orderly.append orderly', fun x member =>
      (List.mem_append.mp member).elim (own x) (own' x)⟩

theorem forM {items : List α} {work : α → Staged Unit}
    (writes : ∀ item, Writes tx a honest (work item)) :
    Writes tx a honest (items.forM work) := by
  induction items with
  | nil => exact silent (silent_done _)
  | cons item rest ih => exact (writes item).bind fun _ => ih

/-- The change of a balance row that the store gave. -/
theorem changeBalance {row : Balance} {delta : Amount} {time : Timestamp} {value : α}
    (own : honest → row.account = a) :
    Writes tx a honest (do
      let row ← Staged.ofExcept (row.apply delta time)
      Staged.ask (.updateBalance tx row)
      return value) := by
  cases applied : row.apply delta time with
  | error error => exact silent (silent_done _)
  | ok changed =>
    have kept : honest → changed.account = a :=
      fun proper => (Balance.account_of_apply applied).trans (own proper)
    change Writes tx a honest (Staged.ask (.updateBalance tx changed) >>= fun _ => pure value)
    exact (ask rfl rfl kept).bind fun _ => silent (silent_done _)

end Writes

/-! ### Reading, and then writing -/

/-- The reads and writes of work that is to read as planned before it writes. -/
structure Script (tx : TxId) (a : Account) (honest : Prop) (plan : List Request)
    (reads writes : List Exchange) (outcome : Option (Except Interruption α)) : Prop where
  inOrder : reads.map Exchange.request <+: plan
  readsFirst : writes ≠ [] → reads.map Exchange.request = plan
  entryFirst : ∀ x ∈ writes.head?, ∃ e, x.request = .createEntry tx e ∧ e.account = a
  ownRows : ∀ x ∈ writes.tail, x.request.tx? = some tx ∧
    ∃ owner, x.request.changes? = some owner ∧ (honest → (∀ y ∈ reads, y.Honest) → owner = a)
  orderly : Orderly (reads ++ writes) outcome
  written : ∀ value, outcome = some (.ok value) → writes ≠ []

/-- The work reads as planned, then writes the entry, and then pools and balance rows. -/
def Performs (tx : TxId) (a : Account) (honest : Prop) (plan : List Request) (work : Staged α) :
    Prop :=
  ∀ xs outcome, work.run.Exhibits xs outcome →
    ∃ reads writes, xs = reads ++ writes ∧ Script tx a honest plan reads writes outcome

namespace Performs

variable {plan : List Request}

/-- The work ended before its first write. -/
theorem unwritten {outcome : Option (Except Interruption α)} (orderly : Orderly xs outcome)
    (inOrder : xs.map Exchange.request <+: plan) (failed : ∀ value, outcome ≠ some (.ok value)) :
    ∃ reads writes, xs = reads ++ writes ∧ Script tx a honest plan reads writes outcome :=
  ⟨xs, [], (List.append_nil xs).symm, inOrder, fun written => absurd rfl written, fun _ => nofun,
    fun _ => nofun, (List.append_nil xs).symm ▸ orderly, fun value succeeded =>
      absurd succeeded (failed value)⟩

theorem fail (error : LedgerError) :
    Performs tx a honest plan (Staged.fail error : Staged α) := by
  intro xs outcome exhibits
  obtain ⟨rfl, same⟩ := Program.Exhibits.of_done exhibits
  exact unwritten .nil (List.nil_prefix) fun value succeeded => by cases same _ succeeded

/-- Work that is refused under a condition. -/
theorem refusing {condition : Prop} [Decidable condition] {error : LedgerError}
    {next : PUnit → Staged α} (rest : Performs tx a honest plan (next ())) :
    Performs tx a honest plan
      (if condition then Staged.fail error >>= next else next ()) := by
  split
  · exact fail error
  · exact rest

/-- First reading, and then the rest, which may rest on honest answers. -/
theorem after {first : Staged α} {next : α → Staged β} {earlier : List Request}
    {tells : α → Prop} (reads : Reads earlier tells first)
    (rest : ∀ value, Performs tx a (honest ∧ tells value) plan (next value)) :
    Performs tx a honest (earlier ++ plan) (first >>= next) := by
  intro xs outcome exhibits
  rcases exhibits.of_bindExcept with ⟨_, early, -, failed⟩ | ⟨value, ys, zs, rfl, done, second⟩
  · obtain ⟨orderly, inOrder, -⟩ := reads xs _ early
    exact unwritten (orderly.early failed) (inOrder.trans (List.prefix_append _ _)) failed
  · obtain ⟨orderly, -, complete⟩ := reads ys _ done
    obtain ⟨all, told⟩ := complete value rfl
    obtain ⟨later, writes, rfl, script⟩ := rest value zs outcome second
    refine ⟨ys ++ later, writes, (List.append_assoc _ _ _).symm, ?_⟩
    refine ⟨?_, ?_, script.entryFirst, ?_, ?_, script.written⟩
    · rw [List.map_append, all]
      exact (List.prefix_append_right_inj _).mpr script.inOrder
    · intro written
      rw [List.map_append, all, script.readsFirst written]
    · intro x member
      obtain ⟨named, owner, changes, own⟩ := script.ownRows x member
      refine ⟨named, owner, changes, fun proper honest => ?_⟩
      exact own ⟨proper, told fun y member => honest y (List.mem_append_left _ member)⟩
        fun y member => honest y (List.mem_append_right _ member)
    · rw [List.append_assoc]
      exact orderly.append script.orderly

/-- The entry, after everything was read, and what is written after it. -/
theorem create {e : Entry} {next : Unit → Staged α} (own : e.account = a)
    (rest : Writes tx a honest (next ())) :
    Performs tx a honest [] (Staged.ask (.createEntry tx e) >>= next) := by
  have script {answer} {ys : List Exchange} {outcome : Option (Except Interruption α)}
      (orderly : Orderly (⟨.createEntry tx e, answer⟩ :: ys) outcome)
      (rows : ∀ y ∈ ys, y.request.tx? = some tx ∧
        ∃ owner, y.request.changes? = some owner ∧ (honest → owner = a)) :
      Script tx a honest [] [] (⟨.createEntry tx e, answer⟩ :: ys) outcome := by
    refine ⟨List.nil_prefix, fun _ => rfl, ?_, ?_, orderly, fun _ _ => nofun⟩
    · rintro x ⟨⟩
      exact ⟨e, rfl, own⟩
    · intro x member
      obtain ⟨named, owner, changes, own⟩ := rows x member
      exact ⟨named, owner, changes, fun proper _ => own proper⟩
  intro xs outcome exhibits
  rcases exhibits.of_bindExcept with ⟨_, first, -, failed⟩ | ⟨value, ys, zs, rfl, first, second⟩
  · have orderly := (orderly_ask first).early failed
    rcases exhibits_ask first with ⟨rfl, -⟩ | ⟨answer, rfl, -⟩
    · exact unwritten .nil List.nil_prefix failed
    · exact ⟨[], _, rfl, script orderly fun _ => nofun⟩
  · have orderly := orderly_ask first
    rcases exhibits_ask first with ⟨-, ended⟩ | ⟨answer, rfl, -⟩
    · cases ended
    · obtain ⟨orderly', rows⟩ := rest zs outcome second
      exact ⟨[], _, rfl, script (orderly.append orderly') rows⟩

end Performs

/-! ### The two kinds of staged work -/

theorem performs_stageCredit {draft : Draft} {balance : Option Balance}
    (own : honest → ∀ row ∈ balance, row.account = draft.account) :
    Performs tx draft.account honest [] (Ledger.stageCredit tx draft balance) := by
  refine .create rfl ?_
  refine (Writes.silent silent_fresh).bind fun poolId => ?_
  refine (Writes.ask rfl rfl fun _ => rfl).bind fun _ => ?_
  cases balance with
  | some row => exact .changeBalance fun proper => own proper row rfl
  | none =>
    refine (Writes.silent silent_fresh).bind fun balanceId => ?_
    exact (Writes.ask rfl rfl fun _ => rfl).bind fun _ => .silent (silent_done _)

theorem writes_stageDraw {pools : List CreditPool} {time : Timestamp} {drawn : Allocation}
    (own : honest → ∀ p ∈ pools, p.account = a) :
    Writes tx a honest (Ledger.stageDraw tx pools time drawn) := by
  unfold Ledger.stageDraw
  cases found : pools.find? (·.id == drawn.poolId) with
  | none => exact .silent (silent_done _)
  | some pool =>
    exact .ask rfl rfl fun proper => own proper pool (List.mem_of_find?_eq_some found)

theorem performs_stageDebit {draft : Draft} {balance : Option Balance}
    (own : honest → ∀ row ∈ balance, row.account = draft.account) :
    Performs tx draft.account honest [.openPools tx draft.account]
      (Ledger.stageDebit tx draft balance) := by
  refine .after (.ask (.openPools tx draft.account)) fun pools => .refusing ?_
  cases balance with
  | none => exact .fail _
  | some row =>
    refine .after (.silent (silent_ofExcept _)) fun allocations => .create rfl ?_
    refine (Writes.forM fun drawn => writes_stageDraw fun proper => proper.1.2).bind fun _ => ?_
    exact .changeBalance fun proper => own proper.1.1 row rfl

theorem performs_stageAdd (request : EntryRequest) (transactionId : String) :
    Performs tx request.account True
      (Errand.reads ⟨request.account, request.referenceId, request.kind = .debit⟩ tx)
      (Ledger.stageAdd request transactionId tx) := by
  change Performs tx request.account True ([_, _, _] ++ ([_] ++ _)) _
  refine .after (reads_openChain tx request.account request.referenceId) fun tail => ?_
  refine .after (.ask (.balanceForUpdate tx request.account)) fun balance => ?_
  refine .after (.silent silent_fresh) fun id => ?_
  refine .after (.silent (silent_ofExcept _)) fun metadata => ?_
  refine .after (.silent silent_clock) fun now => ?_
  cases request.kind with
  | credit => exact performs_stageCredit fun proper => proper.1.1.1.2
  | debit => exact performs_stageDebit fun proper => proper.1.1.1.2

theorem performs_stageRevert (reverted : Entry) (transactionId : String) :
    Performs tx reverted.account True
      (Errand.reads ⟨reverted.account, reverted.transactionId, false⟩ tx)
      (Ledger.stageRevert reverted transactionId tx) := by
  change Performs tx reverted.account True ([_, _, _] ++ ([_] ++ [])) _
  refine .after (reads_openChain tx reverted.account reverted.transactionId) fun tail => ?_
  refine .after (.ask (.balanceForUpdate tx reverted.account)) fun balance => ?_
  cases balance with
  | none => exact .fail _
  | some row =>
    refine .after (.silent silent_fresh) fun id => .after (.silent silent_clock) fun now => ?_
    exact .create rfl (.changeBalance fun proper => proper.1.1.2 row rfl)

end Staged
end PointLedger

import Mathlib.Data.List.Nodup
import PointLedger.Proofs.CallSteps
import PointLedger.Proofs.Encoding
import PointLedger.Proofs.Tables

/-!
What a call that succeeds adds to the books. The new entry continues the chain of its account, its
amount goes to the balance row and to the pools of the account in one of three ways, and the rows
of all other accounts stay as they are. `post_eq_ok` says once what a successful call has done;
all other facts about it are read off there.
-/

namespace PointLedger

namespace Books

variable {b after : Books} {c : Call} {result : Entry}

/-- What a successful call has checked, planned and committed. -/
theorem post_eq_ok (posted : b.post c = .ok (result, after)) :
    ∃ transactionId, c.transactionId = .ok transactionId ∧
      ((∃ r t, c.mutation = .add r ∧ validateRequest r = .ok () ∧
        (b.rows r.account).addPlan (b.hasPoolOf c.entryId) r c transactionId = .ok (result, t) ∧
        b.commit t = .ok after) ∨
      (∃ id e t, c.mutation = .revert id ∧ b.findEntry (.byId id) = some result ∧
        (b.rows result.account).revertPlan result c transactionId = .ok (e, t) ∧
        b.commit t = .ok after)) := by
  unfold post at posted
  cases asked : c.mutation with
  | add r =>
    simp only [asked] at posted
    cases valid : validateRequest r with
    | error violation => simp [valid] at posted
    | ok _ =>
    cases free : b.refuseTaken r.organizationId r.referenceId with
    | error error => simp [valid, free] at posted
    | ok _ =>
    cases drawn : c.transactionId with
    | error error => simp [valid, free, drawn] at posted
    | ok transactionId =>
    cases plan : (b.rows r.account).addPlan (b.hasPoolOf c.entryId) r c transactionId with
    | error error => simp [valid, free, drawn, plan] at posted
    | ok planned =>
    obtain ⟨e, t⟩ := planned
    cases committed : b.commit t with
    | error error => simp [valid, free, drawn, plan, settle, committed] at posted
    | ok books =>
      obtain ⟨rfl, rfl⟩ : e = result ∧ books = after := by
        simpa [valid, free, drawn, plan, settle, committed] using posted
      exact ⟨transactionId, rfl, .inl ⟨r, t, rfl, valid, plan, committed⟩⟩
  | revert id =>
    simp only [asked] at posted
    cases present : b.findEntry (.byId id) with
    | none => simp [present] at posted
    | some reverted =>
    cases free : b.refuseTaken reverted.organizationId reverted.transactionId with
    | error error => simp [present, free] at posted
    | ok _ =>
    cases drawn : c.transactionId with
    | error error => simp [present, free, drawn] at posted
    | ok transactionId =>
    cases plan : (b.rows reverted.account).revertPlan reverted c transactionId with
    | error error => simp [present, free, drawn, plan] at posted
    | ok planned =>
    obtain ⟨e, t⟩ := planned
    cases committed : b.commit t with
    | error error => simp [present, free, drawn, plan, settle, committed] at posted
    | ok books =>
      obtain ⟨rfl, rfl⟩ : reverted = result ∧ books = after := by
        simpa [present, free, drawn, plan, settle, committed] using posted
      exact ⟨transactionId, rfl, .inr ⟨id, e, t, rfl, present, plan, committed⟩⟩

end Books

/-! ### The rows after a commit -/

theorem Transaction.find?_putBalance (rows : List Balance) (row : Balance) (a : Account) :
    (putBalance rows row).find? (·.account == a) =
      if row.account == a then some row else rows.find? (·.account == a) :=
  find?_upsert Balance.account _ row a rows

theorem Transaction.map_overlay_of_unchanged {t : Transaction} (unchanged : t.poolUpdates = [])
    (pools : List CreditPool) : pools.map t.overlay = pools := by
  have same : t.overlay = id := by
    funext p
    rw [overlay, unchanged]
    rfl
  rw [same, List.map_id]

namespace CreditPool

/-- Of staged changes with distinct ids each one is found. -/
theorem find?_stageUpdates {updates : List CreditPool} (distinct : (updates.map (·.id)).Nodup)
    (staged : List CreditPool) (id : PoolId) :
    (updates.foldl stageUpdate staged).find? (·.id == id) =
      (updates.find? (·.id == id)).or (staged.find? (·.id == id)) :=
  find?_foldl_upsert CreditPool.id _ id distinct staged

end CreditPool

/-- The pool of an account, open or not, is a committed one. -/
theorem Books.mem_of_mem_openPools {b : Books} {a : Account} {p : CreditPool}
    (member : p ∈ (b.rows a).openPools) : p ∈ b.pools ∧ p.account = a := by
  have listed := List.mem_filter.mp (List.mem_mergeSort.mp (List.mem_filter.mp member).1)
  exact ⟨listed.1, by simpa using listed.2⟩

/-- What a debit makes of the committed pools. -/
theorem Books.overlay_of_debit {b : Books} {a : Account} {amount : Amount} {time : Timestamp}
    {allocations : List Allocation} {t : Transaction} (distinct : (b.pools.map (·.id)).Nodup)
    (covered : allocate (b.rows a).openPools amount = .ok allocations)
    (updates : t.poolUpdates =
      (drawnPools (b.rows a).openPools time allocations).foldl CreditPool.stageUpdate [])
    {p : CreditPool} (member : p ∈ b.pools) : t.overlay p = p.drawnBy time allocations := by
  obtain ⟨drained, rest, split, takes⟩ := AccountRows.takes_of_allocate covered
  have unique : ∀ q ∈ b.pools, q.id = p.id → q = p := fun q held same =>
    List.inj_on_of_nodup_map distinct held member same
  have listed : ∀ x ∈ allocations, ∃ q ∈ (b.rows a).openPools, q.id = x.poolId := by
    intro x taken
    obtain ⟨q, held, takes⟩ := exists_takes_of_mem_allocate covered taken
    exact ⟨q, held, takes.pool.symm⟩
  have changed : ((drawnPools (b.rows a).openPools time allocations).map (·.id)).Nodup := by
    have own : ((b.rows a).pools.map (·.id)).Nodup :=
      distinct.sublist (List.filter_sublist.map _)
    rw [map_id_drawnPools listed, map_poolId_of_takes takes]
    exact ((split.map _).nodup_iff.mp own).sublist
      ((List.sublist_append_left drained rest).map _)
  rw [Transaction.overlay, updates, CreditPool.find?_stageUpdates changed,
    find?_drawnPools (fun q held => unique q (mem_of_mem_openPools held).1) listed,
    CreditPool.drawnBy]
  cases allocations.find? (·.poolId == p.id) <;> rfl

/-- A debit leaves the pools of other accounts as they are. -/
theorem Books.drawnBy_of_foreign {b : Books} {a : Account} {amount : Amount} {time : Timestamp}
    {allocations : List Allocation} (distinct : (b.pools.map (·.id)).Nodup)
    (covered : allocate (b.rows a).openPools amount = .ok allocations) {p : CreditPool}
    (member : p ∈ b.pools) (foreign : p.account ≠ a) : p.drawnBy time allocations = p := by
  refine CreditPool.drawnBy_of_unnamed fun x taken same => ?_
  obtain ⟨q, held, takes⟩ := exists_takes_of_mem_allocate covered taken
  obtain ⟨committed, own⟩ := mem_of_mem_openPools held
  obtain rfl : q = p := List.inj_on_of_nodup_map distinct committed member (takes.pool ▸ same)
  exact foreign own

/-! ### What the new entry is -/

/-- The entry is the next one of the chain. -/
structure Continues (c : Call) (v : AccountRows) (e : Entry) : Prop where
  id : e.id = c.entryId
  link : e.previousHash = Ledger.linkAfter v.tail
  time : e.createdAt = (Ledger.nextTimestamp c.time v.tail).truncate
  digest : e.computeHash = e.hash

/-- The ways in which a new entry changes the rows of its account. -/
inductive Booked (c : Call) (v : AccountRows) (e : Entry) (v' : AccountRows) : Prop where
  /-- A credit opens a pool and raises the balance; the first one opens the balance row. -/
  | credit (plain : e.metadata.reverts = none) (kind : e.kind = .credit)
      (sources : e.metadata.sources = []) (positive : 0 < e.amount.val)
      (pools : v'.pools =
        v.pools ++ [CreditPool.opened c.poolId e.account e.id e.amount e.createdAt])
      (fresh : ∀ p ∈ v.pools, p.entryId ≠ e.id)
      (row' : Balance) (balance' : v'.balance = some row')
      (changed : (v.balance = none ∧
          row' = Balance.opened c.balanceId e.account e.amount e.createdAt) ∨
        ∃ row, v.balance = some row ∧ row.apply e.amount e.createdAt = .ok row')
  /-- A debit draws on the open pools, oldest first, and lowers the balance. -/
  | debit (plain : e.metadata.reverts = none) (kind : e.kind = .debit)
      (allocations : List Allocation) (covered : allocate v.openPools e.amount = .ok allocations)
      (sources : e.metadata.sources = allocations.map Allocation.source)
      (pools : v'.pools = v.pools.map (·.drawnBy e.createdAt allocations))
      (row row' : Balance) (balance : v.balance = some row) (balance' : v'.balance = some row')
      (changed : row.apply e.amount.neg e.createdAt = .ok row')
  /-- A reversal lowers the balance and leaves the pools alone. -/
  | reversal (original : Entry) (member : original ∈ v.entries)
      (reverts : e.metadata.reverts = some ⟨original.id, original.hash⟩)
      (sources : e.metadata.sources = []) (kind : e.kind = original.kind)
      (amount : e.amount = original.amount) (reference : e.referenceId = original.transactionId)
      (pools : v'.pools = v.pools) (row row' : Balance) (balance : v.balance = some row)
      (balance' : v'.balance = some row') (changed : row.apply e.amount.neg e.createdAt = .ok row')

/-- A draft that is sealed after the tail is the next entry of the chain. -/
theorem Continues.of_draft {c : Call} {v : AccountRows} {d : Draft} (id : d.id = c.entryId)
    (link : d.previousHash = Ledger.linkAfter v.tail)
    (time : d.createdAt = Ledger.nextTimestamp c.time v.tail) : Continues c v d.sealed :=
  ⟨id, link, congrArg Timestamp.truncate time, d.computeHash_sealed⟩

theorem AccountRows.continues_of_addPlan {v : AccountRows} {hasPool : Bool} {r : EntryRequest}
    {c : Call} {transactionId : String} {e : Entry} {t : Transaction}
    (plan : v.addPlan hasPool r c transactionId = .ok (e, t)) : Continues c v e := by
  unfold AccountRows.addPlan at plan
  cases kind : r.kind with
  | credit =>
    simp only [kind] at plan
    obtain ⟨-, rfl, -⟩ := creditPlan_eq_ok plan
    exact .of_draft rfl rfl rfl
  | debit =>
    simp only [kind] at plan
    obtain ⟨allocations, row, row', -, -, rfl, -, -⟩ := debitPlan_eq_ok plan
    exact .of_draft rfl rfl rfl

/-- A successful call appends one entry, which continues the chain of its account. -/
theorem Books.continues_of_post {b after : Books} {c : Call} {result : Entry}
    (posted : b.post c = .ok (result, after)) :
    ∃ e, b.target c = some e.account ∧ after.entries = b.entries ++ [e] ∧
      Continues c (b.rows e.account) e := by
  obtain ⟨transactionId, -, ⟨r, t, asked, -, plan, committed⟩ |
    ⟨id, e, t, asked, present, plan, committed⟩⟩ := Books.post_eq_ok posted
  · obtain ⟨entries, account, -⟩ := r.job_proper c transactionId _ _ result t plan
    obtain ⟨-, -, -, rfl⟩ := Books.commit_eq_ok committed
    have account : result.account = r.account := account
    refine ⟨result, ?_, by rw [entries], ?_⟩
    · simp [Books.target, asked, account]
    · exact account ▸ AccountRows.continues_of_addPlan plan
  · obtain ⟨row, row', -, rfl, -, rfl⟩ := AccountRows.revertPlan_eq_ok plan
    obtain ⟨-, -, -, rfl⟩ := Books.commit_eq_ok committed
    refine ⟨_, ?_, rfl, .of_draft rfl rfl rfl⟩
    simp [Books.target, asked, present]
    rfl

/-! ### What the books become -/

/-- The identifiers of a pool and of the entry that it stands for. -/
def CreditPool.key (p : CreditPool) : PoolId × EntryId := (p.id, p.entryId)

/-- A successful call has added the entry `e` to the books. -/
structure Posted (c : Call) (b : Books) (e : Entry) (after : Books) : Prop where
  target : b.target c = some e.account
  entries : after.entries = b.entries ++ [e]
  continues : Continues c (b.rows e.account) e
  booked : Booked c (b.rows e.account) e (after.rows e.account)
  others : ∀ a, a ≠ e.account → after.rows a = b.rows a
  keys : after.pools.map CreditPool.key = b.pools.map CreditPool.key ∨
    after.pools.map CreditPool.key = b.pools.map CreditPool.key ++ [(c.poolId, c.entryId)]

namespace Books

variable {b after : Books} {c : Call} {e : Entry} {t : Transaction} {row' : Balance}

/-- The rows after the commit of one entry and one balance row. -/
theorem rows_of_commit (committed : b.commit t = .ok after) (entries : t.entries = [e])
    (balances : t.newBalances ++ t.balanceUpdates = [row']) (owner : row'.account = e.account) :
    after.entries = b.entries ++ [e] ∧ after.pools = b.pools.map t.overlay ++ t.newPools ∧
      (after.rows e.account).balance = some row' ∧
      ∀ a, a ≠ e.account → (after.rows a).entries = (b.rows a).entries ∧
        (after.rows a).balance = (b.rows a).balance := by
  obtain ⟨-, -, -, rfl⟩ := commit_eq_ok committed
  have found (a : Account) : (((t.newBalances ++ t.balanceUpdates).foldl Transaction.putBalance
      b.balances).find? (·.account == a)) =
      if row'.account == a then some row' else b.balances.find? (·.account == a) := by
    rw [balances]
    exact Transaction.find?_putBalance b.balances row' a
  refine ⟨by rw [entries], rfl, ?_, fun a other => ⟨?_, ?_⟩⟩
  · simp only [rows, findBalance, found, owner, BEq.rfl, ↓reduceIte]
  · have foreign : (e.account == a) = false := by simpa using Ne.symm other
    simp [rows, entries, foreign]
  · have foreign : (row'.account == a) = false := by rw [owner]; simpa using Ne.symm other
    simp only [rows, findBalance, found, foreign, Bool.false_eq_true, ↓reduceIte]

/-- Rows that agree in every part are the same. -/
theorem rows_eq {v v' : AccountRows} (entries : v'.entries = v.entries)
    (balance : v'.balance = v.balance) (pools : v'.pools = v.pools) : v' = v := by
  cases v
  cases v'
  simp_all

/-- What a credit adds. -/
theorem booked_of_credit {d : Draft} (kind : d.kind = .credit) (plain : d.metadata.reverts = none)
    (sources : d.metadata.sources = []) (positive : 0 < d.amount.val) (id : d.id = c.entryId)
    (plan : (b.rows d.account).creditPlan (b.hasPoolOf c.entryId) d c = .ok (e, t))
    (committed : b.commit t = .ok after) :
    Booked c (b.rows e.account) e (after.rows e.account) ∧
      (∀ a, a ≠ e.account → after.rows a = b.rows a) ∧
      after.pools.map CreditPool.key = b.pools.map CreditPool.key ++ [(c.poolId, c.entryId)] := by
  obtain ⟨free, rfl, paths⟩ := AccountRows.creditPlan_eq_ok plan
  have account : d.sealed.account = d.account := rfl
  let pool := CreditPool.opened c.poolId d.account d.sealed.id d.sealed.amount d.sealed.createdAt
  obtain ⟨row', balances, owner, changed, staged, pools, unchanged⟩ : ∃ row',
      t.newBalances ++ t.balanceUpdates = [row'] ∧ row'.account = d.sealed.account ∧
      (((b.rows d.account).balance = none ∧ row' = Balance.opened c.balanceId d.account
          d.sealed.amount d.sealed.createdAt) ∨
        ∃ row, (b.rows d.account).balance = some row ∧
          row.apply d.sealed.amount d.sealed.createdAt = .ok row') ∧
      t.entries = [d.sealed] ∧ t.newPools = [pool] ∧ t.poolUpdates = [] := by
    rcases paths with ⟨row, row', balance, applied, rfl⟩ | ⟨balance, rfl⟩
    · refine ⟨row', rfl, ?_, .inr ⟨row, balance, applied⟩, rfl, rfl, rfl⟩
      exact (Balance.account_of_apply applied).trans (mem_of_findBalance balance).2
    · exact ⟨_, rfl, rfl, .inl ⟨balance, rfl⟩, rfl, rfl, rfl⟩
  obtain ⟨-, after_pools, balance', others⟩ := rows_of_commit committed staged balances owner
  rw [pools, Transaction.map_overlay_of_unchanged unchanged] at after_pools
  have home : pool.account = d.sealed.account := rfl
  refine ⟨.credit plain kind sources positive ?_ ?_ row' balance' changed, fun a other => ?_, ?_⟩
  · simp [rows, after_pools, pool]
  · intro p member same
    have taken : b.hasPoolOf c.entryId = true :=
      List.any_eq_true.mpr ⟨p, (List.mem_filter.mp member).1, by simp [same, id]⟩
    rw [taken] at free
    cases free
  · obtain ⟨entries, balance⟩ := others a other
    refine rows_eq entries balance ?_
    have foreign : (pool.account == a) = false := by rw [home]; simpa using Ne.symm other
    simp [rows, after_pools, foreign]
  · simp [after_pools, CreditPool.key, pool, CreditPool.opened, id]

/-- What a debit adds. -/
theorem booked_of_debit {d : Draft} (kind : d.kind = .debit) (plain : d.metadata.reverts = none)
    (distinct : (b.pools.map (·.id)).Nodup)
    (plan : (b.rows d.account).debitPlan d = .ok (e, t)) (committed : b.commit t = .ok after) :
    Booked c (b.rows e.account) e (after.rows e.account) ∧
      (∀ a, a ≠ e.account → after.rows a = b.rows a) ∧
      after.pools.map CreditPool.key = b.pools.map CreditPool.key := by
  obtain ⟨allocations, row, row', balance, covered, rfl, applied, planned⟩ :=
    AccountRows.debitPlan_eq_ok plan
  have owner : row'.account = (d.debit allocations).sealed.account :=
    (Balance.account_of_apply applied).trans (mem_of_findBalance balance).2
  obtain ⟨-, after_pools, balance', others⟩ :=
    rows_of_commit committed (by rw [planned]) (by rw [planned]; rfl) owner
  -- Every committed pool, of whichever account, is as the debit has left it.
  have overlaid : b.pools.map t.overlay =
      b.pools.map (·.drawnBy (d.debit allocations).sealed.createdAt allocations) :=
    List.map_congr_left fun p member => overlay_of_debit distinct covered (by rw [planned]) member
  rw [overlaid, planned, List.append_nil] at after_pools
  refine ⟨.debit plain kind allocations covered rfl ?_ row row' balance balance' applied,
    fun a other => ?_, ?_⟩
  · simp only [rows, after_pools, filter_drawnBy]
  · obtain ⟨entries, balance⟩ := others a other
    refine rows_eq entries balance ?_
    simp only [rows, after_pools, filter_drawnBy]
    refine (List.map_congr_left fun p member => ?_).trans (List.map_id _)
    obtain ⟨committed, own⟩ := List.mem_filter.mp member
    have own : p.account = a := by simpa using own
    exact drawnBy_of_foreign distinct covered committed (own ▸ other)
  · rw [after_pools, List.map_map]
    exact List.map_congr_left fun p _ => by simp [CreditPool.key]

/-- What a reversal adds. -/
theorem booked_of_revert {reverted : Entry} {transactionId : String} (member : reverted ∈ b.entries)
    (plan : (b.rows reverted.account).revertPlan reverted c transactionId = .ok (e, t))
    (committed : b.commit t = .ok after) :
    Booked c (b.rows e.account) e (after.rows e.account) ∧
      (∀ a, a ≠ e.account → after.rows a = b.rows a) ∧
      after.pools.map CreditPool.key = b.pools.map CreditPool.key := by
  obtain ⟨row, row', balance, rfl, applied, rfl⟩ := AccountRows.revertPlan_eq_ok plan
  have owner : row'.account = reverted.account :=
    (Balance.account_of_apply applied).trans (mem_of_findBalance balance).2
  obtain ⟨-, after_pools, balance', others⟩ := rows_of_commit committed rfl rfl owner
  rw [Transaction.map_overlay_of_unchanged rfl, List.append_nil] at after_pools
  refine ⟨.reversal reverted ?_ rfl rfl rfl rfl rfl ?_ row row' balance balance' applied,
    fun a other => ?_, by rw [after_pools]⟩
  · exact List.mem_filter.mpr ⟨member, beq_self_eq_true _⟩
  · rw [rows, after_pools]
    rfl
  · obtain ⟨entries, balance⟩ := others a other
    refine rows_eq entries balance ?_
    rw [rows, after_pools]
    rfl

/-- A request that passes its checks asks for a positive amount, and its metadata holds none of the
ledger's keys. -/
theorem validateRequest_eq_ok {r : EntryRequest} (valid : validateRequest r = .ok ()) :
    0 < r.amount.val ∧
      ∀ key ∈ Metadata.reservedKeys, Json.Members.has r.metadata key = false := by
  obtain ⟨_, -, rest⟩ := eq_ok_of_bind valid
  obtain ⟨_, -, rest⟩ := eq_ok_of_bind rest
  obtain ⟨_, -, rest⟩ := eq_ok_of_bind rest
  obtain ⟨_, amount, rest⟩ := eq_ok_of_bind rest
  obtain ⟨_, -, metadata⟩ := eq_ok_of_bind rest
  constructor
  · unfold validateAmount at amount
    split at amount
    · exact Amount.isPositive_iff.mp ‹_›
    · cases amount
  · unfold validateMetadata at metadata
    split at metadata
    · cases metadata
    · rename_i absent
      simpa using List.find?_eq_none.mp absent

/-- What the plan of a new entry adds. -/
theorem booked_of_add {r : EntryRequest} {transactionId : String}
    (valid : validateRequest r = .ok ()) (distinct : (b.pools.map (·.id)).Nodup)
    (plan : (b.rows r.account).addPlan (b.hasPoolOf c.entryId) r c transactionId = .ok (e, t))
    (committed : b.commit t = .ok after) :
    Booked c (b.rows e.account) e (after.rows e.account) ∧
      (∀ a, a ≠ e.account → after.rows a = b.rows a) ∧
      (after.pools.map CreditPool.key = b.pools.map CreditPool.key ∨
        after.pools.map CreditPool.key =
          b.pools.map CreditPool.key ++ [(c.poolId, c.entryId)]) := by
  simp only [AccountRows.addPlan] at plan
  let draft := r.draft c transactionId (b.rows r.account).tail
  cases kind : r.kind with
  | credit =>
    simp only [kind] at plan
    have plan : (b.rows draft.account).creditPlan (b.hasPoolOf c.entryId) draft c = .ok (e, t) :=
      plan
    obtain ⟨booked, others, keys⟩ :=
      booked_of_credit kind rfl rfl (validateRequest_eq_ok valid).1 rfl plan committed
    exact ⟨booked, others, .inr keys⟩
  | debit =>
    simp only [kind] at plan
    have plan : (b.rows draft.account).debitPlan draft = .ok (e, t) := plan
    obtain ⟨booked, others, keys⟩ := booked_of_debit kind rfl distinct plan committed
    exact ⟨booked, others, .inl keys⟩

/-- A successful call adds one entry to the books. -/
theorem posted_of_post {result : Entry} (distinct : (b.pools.map (·.id)).Nodup)
    (posted : b.post c = .ok (result, after)) : ∃ e, Posted c b e after := by
  obtain ⟨e, target, entries, continues⟩ := continues_of_post posted
  -- The entry that the plan stages is the one that was appended.
  have same {t : Transaction} {e' : Entry} (staged : t.entries = [e'])
      (committed : b.commit t = .ok after) : e' = e := by
    obtain ⟨-, -, -, rfl⟩ := commit_eq_ok committed
    rw [staged] at entries
    exact List.head_eq_of_cons_eq (List.append_cancel_left entries)
  obtain ⟨transactionId, -, ⟨r, t, asked, valid, plan, committed⟩ |
    ⟨id, e', t, asked, present, plan, committed⟩⟩ := post_eq_ok posted
  · obtain ⟨staged, -⟩ := r.job_proper c transactionId _ _ result t plan
    obtain rfl := same staged committed
    obtain ⟨booked, others, keys⟩ := booked_of_add valid distinct plan committed
    exact ⟨result, target, entries, continues, booked, others, keys⟩
  · obtain ⟨staged, -⟩ := result.revertJob_proper c transactionId _ false e' t plan
    obtain rfl := same staged committed
    obtain ⟨booked, others, keys⟩ := booked_of_revert (mem_of_findEntry present).1 plan committed
    exact ⟨e', target, entries, continues, booked, others, .inl keys⟩

end Books

end PointLedger

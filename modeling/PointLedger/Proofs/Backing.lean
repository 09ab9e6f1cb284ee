import PointLedger.Proofs.GreedySpending
import PointLedger.Proofs.Idempotency
import PointLedger.Proofs.RowTimes
import PointLedger.Proofs.RowUpdates

/-!
Books that calls have made, and what can be refused on them. Every account with entries has a
balance row, and no pool is below zero. So no commit is refused that was planned for a free
reference, and no plan for other reasons than the funds of a debit and the range of amounts.
-/

namespace PointLedger

/-! ### Books that calls have made -/

/-- The entries and the pools have distinct ids, all entries have positive amounts, no pool is below
zero, and every account with a pool or an entry has a balance row. -/
structure Books.Backed (b : Books) : Prop where
  entryIds : (b.entries.map (·.id)).Nodup
  ids : (b.pools.map (·.id)).Nodup
  nonneg : ∀ p ∈ b.pools, 0 ≤ p.remaining.val
  positive : ∀ e ∈ b.entries, 0 < e.amount.val
  pools : ∀ p ∈ b.pools, ∃ row, b.findBalance p.account = some row
  entries : ∀ e ∈ b.entries, ∃ row, b.findBalance e.account = some row

namespace Books.Backed

variable {b : Books} {a : Account}

theorem nonneg_rows (backed : b.Backed) : ∀ p ∈ (b.rows a).pools, 0 ≤ p.remaining.val :=
  fun p held => backed.nonneg p (List.mem_filter.mp held).1

theorem pools_rows (backed : b.Backed) :
    ∀ p ∈ (b.rows a).pools, ∃ row, b.findBalance a = some row := by
  intro p held
  obtain ⟨member, own⟩ := List.mem_filter.mp held
  have own : p.account = a := by simpa using own
  exact own ▸ backed.pools p member

end Books.Backed

/-- The balance row of an account is opened with its first entry. -/
theorem Dated.exists_balance {v : AccountRows} (dated : Dated v) {e : Entry}
    (member : e ∈ v.entries) : ∃ row, v.balance = some row := by
  have opened := dated.opened
  cases entries : v.entries with
  | nil =>
    rw [entries] at member
    cases member
  | cons first rest =>
    rw [entries, List.head?_cons, Option.map_some, Option.map_eq_some_iff] at opened
    obtain ⟨row, present, -⟩ := opened
    exact ⟨row, present⟩

theorem Memory.backed_of_serve {calls : List Call} (apart : calls.Pairwise Call.Apart) :
    (({} : Memory).serve calls).2.books.Backed := by
  let b := (({} : Memory).serve calls).2.books
  have served := (serve_eq_applyAll atRest_empty calls).2.1
  have entry {e : Entry} (member : e ∈ b.entries) : e ∈ (b.rows e.account).entries :=
    List.mem_filter.mpr ⟨member, beq_self_eq_true _⟩
  have pool {p : CreditPool} (member : p ∈ b.pools) : p ∈ (b.rows p.account).pools :=
    List.mem_filter.mpr ⟨member, beq_self_eq_true _⟩
  have row {e : Entry} (member : e ∈ b.entries) : ∃ row, b.findBalance e.account = some row :=
    (dated_of_serve apart e.account).exists_balance (entry member)
  refine ⟨?_, ?_, fun p member => (funded_of_serve apart p.account).nonneg p (pool member),
    fun e member => (conserved_of_serve apart e.account).positive e (entry member), ?_,
    fun e member => row member⟩
  · rw [served]
    exact (Books.catalogued_applyAll calls).nodup_ids apart
  · rw [served]
    exact (Books.sourced_applyAll apart).distinct apart
  · intro p member
    obtain ⟨credit, listed, -, -⟩ := (funded_of_serve apart p.account).exists_credit (pool member)
    obtain ⟨member, own⟩ := List.mem_filter.mp listed
    have own : credit.account = p.account := by simpa using own
    exact own ▸ row member

/-- Where no pool is below zero, the open pools hold all that the pools hold. -/
theorem AccountRows.openTotal_openPools {v : AccountRows}
    (nonneg : ∀ p ∈ v.pools, 0 ≤ p.remaining.val) : openTotal v.openPools = v.pooled := by
  have closed : ∀ n ∈ (v.pools.filter fun p => !p.isOpen).map (·.remaining.val), n = 0 := by
    intro n member
    obtain ⟨p, held, rfl⟩ := List.mem_map.mp member
    obtain ⟨held, shut⟩ := List.mem_filter.mp held
    have least := nonneg p held
    have most : ¬ 0 < p.remaining.val := by
      rw [← CreditPool.isOpen_iff]
      simpa using shut
    omega
  have opened : v.openPools.filter CreditPool.isOpen = v.openPools := by
    simp [openPools]
  rw [pooled, (v.openPools_perm.map _).sum_eq, List.map_append, List.sum_append,
    List.sum_eq_zero closed, Int.add_zero, openTotal, opened]

/-- An amount that was allocated is one that the pools hold. -/
theorem AccountRows.le_pooled {v : AccountRows} (nonneg : ∀ p ∈ v.pools, 0 ≤ p.remaining.val)
    {amount : Amount} {allocations : List Allocation}
    (covered : allocate v.openPools amount = .ok allocations) : amount.val ≤ v.pooled := by
  have enough := (allocate_eq_ok_iff.mp covered).2.covered fun _ => remaining_of_mem_sort
  rwa [sum_sort_eq_openTotal, v.openTotal_openPools nonneg] at enough

/-! ### Commits that are not refused -/

/-- A staged change was staged now or before. -/
theorem CreditPool.mem_of_mem_stageUpdates {updates staged : List CreditPool} {u : CreditPool}
    (member : u ∈ updates.foldl stageUpdate staged) : u ∈ updates ∨ u ∈ staged := by
  induction updates generalizing staged with
  | nil => exact .inr member
  | cons first rest ih =>
    rcases ih member with later | member
    · exact .inl (List.mem_cons_of_mem first later)
    · rcases mem_of_mem_upsert member with rfl | before
      · exact .inl List.mem_cons_self
      · exact .inr before

namespace Books

variable {b : Books} {t : Transaction}

theorem forM_checkPoolUpdate_of_forall {updates : List CreditPool}
    (fits : ∀ u ∈ updates, b.checkPoolUpdate u = .ok ()) :
    updates.forM b.checkPoolUpdate = .ok () := by
  induction updates with
  | nil => rfl
  | cons first rest ih =>
    obtain ⟨passed, later⟩ := List.forall_mem_cons.mp fits
    rw [List.forM_eq_forM, List.forM_cons, passed]
    exact ih later

theorem checkPoolUpdate_of_mem (ids : (b.pools.map (·.id)).Nodup) {p u : CreditPool}
    (held : p ∈ b.pools) (same : p.id = u.id) (least : 0 ≤ u.remaining.val)
    (most : u.remaining.val ≤ p.remaining.val) : b.checkPoolUpdate u = .ok () := by
  have found : b.pools.find? (·.id == u.id) = some p :=
    same ▸ find?_of_mem_of_nodup CreditPool.id ids held
  have fits : ¬ (u.remaining.val < 0 ∨ p.remaining.val < u.remaining.val) := by omega
  simp [checkPoolUpdate, found, fits]

/-- A commit succeeds when its references and balance rows are new and it draws on committed
pools. -/
theorem exists_commit (free : ∀ e ∈ t.entries, ¬ b.HasKey e.key)
    (opens : ∀ row ∈ t.newBalances, b.findBalance row.account = none)
    (draws : ∀ u ∈ t.poolUpdates, b.checkPoolUpdate u = .ok ()) :
    ∃ after, b.commit t = .ok after := by
  have references : t.entries.any b.hasReferenceOf = false :=
    List.any_eq_false.mpr fun e staged taken => free e staged (hasReferenceOf_iff.mp taken)
  have balances : (t.newBalances.any fun row => b.balances.any (·.account == row.account)) =
      false := by
    refine List.any_eq_false.mpr fun row staged taken => ?_
    obtain ⟨old, held, same⟩ := List.any_eq_true.mp taken
    exact List.find?_eq_none.mp (opens row staged) old held same
  have checked := forM_checkPoolUpdate_of_forall draws
  exact ⟨_, by simp only [commit, references, balances, checked]; rfl⟩

/-- Work on a free reference whose writes can be committed is refused by its plan or not at all. -/
theorem plan_eq_error_of_finish {job : Job} {c : Call} {error : LedgerError}
    (free : ¬ b.HasKey (job.account.organizationId, job.reference))
    (commits : ∀ e t, job.plan (b.rows job.account) (b.hasPoolOf c.entryId) = .ok (e, t) →
      ∃ after, b.commit t = .ok after)
    (refused : job.finish c b = .error error) :
    job.plan (b.rows job.account) (b.hasPoolOf c.entryId) = .error error := by
  rcases eq_error_of_bind refused with known | ⟨_, -, rest⟩
  · exact absurd (refuseTaken_eq_error known).2 free
  rcases eq_error_of_bind rest with failed | ⟨⟨e, t⟩, plan, rest⟩
  · exact failed
  · obtain ⟨after, committed⟩ := commits e t plan
    simp [settle, committed] at rest

/-- What a debit makes of the pools that it draws on may be committed. -/
theorem checkPoolUpdate_of_debit {a : Account} {amount : Amount} {time : Timestamp}
    {allocations : List Allocation} (ids : (b.pools.map (·.id)).Nodup)
    (covered : allocate (b.rows a).openPools amount = .ok allocations) {u : CreditPool}
    (staged : u ∈
      (drawnPools (b.rows a).openPools time allocations).foldl CreditPool.stageUpdate []) :
    b.checkPoolUpdate u = .ok () := by
  have member := (CreditPool.mem_of_mem_stageUpdates staged).resolve_right List.not_mem_nil
  obtain ⟨x, taken, changed⟩ := List.mem_filterMap.mp member
  obtain ⟨p, found, rfl⟩ := Option.map_eq_some_iff.mp changed
  obtain ⟨q, listed, takes⟩ := exists_takes_of_mem_allocate covered taken
  have held := (mem_of_mem_openPools (List.mem_of_find?_eq_some found)).1
  have own : p.id = x.poolId := by simpa using List.find?_some found
  obtain rfl : q = p := List.inj_on_of_nodup_map ids (mem_of_mem_openPools listed).1 held
    (takes.pool.symm.trans own.symm)
  have positive := takes.positive
  have within := takes.within
  have left := takes.left
  exact checkPoolUpdate_of_mem ids held rfl (show 0 ≤ x.remainingAfter.val by omega)
    (show x.remainingAfter.val ≤ q.remaining.val by omega)

end Books

/-! ### Plans that are refused -/

/-- What an entry for the request adds to the balance. -/
def EntryRequest.change (r : EntryRequest) : Int :=
  match r.kind with
  | .credit => r.amount.val
  | .debit => -r.amount.val

/-- The sum of a balance and a change is outside the range of amounts. -/
def Overflows (balance change : Int) : Prop := ∀ sum : Amount, sum.val ≠ balance + change

theorem Balance.apply_eq_error {row : Balance} {delta : Amount} {time : Timestamp}
    {error : LedgerError} (refused : row.apply delta time = .error error) :
    error = .balanceOverflow delta row.balance ∧ Overflows row.balance.val delta.val := by
  unfold Balance.apply at refused
  split at refused
  · cases refused
  · rename_i outside
    cases refused
    refine ⟨rfl, fun sum same => ?_⟩
    rw [Amount.add?, Amount.ofInt?_eq_some.mpr same.symm] at outside
    cases outside

namespace AccountRows

variable {v : AccountRows} {c : Call} {d : Draft} {transactionId : String} {error : LedgerError}

theorem points_of_balance {row : Balance} (present : v.balance = some row) :
    v.points = row.balance.val := by
  simp [points, present]

/-- A credit without a pool yet is refused when the balance overflows. -/
theorem creditPlan_eq_error (refused : v.creditPlan false d c = .error error) :
    ∃ row, v.balance = some row ∧ error = .balanceOverflow d.amount row.balance ∧
      Overflows v.points d.amount.val := by
  unfold creditPlan at refused
  simp only [Bool.false_eq_true, ↓reduceIte] at refused
  cases present : v.balance with
  | none =>
    rw [present] at refused
    cases refused
  | some row =>
    rw [present] at refused
    rcases eq_error_of_bind refused with failed | ⟨row', -, done⟩
    · obtain ⟨rfl, outside⟩ := Balance.apply_eq_error failed
      exact ⟨row, rfl, rfl, by rwa [points_of_balance present]⟩
    · cases done

/-- What a debit needs is refused when the pools do not hold it. -/
theorem funding_eq_error (nonneg : ∀ p ∈ v.pools, 0 ≤ p.remaining.val)
    (opened : ∀ p ∈ v.pools, ∃ row, v.balance = some row) (positive : 0 < d.amount.val)
    (refused : v.funding d = .error error) :
    ∃ available : Amount, available.val = v.pooled ∧ v.pooled < d.amount.val ∧
      error = .insufficientFunds d.amount available := by
  have total := v.openTotal_openPools nonneg
  unfold funding at refused
  cases empty : v.openPools.isEmpty with
  | true =>
    rw [List.isEmpty_iff.mp empty] at total
    have none : v.pooled = 0 := total.symm
    simp only [empty, ↓reduceIte] at refused
    cases refused
    exact ⟨Amount.zero, none.symm, by omega, rfl⟩
  | false =>
    obtain ⟨p, listed⟩ := List.exists_mem_of_ne_nil _ (List.isEmpty_eq_false_iff.mp empty)
    obtain ⟨row, present⟩ := opened p (List.mem_mergeSort.mp (List.mem_filter.mp listed).1)
    simp only [empty, present, Bool.false_eq_true, ↓reduceIte] at refused
    rcases eq_error_of_bind refused with short | ⟨allocations, -, done⟩
    · by_cases covered : d.amount.val ≤ openTotal v.openPools
      · rw [allocate_of_covered positive covered] at short
        cases short
      · have less : openTotal v.openPools < d.amount.val := by omega
        obtain ⟨failed, available⟩ := allocate_of_short positive less
        rw [failed] at short
        cases short
        exact ⟨_, available.trans total, by omega, rfl⟩
    · cases done

/-- A debit is refused when the pools do not hold its amount, or else when the balance overflows. -/
theorem debitPlan_eq_error (nonneg : ∀ p ∈ v.pools, 0 ≤ p.remaining.val)
    (opened : ∀ p ∈ v.pools, ∃ row, v.balance = some row) (positive : 0 < d.amount.val)
    (refused : v.debitPlan d = .error error) :
    (∃ available : Amount, available.val = v.pooled ∧ v.pooled < d.amount.val ∧
      error = .insufficientFunds d.amount available) ∨
    d.amount.val ≤ v.pooled ∧ ∃ row, v.balance = some row ∧
      error = .balanceOverflow d.amount.neg row.balance ∧ Overflows v.points (-d.amount.val) := by
  rcases eq_error_of_bind refused with unfunded | ⟨⟨allocations, row⟩, funded, rest⟩
  · exact .inl (funding_eq_error nonneg opened positive unfunded)
  · obtain ⟨present, covered⟩ := funding_eq_ok funded
    rcases eq_error_of_bind rest with failed | ⟨row', -, done⟩
    · obtain ⟨rfl, outside⟩ := Balance.apply_eq_error failed
      have lowered : d.amount.neg.val = -d.amount.val := Amount.val_neg positive.le
      rw [← points_of_balance present] at outside
      exact .inr ⟨v.le_pooled nonneg covered, row, present, rfl, lowered ▸ outside⟩
    · cases done

/-- A reversal on a balance row is refused when the balance overflows. -/
theorem revertPlan_eq_error {original : Entry} {row : Balance} (present : v.balance = some row)
    (refused : v.revertPlan original c transactionId = .error error) :
    error = .balanceOverflow original.amount.neg row.balance ∧
      Overflows row.balance.val original.amount.neg.val := by
  unfold revertPlan at refused
  rw [present] at refused
  rcases eq_error_of_bind refused with failed | ⟨row', -, done⟩
  · exact Balance.apply_eq_error failed
  · cases done

end AccountRows

end PointLedger

import PointLedger.Proofs.Provenance

/-!
The order in which credits are spent. A debit leaves nothing in a pool before it draws on the next
one, and a new credit comes last. So the pools of an account, oldest first, are spent from the
front: whenever one pool has something left, no debit has drawn on any pool after it.
-/

namespace PointLedger

/-- No debit has drawn on the pool, which holds the whole amount of its credit among these
entries. -/
structure CreditPool.Untouched (p : CreditPool) (entries : List Entry) : Prop where
  unconsumed : p.consumedAt = none
  whole : ∃ credit ∈ entries, credit.isCredit = true ∧ credit.id = p.entryId ∧
    p.remaining = credit.amount

theorem CreditPool.Untouched.mono {p : CreditPool} {entries entries' : List Entry}
    (untouched : p.Untouched entries) (kept : entries ⊆ entries') : p.Untouched entries' := by
  obtain ⟨unconsumed, credit, member, whole⟩ := untouched
  exact ⟨unconsumed, credit, kept member, whole⟩

/-- Pairs of which the first has the one property or the second has the other leave one place at
most between those with the first property and those with the second. -/
theorem exists_turning_point {α : Type} {P Q : α → Prop} {xs : List α}
    (pairs : xs.Pairwise fun x y => P x ∨ Q y) :
    ∃ k, (∀ x ∈ xs.take k, P x) ∧ ∀ y ∈ xs.drop (k + 1), Q y := by
  induction xs with
  | nil => exact ⟨0, by simp⟩
  | cons x rest ih =>
    obtain ⟨first, later⟩ := List.pairwise_cons.mp pairs
    by_cases holds : P x
    · obtain ⟨k, before, after⟩ := ih later
      refine ⟨k + 1, ?_, after⟩
      rw [List.take_succ_cons]
      exact List.forall_mem_cons.mpr ⟨holds, before⟩
    · exact ⟨0, by simp, fun y member => (first y member).resolve_left holds⟩

/-! ### What one debit does -/

namespace CreditPool

variable {time : Timestamp} {allocations : List Allocation}

theorem le_of_lt {p q : CreditPool} (before : p.createdAt < q.createdAt) : le p q = true := by
  simp [le, before]

/-- Sorting pools that are in the order of time changes nothing. -/
theorem sort_of_increasing {pools : List CreditPool}
    (increasing : pools.Pairwise fun p q => p.createdAt < q.createdAt) : sort pools = pools :=
  List.mergeSort_of_pairwise (increasing.imp le_of_lt)

/-- Draining empties a pool before it draws on a later one. -/
theorem pairwise_drain {needed : Amount} {pools : List CreditPool} (nonneg : 0 ≤ needed.val)
    (opened : ∀ p ∈ pools, 0 < p.remaining.val) (distinct : (pools.map (·.id)).Nodup) :
    pools.Pairwise fun p q =>
      (p.drawnBy time (drain needed pools).1).remaining.val = 0 ∨
        q.drawnBy time (drain needed pools).1 = q := by
  induction pools generalizing needed with
  | nil => exact .nil
  | cons p rest ih =>
    obtain ⟨new, distinct⟩ := List.nodup_cons.mp distinct
    by_cases done : needed.val = 0
    · have untouched (q : CreditPool) : q.drawnBy time (drain needed (p :: rest)).1 = q :=
        drawnBy_of_unnamed (by simp [drain_of_covered done])
      exact List.pairwise_of_forall fun _ q => .inr (untouched q)
    · obtain ⟨a, still, takes, amount, enough, left, step⟩ := drain_cons nonneg done opened
      have taken := Amount.val_min p.remaining needed
      have later := ih enough (fun q member => opened q (List.mem_cons_of_mem p member)) distinct
      rw [step]
      dsimp only
      have others : ∀ q ∈ rest, ∀ a : Allocation, a.poolId = p.id →
          q.drawnBy time (a :: (drain still rest).1) = q.drawnBy time (drain still rest).1 := by
        intro q member a own
        refine drawnBy_cons_of_ne fun same => new (List.mem_map.mpr ⟨q, member, ?_⟩)
        exact same.symm.trans own
      refine List.pairwise_cons.mpr ⟨fun q member => ?_, ?_⟩
      · rw [drawnBy_cons_of_eq takes.pool, others q member a takes.pool]
        by_cases emptied : p.remaining.val ≤ needed.val
        · left
          have := takes.left
          rw [amount] at this
          simp only [drawn]
          omega
        · -- A pool that keeps something has covered all that was needed.
          right
          have covered : still.val = 0 := by
            rw [left, amount]
            omega
          exact drawnBy_of_unnamed (by simp [drain_of_covered covered])
      · refine later.imp_of_mem fun member member' pair => ?_
        rw [others _ member a takes.pool, others _ member' a takes.pool]
        exact pair

end CreditPool

namespace AccountRows

variable {v : AccountRows} {amount : Amount} {time : Timestamp} {allocations : List Allocation}

/-- A debit leaves a pool alone that has nothing left. -/
theorem drawnBy_of_closed (ids : (v.pools.map (·.id)).Nodup)
    (covered : allocate v.openPools amount = .ok allocations) {p : CreditPool}
    (held : p ∈ v.pools) (closed : p.isOpen = false) : p.drawnBy time allocations = p := by
  refine CreditPool.drawnBy_of_unnamed fun a taken same => ?_
  obtain ⟨q, listed, takes⟩ := exists_takes_of_mem_allocate covered taken
  obtain ⟨member, isOpen⟩ := List.mem_filter.mp listed
  have own : q = p :=
    List.inj_on_of_nodup_map ids (List.mem_mergeSort.mp member) held (takes.pool.symm.trans same)
  rw [own, closed] at isOpen
  cases isOpen

/-- When the pools are in the order of time, a debit drains the open ones in this order. -/
theorem drain_of_allocate
    (increasing : v.pools.Pairwise fun p q => p.createdAt < q.createdAt)
    (covered : allocate v.openPools amount = .ok allocations) :
    0 < amount.val ∧ allocations = (drain amount (v.pools.filter CreditPool.isOpen)).1 := by
  obtain ⟨positive, -, -⟩ := allocate_eq_ok covered
  have sorted : CreditPool.sort (v.openPools.filter CreditPool.isOpen) =
      v.pools.filter CreditPool.isOpen := by
    rw [openPools, CreditPool.sort_of_increasing increasing, List.filter_filter]
    simp only [Bool.and_self]
    exact CreditPool.sort_of_increasing (increasing.filter _)
  unfold allocate at covered
  rw [sorted] at covered
  refine ⟨positive, ?_⟩
  dsimp only at covered
  repeat' split at covered
  all_goals cases covered
  rfl

/-- A debit empties the open pools before it draws on a later one. -/
theorem pairwise_drawnBy (time : Timestamp) (ids : (v.pools.map (·.id)).Nodup)
    (increasing : v.pools.Pairwise fun p q => p.createdAt < q.createdAt)
    (covered : allocate v.openPools amount = .ok allocations) :
    v.pools.Pairwise fun p q => p.isOpen = true → q.isOpen = true →
      (p.drawnBy time allocations).remaining.val = 0 ∨ q.drawnBy time allocations = q := by
  obtain ⟨positive, rfl⟩ := drain_of_allocate increasing covered
  refine List.pairwise_filter.mp (CreditPool.pairwise_drain (Int.le_of_lt positive) ?_ ?_)
  · intro p member
    exact Amount.isPositive_iff.mp (List.mem_filter.mp member).2
  · exact ids.sublist (List.filter_sublist.map _)

end AccountRows

/-! ### Rows whose pools are spent from the front -/

/-- Each pool has the time of its credit, and as long as the times of the entries are in order, no
pool is touched that comes after one with something left. -/
structure SpentInOrder (v : AccountRows) : Prop where
  times : v.pools.map (·.createdAt) = (v.entries.filter Entry.isCredit).map (·.createdAt)
  order : (v.entries.Pairwise fun e e' => e.createdAt < e'.createdAt) →
    v.pools.Pairwise fun p q => p.remaining.val = 0 ∨ q.Untouched v.entries

theorem spentInOrder_empty : SpentInOrder ⟨[], [], none⟩ where
  times := rfl
  order _ := .nil

namespace SpentInOrder

variable {c : Call} {v v' : AccountRows} {e : Entry}

theorem increasing (spent : SpentInOrder v)
    (entries : v.entries.Pairwise fun e e' => e.createdAt < e'.createdAt) :
    v.pools.Pairwise fun p q => p.createdAt < q.createdAt := by
  have credits : ((v.entries.filter Entry.isCredit).map (·.createdAt)).Pairwise (· < ·) :=
    List.pairwise_map.mpr (entries.filter _)
  rw [← spent.times] at credits
  exact List.pairwise_map.mp credits

/-- A credit opens a pool behind all others. -/
theorem credit (spent : SpentInOrder v) (entries : v'.entries = v.entries ++ [e])
    (plain : e.metadata.reverts = none) (kind : e.kind = .credit)
    (pools : v'.pools =
      v.pools ++ [CreditPool.opened c.poolId e.account e.id e.amount e.createdAt]) :
    SpentInOrder v' := by
  have isCredit : e.isCredit = true := by simp [Entry.isCredit, Entry.isReversal, plain, kind]
  constructor
  · simp [pools, entries, spent.times, isCredit, CreditPool.opened]
  · intro ordered
    rw [entries] at ordered ⊢
    obtain ⟨before, -, -⟩ := List.pairwise_append.mp ordered
    rw [pools]
    refine List.pairwise_append.mpr ⟨(spent.order before).imp fun pair => ?_,
      List.pairwise_singleton _ _, fun p _ q new => .inr ?_⟩
    · exact pair.imp_right fun untouched => untouched.mono (List.subset_append_left _ _)
    · rw [List.mem_singleton.mp new]
      exact ⟨rfl, e, by simp, isCredit, rfl, rfl⟩

/-- A debit draws on the pools from the front. -/
theorem debit (spent : SpentInOrder v) (funded : Funded v) (ids : (v.pools.map (·.id)).Nodup)
    (entries : v'.entries = v.entries ++ [e]) (kind : e.kind = .debit)
    {allocations : List Allocation} (covered : allocate v.openPools e.amount = .ok allocations)
    (pools : v'.pools = v.pools.map (·.drawnBy e.createdAt allocations)) : SpentInOrder v' := by
  have plainCredit : e.isCredit = false := by simp [Entry.isCredit, kind]
  constructor
  · rw [pools, List.map_map, entries, List.filter_append, List.map_append, ← spent.times]
    simp [plainCredit, Function.comp_def]
  · intro ordered
    rw [entries] at ordered ⊢
    obtain ⟨before, -, -⟩ := List.pairwise_append.mp ordered
    have drawn := AccountRows.pairwise_drawnBy e.createdAt ids (spent.increasing before) covered
    rw [pools]
    refine List.pairwise_map.mpr (((spent.order before).and drawn).imp_of_mem ?_)
    rintro p q held held' ⟨pair, drawn⟩
    -- Only open pools are drawn on, and behind an open pool every pool was untouched before.
    cases left : p.isOpen with
    | false =>
      have nonneg := funded.nonneg p held
      have exhausted : ¬ 0 < p.remaining.val := by
        rw [← Amount.isPositive_iff]
        exact Bool.eq_false_iff.mp left
      rw [AccountRows.drawnBy_of_closed ids covered held left]
      exact .inl (by omega)
    | true =>
      have some_left : 0 < p.remaining.val := Amount.isPositive_iff.mp left
      have untouched := (pair.resolve_left (by omega)).mono (List.subset_append_left _ [e])
      cases left' : q.isOpen with
      | false =>
        rw [AccountRows.drawnBy_of_closed ids covered held' left']
        exact .inr untouched
      | true =>
        rcases drawn left left' with emptied | same
        · exact .inl emptied
        · exact .inr (by rwa [same])

/-- A reversal leaves the pools alone. -/
theorem reversal (spent : SpentInOrder v) (entries : v'.entries = v.entries ++ [e])
    {link : RevertLink} (reverts : e.metadata.reverts = some link) (pools : v'.pools = v.pools) :
    SpentInOrder v' := by
  have plainCredit : e.isCredit = false := by simp [Entry.isCredit, Entry.isReversal, reverts]
  constructor
  · simp [pools, entries, spent.times, plainCredit]
  · intro ordered
    rw [entries] at ordered ⊢
    obtain ⟨before, -, -⟩ := List.pairwise_append.mp ordered
    rw [pools]
    exact (spent.order before).imp fun pair =>
      pair.imp_right fun untouched => untouched.mono (List.subset_append_left _ _)

/-- Every new entry keeps the pools of its account spent from the front. -/
theorem step (spent : SpentInOrder v) (funded : Funded v) (ids : (v.pools.map (·.id)).Nodup)
    (entries : v'.entries = v.entries ++ [e]) (booked : Booked c v e v') : SpentInOrder v' := by
  cases booked with
  | credit plain kind _ _ pools => exact spent.credit entries plain kind pools
  | debit _ kind allocations covered _ pools =>
    exact spent.debit funded ids entries kind covered pools
  | reversal original _ reverts _ _ _ _ pools => exact spent.reversal entries reverts pools

end SpentInOrder

/-- After any calls on an empty store the pools of every account are spent from the front. -/
theorem Memory.spentInOrder_of_serve {calls : List Call} (apart : calls.Pairwise Call.Apart)
    (a : Account) : SpentInOrder ((({} : Memory).serve calls).2.books.rows a) := by
  have both := rows_of_serve_conserved (P := fun v => Funded v ∧ SpentInOrder v)
    ⟨funded_empty, spentInOrder_empty⟩
    (fun _ _ _ _ _ conserved kept ids entries booked =>
      ⟨kept.1.step conserved ids entries booked, kept.2.step kept.1 ids entries booked⟩)
    apart a
  exact both.2

/-- The listing of all pools of an account is in the order of the credits. -/
theorem SpentInOrder.findPools_all {b : Books} {a : Account} (spent : SpentInOrder (b.rows a))
    (chained : Chained (b.rows a).entries) : b.findPools (.all a) = (b.rows a).pools := by
  have listed : b.pools.filter (PoolFilter.all a).isMatch = (b.rows a).pools :=
    List.filter_congr fun p _ => by simp [PoolFilter.all, PoolFilter.isMatch]
  simp only [Books.findPools, PoolFilter.list, listed]
  exact CreditPool.sort_of_increasing (spent.increasing chained.increasing)

/-- After any calls on an empty store, whatever the clocks show, the pools of an account, oldest
first, are spent from the front: up to some place nothing is left in them, and behind this place
they hold all of their credits and were never drawn on. So no pool is touched that comes after one
with something left. -/
theorem Memory.spent_from_the_front (calls : List Call) (apart : calls.Pairwise Call.Apart)
    (fits : ({} : Memory).ClockInRange calls) (a : Account) :
    let b := (({} : Memory).serve calls).2.books
    let chain := b.findEntries (.chain a)
    let pools := b.findPools (.all a)
    (∃ k, (∀ p ∈ pools.take k, p.remaining.val = 0) ∧
      ∀ p ∈ pools.drop (k + 1), p.Untouched chain) ∧
    pools.Pairwise fun p q => p.remaining.val = 0 ∨ q.Untouched chain := by
  intro b chain pools
  have chained : Chained (b.rows a).entries :=
    chained_of_serve atRest_empty (fun _ => chained_nil) fits a
  have spent : SpentInOrder (b.rows a) := spentInOrder_of_serve apart a
  have ordered := spent.order chained.increasing
  rw [← Books.findEntries_chain chained, ← spent.findPools_all chained] at ordered
  exact ⟨exists_turning_point ordered, ordered⟩

theorem Memory.spent_from_the_front_two_credits :
    let calls := [
      Call.numbered 0 (.add ⟨"acme", "ann", .credit, ⟨10, by decide⟩, "first", "", []⟩),
      Call.numbered 1 (.add ⟨"acme", "ann", .debit, ⟨4, by decide⟩, "second", "", []⟩),
      Call.numbered 2 (.add ⟨"acme", "ann", .debit, ⟨5, by decide⟩, "third", "", []⟩),
      Call.numbered 3 (.add ⟨"acme", "ann", .credit, ⟨7, by decide⟩, "fourth", "", []⟩),
      Call.numbered 4 (.revert ⟨Uuid.ofNat 0⟩)]
    let a : Account := ⟨"acme", "ann"⟩
    let b := (({} : Memory).serve calls).2.books
    let chain := b.findEntries (.chain a)
    let pools := b.findPools (.all a)
    (b.entries.length = 5 ∧ b.pools.map (·.remaining.val) = [1, 7]) ∧
    (∃ k, (∀ p ∈ pools.take k, p.remaining.val = 0) ∧
      ∀ p ∈ pools.drop (k + 1), p.Untouched chain) ∧
    pools.Pairwise fun p q => p.remaining.val = 0 ∨ q.Untouched chain := by
  refine ⟨by decide +kernel, Memory.spent_from_the_front _ ?_ ?_ ⟨"acme", "ann"⟩⟩
  · repeat' apply List.Pairwise.cons
    all_goals simp [Call.numbered_apart]
  · decide +kernel

end PointLedger

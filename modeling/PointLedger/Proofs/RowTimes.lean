import PointLedger.Proofs.SpendingOrder

/-!
The times of the rows that are derived from a chain. The balance row of an account dates from the
first entry of the chain and was changed with the last one, whatever kind that is; a pool dates from
its credit and was changed with the last debit that draws on it. No other clock is read for them.
-/

namespace PointLedger

/-- True for debits that name the credit among their sources; reversals draw on nothing. -/
def Entry.drawsFrom (e : Entry) (credit : EntryId) : Bool :=
  e.isDebit && e.metadata.sources.any (·.entryId == credit)

/-- The last debit among some entries that draws on the credit. -/
def lastDraw (entries : List Entry) (credit : EntryId) : Option Entry :=
  (entries.filter (·.drawsFrom credit)).getLast?

theorem lastDraw_concat (entries : List Entry) (e : Entry) (credit : EntryId) :
    lastDraw (entries ++ [e]) credit =
      if e.drawsFrom credit then some e else lastDraw entries credit := by
  cases draws : e.drawsFrom credit <;> simp [lastDraw, draws]

/-- An entry of another sort is nobody's last debit. -/
theorem lastDraw_concat_of_plain {e : Entry} (plain : e.isDebit = false) (entries : List Entry)
    (credit : EntryId) : lastDraw (entries ++ [e]) credit = lastDraw entries credit := by
  simp [lastDraw_concat, Entry.drawsFrom, plain]

/-- A debit draws on credits only, so no debit draws on an entry that is new. -/
theorem Funded.lastDraw_new {v : AccountRows} (funded : Funded v) {id : EntryId}
    (new : ∀ p ∈ v.pools, p.entryId ≠ id) : lastDraw v.entries id = none := by
  refine List.getLast?_eq_none_iff.mpr (List.filter_eq_nil_iff.mpr fun e member draws => ?_)
  obtain ⟨isDebit, named⟩ := Bool.and_eq_true_iff.mp draws
  obtain ⟨source, listed, same⟩ := List.any_eq_true.mp named
  obtain ⟨earlier, later, split⟩ := List.append_of_mem member
  have drawsOn := funded.sources earlier e later split
  rw [if_pos isDebit] at drawsOn
  obtain ⟨credit, before, isCredit, own⟩ := drawsOn.credits source listed
  obtain ⟨p, held, stands⟩ :=
    funded.exists_pool (split ▸ List.mem_append_left _ before) isCredit
  exact new p held (stands.trans (own.trans (eq_of_beq same)))

/-- A debit changes the pools of just the credits that its sources name. -/
theorem CreditPool.consumedAt_drawnBy {v : AccountRows} {amount : Amount} {time : Timestamp}
    {allocations : List Allocation} (ids : (v.pools.map (·.id)).Nodup)
    (credits : (v.pools.map (·.entryId)).Nodup)
    (covered : allocate v.openPools amount = .ok allocations) {p : CreditPool}
    (held : p ∈ v.pools) :
    (p.drawnBy time allocations).consumedAt =
      if (allocations.map Allocation.source).any (·.entryId == p.entryId) then some time
      else p.consumedAt := by
  -- A pool is known by its id as well as by its credit, and an allocation names both.
  have own : ∀ a ∈ allocations, a.poolId = p.id ↔ a.entryId = p.entryId := by
    intro a taken
    obtain ⟨q, listed, takes⟩ := exists_takes_of_mem_allocate covered taken
    have member : q ∈ v.pools := List.mem_mergeSort.mp (List.mem_filter.mp listed).1
    rw [takes.pool, takes.credit]
    constructor
    · intro same
      rw [List.inj_on_of_nodup_map ids member held same]
    · intro same
      rw [List.inj_on_of_nodup_map credits member held same]
  cases found : allocations.find? (·.poolId == p.id) with
  | some a =>
    have taken := List.mem_of_find?_eq_some found
    have named : a.poolId = p.id := by simpa using List.find?_some found
    have listed : (allocations.map Allocation.source).any (·.entryId == p.entryId) = true :=
      List.any_eq_true.mpr
        ⟨a.source, List.mem_map_of_mem taken, beq_iff_eq.mpr ((own a taken).mp named)⟩
    rw [drawnBy, found, if_pos listed]
    rfl
  | none =>
    have unlisted : ¬ (allocations.map Allocation.source).any (·.entryId == p.entryId) = true := by
      intro named
      obtain ⟨source, listed, same⟩ := List.any_eq_true.mp named
      obtain ⟨a, taken, rfl⟩ := List.mem_map.mp listed
      have other := List.find?_eq_none.mp found a taken
      exact other (beq_iff_eq.mpr ((own a taken).mpr (eq_of_beq same)))
    rw [drawnBy, found, if_neg unlisted]

/-! ### Rows that are dated by their chain -/

/-- The balance row and the pools have the times of the entries that made them and that changed
them last. -/
structure Dated (v : AccountRows) : Prop where
  opened : v.balance.map (·.createdAt) = v.entries.head?.map (·.createdAt)
  changed : v.balance.map (·.updatedAt) = v.entries.getLast?.map (·.createdAt)
  drawn : ∀ p ∈ v.pools, p.consumedAt = (lastDraw v.entries p.entryId).map (·.createdAt)

theorem dated_empty : Dated ⟨[], [], none⟩ where
  opened := rfl
  changed := rfl
  drawn _ held := by cases held

namespace Dated

variable {c : Call} {v v' : AccountRows} {e : Entry}

/-- A new entry opens the balance row or changes it at its own time. -/
theorem balance (dated : Dated v) (id : BalanceId) (a : Account)
    (entries : v'.entries = v.entries ++ [e]) {delta : Amount} {row' : Balance}
    (balance' : v'.balance = some row')
    (changed : (v.balance = none ∧ row' = Balance.opened id a delta e.createdAt) ∨
      ∃ row, v.balance = some row ∧ row.apply delta e.createdAt = .ok row') :
    v'.balance.map (·.createdAt) = v'.entries.head?.map (·.createdAt) ∧
      v'.balance.map (·.updatedAt) = v'.entries.getLast?.map (·.createdAt) := by
  have opened := dated.opened
  rw [entries, balance', List.getLast?_concat]
  rcases changed with ⟨absent, rfl⟩ | ⟨row, present, applied⟩
  · -- Without a balance row there is no entry yet, so the new one is the first.
    rw [absent] at opened
    have none : v.entries = [] :=
      List.head?_eq_none_iff.mp (Option.map_eq_none_iff.mp opened.symm)
    rw [none]
    exact ⟨rfl, rfl⟩
  · rw [present] at opened
    rw [(Balance.apply_eq_ok applied).2]
    refine ⟨?_, rfl⟩
    cases first : v.entries.head? with
    | none =>
      rw [first] at opened
      cases opened
    | some e₀ =>
      rw [first] at opened
      rw [List.head?_append, first]
      exact opened

/-- A credit opens a pool that no debit has drawn on. -/
theorem credit (dated : Dated v) (funded : Funded v) (entries : v'.entries = v.entries ++ [e])
    (kind : e.kind = .credit)
    (pools : v'.pools = v.pools ++ [CreditPool.opened c.poolId e.account e.id e.amount e.createdAt])
    (fresh : ∀ p ∈ v.pools, p.entryId ≠ e.id) :
    ∀ p ∈ v'.pools, p.consumedAt = (lastDraw v'.entries p.entryId).map (·.createdAt) := by
  have plain : e.isDebit = false := by simp [Entry.isDebit, kind]
  intro p held
  rw [entries, lastDraw_concat_of_plain plain]
  rw [pools] at held
  rcases List.mem_append.mp held with old | new
  · exact dated.drawn p old
  · obtain rfl := List.mem_singleton.mp new
    have unnamed : lastDraw v.entries e.id = none := funded.lastDraw_new fresh
    rw [CreditPool.opened, unnamed]
    rfl

/-- A debit leaves its time in the pools that it draws on. -/
theorem debit (dated : Dated v) (funded : Funded v) (ids : (v.pools.map (·.id)).Nodup)
    (entries : v'.entries = v.entries ++ [e]) (plain : e.metadata.reverts = none)
    (kind : e.kind = .debit) {allocations : List Allocation}
    (covered : allocate v.openPools e.amount = .ok allocations)
    (sources : e.metadata.sources = allocations.map Allocation.source)
    (pools : v'.pools = v.pools.map (·.drawnBy e.createdAt allocations)) :
    ∀ p ∈ v'.pools, p.consumedAt = (lastDraw v'.entries p.entryId).map (·.createdAt) := by
  have isDebit : e.isDebit = true := by simp [Entry.isDebit, Entry.isReversal, plain, kind]
  intro p' held'
  rw [pools] at held'
  obtain ⟨p, held, rfl⟩ := List.mem_map.mp held'
  have draws : e.drawsFrom p.entryId =
      (allocations.map Allocation.source).any (·.entryId == p.entryId) := by
    rw [Entry.drawsFrom, isDebit, sources, Bool.true_and]
  rw [CreditPool.consumedAt_drawnBy ids funded.distinct covered held, entries, lastDraw_concat,
    CreditPool.entryId_drawnBy, draws]
  split
  · rfl
  · exact dated.drawn p held

/-- Every new entry leaves its time in the rows that it changes. -/
theorem step (dated : Dated v) (funded : Funded v) (ids : (v.pools.map (·.id)).Nodup)
    (entries : v'.entries = v.entries ++ [e]) (booked : Booked c v e v') : Dated v' := by
  cases booked with
  | credit _ kind _ _ pools fresh row' balance' changed =>
    obtain ⟨opened, last⟩ := dated.balance _ _ entries balance' changed
    exact ⟨opened, last, dated.credit funded entries kind pools fresh⟩
  | debit plain kind allocations covered sources pools row row' present balance' applied =>
    obtain ⟨opened, last⟩ := dated.balance c.balanceId e.account entries balance'
      (.inr ⟨row, present, applied⟩)
    exact ⟨opened, last, dated.debit funded ids entries plain kind covered sources pools⟩
  | reversal original _ reverts _ _ _ _ pools row row' present balance' applied =>
    obtain ⟨opened, last⟩ := dated.balance c.balanceId e.account entries balance'
      (.inr ⟨row, present, applied⟩)
    have plain : e.isDebit = false := by simp [Entry.isDebit, Entry.isReversal, reverts]
    refine ⟨opened, last, ?_⟩
    rw [pools, entries]
    intro p held
    rw [lastDraw_concat_of_plain plain]
    exact dated.drawn p held

end Dated

/-- After any calls on an empty store the rows of every account are dated by its chain. -/
theorem Memory.dated_of_serve {calls : List Call} (apart : calls.Pairwise Call.Apart)
    (a : Account) : Dated ((({} : Memory).serve calls).2.books.rows a) := by
  have both := rows_of_serve_conserved (P := fun v => Funded v ∧ Dated v)
    ⟨funded_empty, dated_empty⟩
    (fun _ _ _ _ _ conserved kept ids entries booked =>
      ⟨kept.1.step conserved ids entries booked, kept.2.step kept.1 ids entries booked⟩)
    apart a
  exact both.2

/-- After any calls on an empty store, whatever the clocks show, an account has a balance row as
soon as it has an entry; the row was created at the time of the first entry of the chain and changed
last at the time of the last one. The pools stand one by one for the credits, each created at the
time of its credit and drawn on last at the time of the last debit of the chain that names the
credit, if there is one. An account without entries has no rows at all. -/
theorem Memory.rows_follow_chain (calls : List Call) (apart : calls.Pairwise Call.Apart)
    (fits : ({} : Memory).ClockInRange calls) (a : Account) :
    let b := (({} : Memory).serve calls).2.books
    let chain := b.findEntries (.chain a)
    let pools := b.pools.filter (·.account == a)
    (∀ first last, chain.head? = some first → chain.getLast? = some last →
      ∃ row, b.findBalance a = some row ∧ row.createdAt = first.createdAt ∧
        row.updatedAt = last.createdAt) ∧
      pools.map (fun p => (p.entryId, p.createdAt)) =
        (chain.filter Entry.isCredit).map (fun credit => (credit.id, credit.createdAt)) ∧
      (∀ p ∈ pools, p.consumedAt = (lastDraw chain p.entryId).map (·.createdAt)) ∧
      (chain = [] → b.findBalance a = none ∧ pools = []) := by
  intro b chain pools
  have listed : chain = (b.rows a).entries :=
    Books.findEntries_chain (chained_of_serve atRest_empty (fun _ => chained_nil) fits a)
  have funded : Funded (b.rows a) := funded_of_serve apart a
  have spent : SpentInOrder (b.rows a) := spentInOrder_of_serve apart a
  have dated : Dated (b.rows a) := dated_of_serve apart a
  rw [listed]
  refine ⟨fun first last begins ends => ?_, ?_, dated.drawn, fun empty => ⟨?_, ?_⟩⟩
  · have opened := dated.opened
    have changed := dated.changed
    rw [begins] at opened
    rw [ends] at changed
    obtain ⟨row, present, created⟩ := Option.map_eq_some_iff.mp opened
    rw [present] at changed
    exact ⟨row, present, created, Option.some.inj changed⟩
  · have ids := congrArg₂ List.zip funded.pools spent.times
    rwa [List.zip_map', List.zip_map'] at ids
  · have opened := dated.opened
    rw [empty] at opened
    exact Option.map_eq_none_iff.mp opened
  · have ids := funded.pools
    rw [empty] at ids
    exact List.map_eq_nil_iff.mp ids

theorem Memory.rows_follow_chain_pool_drawn_twice :
    let calls := [
      Call.numbered 0 (.add ⟨"acme", "ann", .credit, ⟨10, by decide⟩, "first", "", []⟩),
      Call.numbered 1 (.add ⟨"acme", "ann", .debit, ⟨4, by decide⟩, "second", "", []⟩),
      Call.numbered 2 (.add ⟨"acme", "ann", .debit, ⟨5, by decide⟩, "third", "", []⟩),
      Call.numbered 3 (.add ⟨"acme", "ann", .credit, ⟨7, by decide⟩, "fourth", "", []⟩),
      Call.numbered 4 (.revert ⟨Uuid.ofNat 3⟩)]
    let a : Account := ⟨"acme", "ann"⟩
    let b := (({} : Memory).serve calls).2.books
    let chain := b.findEntries (.chain a)
    let pools := b.pools.filter (·.account == a)
    (b.entries.map (·.createdAt.nano) = [0, 1000, 2000, 3000, 4000] ∧
      pools.map (·.consumedAt.map (·.nano)) = [some 2000, none]) ∧
    (∀ first last, chain.head? = some first → chain.getLast? = some last →
      ∃ row, b.findBalance a = some row ∧ row.createdAt = first.createdAt ∧
        row.updatedAt = last.createdAt) ∧
      pools.map (fun p => (p.entryId, p.createdAt)) =
        (chain.filter Entry.isCredit).map (fun credit => (credit.id, credit.createdAt)) ∧
      (∀ p ∈ pools, p.consumedAt = (lastDraw chain p.entryId).map (·.createdAt)) ∧
      (chain = [] → b.findBalance a = none ∧ pools = []) := by
  refine ⟨by decide +kernel, Memory.rows_follow_chain _ ?_ ?_ ⟨"acme", "ann"⟩⟩
  · repeat' apply List.Pairwise.cons
    all_goals simp [Call.numbered_apart]
  · decide +kernel

end PointLedger

import Mathlib.Data.List.Find
import PointLedger.Proofs.ChainValidity
import PointLedger.Proofs.Conservation
import PointLedger.Replay

/-!
Replay against the state that the calls keep up. The replay clamps where a call checks, and it
draws on the sources that a debit has recorded where the call has split the amount over the open
pools. After any calls the two agree: a call that succeeds has found each sum in range, so the
replay never clamps.
-/

namespace PointLedger

namespace Amount

/-- A clamped sum is exact when some amount is the sum. -/
theorem addClamped_eq {a b sum : Amount} (exact' : sum.val = a.val + b.val) :
    a.addClamped b = sum := by
  have range := sum.inRange
  apply Amount.ext
  rw [val_addClamped (by omega) (by omega), exact']

/-- A clamped difference is exact when some amount is the difference. -/
theorem subClamped_eq {a b difference : Amount} (exact' : difference.val = a.val - b.val) :
    a.subClamped b = difference := by
  have range := difference.inRange
  apply Amount.ext
  rw [val_subClamped (by omega) (by omega), exact']

end Amount

/-! ### What is left of credits -/

namespace Remainders

theorem get?_eq_find? (r : Remainders) (id : EntryId) :
    r.get? id = (r.find? (·.1 == id)).map (·.2) := by
  induction r with
  | nil => rfl
  | cons row rest ih =>
    rw [get?] at ih
    rw [get?, List.lookup_cons, List.find?_cons, ih, Bool.beq_comm]
    cases row.1 == id <;> rfl

theorem get?_set (r : Remainders) (id asked : EntryId) (amount : Amount) :
    (r.set id amount).get? asked = if id == asked then some amount else r.get? asked := by
  have found : (r.set id amount).find? (·.1 == asked) =
      if id == asked then some (id, amount) else r.find? (·.1 == asked) :=
    find?_upsert Prod.fst _ (id, amount) asked r
  rw [get?_eq_find?, get?_eq_find?, found]
  by_cases same : id == asked <;> simp [same]

theorem mem_of_mem_set {r : Remainders} {id : EntryId} {amount : Amount} {row : EntryId × Amount}
    (member : row ∈ r.set id amount) : row.1 = id ∨ row ∈ r := by
  rcases mem_of_mem_upsert member with rfl | old
  · exact .inl rfl
  · exact .inr old

end Remainders

namespace ReplayedState

theorem mem_of_mem_draws {sources : List AllocationSource} {r : Remainders}
    {row : EntryId × Amount} (member : row ∈ sources.foldl draw r) :
    row ∈ r ∨ ∃ source ∈ sources, source.entryId = row.1 := by
  induction sources generalizing r with
  | nil => exact .inl member
  | cons source rest ih =>
    rcases ih member with drawn | ⟨later, listed, same⟩
    · rcases Remainders.mem_of_mem_set drawn with same | old
      · exact .inr ⟨source, List.mem_cons_self, same.symm⟩
      · exact .inl old
    · exact .inr ⟨later, List.mem_cons_of_mem source listed, same⟩

/-- Drawing on what allocations have recorded leaves of every credit what they have left of its
pool. -/
theorem get?_draws {allocations : List Allocation} {drained : List CreditPool}
    (takes : List.Forall₂ Allocation.Takes allocations drained)
    (distinct : (drained.map (·.entryId)).Nodup) {r : Remainders}
    (known : ∀ p ∈ drained, r.get? p.entryId = some p.remaining) (id : EntryId) :
    ((allocations.map Allocation.source).foldl draw r).get? id =
      ((allocations.find? (·.entryId == id)).map (·.remainingAfter)).or (r.get? id) := by
  induction takes generalizing r with
  | nil => rfl
  | @cons a p as ps takes _ ih =>
    obtain ⟨new, distinct⟩ := List.nodup_cons.mp distinct
    have drawn : draw r a.source = r.set p.entryId a.remainingAfter := by
      have left : p.remaining.subClamped a.amount = a.remainingAfter :=
        Amount.subClamped_eq takes.left
      simp only [draw, Allocation.source, takes.credit, known p List.mem_cons_self,
        Option.getD_some, left]
    have known' : ∀ q ∈ ps, (r.set p.entryId a.remainingAfter).get? q.entryId =
        some q.remaining := by
      intro q member
      have other : (p.entryId == q.entryId) = false := by
        rw [beq_eq_false_iff_ne]
        intro same
        exact new (List.mem_map.mpr ⟨q, member, same.symm⟩)
      rw [Remainders.get?_set, other]
      exact known q (List.mem_cons_of_mem p member)
    rw [List.map_cons, List.foldl_cons, drawn, ih distinct known', Remainders.get?_set,
      List.find?_cons, takes.credit]
    by_cases asked : p.entryId = id
    · subst asked
      have missed : as.find? (·.entryId == p.entryId) = none := by
        refine List.find?_eq_none.mpr fun x taken same => ?_
        obtain ⟨q, member, later⟩ := exists_takes_of_mem ‹_› taken
        exact new (List.mem_map.mpr ⟨q, member, later.credit.symm.trans (eq_of_beq same)⟩)
      simp [missed]
    · have other : (p.entryId == id) = false := by simpa using asked
      simp [other]

end ReplayedState

/-! ### Replay and rows -/

/-- The state replayed from entries is what the rows of an account hold. -/
structure Rebuilt (v : AccountRows) (s : ReplayedState) : Prop where
  balance : s.balance.val = v.points
  count : s.entries = v.entries.length
  pools : ∀ p ∈ v.pools, s.pools.get? p.entryId = some p.remaining
  known : ∀ row ∈ s.pools, ∃ p ∈ v.pools, p.entryId = row.1
  distinct : (v.pools.map (·.entryId)).Nodup

theorem rebuilt_empty : Rebuilt ⟨[], [], none⟩ {} where
  balance := rfl
  count := rfl
  pools _ member := by cases member
  known _ member := by cases member
  distinct := .nil

theorem replay_concat (entries : List Entry) (e : Entry) :
    replay (entries ++ [e]) = (replay entries).apply e := by
  rw [replay, List.foldl_append]
  rfl

namespace Rebuilt

variable {c : Call} {v v' : AccountRows} {e : Entry} {s : ReplayedState}

/-- A change of the balance row is the change that the replay makes. -/
theorem subClamped_balance (rebuilt : Rebuilt v s) (points : v'.points = v.points - e.amount.val) :
    (s.balance.subClamped e.amount).val = v'.points := by
  have row : v'.points = ((v'.balance.map (·.balance)).getD Amount.zero).val := rfl
  rw [Amount.subClamped_eq (by rw [← row, points, rebuilt.balance]), row]

theorem addClamped_balance (rebuilt : Rebuilt v s) (points : v'.points = v.points + e.amount.val) :
    (s.balance.addClamped e.amount).val = v'.points := by
  have row : v'.points = ((v'.balance.map (·.balance)).getD Amount.zero).val := rfl
  rw [Amount.addClamped_eq (by rw [← row, points, rebuilt.balance]), row]

/-- What the replay of a debit leaves of a credit is what the debit has left in its pool. -/
theorem get?_of_debit (rebuilt : Rebuilt v s) (ids : (v.pools.map (·.id)).Nodup) {amount : Amount}
    {allocations : List Allocation} (covered : allocate v.openPools amount = .ok allocations)
    (time : Timestamp) {p : CreditPool} (member : p ∈ v.pools) :
    ((allocations.map Allocation.source).foldl ReplayedState.draw s.pools).get? p.entryId =
      some (p.drawnBy time allocations).remaining := by
  obtain ⟨drained, rest, split, takes⟩ := v.takes_of_allocate covered
  have held : ∀ q ∈ drained, q ∈ v.pools := fun q listed =>
    split.mem_iff.mpr (List.mem_append_left rest listed)
  have entryIds : (drained.map (·.entryId)).Nodup :=
    ((split.map _).nodup_iff.mp rebuilt.distinct).sublist ((List.sublist_append_left _ _).map _)
  have left := ReplayedState.get?_draws takes entryIds
    (fun q listed => rebuilt.pools q (held q listed)) p.entryId
  -- The replay finds by the credit the allocation that the debit finds by the pool.
  have same : allocations.find? (·.entryId == p.entryId) =
      allocations.find? (·.poolId == p.id) := by
    refine List.find?_congr fun a taken => ?_
    obtain ⟨q, listed, takes⟩ := exists_takes_of_mem takes taken
    rw [takes.pool, takes.credit, Bool.eq_iff_iff, beq_iff_eq, beq_iff_eq]
    constructor
    · intro credit
      rw [List.inj_on_of_nodup_map rebuilt.distinct (held q listed) member credit]
    · intro pool
      rw [List.inj_on_of_nodup_map ids (held q listed) member pool]
  rw [left, same, rebuilt.pools p member, CreditPool.drawnBy]
  cases allocations.find? (·.poolId == p.id) <;> rfl

theorem credit (rebuilt : Rebuilt v s) (plain : e.metadata.reverts = none) (kind : e.kind = .credit)
    (entries : v'.entries = v.entries ++ [e]) (points : v'.points = v.points + e.amount.val)
    (pools : v'.pools = v.pools ++ [CreditPool.opened c.poolId e.account e.id e.amount e.createdAt])
    (fresh : ∀ p ∈ v.pools, p.entryId ≠ e.id) : Rebuilt v' (s.apply e) := by
  have applied : s.apply e =
      ⟨s.balance.addClamped e.amount, s.pools.set e.id e.amount, s.entries + 1⟩ := by
    simp [ReplayedState.apply, Entry.isReversal, plain, kind]
  rw [applied]
  constructor
  · exact rebuilt.addClamped_balance points
  · simp [entries, rebuilt.count]
  · intro p member
    rw [pools] at member
    rw [Remainders.get?_set]
    rcases List.mem_append.mp member with old | new
    · have other : (e.id == p.entryId) = false := by simpa using (fresh p old).symm
      rw [other]
      exact rebuilt.pools p old
    · rw [List.mem_singleton.mp new]
      simp [CreditPool.opened]
  · intro row member
    rw [pools]
    rcases Remainders.mem_of_mem_set member with own | old
    · exact ⟨_, List.mem_append_right _ (List.mem_singleton_self _), own.symm⟩
    · obtain ⟨p, held, same⟩ := rebuilt.known row old
      exact ⟨p, List.mem_append_left _ held, same⟩
  · rw [pools, List.map_append]
    refine List.nodup_append.mpr ⟨rebuilt.distinct, List.nodup_singleton _, ?_⟩
    intro id old id' new
    obtain ⟨p, held, rfl⟩ := List.mem_map.mp old
    rw [List.map_singleton, List.mem_singleton] at new
    exact new ▸ fresh p held

theorem debit (rebuilt : Rebuilt v s) (ids : (v.pools.map (·.id)).Nodup)
    (plain : e.metadata.reverts = none) (kind : e.kind = .debit)
    (entries : v'.entries = v.entries ++ [e]) (points : v'.points = v.points - e.amount.val)
    {allocations : List Allocation} (covered : allocate v.openPools e.amount = .ok allocations)
    (sources : e.metadata.sources = allocations.map Allocation.source)
    (pools : v'.pools = v.pools.map (·.drawnBy e.createdAt allocations)) :
    Rebuilt v' (s.apply e) := by
  have applied : s.apply e = ⟨s.balance.subClamped e.amount,
      (allocations.map Allocation.source).foldl ReplayedState.draw s.pools, s.entries + 1⟩ := by
    simp [ReplayedState.apply, Entry.isReversal, plain, kind, sources]
  rw [applied]
  constructor
  · exact rebuilt.subClamped_balance points
  · simp [entries, rebuilt.count]
  · intro p' member
    rw [pools] at member
    obtain ⟨p, held, rfl⟩ := List.mem_map.mp member
    rw [CreditPool.entryId_drawnBy]
    exact rebuilt.get?_of_debit ids covered e.createdAt held
  · intro row member
    -- A debit draws on pools of the account only, so the replay learns of no new credit.
    obtain ⟨p, held, same⟩ : ∃ p ∈ v.pools, p.entryId = row.1 := by
      rcases ReplayedState.mem_of_mem_draws member with old | ⟨source, listed, same⟩
      · exact rebuilt.known row old
      · obtain ⟨a, taken, rfl⟩ := List.mem_map.mp listed
        obtain ⟨drained, rest, split, takes⟩ := v.takes_of_allocate covered
        obtain ⟨p, drawn, takes⟩ := exists_takes_of_mem takes taken
        exact ⟨p, split.mem_iff.mpr (List.mem_append_left rest drawn), takes.credit.symm.trans same⟩
    rw [pools]
    exact ⟨_, List.mem_map_of_mem held, by rw [CreditPool.entryId_drawnBy, same]⟩
  · have same : v'.pools.map (·.entryId) = v.pools.map (·.entryId) := by
      rw [pools, List.map_map]
      exact List.map_congr_left fun p _ => CreditPool.entryId_drawnBy p
    rw [same]
    exact rebuilt.distinct

theorem reversal (rebuilt : Rebuilt v s) {link : RevertLink}
    (reverts : e.metadata.reverts = some link) (entries : v'.entries = v.entries ++ [e])
    (points : v'.points = v.points - e.amount.val)
    (pools : v'.pools = v.pools) : Rebuilt v' (s.apply e) := by
  have applied : s.apply e = ⟨s.balance.subClamped e.amount, s.pools, s.entries + 1⟩ := by
    simp [ReplayedState.apply, Entry.isReversal, reverts]
  rw [applied]
  constructor
  · exact rebuilt.subClamped_balance points
  · simp [entries, rebuilt.count]
  · rw [pools]
    exact rebuilt.pools
  · rw [pools]
    exact rebuilt.known
  · rw [pools]
    exact rebuilt.distinct

/-- Replaying one more entry keeps up with the rows. -/
theorem step (rebuilt : Rebuilt v s) (conserved : v.Conserved) (ids : (v.pools.map (·.id)).Nodup)
    (entries : v'.entries = v.entries ++ [e]) (booked : Booked c v e v') :
    Rebuilt v' (s.apply e) := by
  cases booked with
  | credit plain kind sources new pools fresh row' balance' changed =>
    have points := AccountRows.points_of_credit balance' changed
    exact rebuilt.credit plain kind entries points pools fresh
  | debit plain kind allocations covered sources pools row row' balance balance' changed =>
    have new : 0 < e.amount.val := (allocate_eq_ok covered).1
    have points := AccountRows.points_of_taken new balance balance' changed
    exact rebuilt.debit ids plain kind entries points covered sources pools
  | reversal original member reverts sources kind amount reference pools row row' balance balance'
      changed =>
    have new : 0 < e.amount.val := amount ▸ conserved.positive original member
    have points := AccountRows.points_of_taken new balance balance' changed
    exact rebuilt.reversal reverts entries points pools

/-- Where the replay keeps up with the rows, the comparison finds no difference. -/
theorem reconcile_eq (a : Account) (rebuilt : Rebuilt v (replay v.entries))
    {pools : List CreditPool} (listed : ∀ p, p ∈ pools ↔ p ∈ v.pools) :
    let report := reconcile a v.entries pools v.balance
    report.consistent = true ∧ report.poolDrift = [] ∧
      report.replayedBalance = report.storedBalance ∧
      report.entriesReplayed = v.entries.length := by
  have stored : storedDrift pools (replay v.entries).pools = [] := by
    refine List.filterMap_eq_nil_iff.mpr fun p member => ?_
    simp [rebuilt.pools p ((listed p).mp member)]
  have missing : missingDrift pools (replay v.entries).pools = [] := by
    refine List.filterMap_eq_nil_iff.mpr fun row member => ?_
    obtain ⟨p, held, same⟩ := rebuilt.known row member
    have present : pools.any (·.entryId == row.1) = true :=
      List.any_eq_true.mpr ⟨p, (listed p).mpr held, by simp [same]⟩
    simp [present]
  have balance : (v.balance.map (·.balance)).getD Amount.zero = (replay v.entries).balance :=
    Amount.ext rebuilt.balance.symm
  refine ⟨?_, ?_, balance.symm, rebuilt.count⟩
  · simp [reconcile, stored, missing, balance]
  · simp [reconcile, stored, missing]

end Rebuilt

/-- After any calls on an empty store the replay of every account keeps up with its rows. -/
theorem Memory.rebuilt_of_serve {calls : List Call} (apart : calls.Pairwise Call.Apart)
    (a : Account) :
    let v := (({} : Memory).serve calls).2.books.rows a
    Rebuilt v (replay v.entries) :=
  rows_of_serve_conserved (P := fun v => Rebuilt v (replay v.entries)) rebuilt_empty
    (fun c v e v' conserved _ rebuilt ids entries booked => by
      rw [entries, replay_concat]
      exact rebuilt.step conserved ids entries booked)
    apart a

/-- The listing of all pools of an account. -/
theorem Books.mem_findPools_all {b : Books} {a : Account} {p : CreditPool} :
    p ∈ b.findPools (.all a) ↔ p ∈ (b.rows a).pools := by
  simp [findPools, PoolFilter.list, CreditPool.sort, PoolFilter.isMatch, PoolFilter.all, rows]

/-- After any calls on an empty store, whatever was credited, debited and reverted, reconciling an
account finds no difference: the replay of its entries gives the balance and the pools that are
stored. -/
theorem Memory.reconcile_consistent (calls : List Call) (apart : calls.Pairwise Call.Apart)
    (fits : ({} : Memory).ClockInRange calls) (a : Account) :
    let b := (({} : Memory).serve calls).2.books
    let report := reconcile a (b.findEntries (.chain a)) (b.findPools (.all a)) (b.findBalance a)
    report.consistent = true ∧ report.poolDrift = [] ∧
      report.replayedBalance = report.storedBalance ∧
      report.entriesReplayed = (b.entries.filter (·.account == a)).length := by
  have chained := chained_of_serve atRest_empty (fun _ => chained_nil) fits a
  have rebuilt := rebuilt_of_serve apart a
  intro b
  rw [Books.findEntries_chain chained]
  exact rebuilt.reconcile_eq a fun p => Books.mem_findPools_all

theorem Memory.reconcile_consistent_reversal_of_credit :
    let calls := [
      Call.numbered 0 (.add ⟨"acme", "ann", .credit, ⟨10, by decide⟩, "first", "", []⟩),
      Call.numbered 1 (.add ⟨"acme", "ann", .debit, ⟨4, by decide⟩, "second", "", []⟩),
      Call.numbered 2 (.revert ⟨Uuid.ofNat 0⟩)]
    let b := (({} : Memory).serve calls).2.books
    let a : Account := ⟨"acme", "ann"⟩
    let report := reconcile a (b.findEntries (.chain a)) (b.findPools (.all a)) (b.findBalance a)
    report.storedBalance.val = -4 ∧ report.consistent = true ∧ report.poolDrift = [] ∧
      report.replayedBalance = report.storedBalance ∧
      report.entriesReplayed = (b.entries.filter (·.account == a)).length := by
  refine ⟨by decide +kernel, Memory.reconcile_consistent _ ?_ ?_ ⟨"acme", "ann"⟩⟩
  · exact .cons (by simp [Call.numbered_apart]) (.cons (by simp [Call.numbered_apart])
      (.cons (by simp) .nil))
  · unfold Memory.ClockInRange Memory.ClockInRange Memory.ClockInRange Memory.ClockInRange
      Books.ClockFits Ledger.ClockFits
    decide +kernel

end PointLedger

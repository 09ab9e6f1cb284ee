import Mathlib.Algebra.Order.BigOperators.Group.List
import Mathlib.Algebra.Order.Group.Int
import PointLedger.Proofs.ChainValidity
import PointLedger.Proofs.Conservation

/-!
Where the points of debits come from. Every credit has one pool, and every debit records the credits
that it draws on. After any calls what is left in a pool is the credit less all that debits have
drawn on it, and no debit draws on anything but credits that come before it in the chain. So no
point is spent twice, and at no place of a chain has more been spent than was earned.
-/

namespace PointLedger

namespace Entry

/-- True for credits that are no reversals: the entries that open a pool. -/
def isCredit (e : Entry) : Bool := !e.isReversal && e.kind == .credit

/-- True for debits that are no reversals: the entries that draw on pools. -/
def isDebit (e : Entry) : Bool := !e.isReversal && e.kind == .debit

/-- The amounts of entries together. -/
def total (entries : List Entry) : Int := (entries.map (·.amount.val)).sum

end Entry

/-- What sources take from a credit together. -/
def AllocationSource.taken (sources : List AllocationSource) (credit : EntryId) : Int :=
  ((sources.filter (·.entryId == credit)).map (·.amount.val)).sum

/-- What the debits among some entries have drawn on a credit together. -/
def drawnOn (entries : List Entry) (credit : EntryId) : Int :=
  AllocationSource.taken ((entries.filter Entry.isDebit).flatMap (·.metadata.sources)) credit

/-- The entry draws on credits among those before it. Its sources name different credits and take
positive amounts that add up to the amount of the entry. -/
structure Entry.DrawsOn (e : Entry) (earlier : List Entry) : Prop where
  nonempty : e.metadata.sources ≠ []
  positive : ∀ source ∈ e.metadata.sources, 0 < source.amount.val
  distinct : (e.metadata.sources.map (·.entryId)).Nodup
  total : (e.metadata.sources.map (·.amount.val)).sum = e.amount.val
  credits : ∀ source ∈ e.metadata.sources, ∃ credit ∈ earlier,
    credit.isCredit = true ∧ credit.id = source.entryId

/-! ### Amounts drawn -/

namespace AllocationSource

theorem taken_append (first second : List AllocationSource) (credit : EntryId) :
    taken (first ++ second) credit = taken first credit + taken second credit := by
  simp [taken]

theorem taken_eq_zero {sources : List AllocationSource} {credit : EntryId}
    (unnamed : ∀ source ∈ sources, source.entryId ≠ credit) : taken sources credit = 0 := by
  have none : sources.filter (·.entryId == credit) = [] :=
    List.filter_eq_nil_iff.mpr fun source member => by simpa using unnamed source member
  rw [taken, none]
  rfl

end AllocationSource

theorem drawnOn_concat (entries : List Entry) (e : Entry) (credit : EntryId) :
    drawnOn (entries ++ [e]) credit = drawnOn entries credit +
      if e.isDebit then AllocationSource.taken e.metadata.sources credit else 0 := by
  cases debit : e.isDebit with
  | true => simp [drawnOn, debit, AllocationSource.taken_append]
  | false => simp [drawnOn, debit]

/-- An entry of another sort draws on no credit. -/
theorem drawnOn_concat_of_plain {e : Entry} (plain : e.isDebit = false) (entries : List Entry)
    (credit : EntryId) : drawnOn (entries ++ [e]) credit = drawnOn entries credit := by
  simp [drawnOn_concat, plain]

theorem map_entryId_of_takes {allocations : List Allocation} {drained : List CreditPool}
    (takes : List.Forall₂ Allocation.Takes allocations drained) :
    allocations.map (·.entryId) = drained.map (·.entryId) := by
  induction takes with
  | nil => rfl
  | cons takes _ ih => simp only [List.map_cons, takes.credit, ih]

/-- What a debit leaves in a pool is what its sources leave of the credit. -/
theorem CreditPool.remaining_drawnBy {time : Timestamp} {allocations : List Allocation}
    {drained rest : List CreditPool} (takes : List.Forall₂ Allocation.Takes allocations drained)
    (ids : ((drained ++ rest).map (·.id)).Nodup)
    (credits : ((drained ++ rest).map (·.entryId)).Nodup) {p : CreditPool}
    (member : p ∈ drained ++ rest) :
    (p.drawnBy time allocations).remaining.val = p.remaining.val -
      AllocationSource.taken (allocations.map Allocation.source) p.entryId := by
  induction takes with
  | nil => simp [drawnBy, AllocationSource.taken]
  | @cons a q as qs first later ih =>
    simp only [List.cons_append, List.map_cons, List.nodup_cons] at ids credits
    obtain ⟨newId, ids⟩ := ids
    obtain ⟨newCredit, credits⟩ := credits
    rcases List.mem_cons.mp member with rfl | member
    · -- The other allocations name the credits of other pools.
      have others : AllocationSource.taken (as.map Allocation.source) p.entryId = 0 := by
        refine AllocationSource.taken_eq_zero fun source listed same => ?_
        obtain ⟨b, taken, rfl⟩ := List.mem_map.mp listed
        obtain ⟨r, held, takes⟩ := exists_takes_of_mem later taken
        have same : r.entryId = p.entryId := takes.credit.symm.trans same
        exact newCredit (same ▸ List.mem_map_of_mem (List.mem_append_left rest held))
      have drawn : p.drawnBy time (a :: as) = p.drawn time a := drawnBy_cons_of_eq first.pool
      have left := first.left
      have own : AllocationSource.taken ((a :: as).map Allocation.source) p.entryId =
          a.amount.val := by
        rw [List.map_cons, ← List.singleton_append, AllocationSource.taken_append, others]
        simp [AllocationSource.taken, Allocation.source, first.credit]
      rw [drawn, own]
      exact left
    · have otherId : a.poolId ≠ p.id := by
        rw [first.pool]
        exact fun same => newId (same ▸ List.mem_map_of_mem member)
      have otherCredit : (a.entryId == p.entryId) = false := by
        rw [beq_eq_false_iff_ne, first.credit]
        exact fun same => newCredit (same ▸ List.mem_map_of_mem member)
      have drawn : p.drawnBy time (a :: as) = p.drawnBy time as := drawnBy_cons_of_ne otherId
      have skipped : AllocationSource.taken ((a :: as).map Allocation.source) p.entryId =
          AllocationSource.taken (as.map Allocation.source) p.entryId := by
        simp [AllocationSource.taken, Allocation.source, otherCredit]
      rw [drawn, skipped]
      exact ih ids credits member

/-! ### Rows whose debits are funded -/

/-- The pools and the debits of an account agree with its credits. -/
structure Funded (v : AccountRows) : Prop where
  pools : v.pools.map (·.entryId) = (v.entries.filter Entry.isCredit).map (·.id)
  distinct : (v.pools.map (·.entryId)).Nodup
  left : ∀ credit ∈ v.entries, credit.isCredit = true → ∀ p ∈ v.pools, p.entryId = credit.id →
    p.remaining.val = credit.amount.val - drawnOn v.entries credit.id
  nonneg : ∀ p ∈ v.pools, 0 ≤ p.remaining.val
  sources : ∀ earlier e later, v.entries = earlier ++ e :: later →
    if e.isDebit then e.DrawsOn earlier else e.metadata.sources = []
  covered : ∀ early, early <+: v.entries →
    Entry.total (early.filter Entry.isDebit) ≤ Entry.total (early.filter Entry.isCredit)

theorem funded_empty : Funded ⟨[], [], none⟩ where
  pools := rfl
  distinct := .nil
  left _ member := by cases member
  nonneg _ member := by cases member
  sources earlier e later split := by simp at split
  covered early begun := by
    obtain rfl := List.prefix_nil.mp begun
    exact Int.le_refl _

namespace Funded

variable {c : Call} {v v' : AccountRows} {e : Entry}

/-- A pool of the account stands for one of its credits. -/
theorem exists_credit (funded : Funded v) {p : CreditPool} (held : p ∈ v.pools) :
    ∃ credit ∈ v.entries, credit.isCredit = true ∧ credit.id = p.entryId := by
  have listed : p.entryId ∈ (v.entries.filter Entry.isCredit).map (·.id) :=
    funded.pools ▸ List.mem_map_of_mem held
  obtain ⟨credit, member, same⟩ := List.mem_map.mp listed
  obtain ⟨member, isCredit⟩ := List.mem_filter.mp member
  exact ⟨credit, member, isCredit, same⟩

/-- A credit of the account has its pool. -/
theorem exists_pool (funded : Funded v) {credit : Entry} (member : credit ∈ v.entries)
    (isCredit : credit.isCredit = true) : ∃ p ∈ v.pools, p.entryId = credit.id := by
  have listed : credit.id ∈ v.pools.map (·.entryId) :=
    funded.pools ▸ List.mem_map_of_mem (List.mem_filter.mpr ⟨member, isCredit⟩)
  obtain ⟨p, held, same⟩ := List.mem_map.mp listed
  exact ⟨p, held, same⟩

/-- No debit has drawn more on a credit than its amount. -/
theorem drawnOn_le (funded : Funded v) {credit : Entry} (member : credit ∈ v.entries)
    (isCredit : credit.isCredit = true) : drawnOn v.entries credit.id ≤ credit.amount.val := by
  obtain ⟨p, held, same⟩ := funded.exists_pool member isCredit
  have left := funded.left credit member isCredit p held same
  have nonneg := funded.nonneg p held
  omega

/-- A debit draws on credits only, so nothing is drawn on an entry that is new. -/
theorem drawnOn_new (funded : Funded v) {id : EntryId} (new : ∀ p ∈ v.pools, p.entryId ≠ id) :
    drawnOn v.entries id = 0 := by
  refine AllocationSource.taken_eq_zero fun source listed same => ?_
  obtain ⟨debit, member, named⟩ := List.mem_flatMap.mp listed
  obtain ⟨member, isDebit⟩ := List.mem_filter.mp member
  obtain ⟨earlier, later, split⟩ := List.append_of_mem member
  have draws := funded.sources earlier debit later split
  rw [if_pos isDebit] at draws
  obtain ⟨credit, before, isCredit, own⟩ := draws.credits source named
  have member : credit ∈ v.entries := split ▸ List.mem_append_left _ before
  obtain ⟨p, held, stands⟩ := funded.exists_pool member isCredit
  exact new p held (stands.trans (own.trans same))

/-- The sources of all entries after one more entry. -/
theorem sources_concat (funded : Funded v) (entries : v'.entries = v.entries ++ [e])
    (last : if e.isDebit then e.DrawsOn v.entries else e.metadata.sources = []) :
    ∀ earlier x later, v'.entries = earlier ++ x :: later →
      if x.isDebit then x.DrawsOn earlier else x.metadata.sources = [] := by
  rw [entries]
  exact forall_split_concat funded.sources last

/-- What was earned covers what was spent, as long as the rows are conserved. -/
theorem covered_concat (funded : Funded v) (entries : v'.entries = v.entries ++ [e])
    (conserved : v'.Conserved) (nonneg : ∀ p ∈ v'.pools, 0 ≤ p.remaining.val) :
    ∀ early, early <+: v'.entries →
      Entry.total (early.filter Entry.isDebit) ≤ Entry.total (early.filter Entry.isCredit) := by
  intro early begun
  rw [entries] at begun
  rcases List.prefix_concat_iff.mp begun with rfl | before
  · have pooled : 0 ≤ v'.pooled := by
      refine List.sum_nonneg fun amount member => ?_
      obtain ⟨p, held, rfl⟩ := List.mem_map.mp member
      exact nonneg p held
    have debited : Entry.total ((v.entries ++ [e]).filter Entry.isDebit) = v'.debited := by
      rw [← entries]
      rfl
    have credited : Entry.total ((v.entries ++ [e]).filter Entry.isCredit) = v'.credited := by
      rw [← entries]
      rfl
    have byEntries := conserved.entries
    have byPools := conserved.pools
    omega
  · exact funded.covered early before

/-- A credit opens the pool that stands for it. -/
theorem credit (funded : Funded v) (conserved : v'.Conserved)
    (entries : v'.entries = v.entries ++ [e]) (plain : e.metadata.reverts = none)
    (kind : e.kind = .credit) (sources : e.metadata.sources = []) (positive : 0 < e.amount.val)
    (pools : v'.pools = v.pools ++ [CreditPool.opened c.poolId e.account e.id e.amount e.createdAt])
    (fresh : ∀ p ∈ v.pools, p.entryId ≠ e.id) : Funded v' := by
  have isCredit : e.isCredit = true := by simp [Entry.isCredit, Entry.isReversal, plain, kind]
  have plainDebit : e.isDebit = false := by simp [Entry.isDebit, kind]
  have nonneg : ∀ p ∈ v'.pools, 0 ≤ p.remaining.val := by
    intro p held
    rw [pools] at held
    rcases List.mem_append.mp held with old | new
    · exact funded.nonneg p old
    · rw [List.mem_singleton.mp new]
      exact Int.le_of_lt positive
  constructor
  · simp [pools, entries, funded.pools, isCredit, CreditPool.opened]
  · rw [pools, List.map_append]
    refine List.nodup_append.mpr ⟨funded.distinct, List.nodup_singleton _, ?_⟩
    intro id old id' new
    obtain ⟨p, held, rfl⟩ := List.mem_map.mp old
    rw [List.map_singleton, List.mem_singleton] at new
    exact new ▸ fresh p held
  · intro credit member isCredit p held same
    rw [entries, drawnOn_concat_of_plain plainDebit]
    rw [entries] at member
    rw [pools] at held
    rcases List.mem_append.mp member with old | new
    · rcases List.mem_append.mp held with oldPool | newPool
      · exact funded.left credit old isCredit p oldPool same
      · -- The pool of the new credit stands for no entry that was there before.
        obtain ⟨q, heldBefore, stands⟩ := funded.exists_pool old isCredit
        rw [List.mem_singleton.mp newPool] at same
        exact absurd (stands.trans same.symm) (fresh q heldBefore)
    · obtain rfl := List.mem_singleton.mp new
      rcases List.mem_append.mp held with oldPool | newPool
      · exact absurd same (fresh p oldPool)
      · rw [List.mem_singleton.mp newPool, funded.drawnOn_new fresh, Int.sub_zero]
        rfl
  · exact nonneg
  · exact funded.sources_concat entries (by simpa [plainDebit] using sources)
  · exact funded.covered_concat entries conserved nonneg

/-- The sources of a debit are what it takes from the pools. -/
theorem drawsOn_of_debit (funded : Funded v) {allocations : List Allocation}
    (covered : allocate v.openPools e.amount = .ok allocations)
    (sources : e.metadata.sources = allocations.map Allocation.source) :
    e.DrawsOn v.entries := by
  obtain ⟨positive, sum, -⟩ := allocate_eq_ok covered
  obtain ⟨drained, rest, split, takes⟩ := v.takes_of_allocate covered
  have credits : ((drained ++ rest).map (·.entryId)).Nodup :=
    (split.map _).nodup_iff.mp funded.distinct
  constructor
  · intro empty
    rw [sources, List.map_eq_nil_iff] at empty
    rw [empty] at sum
    rw [← sum] at positive
    exact absurd positive (Int.lt_irrefl _)
  · intro source listed
    rw [sources] at listed
    obtain ⟨a, taken, rfl⟩ := List.mem_map.mp listed
    obtain ⟨p, -, takes⟩ := exists_takes_of_mem takes taken
    exact takes.positive
  · have ids : e.metadata.sources.map (·.entryId) = drained.map (·.entryId) := by
      rw [sources, List.map_map, ← map_entryId_of_takes takes]
      rfl
    rw [ids]
    exact credits.sublist ((List.sublist_append_left drained rest).map _)
  · rw [sources, List.map_map, ← sum]
    rfl
  · intro source listed
    rw [sources] at listed
    obtain ⟨a, taken, rfl⟩ := List.mem_map.mp listed
    obtain ⟨p, held, takes⟩ := exists_takes_of_mem takes taken
    obtain ⟨credit, member, isCredit, stands⟩ :=
      funded.exists_credit (split.mem_iff.mpr (List.mem_append_left rest held))
    exact ⟨credit, member, isCredit, stands.trans takes.credit.symm⟩

/-- A debit draws on the pools what its sources say. -/
theorem debit (funded : Funded v) (ids : (v.pools.map (·.id)).Nodup) (conserved : v'.Conserved)
    (entries : v'.entries = v.entries ++ [e]) (plain : e.metadata.reverts = none)
    (kind : e.kind = .debit) {allocations : List Allocation}
    (covered : allocate v.openPools e.amount = .ok allocations)
    (sources : e.metadata.sources = allocations.map Allocation.source)
    (pools : v'.pools = v.pools.map (·.drawnBy e.createdAt allocations)) : Funded v' := by
  have isDebit : e.isDebit = true := by simp [Entry.isDebit, Entry.isReversal, plain, kind]
  have plainCredit : e.isCredit = false := by simp [Entry.isCredit, kind]
  obtain ⟨drained, rest, split, takes⟩ := v.takes_of_allocate covered
  have remaining : ∀ p ∈ v.pools, (p.drawnBy e.createdAt allocations).remaining.val =
      p.remaining.val - AllocationSource.taken e.metadata.sources p.entryId := by
    intro p held
    rw [sources]
    exact CreditPool.remaining_drawnBy takes ((split.map _).nodup_iff.mp ids)
      ((split.map _).nodup_iff.mp funded.distinct) (split.mem_iff.mp held)
  have entryIds : v'.pools.map (·.entryId) = v.pools.map (·.entryId) := by
    rw [pools, List.map_map]
    exact List.map_congr_left fun p _ => CreditPool.entryId_drawnBy p
  have nonneg : ∀ p ∈ v'.pools, 0 ≤ p.remaining.val := by
    intro p' held
    rw [pools] at held
    obtain ⟨p, heldBefore, rfl⟩ := List.mem_map.mp held
    unfold CreditPool.drawnBy
    cases found : allocations.find? (·.poolId == p.id) with
    | none => exact funded.nonneg p heldBefore
    | some a =>
      obtain ⟨q, -, takes⟩ := exists_takes_of_mem takes (List.mem_of_find?_eq_some found)
      have left := takes.left
      have within := takes.within
      simp only [CreditPool.drawn]
      omega
  constructor
  · simp [entryIds, entries, funded.pools, plainCredit]
  · rw [entryIds]
    exact funded.distinct
  · intro credit member isCredit p' held same
    rw [entries] at member
    rw [pools] at held
    obtain ⟨p, heldBefore, rfl⟩ := List.mem_map.mp held
    rw [CreditPool.entryId_drawnBy] at same
    rw [entries, drawnOn_concat, if_pos isDebit, remaining p heldBefore, same]
    rcases List.mem_append.mp member with old | new
    · have left := funded.left credit old isCredit p heldBefore same
      omega
    · rw [List.mem_singleton.mp new, plainCredit] at isCredit
      cases isCredit
  · exact nonneg
  · refine funded.sources_concat entries ?_
    rw [if_pos isDebit]
    exact funded.drawsOn_of_debit covered sources
  · exact funded.covered_concat entries conserved nonneg

/-- A reversal leaves pools and credits alone. -/
theorem reversal (funded : Funded v) (conserved : v'.Conserved)
    (entries : v'.entries = v.entries ++ [e]) {link : RevertLink}
    (reverts : e.metadata.reverts = some link) (sources : e.metadata.sources = [])
    (pools : v'.pools = v.pools) : Funded v' := by
  have isReversal : e.isReversal = true := by simp [Entry.isReversal, reverts]
  have plainCredit : e.isCredit = false := by simp [Entry.isCredit, isReversal]
  have plainDebit : e.isDebit = false := by simp [Entry.isDebit, isReversal]
  have nonneg : ∀ p ∈ v'.pools, 0 ≤ p.remaining.val := by
    rw [pools]
    exact funded.nonneg
  constructor
  · simp [pools, entries, funded.pools, plainCredit]
  · rw [pools]
    exact funded.distinct
  · intro credit member isCredit p held same
    rw [entries] at member
    rw [pools] at held
    rw [entries, drawnOn_concat_of_plain plainDebit]
    rcases List.mem_append.mp member with old | new
    · exact funded.left credit old isCredit p held same
    · rw [List.mem_singleton.mp new, plainCredit] at isCredit
      cases isCredit
  · exact nonneg
  · exact funded.sources_concat entries (by simpa [plainDebit] using sources)
  · exact funded.covered_concat entries conserved nonneg

/-- Every new entry keeps the debits of its account funded. -/
theorem step (funded : Funded v) (conserved : v'.Conserved) (ids : (v.pools.map (·.id)).Nodup)
    (entries : v'.entries = v.entries ++ [e]) (booked : Booked c v e v') : Funded v' := by
  cases booked with
  | credit plain kind sources positive pools fresh =>
    exact funded.credit conserved entries plain kind sources positive pools fresh
  | debit plain kind allocations covered sources pools =>
    exact funded.debit ids conserved entries plain kind covered sources pools
  | reversal original member reverts sources kind amount reference pools =>
    exact funded.reversal conserved entries reverts sources pools

end Funded

/-- After any calls on an empty store the debits of every account are funded. -/
theorem Memory.funded_of_serve {calls : List Call} (apart : calls.Pairwise Call.Apart)
    (a : Account) : Funded ((({} : Memory).serve calls).2.books.rows a) :=
  rows_of_serve_conserved funded_empty
    (fun _ _ _ _ _ conserved funded ids entries booked =>
      funded.step conserved ids entries booked)
    apart a

/-- After any calls on an empty store the pools of an account stand one by one for its credits;
every debit draws its whole amount on different credits that come before it in the chain, and no
other entry draws on anything; what debits have drawn on a credit is at most its amount, and the
rest is in its pool. So at no place of the chain has more been debited than credited. -/
theorem Memory.no_double_spend (calls : List Call) (apart : calls.Pairwise Call.Apart)
    (fits : ({} : Memory).ClockInRange calls) (a : Account) :
    let b := (({} : Memory).serve calls).2.books
    let chain := b.findEntries (.chain a)
    let pools := b.pools.filter (·.account == a)
    pools.map (·.entryId) = (chain.filter Entry.isCredit).map (·.id) ∧
      (pools.map (·.entryId)).Nodup ∧
      (∀ earlier e later, chain = earlier ++ e :: later →
        if e.isDebit then e.DrawsOn earlier else e.metadata.sources = []) ∧
      (∀ credit ∈ chain, credit.isCredit = true →
        drawnOn chain credit.id ≤ credit.amount.val ∧
          ∃ p ∈ pools, p.entryId = credit.id ∧
            p.remaining.val = credit.amount.val - drawnOn chain credit.id) ∧
      ∀ early, early <+: chain →
        Entry.total (early.filter Entry.isDebit) ≤ Entry.total (early.filter Entry.isCredit) := by
  intro b chain pools
  have listed : chain = (b.rows a).entries :=
    Books.findEntries_chain (chained_of_serve atRest_empty (fun _ => chained_nil) fits a)
  have funded : Funded (b.rows a) := funded_of_serve apart a
  rw [listed]
  refine ⟨funded.pools, funded.distinct, funded.sources, ?_, funded.covered⟩
  intro credit member isCredit
  obtain ⟨p, held, stands⟩ := funded.exists_pool member isCredit
  exact ⟨funded.drawnOn_le member isCredit, p, held, stands,
    funded.left credit member isCredit p held stands⟩

theorem Memory.no_double_spend_third_debit_refused :
    let calls := [
      Call.numbered 0 (.add ⟨"acme", "ann", .credit, ⟨10, by decide⟩, "first", "", []⟩),
      Call.numbered 1 (.add ⟨"acme", "ann", .debit, ⟨4, by decide⟩, "second", "", []⟩),
      Call.numbered 2 (.add ⟨"acme", "ann", .debit, ⟨5, by decide⟩, "third", "", []⟩),
      Call.numbered 3 (.add ⟨"acme", "ann", .debit, ⟨2, by decide⟩, "fourth", "", []⟩),
      Call.numbered 4 (.add ⟨"acme", "ann", .credit, ⟨7, by decide⟩, "fifth", "", []⟩),
      Call.numbered 5 (.revert ⟨Uuid.ofNat 0⟩)]
    let a : Account := ⟨"acme", "ann"⟩
    let b := (({} : Memory).serve calls).2.books
    let chain := b.findEntries (.chain a)
    let pools := b.pools.filter (·.account == a)
    (b.entries.length = 5 ∧ pools.map (·.remaining.val) = [1, 7]) ∧
    pools.map (·.entryId) = (chain.filter Entry.isCredit).map (·.id) ∧
      (pools.map (·.entryId)).Nodup ∧
      (∀ earlier e later, chain = earlier ++ e :: later →
        if e.isDebit then e.DrawsOn earlier else e.metadata.sources = []) ∧
      (∀ credit ∈ chain, credit.isCredit = true →
        drawnOn chain credit.id ≤ credit.amount.val ∧
          ∃ p ∈ pools, p.entryId = credit.id ∧
            p.remaining.val = credit.amount.val - drawnOn chain credit.id) ∧
      ∀ early, early <+: chain →
        Entry.total (early.filter Entry.isDebit) ≤ Entry.total (early.filter Entry.isCredit) := by
  refine ⟨by decide +kernel, Memory.no_double_spend _ ?_ ?_ ⟨"acme", "ann"⟩⟩
  · repeat' apply List.Pairwise.cons
    all_goals simp [Call.numbered_apart]
  · unfold Memory.ClockInRange Memory.ClockInRange Memory.ClockInRange Memory.ClockInRange
      Memory.ClockInRange Memory.ClockInRange Memory.ClockInRange Books.ClockFits Ledger.ClockFits
    decide +kernel

end PointLedger

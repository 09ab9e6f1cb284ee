import Mathlib
import PointLedger.Proofs.Amounts
import PointLedger.Proofs.Posting

/-!
What a debit takes from the pools. Its allocations belong one by one to the first of the open pools,
oldest first; each takes a positive amount that its pool covers, and together they take exactly the
amount of the debit.
-/

namespace PointLedger

/-- The allocation takes a part of the pool, or all of it. -/
structure Allocation.Takes (a : Allocation) (p : CreditPool) : Prop where
  pool : a.poolId = p.id
  credit : a.entryId = p.entryId
  positive : 0 < a.amount.val
  within : a.amount.val ≤ p.remaining.val
  left : a.remainingAfter.val = p.remaining.val - a.amount.val

/-- An allocation is told by its pool and its amount. -/
theorem Allocation.Takes.eq_of_amount {a b : Allocation} {p : CreditPool} (takes : a.Takes p)
    (takes' : b.Takes p) (same : a.amount = b.amount) : a = b := by
  have left : a.remainingAfter = b.remainingAfter :=
    Amount.ext (by rw [takes.left, takes'.left, same])
  cases a
  cases b
  simp only [mk.injEq]
  exact ⟨takes.pool.trans takes'.pool.symm, takes.credit.trans takes'.credit.symm, same, left⟩

/-- The pool after a debit with these allocations. -/
def CreditPool.drawnBy (p : CreditPool) (time : Timestamp) (allocations : List Allocation) :
    CreditPool :=
  match allocations.find? (·.poolId == p.id) with
  | some a => p.drawn time a
  | none => p

/-! ### Draining -/

section Draining

variable {needed : Amount} {p : CreditPool} {pools rest : List CreditPool}

theorem drain_of_covered (covered : needed.val = 0) (pools : List CreditPool) :
    drain needed pools = ([], needed) := by
  cases pools <;> simp [drain, drainChecked, covered]

/-- One pool gives what it can. -/
theorem exists_takes (opened : 0 < p.remaining.val) (positive : 0 < needed.val) :
    ∃ (a : Allocation) (still : Amount), a.Takes p ∧ a.amount = p.remaining.min needed ∧
      still.val = needed.val - a.amount.val ∧
      ∀ rest, drainChecked needed (p :: rest) =
        (drainChecked still rest).map fun later => (a :: later.1, later.2) := by
  have taken := Amount.val_min p.remaining needed
  have given : 0 < (p.remaining.min needed).val := by omega
  obtain ⟨left, kept, left_val⟩ := Amount.exists_sub?_eq_some given.le
    (show (p.remaining.min needed).val ≤ p.remaining.val by omega)
  obtain ⟨still, open', still_val⟩ := Amount.exists_sub?_eq_some given.le
    (show (p.remaining.min needed).val ≤ needed.val by omega)
  refine ⟨⟨p.id, p.entryId, p.remaining.min needed, left⟩, still,
    ⟨rfl, rfl, given, by dsimp only; omega, left_val⟩, rfl, still_val, fun rest => ?_⟩
  have unfinished : needed.val ≠ 0 := by omega
  simp only [drainChecked, unfinished, ↓reduceIte, kept, open', Option.bind_eq_bind,
    Option.bind_some]
  cases drainChecked still rest <;> rfl

/-- Draining open pools never leaves the range of amounts, whether they hold enough or not. -/
theorem drainChecked_eq_some (nonneg : 0 ≤ needed.val) (opened : ∀ p ∈ pools, 0 < p.remaining.val) :
    drainChecked needed pools = some (drain needed pools) := by
  have result : ∃ result, drainChecked needed pools = some result := by
    induction pools generalizing needed with
    | nil => exact ⟨_, rfl⟩
    | cons p rest ih =>
      by_cases done : needed.val = 0
      · exact ⟨([], needed), by simp [drainChecked, done]⟩
      · obtain ⟨first, later⟩ := List.forall_mem_cons.mp opened
        obtain ⟨a, still, takes, amount, left, step⟩ :=
          exists_takes first (show 0 < needed.val by omega)
        have taken := Amount.val_min p.remaining needed
        obtain ⟨result, drained⟩ := ih (show 0 ≤ still.val by rw [left, amount]; omega) later
        exact ⟨_, by rw [step, drained]; rfl⟩
  obtain ⟨result, drained⟩ := result
  rw [drain, drained]
  rfl

/-- The first of the open pools gives what it can, and the others are drained of the rest. -/
theorem drain_cons (nonneg : 0 ≤ needed.val) (unfinished : needed.val ≠ 0)
    (opened : ∀ q ∈ p :: rest, 0 < q.remaining.val) :
    ∃ (a : Allocation) (still : Amount), a.Takes p ∧ a.amount = p.remaining.min needed ∧
      0 ≤ still.val ∧ still.val = needed.val - a.amount.val ∧
      drain needed (p :: rest) = (a :: (drain still rest).1, (drain still rest).2) := by
  obtain ⟨first, later⟩ := List.forall_mem_cons.mp opened
  obtain ⟨a, still, takes, amount, left, step⟩ :=
    exists_takes first (show 0 < needed.val by omega)
  have taken := Amount.val_min p.remaining needed
  have enough : 0 ≤ still.val := by
    rw [left, amount]
    omega
  refine ⟨a, still, takes, amount, enough, left, ?_⟩
  rw [drain, step, drainChecked_eq_some enough later]
  rfl

/-- Draining takes from the first pools, in their order. -/
theorem takes_of_drain (nonneg : 0 ≤ needed.val) (opened : ∀ p ∈ pools, 0 < p.remaining.val) :
    List.Forall₂ Allocation.Takes (drain needed pools).1
      (pools.take (drain needed pools).1.length) := by
  induction pools generalizing needed with
  | nil => exact .nil
  | cons p rest ih =>
    by_cases done : needed.val = 0
    · simp [drain_of_covered done]
    · obtain ⟨a, still, takes, -, enough, -, step⟩ := drain_cons nonneg done opened
      rw [step, List.length_cons, List.take_succ_cons]
      exact .cons takes (ih enough fun q member => opened q (List.mem_cons_of_mem p member))

/-- What is taken and what stays uncovered is what was needed. -/
theorem sum_of_drain (nonneg : 0 ≤ needed.val) (opened : ∀ p ∈ pools, 0 < p.remaining.val) :
    ((drain needed pools).1.map (·.amount.val)).sum + (drain needed pools).2.val = needed.val ∧
      0 ≤ (drain needed pools).2.val := by
  induction pools generalizing needed with
  | nil => exact ⟨Int.zero_add _, nonneg⟩
  | cons p rest ih =>
    by_cases done : needed.val = 0
    · simp [drain_of_covered done, done]
    · obtain ⟨a, still, -, -, enough, left, step⟩ := drain_cons nonneg done opened
      obtain ⟨sum, covered⟩ := ih enough fun q member => opened q (List.mem_cons_of_mem p member)
      rw [step]
      simp only [List.map_cons, List.sum_cons]
      omega

end Draining

/-- What a successful allocation comes to: the pools are split into those that it takes from, in
their order, and the rest. -/
theorem allocate_eq_ok {pools : List CreditPool} {amount : Amount} {allocations : List Allocation}
    (covered : allocate pools amount = .ok allocations) :
    0 < amount.val ∧ (allocations.map (·.amount.val)).sum = amount.val ∧
      ∃ drained rest, pools.Perm (drained ++ rest) ∧
        List.Forall₂ Allocation.Takes allocations drained := by
  unfold allocate at covered
  generalize sorted : CreditPool.sort (pools.filter CreditPool.isOpen) = opened at covered
  have isOpen : ∀ p ∈ opened, 0 < p.remaining.val := by
    intro p member
    rw [← sorted] at member
    have listed : p ∈ pools.filter CreditPool.isOpen := List.mem_mergeSort.mp member
    exact Amount.isPositive_iff.mp (List.mem_filter.mp listed).2
  split at covered
  · rename_i positive
    rw [Amount.isPositive_iff] at positive
    dsimp only at covered
    split at covered
    · cases covered
    · split at covered
      · cases covered
      · rename_i exhausted
        cases covered
        obtain ⟨sum, nonneg⟩ := sum_of_drain (Int.le_of_lt positive) isOpen
        rw [Amount.isPositive_iff] at exhausted
        refine ⟨positive, by omega, opened.take (drain amount opened).1.length,
          opened.drop (drain amount opened).1.length ++ pools.filter (fun p => !p.isOpen), ?_,
          takes_of_drain (Int.le_of_lt positive) isOpen⟩
        rw [← List.append_assoc, List.take_append_drop, ← sorted]
        exact (List.filter_append_perm CreditPool.isOpen pools).symm.trans
          ((List.mergeSort_perm _ _).symm.append_right _)
  · cases covered

theorem exists_takes_of_mem {allocations : List Allocation} {drained : List CreditPool}
    (takes : List.Forall₂ Allocation.Takes allocations drained) {a : Allocation}
    (taken : a ∈ allocations) : ∃ p ∈ drained, a.Takes p := by
  induction takes with
  | nil => cases taken
  | @cons first p _ _ takes _ ih =>
    rcases List.mem_cons.mp taken with rfl | later
    · exact ⟨p, List.mem_cons_self, takes⟩
    · obtain ⟨q, member, takes⟩ := ih later
      exact ⟨q, List.mem_cons_of_mem p member, takes⟩

/-- Every allocation takes from one of the pools given. -/
theorem exists_takes_of_mem_allocate {pools : List CreditPool} {amount : Amount}
    {allocations : List Allocation} (covered : allocate pools amount = .ok allocations)
    {a : Allocation} (taken : a ∈ allocations) : ∃ p ∈ pools, a.Takes p := by
  obtain ⟨-, -, drained, rest, split, takes⟩ := allocate_eq_ok covered
  obtain ⟨p, member, takes⟩ := exists_takes_of_mem takes taken
  exact ⟨p, split.mem_iff.mpr (List.mem_append_left rest member), takes⟩

/-! ### The changed pools -/

section Changed

variable {time : Timestamp} {allocations : List Allocation} {pools drained : List CreditPool}

@[simp] theorem CreditPool.id_drawn (p : CreditPool) (a : Allocation) :
    (p.drawn time a).id = p.id := rfl

theorem exists_find?_of_listed {a : Allocation} (listed : ∃ p ∈ pools, p.id = a.poolId) :
    ∃ p ∈ pools, p.id = a.poolId ∧ pools.find? (·.id == a.poolId) = some p := by
  cases found : pools.find? (·.id == a.poolId) with
  | none =>
    obtain ⟨p, member, same⟩ := listed
    simpa [same] using List.find?_eq_none.mp found p member
  | some p =>
    exact ⟨p, List.mem_of_find?_eq_some found, by simpa using List.find?_some found, rfl⟩

theorem drawnPools_cons {a : Allocation} {p : CreditPool}
    (found : pools.find? (·.id == a.poolId) = some p) :
    drawnPools pools time (a :: allocations) =
      p.drawn time a :: drawnPools pools time allocations := by
  simp [drawnPools, found]

theorem map_poolId_of_takes (takes : List.Forall₂ Allocation.Takes allocations drained) :
    allocations.map (·.poolId) = drained.map (·.id) := by
  induction takes with
  | nil => rfl
  | cons takes _ ih => simp only [List.map_cons, takes.pool, ih]

/-- The changed pools of a debit stand for its allocations, in their order. -/
theorem map_id_drawnPools (listed : ∀ a ∈ allocations, ∃ p ∈ pools, p.id = a.poolId) :
    (drawnPools pools time allocations).map (·.id) = allocations.map (·.poolId) := by
  induction allocations with
  | nil => rfl
  | cons a rest ih =>
    obtain ⟨p, -, same, found⟩ := exists_find?_of_listed (listed a List.mem_cons_self)
    have later := ih fun a member => listed a (List.mem_cons_of_mem _ member)
    rw [drawnPools_cons found, List.map_cons, List.map_cons, later, CreditPool.id_drawn, same]

/-- Among the changed pools of a debit each pool finds what was drawn on it. -/
theorem find?_drawnPools {p : CreditPool} (own : ∀ q ∈ pools, q.id = p.id → q = p)
    (listed : ∀ a ∈ allocations, ∃ q ∈ pools, q.id = a.poolId) :
    (drawnPools pools time allocations).find? (·.id == p.id) =
      (allocations.find? (·.poolId == p.id)).map (p.drawn time) := by
  induction allocations with
  | nil => rfl
  | cons a rest ih =>
    obtain ⟨q, member, same, found⟩ := exists_find?_of_listed (listed a List.mem_cons_self)
    have later := ih fun a member => listed a (List.mem_cons_of_mem _ member)
    rw [drawnPools_cons found, List.find?_cons, List.find?_cons, later, CreditPool.id_drawn, same]
    by_cases asked : a.poolId = p.id
    · rw [own q member (same.trans asked)]
      simp [asked]
    · have other : (a.poolId == p.id) = false := by simpa using asked
      simp [other]

end Changed

/-! ### The pools afterwards -/

section Afterwards

variable {time : Timestamp} {allocations : List Allocation} {pools drained rest : List CreditPool}

@[simp] theorem CreditPool.id_drawnBy (p : CreditPool) :
    (p.drawnBy time allocations).id = p.id := by
  unfold drawnBy
  split <;> rfl

@[simp] theorem CreditPool.account_drawnBy (p : CreditPool) :
    (p.drawnBy time allocations).account = p.account := by
  unfold drawnBy
  split <;> rfl

@[simp] theorem CreditPool.entryId_drawnBy (p : CreditPool) :
    (p.drawnBy time allocations).entryId = p.entryId := by
  unfold drawnBy
  split <;> rfl

theorem filter_drawnBy (a : Account) :
    (pools.map (·.drawnBy time allocations)).filter (·.account == a) =
      (pools.filter (·.account == a)).map (·.drawnBy time allocations) := by
  simp [List.filter_map, Function.comp_def]

@[simp] theorem CreditPool.createdAt_drawnBy (p : CreditPool) :
    (p.drawnBy time allocations).createdAt = p.createdAt := by
  unfold drawnBy
  split <;> rfl

theorem CreditPool.drawnBy_cons_of_eq {p : CreditPool} {a : Allocation} (own : a.poolId = p.id) :
    p.drawnBy time (a :: allocations) = p.drawn time a := by
  simp [drawnBy, own]

theorem CreditPool.drawnBy_cons_of_ne {p : CreditPool} {a : Allocation}
    (other : a.poolId ≠ p.id) : p.drawnBy time (a :: allocations) = p.drawnBy time allocations := by
  simp [drawnBy, other]

/-- A pool that no allocation names stays as it is. -/
theorem CreditPool.drawnBy_of_unnamed {p : CreditPool}
    (unnamed : ∀ a ∈ allocations, a.poolId ≠ p.id) :
    p.drawnBy time allocations = p := by
  have missed : allocations.find? (·.poolId == p.id) = none :=
    List.find?_eq_none.mpr fun a member => by simpa using unnamed a member
  rw [drawnBy, missed]

/-- The pools hold together what they held before, less what was taken. -/
theorem sum_drawnBy (takes : List.Forall₂ Allocation.Takes allocations drained)
    (distinct : ((drained ++ rest).map (·.id)).Nodup) :
    ((drained ++ rest).map fun p => (p.drawnBy time allocations).remaining.val).sum =
      ((drained ++ rest).map (·.remaining.val)).sum - (allocations.map (·.amount.val)).sum := by
  induction takes with
  | nil => simp [CreditPool.drawnBy]
  | @cons a p as ps takes _ ih =>
    simp only [List.cons_append, List.map_cons, List.nodup_cons] at distinct
    obtain ⟨new, distinct⟩ := distinct
    have first : p.drawnBy time (a :: as) = p.drawn time a :=
      CreditPool.drawnBy_cons_of_eq takes.pool
    have others : ∀ q ∈ ps ++ rest, q.drawnBy time (a :: as) = q.drawnBy time as := by
      intro q member
      refine CreditPool.drawnBy_cons_of_ne fun same => new ?_
      rw [← takes.pool, same]
      exact List.mem_map_of_mem member
    have later : ((ps ++ rest).map fun q => (q.drawnBy time (a :: as)).remaining.val) =
        (ps ++ rest).map fun q => (q.drawnBy time as).remaining.val :=
      List.map_congr_left fun q member => by rw [others q member]
    have := takes.left
    simp only [List.cons_append, List.map_cons, List.sum_cons, first, later, ih distinct,
      CreditPool.drawn]
    omega

/-- The same for pools in any order. -/
theorem sum_drawnBy_of_perm (split : pools.Perm (drained ++ rest))
    (takes : List.Forall₂ Allocation.Takes allocations drained)
    (distinct : (pools.map (·.id)).Nodup) :
    (pools.map fun p => (p.drawnBy time allocations).remaining.val).sum =
      (pools.map (·.remaining.val)).sum - (allocations.map (·.amount.val)).sum := by
  rw [(split.map _).sum_eq, (split.map _).sum_eq]
  exact sum_drawnBy takes ((split.map _).nodup_iff.mp distinct)

end Afterwards

/-- The pools of an account are the open ones and the others. -/
theorem AccountRows.openPools_perm (v : AccountRows) :
    v.pools.Perm (v.openPools ++ v.pools.filter fun p => !p.isOpen) :=
  (List.filter_append_perm CreditPool.isOpen v.pools).symm.trans
    (((List.mergeSort_perm v.pools _).filter _).symm.append_right _)

/-- A debit takes from some of the account's pools and leaves the rest alone. -/
theorem AccountRows.takes_of_allocate {v : AccountRows} {amount : Amount}
    {allocations : List Allocation} (covered : allocate v.openPools amount = .ok allocations) :
    ∃ drained rest, v.pools.Perm (drained ++ rest) ∧
      List.Forall₂ Allocation.Takes allocations drained := by
  obtain ⟨-, -, drained, rest, split, takes⟩ := allocate_eq_ok covered
  refine ⟨drained, rest ++ v.pools.filter fun p => !p.isOpen, ?_, takes⟩
  rw [← List.append_assoc]
  exact v.openPools_perm.trans (split.append_right _)

/-- A debit takes its amount from the pools of the account. -/
theorem AccountRows.sum_remaining_of_debit {v : AccountRows} {amount : Amount} {time : Timestamp}
    {allocations : List Allocation} (covered : allocate v.openPools amount = .ok allocations)
    (distinct : (v.pools.map (·.id)).Nodup) :
    (v.pools.map fun p => (p.drawnBy time allocations).remaining.val).sum =
      (v.pools.map (·.remaining.val)).sum - amount.val := by
  obtain ⟨-, sum, -⟩ := allocate_eq_ok covered
  obtain ⟨drained, rest, split, takes⟩ := v.takes_of_allocate covered
  rw [← sum, sum_drawnBy_of_perm split takes distinct]

end PointLedger

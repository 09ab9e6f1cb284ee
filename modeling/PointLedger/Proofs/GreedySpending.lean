import PointLedger.Proofs.Publication
import PointLedger.Proofs.SpendingOrder

/-!
Spending is greedy. An amount is covered exactly when the open pools hold it together, even where
their sum is outside the range of amounts, and no difference formed on the way leaves this range.
Each pool is emptied before the next one is drawn on, oldest first. Pools with distinct ids have one
order of spending, so it does not matter in which order they are given.
-/

namespace PointLedger

/-! ### What the open pools hold -/

/-- The exact sum of what the open pools hold; it may be larger than every amount. -/
def openTotal (pools : List CreditPool) : Int :=
  ((pools.filter CreditPool.isOpen).map (·.remaining.val)).sum

namespace CreditPool

variable {pools pools' : List CreditPool}

theorem isOpen_iff {p : CreditPool} : p.isOpen = true ↔ 0 < p.remaining.val :=
  Amount.isPositive_iff

theorem sum_remaining_nonneg (opened : ∀ p ∈ pools, 0 < p.remaining.val) :
    0 ≤ (pools.map (·.remaining.val)).sum := by
  refine List.sum_nonneg fun n member => ?_
  obtain ⟨p, held, rfl⟩ := List.mem_map.mp member
  exact (opened p held).le

theorem openTotal_nonneg (pools : List CreditPool) : 0 ≤ openTotal pools :=
  sum_remaining_nonneg fun _ held => isOpen_iff.mp (List.mem_filter.mp held).2

theorem openTotal_of_perm (same : pools.Perm pools') : openTotal pools = openTotal pools' :=
  ((same.filter _).map _).sum_eq

theorem openTotal_concat (pools : List CreditPool) (p : CreditPool) :
    openTotal (pools ++ [p]) = openTotal pools + if p.isOpen then p.remaining.val else 0 := by
  cases opened : p.isOpen <;> simp [openTotal, opened]

end CreditPool

theorem Amount.val_addClamped_eq_min {a b : Amount} (nonneg : 0 ≤ a.val + b.val) :
    (a.addClamped b).val = Min.min (a.val + b.val) 0x7fffffffffffffff := by
  unfold addClamped clamp
  split
  · dsimp only
    omega
  · split
    · omega
    · dsimp only
      omega

/-- The sum of the pools is the exact one, as far as amounts go. -/
theorem val_totalRemaining (pools : List CreditPool) :
    (totalRemaining pools).val = Min.min (openTotal pools) 0x7fffffffffffffff := by
  induction pools using List.reverseRecOn with
  | nil => rfl
  | append_singleton pools p ih =>
    have total : totalRemaining (pools ++ [p]) =
        (totalRemaining pools).addClamped (if p.isOpen then p.remaining else Amount.zero) := by
      simp [totalRemaining]
    have nonneg := CreditPool.openTotal_nonneg pools
    rw [total, CreditPool.openTotal_concat]
    cases opened : p.isOpen with
    | true =>
      have positive := CreditPool.isOpen_iff.mp opened
      simp only [↓reduceIte]
      rw [Amount.val_addClamped_eq_min (by omega)]
      omega
    | false =>
      simp only [Bool.false_eq_true, ↓reduceIte]
      rw [Amount.val_addClamped_eq_min (by rw [Amount.val_zero]; omega), Amount.val_zero]
      omega

/-! ### Greedy allocations -/

/-- The allocations take what is needed from the first of the pools, in their order, and empty each
pool before they draw on the next one. -/
structure Greedy (pools : List CreditPool) (needed : Int) (allocations : List Allocation) :
    Prop where
  takes : List.Forall₂ Allocation.Takes allocations (pools.take allocations.length)
  drained : ∀ a ∈ allocations.dropLast, a.remainingAfter.val = 0
  sum : (allocations.map (·.amount.val)).sum = needed

namespace Greedy

variable {pools rest : List CreditPool} {p : CreditPool} {a : Allocation}
  {allocations : List Allocation}

theorem nil_iff {needed : Int} : Greedy pools needed [] ↔ needed = 0 := by
  refine ⟨fun greedy => greedy.sum.symm, ?_⟩
  rintro rfl
  exact ⟨.nil, by simp, rfl⟩

theorem cons_iff {needed : Int} : Greedy (p :: rest) needed (a :: allocations) ↔
    a.Takes p ∧ (allocations = [] ∨ a.remainingAfter.val = 0) ∧
      Greedy rest (needed - a.amount.val) allocations := by
  constructor
  · rintro ⟨takes, drained, sum⟩
    rw [List.length_cons, List.take_succ_cons, List.forall₂_cons] at takes
    rw [List.map_cons, List.sum_cons] at sum
    cases allocations with
    | nil => exact ⟨takes.1, .inl rfl, takes.2, by simp, eq_sub_of_add_eq' sum⟩
    | cons next later =>
      obtain ⟨first, drained⟩ := List.forall_mem_cons.mp drained
      exact ⟨takes.1, .inr first, takes.2, drained, eq_sub_of_add_eq' sum⟩
  · rintro ⟨takes, emptied, later⟩
    refine ⟨.cons takes later.takes, ?_, ?_⟩
    · cases allocations with
      | nil => simp
      | cons next others =>
        have first := emptied.resolve_left (List.cons_ne_nil _ _)
        exact List.forall_mem_cons.mpr ⟨first, later.drained⟩
    · have := later.sum
      rw [List.map_cons, List.sum_cons]
      omega

/-- Draining is greedy as long as the pools hold what is needed. -/
theorem of_drain {needed : Amount} (nonneg : 0 ≤ needed.val)
    (opened : ∀ p ∈ pools, 0 < p.remaining.val)
    (covered : needed.val ≤ (pools.map (·.remaining.val)).sum) :
    Greedy pools needed.val (drain needed pools).1 := by
  induction pools generalizing needed with
  | nil =>
    rw [List.map_nil, List.sum_nil] at covered
    exact nil_iff.mpr (by omega)
  | cons p rest ih =>
    by_cases done : needed.val = 0
    · rw [drain_of_covered done]
      exact nil_iff.mpr done
    · obtain ⟨a, still, takes, amount, enough, left, step⟩ := drain_cons nonneg done opened
      obtain ⟨first, later⟩ := List.forall_mem_cons.mp opened
      have taken := Amount.val_min p.remaining needed
      have rest_nonneg := CreditPool.sum_remaining_nonneg later
      rw [List.map_cons, List.sum_cons] at covered
      rw [← amount] at taken
      rw [step]
      refine cons_iff.mpr ⟨takes, ?_, ?_⟩
      · by_cases emptied : p.remaining.val ≤ needed.val
        · have := takes.left
          exact .inr (by omega)
        · have done : still.val = 0 := by omega
          exact .inl (by rw [drain_of_covered done])
      · rw [← left]
        exact ih enough later (by omega)

theorem nonneg {needed : Int} (greedy : Greedy pools needed allocations) : 0 ≤ needed := by
  rw [← greedy.sum]
  refine List.sum_nonneg fun n member => ?_
  obtain ⟨a, taken, rfl⟩ := List.mem_map.mp member
  obtain ⟨p, -, takes⟩ := exists_takes_of_mem greedy.takes taken
  exact takes.positive.le

/-- There is one way to be greedy. -/
theorem eq_drain {needed : Amount} (greedy : Greedy pools needed.val allocations)
    (opened : ∀ p ∈ pools, 0 < p.remaining.val) : allocations = (drain needed pools).1 := by
  induction pools generalizing needed allocations with
  | nil =>
    have none := greedy.takes
    rw [List.take_nil] at none
    exact List.forall₂_nil_right_iff.mp none
  | cons p rest ih =>
    cases allocations with
    | nil => rw [drain_of_covered (nil_iff.mp greedy)]
    | cons a others =>
      obtain ⟨takes, emptied, later⟩ := cons_iff.mp greedy
      have positive := takes.positive
      have within := takes.within
      have left := takes.left
      have enough := later.nonneg
      obtain ⟨b, still, takes', amount, -, still_val, step⟩ :=
        drain_cons (show 0 ≤ needed.val by omega) (by omega) opened
      have same : a.amount.val = b.amount.val := by
        have least := Amount.val_min p.remaining needed
        rw [← amount] at least
        rcases emptied with rfl | emptied
        · have available_eq := nil_iff.mp later
          omega
        · omega
      have own : a = b := takes.eq_of_amount takes' (Amount.ext same)
      have after : Greedy rest still.val others := by
        rw [still_val, ← same]
        exact later
      rw [step, own, ← ih after (List.forall_mem_cons.mp opened).2]

/-- Pools from which an amount was taken greedily hold it together. -/
theorem covered {needed : Int} (greedy : Greedy pools needed allocations)
    (opened : ∀ p ∈ pools, 0 < p.remaining.val) :
    needed ≤ (pools.map (·.remaining.val)).sum := by
  induction pools generalizing needed allocations with
  | nil =>
    have none := greedy.takes
    rw [List.take_nil, List.forall₂_nil_right_iff] at none
    exact (nil_iff.mp (none ▸ greedy)).le
  | cons p rest ih =>
    obtain ⟨first, later⟩ := List.forall_mem_cons.mp opened
    rw [List.map_cons, List.sum_cons]
    cases allocations with
    | nil =>
      have := nil_iff.mp greedy
      have := CreditPool.sum_remaining_nonneg later
      omega
    | cons a others =>
      obtain ⟨takes, -, greedy⟩ := cons_iff.mp greedy
      have := ih greedy later
      have := takes.within
      omega

end Greedy

/-! ### The order of spending -/

namespace CreditPool

variable {pools pools' : List CreditPool} {p q : CreditPool}

/-- The pool is spent before the other one: it is older or, at one time, has the smaller id. -/
def Before (p q : CreditPool) : Prop :=
  p.createdAt < q.createdAt ∨ p.createdAt = q.createdAt ∧ p.id.uuid.value < q.id.uuid.value

theorem before_of_le (sorted : p.le q = true) (other : p.id ≠ q.id) : p.Before q :=
  Timestamp.lt_or_eq_of_sorted sorted fun same =>
    other (congrArg PoolId.mk (Uuid.eq_of_value same))

theorem sort_perm (pools : List CreditPool) : (sort pools).Perm pools :=
  List.mergeSort_perm pools le

/-- Sorted pools with distinct ids stand in the order of spending. -/
theorem pairwise_before_sort (distinct : (pools.map (·.id)).Nodup) :
    (sort pools).Pairwise Before :=
  (pairwise_mergeSort_of_nodup le_trans le_total distinct).imp fun pair =>
    before_of_le pair.1 pair.2

theorem Before.asymm (before : p.Before q) : ¬ q.Before p := by
  intro after
  simp only [Before, Timestamp.lt_iff] at before after
  rcases before with earlier | ⟨same, smaller⟩ <;> rcases after with later | ⟨same', larger⟩
  · omega
  · rw [same'] at earlier
    omega
  · rw [same] at later
    omega
  · omega

/-- Pools with distinct ids are sorted in one way. -/
theorem sort_eq_of_perm (distinct : (pools.map (·.id)).Nodup) (same : pools.Perm pools') :
    sort pools = sort pools' := by
  have distinct' : (pools'.map (·.id)).Nodup := (same.map _).nodup_iff.mp distinct
  refine List.Perm.eq_of_pairwise (fun p q _ _ before after => absurd after before.asymm)
    (pairwise_before_sort distinct) (pairwise_before_sort distinct') ?_
  exact (sort_perm pools).trans (same.trans (sort_perm pools').symm)

end CreditPool

/-! ### Covering an amount -/

section Covering

variable {pools pools' : List CreditPool} {amount : Amount} {allocations : List Allocation}

theorem remaining_of_mem_sort {p : CreditPool}
    (member : p ∈ CreditPool.sort (pools.filter CreditPool.isOpen)) : 0 < p.remaining.val :=
  CreditPool.isOpen_iff.mp (List.mem_filter.mp (List.mem_mergeSort.mp member)).2

theorem sum_sort_eq_openTotal (pools : List CreditPool) :
    ((CreditPool.sort (pools.filter CreditPool.isOpen)).map (·.remaining.val)).sum =
      openTotal pools :=
  ((CreditPool.sort_perm _).map _).sum_eq

theorem allocate_of_nonpositive (nonpositive : amount.val ≤ 0) :
    allocate pools amount = .error (Violation.nonPositiveDebit amount).toError := by
  have refused : ¬ 0 < amount.val := by omega
  simp [allocate, Amount.isPositive, refused]

/-- What the open pools hold together can be taken from them, up to the last point. -/
theorem allocate_of_covered (positive : 0 < amount.val) (covered : amount.val ≤ openTotal pools) :
    allocate pools amount =
      .ok (drain amount (CreditPool.sort (pools.filter CreditPool.isOpen))).1 := by
  have opened : ∀ p ∈ CreditPool.sort (pools.filter CreditPool.isOpen), 0 < p.remaining.val :=
    fun _ => remaining_of_mem_sort
  rw [← sum_sort_eq_openTotal] at covered
  have taken := (Greedy.of_drain positive.le opened covered).sum
  obtain ⟨split, -⟩ := sum_of_drain positive.le opened
  have available := val_totalRemaining pools
  have range := amount.inRange.2
  rw [sum_sort_eq_openTotal] at covered
  have enough : ¬ (totalRemaining pools).val < amount.val := by omega
  have finished : ¬ 0 < (drain amount
      (CreditPool.sort (pools.filter CreditPool.isOpen))).2.val := by omega
  simp [allocate, Amount.isPositive, positive, enough, finished]

/-- More than the open pools hold together is refused, with the exact sum that is available. -/
theorem allocate_of_short (positive : 0 < amount.val) (short : openTotal pools < amount.val) :
    allocate pools amount = .error (.insufficientFunds amount (totalRemaining pools)) ∧
      (totalRemaining pools).val = openTotal pools := by
  have available := val_totalRemaining pools
  have range := amount.inRange.2
  have available_eq : (totalRemaining pools).val = openTotal pools := by omega
  have less : (totalRemaining pools).val < amount.val := by omega
  exact ⟨by simp [allocate, Amount.isPositive, positive, less], available_eq⟩

/-- An allocation is what a greedy one is, and nothing else. -/
theorem allocate_eq_ok_iff : allocate pools amount = .ok allocations ↔ 0 < amount.val ∧
    Greedy (CreditPool.sort (pools.filter CreditPool.isOpen)) amount.val allocations := by
  have opened : ∀ p ∈ CreditPool.sort (pools.filter CreditPool.isOpen), 0 < p.remaining.val :=
    fun _ => remaining_of_mem_sort
  constructor
  · intro allocated
    have positive := (allocate_eq_ok allocated).1
    by_cases covered : amount.val ≤ openTotal pools
    · rw [allocate_of_covered positive covered] at allocated
      cases allocated
      exact ⟨positive, Greedy.of_drain positive.le opened (by rwa [sum_sort_eq_openTotal])⟩
    · rw [(allocate_of_short positive (by omega)).1] at allocated
      cases allocated
  · rintro ⟨positive, greedy⟩
    have covered := greedy.covered opened
    rw [sum_sort_eq_openTotal] at covered
    rw [allocate_of_covered positive covered, ← greedy.eq_drain opened]

theorem allocate_of_perm (distinct : (pools.map (·.id)).Nodup) (same : pools.Perm pools')
    (amount : Amount) : allocate pools' amount = allocate pools amount := by
  have total : totalRemaining pools' = totalRemaining pools :=
    Amount.ext (by rw [val_totalRemaining, val_totalRemaining, CreditPool.openTotal_of_perm same])
  have ids : ((pools.filter CreditPool.isOpen).map (·.id)).Nodup :=
    distinct.sublist (List.filter_sublist.map _)
  rw [allocate, allocate, total, CreditPool.sort_eq_of_perm ids (same.filter _)]

end Covering

/-- Of pools with distinct ids, whatever is left in them, the open ones have an order of spending.
A positive amount is covered by the allocations that are greedy in this order and by no others, and
the result is the same in whatever order the pools are given. -/
theorem allocate_greedy (pools : List CreditPool) (distinct : (pools.map (·.id)).Nodup) :
    ∃ ordered, ordered.Perm (pools.filter CreditPool.isOpen) ∧
      ordered.Pairwise CreditPool.Before ∧ ∀ amount,
        (∀ allocations, allocate pools amount = .ok allocations ↔
          0 < amount.val ∧ Greedy ordered amount.val allocations) ∧
        ∀ pools', pools.Perm pools' → allocate pools' amount = allocate pools amount := by
  have ids : ((pools.filter CreditPool.isOpen).map (·.id)).Nodup :=
    distinct.sublist (List.filter_sublist.map _)
  exact ⟨_, CreditPool.sort_perm _, CreditPool.pairwise_before_sort ids, fun amount =>
    ⟨fun _ => allocate_eq_ok_iff, fun _ same => allocate_of_perm distinct same amount⟩⟩

theorem allocate_greedy_equal_times :
    let pool (n : Nat) (remaining : Amount) : CreditPool :=
      CreditPool.opened ⟨Uuid.ofNat n⟩ ⟨"acme", "ann"⟩ ⟨Uuid.ofNat (n + 10)⟩ remaining
        Timestamp.epoch
    let pools := [pool 3 ⟨7, by decide⟩, pool 2 ⟨-4, by decide⟩, pool 1 ⟨5, by decide⟩,
      pool 0 ⟨0, by decide⟩]
    (pools.map (·.id)).Nodup ∧ pools.filter CreditPool.isOpen = [
      pool 3 ⟨7, by decide⟩, pool 1 ⟨5, by decide⟩] ∧
    ∃ ordered, ordered.Perm (pools.filter CreditPool.isOpen) ∧
      ordered.Pairwise CreditPool.Before ∧ ∀ amount,
        (∀ allocations, allocate pools amount = .ok allocations ↔
          0 < amount.val ∧ Greedy ordered amount.val allocations) ∧
        ∀ pools', pools.Perm pools' → allocate pools' amount = allocate pools amount := by
  intro pool pools
  have distinct : (pools.map (·.id)).Nodup := by decide
  exact ⟨distinct, by decide, allocate_greedy pools distinct⟩

/-- Whatever is left in the pools, a debit is decided by the exact sum of the open ones, even where
this sum is no amount. An amount that is not positive is an invalid argument; any other one is
covered up to the exact sum, and above it refused with this sum as what is available. No pool runs
short once the walk has begun, and no difference that the walk forms leaves the range of amounts. -/
theorem allocate_exact (pools : List CreditPool) (amount : Amount) :
    ((∃ reason, allocate pools amount = .error (.invalidArgument reason)) ↔ amount.val ≤ 0) ∧
    ((∃ allocations, allocate pools amount = .ok allocations) ↔
      0 < amount.val ∧ amount.val ≤ openTotal pools) ∧
    ((∃ available : Amount, available.val = openTotal pools ∧
        allocate pools amount = .error (.insufficientFunds amount available)) ↔
      0 < amount.val ∧ openTotal pools < amount.val) ∧
    (∀ reason, allocate pools amount ≠ .error (.internal reason)) ∧
    (0 < amount.val →
      let ordered := CreditPool.sort (pools.filter CreditPool.isOpen)
      drainChecked amount ordered = some (drain amount ordered)) := by
  have opened : ∀ p ∈ CreditPool.sort (pools.filter CreditPool.isOpen), 0 < p.remaining.val :=
    fun _ => remaining_of_mem_sort
  have inRange (positive : 0 < amount.val) := drainChecked_eq_some positive.le opened
  rcases le_or_gt amount.val 0 with nonpositive | positive
  · have refused : allocate pools amount = .error (Violation.nonPositiveDebit amount).toError :=
      allocate_of_nonpositive nonpositive
    refine ⟨?_, ?_, ?_, ?_, inRange⟩
    · simp [refused, Violation.toError, nonpositive]
    · simp [refused, not_lt.mpr nonpositive]
    · simp [refused, Violation.toError, not_lt.mpr nonpositive]
    · simp [refused, Violation.toError]
  rcases le_or_gt amount.val (openTotal pools) with covered | short
  · have allocated := allocate_of_covered positive covered
    refine ⟨?_, ?_, ?_, ?_, inRange⟩
    · simp [allocated, positive]
    · simp [allocated, positive, covered]
    · simp [allocated, not_lt.mpr covered]
    · simp [allocated]
  · obtain ⟨refused, available⟩ := allocate_of_short positive short
    refine ⟨?_, ?_, ?_, ?_, inRange⟩
    · simp [refused, positive]
    · simp [refused, not_le.mpr short]
    · simp [refused, positive, short, available]
    · simp [refused]

theorem allocate_exact_sum_out_of_range :
    let pool (n : Nat) (remaining : Amount) : CreditPool :=
      CreditPool.opened ⟨Uuid.ofNat n⟩ ⟨"acme", "ann"⟩ ⟨Uuid.ofNat (n + 10)⟩ remaining
        Timestamp.epoch
    let most : Amount := ⟨0x7fffffffffffffff, by decide⟩
    let pools := [pool 2 most, pool 1 ⟨-0x8000000000000000, by decide⟩, pool 0 most]
    let ordered := CreditPool.sort (pools.filter CreditPool.isOpen)
    openTotal pools = 2 * most.val ∧ totalRemaining pools = most ∧ 0 < most.val ∧
    (∃ allocations, allocate pools most = .ok allocations) ∧
    drainChecked most ordered = some (drain most ordered) := by
  intro pool most pools ordered
  have total : openTotal pools = 2 * most.val := by decide
  obtain ⟨-, accepted, -, -, inRange⟩ := allocate_exact pools most
  have positive : 0 < most.val := by decide
  exact ⟨total, by decide, positive, accepted.mpr ⟨positive, by omega⟩, inRange positive⟩

end PointLedger

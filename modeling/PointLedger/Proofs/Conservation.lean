import PointLedger.Proofs.History

/-!
Conservation of points. After any calls the balance of every account is what its entries say, and
what its pools hold together less what was reverted. Each kind of entry moves both sides by the
same amount: a credit opens a pool of its size, a debit takes its amount from the pools, and a
reversal takes it from the balance alone.
-/

namespace PointLedger

namespace AccountRows

/-- The amounts of the entries of one sort together. -/
def total (v : AccountRows) (sort : Entry → Bool) : Int :=
  ((v.entries.filter sort).map (·.amount.val)).sum

/-- What was credited, reversals apart. -/
def credited (v : AccountRows) : Int := v.total fun e => !e.isReversal && e.kind == .credit

/-- What was debited, reversals apart. -/
def debited (v : AccountRows) : Int := v.total fun e => !e.isReversal && e.kind == .debit

/-- What was reverted. -/
def reverted (v : AccountRows) : Int := v.total Entry.isReversal

/-- What the pools hold together. -/
def pooled (v : AccountRows) : Int := (v.pools.map (·.remaining.val)).sum

/-- The balance agrees with the entries and with the pools. -/
structure Conserved (v : AccountRows) : Prop where
  entries : v.points = v.credited - v.debited - v.reverted
  pools : v.points = v.pooled - v.reverted
  positive : ∀ e ∈ v.entries, 0 < e.amount.val

theorem conserved_empty : Conserved ⟨[], [], none⟩ where
  entries := rfl
  pools := rfl
  positive _ member := by cases member

variable {c : Call} {v v' : AccountRows} {e : Entry}

theorem total_concat (entries : v'.entries = v.entries ++ [e]) (sort : Entry → Bool) :
    v'.total sort = v.total sort + if sort e then e.amount.val else 0 := by
  by_cases sorted : sort e <;> simp [total, entries, sorted]

/-- The balance after a change of its row. -/
theorem points_of_apply {row row' : Balance} {delta : Amount} {time : Timestamp}
    (balance : v.balance = some row) (balance' : v'.balance = some row')
    (changed : row.apply delta time = .ok row') : v'.points = v.points + delta.val := by
  simp [points, balance, balance', (Balance.apply_eq_ok changed).1]

/-- The balance after an amount is taken off its row. -/
theorem points_of_taken {row row' : Balance} {amount : Amount} {time : Timestamp}
    (positive : 0 < amount.val) (balance : v.balance = some row) (balance' : v'.balance = some row')
    (changed : row.apply amount.neg time = .ok row') : v'.points = v.points - amount.val := by
  rw [points_of_apply balance balance' changed, Amount.val_neg (Int.le_of_lt positive)]
  omega

/-- The balance after the first credit or a later one. -/
theorem points_of_credit {row' : Balance} {id : BalanceId} {a : Account} {amount : Amount}
    {time : Timestamp} (balance' : v'.balance = some row')
    (changed : (v.balance = none ∧ row' = Balance.opened id a amount time) ∨
      ∃ row, v.balance = some row ∧ row.apply amount time = .ok row') :
    v'.points = v.points + amount.val := by
  rcases changed with ⟨absent, rfl⟩ | ⟨row, balance, applied⟩
  · simp [points, absent, balance', Balance.opened]
  · exact points_of_apply balance balance' applied

/-- What a new entry adds to the totals of its account. -/
theorem totals_concat (entries : v'.entries = v.entries ++ [e]) :
    v'.credited = v.credited + (if !e.isReversal && e.kind == .credit then e.amount.val else 0) ∧
      v'.debited = v.debited + (if !e.isReversal && e.kind == .debit then e.amount.val else 0) ∧
      v'.reverted = v.reverted + if e.isReversal then e.amount.val else 0 :=
  ⟨total_concat entries _, total_concat entries _, total_concat entries _⟩

/-- Every new entry keeps the points. -/
theorem Conserved.step (conserved : v.Conserved) (distinct : (v.pools.map (·.id)).Nodup)
    (entries : v'.entries = v.entries ++ [e]) (booked : Booked c v e v') : v'.Conserved := by
  obtain ⟨byEntries, byPools, positive⟩ := conserved
  obtain ⟨credited, debited, reverted⟩ := totals_concat entries
  have all (new : 0 < e.amount.val) : ∀ e' ∈ v'.entries, 0 < e'.amount.val := by
    intro e' member
    rw [entries] at member
    rcases List.mem_append.mp member with old | last
    · exact positive e' old
    · exact List.mem_singleton.mp last ▸ new
  cases booked with
  | credit plain kind sources new pools fresh row' balance' changed =>
    have points := points_of_credit balance' changed
    have pooled : v'.pooled = v.pooled + e.amount.val := by
      simp [AccountRows.pooled, pools, CreditPool.opened]
    have reversal : e.isReversal = false := by simp [Entry.isReversal, plain]
    simp [reversal, kind] at credited debited reverted
    exact ⟨by omega, by omega, all new⟩
  | debit plain kind allocations covered sources pools row row' balance balance' changed =>
    have new : 0 < e.amount.val := (allocate_eq_ok covered).1
    have points := points_of_taken new balance balance' changed
    have pooled : v'.pooled = v.pooled - e.amount.val := by
      rw [AccountRows.pooled, pools, List.map_map]
      exact v.sum_remaining_of_debit covered distinct
    have reversal : e.isReversal = false := by simp [Entry.isReversal, plain]
    simp [reversal, kind] at credited debited reverted
    exact ⟨by omega, by omega, all new⟩
  | reversal original member reverts sources kind amount reference pools row row' balance balance'
      changed =>
    have new : 0 < e.amount.val := amount ▸ positive original member
    have points := points_of_taken new balance balance' changed
    have pooled : v'.pooled = v.pooled := by rw [AccountRows.pooled, pools, AccountRows.pooled]
    have reversal : e.isReversal = true := by simp [Entry.isReversal, reverts]
    simp [reversal] at credited debited reverted
    exact ⟨by omega, by omega, all new⟩

/-- Nothing is reverted without a reversal. -/
theorem reverted_of_plain (plain : ∀ e ∈ v.entries, e.isReversal = false) : v.reverted = 0 := by
  have unlisted : v.entries.filter Entry.isReversal = [] :=
    List.filter_eq_nil_iff.mpr fun e member => by simp [plain e member]
  rw [reverted, total, unlisted]
  rfl

end AccountRows

/-- The rows of every account are conserved after any calls. -/
theorem Memory.conserved_of_serve {calls : List Call} (apart : calls.Pairwise Call.Apart)
    (a : Account) : ((({} : Memory).serve calls).2.books.rows a).Conserved :=
  rows_of_serve AccountRows.conserved_empty
    (fun _ _ _ _ conserved distinct entries _ booked => conserved.step distinct entries booked)
    apart a

/-- What holds of no rows, and is kept by each new entry of rows that are conserved before and
after, holds of the rows of every account after any calls. -/
theorem Memory.rows_of_serve_conserved {P : AccountRows → Prop} (empty : P ⟨[], [], none⟩)
    (step : ∀ c v e v', v.Conserved → v'.Conserved → P v → (v.pools.map (·.id)).Nodup →
      v'.entries = v.entries ++ [e] → Booked c v e v' → P v')
    {calls : List Call} (apart : calls.Pairwise Call.Apart) (a : Account) :
    P ((({} : Memory).serve calls).2.books.rows a) := by
  have both := rows_of_serve (P := fun v => v.Conserved ∧ P v) ⟨AccountRows.conserved_empty, empty⟩
    (fun c v e v' kept ids entries _ booked => by
      have conserved := kept.1.step ids entries booked
      exact ⟨conserved, step c v e v' kept.1 conserved kept.2 ids entries booked⟩)
    apart a
  exact both.2

/-- After any calls on an empty store, whether they succeed or fail, the balance of every account
is what was credited less what was debited and what was reverted, and it is what the pools hold
less what was reverted. -/
theorem Memory.points_conserved (calls : List Call) (apart : calls.Pairwise Call.Apart)
    (a : Account) :
    let v := (({} : Memory).serve calls).2.books.rows a
    v.points = v.credited - v.debited - v.reverted ∧ v.points = v.pooled - v.reverted ∧
      ((∀ e ∈ v.entries, e.isReversal = false) → v.points = v.pooled) := by
  have conserved := conserved_of_serve apart a
  refine ⟨conserved.entries, conserved.pools, fun plain => ?_⟩
  have pools := conserved.pools
  rwa [AccountRows.reverted_of_plain plain, Int.sub_zero] at pools

theorem Memory.points_conserved_credit_debit :
    let calls := [
      Call.numbered 0 (.add ⟨"acme", "ann", .credit, ⟨10, by decide⟩, "first", "", []⟩),
      Call.numbered 1 (.add ⟨"acme", "ann", .debit, ⟨4, by decide⟩, "second", "", []⟩)]
    let v := (({} : Memory).serve calls).2.books.rows ⟨"acme", "ann"⟩
    v.entries.length = 2 ∧ v.points = 6 ∧ v.points = v.credited - v.debited - v.reverted ∧
      v.points = v.pooled - v.reverted ∧
      ((∀ e ∈ v.entries, e.isReversal = false) → v.points = v.pooled) := by
  refine ⟨by decide +kernel, by decide +kernel, Memory.points_conserved _ ?_ ⟨"acme", "ann"⟩⟩
  exact .cons (by simp [Call.numbered_apart]) (.cons (by simp) .nil)

end PointLedger

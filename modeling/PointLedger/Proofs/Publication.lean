import PointLedger.Proofs.ChainValidity
import PointLedger.Proofs.Origins

/-!
A transaction reads what it will publish. Its staged rows are kept apart by what they are and laid
over the committed ones for each read in another way; a commit merges them in yet another way. Where
identifiers are fresh and changed rows keep their origins, a transaction that can be committed reads
exactly what everyone reads right after its commit.
-/

namespace PointLedger

/-! ### Sorting -/

section Sorting

variable {α : Type} {le : α → α → Bool}

/-- A row that is sorted in goes after the rows that come before it, and before the others. -/
theorem exists_mergeSort_cons (trans : ∀ a b c, le a b = true → le b c = true → le a c = true)
    (total : ∀ a b, (le a b || le b a) = true) (x : α) (rows : List α) :
    ∃ before after, (x :: rows).mergeSort le = before ++ x :: after ∧
      rows.mergeSort le = before ++ after ∧ (∀ r ∈ before, le x r = false) ∧
        ∀ r ∈ after, le x r = true := by
  obtain ⟨before, after, whole, split, first⟩ := List.mergeSort_cons trans total x rows
  have sorted := List.pairwise_mergeSort trans total (x :: rows)
  rw [whole] at sorted
  refine ⟨before, after, whole, split, fun r member => by simpa using first r member, ?_⟩
  exact (List.pairwise_cons.mp (List.pairwise_append.mp sorted).2.1).1

theorem mergeSort_cons_eq (trans : ∀ a b c, le a b = true → le b c = true → le a c = true)
    (total : ∀ a b, (le a b || le b a) = true) (x : α) (rows : List α) :
    (x :: rows).mergeSort le = (rows.mergeSort le).filter (fun r => !le x r) ++
      x :: (rows.mergeSort le).filter (le x) := by
  obtain ⟨before, after, whole, split, first, later⟩ := exists_mergeSort_cons trans total x rows
  have first' : before.filter (fun r => !le x r) = before :=
    List.filter_eq_self.mpr fun r member => by simp [first r member]
  have later' : after.filter (fun r => !le x r) = [] :=
    List.filter_eq_nil_iff.mpr fun r member => by simp [later r member]
  have none_first : before.filter (le x) = [] :=
    List.filter_eq_nil_iff.mpr fun r member => by simp [first r member]
  rw [whole, split, List.filter_append, List.filter_append, first', later', none_first,
    List.filter_eq_self.mpr later, List.append_nil, List.nil_append]

/-- Rows can be picked before or after they are sorted. -/
theorem filter_mergeSort (trans : ∀ a b c, le a b = true → le b c = true → le a c = true)
    (total : ∀ a b, (le a b || le b a) = true) (p : α → Bool) (rows : List α) :
    (rows.mergeSort le).filter p = (rows.filter p).mergeSort le := by
  induction rows with
  | nil => simp
  | cons x rest ih =>
    by_cases picked : p x = true
    · rw [mergeSort_cons_eq trans total, List.filter_append, List.filter_cons_of_pos picked,
        List.filter_comm p, List.filter_comm p, ih, List.filter_cons_of_pos picked,
        mergeSort_cons_eq trans total]
    · obtain ⟨before, after, whole, split, -⟩ := exists_mergeSort_cons trans total x rest
      rw [whole, List.filter_append, List.filter_cons_of_neg picked, ← List.filter_append, ← split,
        ih, List.filter_cons_of_neg picked]

/-- Rows with distinct keys are sorted with different keys in a row. -/
theorem pairwise_mergeSort_of_nodup {κ : Type} {key : α → κ}
    (trans : ∀ a b c, le a b = true → le b c = true → le a c = true)
    (total : ∀ a b, (le a b || le b a) = true) {rows : List α} (distinct : (rows.map key).Nodup) :
    (rows.mergeSort le).Pairwise fun a b => le a b = true ∧ key a ≠ key b := by
  have keys : ((rows.mergeSort le).map key).Nodup :=
    ((List.mergeSort_perm rows le).map key).nodup_iff.mpr distinct
  exact (List.pairwise_mergeSort trans total rows).and (List.pairwise_map.mp keys)

end Sorting

theorem Uuid.eq_of_value {i j : Uuid} (same : i.value = j.value) : i = j := by
  cases i
  cases j
  simpa using same

/-- In the order of times and then of numbers, with the numbers different, the first is older, or as
old with the smaller number. -/
theorem Timestamp.lt_or_eq_of_sorted {s t : Timestamp} {m n : Nat}
    (sorted : (decide (s < t) || decide (s ≤ t) && decide (m ≤ n)) = true) (other : m ≠ n) :
    s < t ∨ s = t ∧ m < n := by
  simp only [Bool.or_eq_true, Bool.and_eq_true, decide_eq_true_eq, lt_iff, le_iff] at sorted ⊢
  by_cases earlier : s.rank < t.rank
  · exact .inl earlier
  · exact .inr ⟨eq_of_rank (by omega), by omega⟩

namespace CreditPool

theorem le_trans (p q r : CreditPool) (first : p.le q = true) (second : q.le r = true) :
    p.le r = true := by
  simp only [le, Bool.or_eq_true, Bool.and_eq_true, decide_eq_true_eq, Timestamp.lt_iff,
    Timestamp.le_iff] at *
  omega

theorem le_total (p q : CreditPool) : (p.le q || q.le p) = true := by
  simp only [le, Bool.or_eq_true, Bool.and_eq_true, decide_eq_true_eq, Timestamp.lt_iff,
    Timestamp.le_iff]
  omega

end CreditPool

namespace Entry

theorem le_trans (e e' e'' : Entry) (first : e.le e' = true) (second : e'.le e'' = true) :
    e.le e'' = true := by
  simp only [le, EntryId.le, Bool.or_eq_true, Bool.and_eq_true, decide_eq_true_eq,
    Timestamp.lt_iff, Timestamp.le_iff] at *
  omega

theorem le_total (e e' : Entry) : (e.le e' || e'.le e) = true := by
  simp only [le, EntryId.le, Bool.or_eq_true, Bool.and_eq_true, decide_eq_true_eq,
    Timestamp.lt_iff, Timestamp.le_iff]
  omega

theorem latest?_cons (e : Entry) (rest : List Entry) :
    latest? (e :: rest) =
      match latest? rest with
      | none => some e
      | some best => if e.le best then some best else some e := by
  induction rest using List.reverseRecOn with
  | nil => rfl
  | append_singleton init x ih =>
    rw [← List.cons_append, latest?_concat, latest?_concat, ih]
    cases latest? init with
    | none => rfl
    | some best =>
      by_cases first : e.le best = true <;> by_cases second : best.le x = true <;>
        by_cases both : e.le x = true <;> simp [first, second, both]
      · exact absurd (le_trans e best x first second) both
      · have back : best.le e = true := by simpa [first] using le_total e best
        exact absurd (le_trans best e x back both) second

/-- The latest entry is the last one of the sorted entries. -/
theorem latest?_eq_getLast? (entries : List Entry) :
    latest? entries = (sort entries .ascending).getLast? := by
  unfold sort
  induction entries with
  | nil => simp [latest?]
  | cons e rest ih =>
    obtain ⟨before, after, whole, split, first, later⟩ :=
      exists_mergeSort_cons le_trans le_total e rest
    rw [latest?_cons, ih, whole, split]
    rcases List.eq_nil_or_concat after with rfl | ⟨init, last, rfl⟩
    · rw [List.append_nil, List.getLast?_concat]
      cases tail : before.getLast? with
      | none => rfl
      | some best => simp [first best (List.mem_of_getLast? tail)]
    · have comes := later last (by simp)
      simp [List.getLast?_append, List.getLast?_cons, comes]

end Entry

/-! ### What a transaction reads -/

namespace Transaction

variable {b after : Books} {t : Transaction} {a : Account}

theorem ensureLocked_of_mem (own : a.lockKey ∈ t.locks) : t.ensureLocked a = .ok () := by
  simp [ensureLocked, own]

/-- No committed entry is found in the place of a staged one. -/
theorem findEntry_of_commit (committed : b.commit t = .ok after)
    (fresh : ∀ e ∈ t.entries, ∀ e' ∈ b.entries, e'.id ≠ e.id) (lookup : EntryLookup) :
    t.findEntry b lookup = after.findEntry lookup := by
  obtain ⟨free, -, -, rfl⟩ := Books.commit_eq_ok committed
  rw [findEntry, Books.findEntry, Books.findEntry, List.find?_append]
  cases staged : t.entries.find? lookup.isMatch with
  | none => simp
  | some e =>
    have member := List.mem_of_find?_eq_some staged
    have asked : lookup.isMatch e = true := List.find?_some staged
    have missed : b.entries.find? lookup.isMatch = none := by
      refine List.find?_eq_none.mpr fun e' there found => ?_
      cases lookup with
      | byId id => exact fresh e member e' there ((eq_of_beq found).trans (eq_of_beq asked).symm)
      | byReference organizationId referenceId =>
        obtain ⟨rfl, rfl⟩ : e.organizationId = organizationId ∧ e.referenceId = referenceId := by
          simpa [EntryLookup.isMatch, Entry.hasReference] using asked
        exact List.any_eq_false.mp free e member (List.any_eq_true.mpr ⟨e', there, found⟩)
    rw [missed]
    rfl

theorem lastEntry_of_commit (committed : b.commit t = .ok after) (own : a.lockKey ∈ t.locks) :
    t.lastEntry b a = .ok (after.findEntries (.chain a)).getLast? := by
  obtain ⟨-, -, -, rfl⟩ := Books.commit_eq_ok committed
  have listed : (b.entries ++ t.entries).filter (EntryFilter.chain a).isMatch =
      (b.entries ++ t.entries).filter (·.account == a) :=
    List.filter_congr fun e _ => by simp [EntryFilter.chain, EntryFilter.isMatch]
  simp only [lastEntry, ensureLocked_of_mem own, ok_bind, pure_eq_ok, Books.findEntries,
    EntryFilter.list, listed]
  rw [Entry.latest?_eq_getLast?]
  rfl

/-- The open pools are picked after they are sorted, and the listed ones before. -/
theorem openPools_of_commit (committed : b.commit t = .ok after) (own : a.lockKey ∈ t.locks)
    (keeps : t.KeepsOrigins b) : t.openPools b a = .ok (after.findPools ⟨a, true⟩) := by
  obtain ⟨-, -, -, rfl⟩ := Books.commit_eq_ok committed
  have account {p : CreditPool} (member : p ∈ b.pools) : (t.overlay p).account = p.account :=
    congrArg (·.2.1) (keeps.overlay member)
  have changed : (b.pools.map t.overlay).filter (·.account == a) =
      (b.pools.filter (·.account == a)).map t.overlay := by
    rw [List.filter_map]
    refine congrArg (List.map t.overlay) (List.filter_congr fun p member => ?_)
    rw [Function.comp_apply, account member]
  have listed (p : CreditPool) :
      (⟨a, true⟩ : PoolFilter).isMatch p = (p.isOpen && p.account == a) := by
    rw [PoolFilter.isMatch, Bool.not_true, Bool.false_or, Bool.and_comm]
  simp only [openPools, ensureLocked_of_mem own, ok_bind, pure_eq_ok, Books.findPools,
    PoolFilter.list, CreditPool.sort]
  rw [filter_mergeSort CreditPool.le_trans CreditPool.le_total, ← changed, ← List.filter_append,
    List.filter_filter, List.filter_congr fun p _ => listed p]

/-- The accounts of the balance rows that a transaction creates are distinct, and so are those of
the rows that it changes. -/
def BalancesOnce (t : Transaction) : Prop :=
  (t.newBalances.map Balance.account).Nodup ∧ (t.balanceUpdates.map Balance.account).Nodup

theorem balance_of_commit (committed : b.commit t = .ok after) (own : a.lockKey ∈ t.locks)
    (once : t.BalancesOnce) : t.balance b a = .ok (after.findBalance a) := by
  obtain ⟨-, -, -, rfl⟩ := Books.commit_eq_ok committed
  have put {puts : List Balance} (distinct : (puts.map Balance.account).Nodup)
      (rows : List Balance) :
      (puts.foldl putBalance rows).find? (·.account == a) =
        (puts.find? (·.account == a)).or (rows.find? (·.account == a)) :=
    find?_foldl_upsert Balance.account (fun _ _ => false) a distinct rows
  simp only [balance, ensureLocked_of_mem own, ok_bind, pure_eq_ok, Books.findBalance,
    List.foldl_append, put once.1, put once.2, Option.orElse_eq_or]

end Transaction

/-- Putting a row in the place of its account's leaves one row an account. -/
theorem upheld_balancesOnce :
    Upheld (fun _ => True) (fun _ => True) fun _ t => t.BalancesOnce where
  empty := trivial
  begun _ _ := ⟨List.nodup_nil, List.nodup_nil⟩
  staged _ _ _ _ _ _ once becomes := by
    cases becomes with
    | balance _ _ _ _ | newBalance _ _ _ => exact ⟨nodup_map_upsert once.1, once.2⟩
    | oldBalance _ _ _ _ => exact ⟨once.1, nodup_map_upsert once.2⟩
    | _ => exact once
  committed _ _ _ _ _ _ := trivial
  others _ _ _ _ _ _ once _ _ := once

namespace Memory

theorem balancesOnce_calls (b : Books) (cs : List StoreCall) :
    ∀ tx t, (({ books := b } : Memory).calls cs).tx? tx = some t → t.BalancesOnce :=
  (calls_induction cs (Upheld.on_books trivial) fun _ c on =>
    upheld_balancesOnce.call (fun _ _ _ _ => ⟨id, fun _ => id⟩) on c).live

/-- What a transaction reads is what everyone reads once it is committed. -/
structure ReadsPublished (m : Memory) (tx : TxId) : Prop where
  entry : ∀ lookup, (m.perform (.findEntryIn tx lookup)).1 =
    ((m.perform (.commit tx)).2.perform (.findEntry lookup)).1
  /-- The last entry is the last one of the chain. -/
  last : ∀ a, m.Holds tx (Account.lockKey a) → (m.perform (.lastEntry tx a)).1 =
    ((m.perform (.commit tx)).2.perform (.findEntries (.chain a))).1.map (Except.map List.getLast?)
  pools : ∀ a, m.Holds tx (Account.lockKey a) → (m.perform (.openPools tx a)).1 =
    ((m.perform (.commit tx)).2.perform (.findPools ⟨a, true⟩)).1
  balance : ∀ a, m.Holds tx (Account.lockKey a) → (m.perform (.balanceForUpdate tx a)).1 =
    ((m.perform (.commit tx)).2.perform (.findBalance a)).1

/-- A transaction reads what it will publish: on any committed rows, after any calls by any number
of transactions that create entries and pools with fresh identifiers and change no row into one of
another origin, a transaction whose commit would be granted reads under its locks exactly what is
there right after the commit. -/
theorem reads_published (b : Books) (cs : List StoreCall)
    (entries : ({ books := b } : Memory).Throughout RowKeys.entryIds.Fresh cs)
    (pools : ({ books := b } : Memory).Throughout RowKeys.poolIds.Fresh cs)
    (kept : ({ books := b } : Memory).Throughout KeepsOrigins cs) (tx : TxId)
    (granted : (({ books := b } : Memory).calls cs).grants (.commit tx) = true) :
    (({ books := b } : Memory).calls cs).ReadsPublished tx := by
  obtain ⟨t, after, held, committed⟩ := grants_commit_iff.mp granted
  have handles := (handles_calls b cs).2
  have apart := (RowKeys.apart_calls entries).uncommitted tx t held
  have fresh : ∀ e ∈ t.entries, ∀ e' ∈ (({ books := b } : Memory).calls cs).books.entries,
      e'.id ≠ e.id := by
    intro e staged e' there same
    exact apart e.id (List.mem_map.mpr ⟨e, staged, rfl⟩) (List.mem_map.mpr ⟨e', there, same⟩)
  have own {a : Account} (holds : (({ books := b } : Memory).calls cs).Holds tx a.lockKey) :
      a.lockKey ∈ t.locks := by
    obtain ⟨t', held', taken⟩ := handles.holds_iff.mp holds
    rw [held] at held'
    cases held'
    exact taken
  have origins := keepsOrigins_calls pools kept tx t held
  have once := balancesOnce_calls b cs tx t held
  constructor
  · intro lookup
    simp only [perform, readIn, held, committed, Transaction.findEntry_of_commit committed fresh]
  · intro a holds
    simp only [perform, readIn, held, committed,
      Transaction.lastEntry_of_commit committed (own holds)]
    rfl
  · intro a holds
    simp only [perform, readIn, held, committed,
      Transaction.openPools_of_commit committed (own holds) origins]
    rfl
  · intro a holds
    simp only [perform, readIn, held, committed,
      Transaction.balance_of_commit committed (own holds) once]
    rfl

/-- Ann's committed pool is drawn on twice and her balance row changed twice, and a second pool and
Bob's balance row are created and then changed, all in one transaction. -/
theorem reads_published_changed_twice :
    let entry (n : Nat) : Entry := { (default : Entry) with
      id := ⟨.ofNat n⟩, organizationId := "acme", userId := "ann", referenceId := toString n }
    let pool (n : Nat) :=
      CreditPool.opened ⟨.ofNat n⟩ ⟨"acme", "ann"⟩ ⟨.ofNat n⟩ ⟨10, by decide⟩ .epoch
    let row (n : Nat) (user : String) :=
      Balance.opened ⟨.ofNat n⟩ ⟨"acme", user⟩ ⟨10, by decide⟩ .epoch
    let drawn (n : Nat) (remaining : Amount) := { pool n with remaining := remaining }
    let moved (n : Nat) (user : String) (balance : Amount) :=
      { row n user with balance := balance }
    let b : Books := { entries := [entry 1], pools := [pool 1], balances := [row 1 "ann"] }
    let cs : List StoreCall := [.beginTx, .lockAccount ⟨0⟩ ⟨"acme", "ann"⟩,
      .lockAccount ⟨0⟩ ⟨"acme", "bob"⟩, .createEntry ⟨0⟩ (entry 2), .createPool ⟨0⟩ (pool 2),
      .updatePool ⟨0⟩ (drawn 2 ⟨8, by decide⟩), .updatePool ⟨0⟩ (drawn 1 ⟨6, by decide⟩),
      .updatePool ⟨0⟩ (drawn 1 ⟨4, by decide⟩), .updateBalance ⟨0⟩ (moved 1 "ann" ⟨16, by decide⟩),
      .updateBalance ⟨0⟩ (moved 1 "ann" ⟨12, by decide⟩), .createBalance ⟨0⟩ (row 2 "bob"),
      .updateBalance ⟨0⟩ (moved 2 "bob" ⟨7, by decide⟩)].map fun request => .use (.request request)
    let m := ({ books := b } : Memory).calls cs
    (m.perform (.commit ⟨0⟩)).2.books = {
        entries := [entry 1, entry 2]
        pools := [drawn 1 ⟨4, by decide⟩, drawn 2 ⟨8, by decide⟩]
        balances := [moved 1 "ann" ⟨12, by decide⟩, moved 2 "bob" ⟨7, by decide⟩] } ∧
      m.ReadsPublished ⟨0⟩ := by
  intro entry pool row drawn moved b cs m
  exact ⟨by decide +kernel, reads_published b cs (by decide +kernel) (by decide +kernel)
    (by decide +kernel) ⟨0⟩ (by decide +kernel)⟩

end Memory
end PointLedger

import PointLedger.Proofs.Origins

/-!
What a commit changes in committed rows. An update replaces a row whole, nothing of it is compared
but what remains of a pool, and a transaction needs the lock of the account in the row that it
passes, not in the row that it replaces. So a pool can be given another account. As long as nobody
passes a row of another origin, a commit changes nothing but what remains of pools, balances and the
times of the change, in rows of accounts whose locks it holds.
-/

namespace PointLedger

/-- A pool differs from what it was in nothing but what remains of it and when it was drawn on. -/
def CreditPool.OnlyDrawn (p p' : CreditPool) : Prop :=
  p' = { p with remaining := p'.remaining, consumedAt := p'.consumedAt }

/-- A balance row differs from what it was in nothing but the balance and when it changed. -/
def Balance.OnlyMoved (row row' : Balance) : Prop :=
  row' = { row with balance := row'.balance, updatedAt := row'.updatedAt }

theorem CreditPool.onlyDrawn_of_origin_eq {p p' : CreditPool} (same : p.origin = p'.origin) :
    p.OnlyDrawn p' := by
  cases p
  cases p'
  simp_all [origin, account, OnlyDrawn]

theorem Balance.onlyMoved_of_origin_eq {row row' : Balance} (same : row.origin = row'.origin) :
    row.OnlyMoved row' := by
  cases row
  cases row'
  simp_all [origin, account, OnlyMoved]

theorem CreditPool.OnlyDrawn.account_eq {p p' : CreditPool} (drawn : p.OnlyDrawn p') :
    p'.account = p.account := by
  rw [drawn]
  rfl

theorem Balance.OnlyMoved.account_eq {row row' : Balance} (moved : row.OnlyMoved row') :
    row'.account = row.account := by
  rw [moved]
  rfl

theorem Balance.OnlyMoved.id_eq {row row' : Balance} (moved : row.OnlyMoved row') :
    row'.id = row.id := by
  rw [moved]

/-! ### Tables that are changed in place -/

section Extends

variable {α κ : Type} {kept : α → α → Prop} {new : α → Prop} {old now : List α}

/-- Each old row is in its place, as it was or changed in a way that is allowed, and all rows after
them are new. -/
def Extends (kept : α → α → Prop) (new : α → Prop) (old now : List α) : Prop :=
  ∃ rows added, now = rows ++ added ∧ List.Forall₂ kept old rows ∧ ∀ row ∈ added, new row

theorem Extends.refl (same : ∀ row, kept row row) : Extends kept new old old :=
  ⟨old, [], (List.append_nil old).symm, List.forall₂_same.mpr fun row _ => same row, nofun⟩

/-- Putting in a new row that may stand in the place of every row with its key. -/
theorem Extends.upsert [BEq κ] [LawfulBEq κ] {key : α → κ} {row : α}
    (grown : Extends kept new old now) (added : new row)
    (replaces : ∀ x ∈ old, ∀ y, kept x y → key y = key row → kept x row) :
    Extends kept new old (upsert (fun r => key r == key row) (fun _ => false) row now) := by
  obtain ⟨rows, more, rfl, in_place, fresh⟩ := grown
  induction in_place with
  | nil =>
    refine ⟨[], _, rfl, .nil, fun r member => ?_⟩
    rcases mem_of_mem_upsert member with rfl | there
    · exact added
    · exact fresh r there
  | @cons x y old rows first rest ih =>
    rw [List.cons_append, PointLedger.upsert]
    split
    · rename_i same
      exact ⟨row :: rows, more, rfl,
        .cons (replaces x List.mem_cons_self y first (eq_of_beq same)) rest, fresh⟩
    · obtain ⟨rows', more', split, in_place', fresh'⟩ :=
        ih fun x member => replaces x (List.mem_cons_of_mem _ member)
      exact ⟨y :: rows', more', by simp [split], .cons first in_place', fresh'⟩

/-- The rows of a kind, out of those that were there and those that are new. -/
theorem Extends.filter_eq {p : α → Bool} (grown : Extends kept new old now)
    (same : ∀ x y, kept x y → y = x ∨ (p x = false ∧ p y = false))
    (none : ∀ x, new x → p x = false) : now.filter p = old.filter p := by
  obtain ⟨rows, more, rfl, in_place, fresh⟩ := grown
  have unlisted : more.filter p = [] :=
    List.filter_eq_nil_iff.mpr fun x member => by simp [none x (fresh x member)]
  rw [List.filter_append, unlisted, List.append_nil]
  induction in_place with
  | nil => rfl
  | cons first _ ih =>
    rcases same _ _ first with rfl | ⟨before, after⟩
    · rw [List.filter_cons, List.filter_cons, ih]
    · rw [List.filter_cons_of_neg (by simp [after]), List.filter_cons_of_neg (by simp [before]), ih]

end Extends

/-! ### What a commit changes -/

/-- What a commit of a transaction does to the books, where a changed row relates in a certain way
to what it was: it adds rows, and changes rows in their places so that no more remains of a pool
than before. All rows that it writes are of accounts whose locks the transaction holds. -/
structure Books.Touched (pool : CreditPool → CreditPool → Prop) (balance : Balance → Balance → Prop)
    (t : Transaction) (b after : Books) : Prop where
  entries : Extends (fun e e' => e' = e) (fun e => e.account.lockKey ∈ t.locks)
    b.entries after.entries
  pools : Extends
    (fun p p' => p' = p ∨ (pool p p' ∧ 0 ≤ p'.remaining.val ∧ p'.remaining.val ≤ p.remaining.val ∧
      p'.account.lockKey ∈ t.locks))
    (fun p => p.account.lockKey ∈ t.locks) b.pools after.pools
  balances : Extends
    (fun row row' => row' = row ∨ (balance row row' ∧ row'.account.lockKey ∈ t.locks))
    (fun row => row.account.lockKey ∈ t.locks) b.balances after.balances

namespace Books

variable {b after : Books} {t : Transaction} {pool : CreditPool → CreditPool → Prop}
  {balance : Balance → Balance → Prop}

theorem Touched.refl : b.Touched pool balance t b :=
  ⟨.refl fun _ => rfl, .refl fun _ => .inl rfl, .refl fun _ => .inl rfl⟩

/-- Rows of accounts whose locks the transaction does not hold are as before, where changed rows
stay with their accounts. -/
theorem Touched.rows_eq (touched : b.Touched pool balance t after)
    (pools : ∀ p p', pool p p' → p'.account = p.account)
    (balances : ∀ row row', balance row row' → row'.account = row.account) {a : Account}
    (free : a.lockKey ∉ t.locks) : after.rows a = b.rows a := by
  have other {a' : Account} (taken : a'.lockKey ∈ t.locks) : (a' == a) = false := by
    rw [beq_eq_false_iff_ne]
    rintro rfl
    exact free taken
  have entries : after.entries.filter (·.account == a) = b.entries.filter (·.account == a) :=
    touched.entries.filter_eq (fun _ _ same => .inl same) fun _ taken => other taken
  have pools : after.pools.filter (·.account == a) = b.pools.filter (·.account == a) := by
    refine touched.pools.filter_eq (fun p p' kept => kept.imp_right ?_) fun _ taken => other taken
    rintro ⟨changed, -, -, taken⟩
    exact ⟨pools p p' changed ▸ other taken, other taken⟩
  have balances : after.balances.filter (·.account == a) = b.balances.filter (·.account == a) := by
    refine touched.balances.filter_eq (fun row row' kept => kept.imp_right ?_) fun _ taken =>
      other taken
    rintro ⟨changed, taken⟩
    exact ⟨balances row row' changed ▸ other taken, other taken⟩
  rw [rows, rows, entries, pools, findBalance, findBalance, ← List.head?_filter, balances,
    List.head?_filter]

/-- A pool that may be changed is there, and no more remains of it than before. -/
theorem checkPoolUpdate_eq_ok {u : CreditPool} (checked : b.checkPoolUpdate u = .ok ()) :
    ∃ q ∈ b.pools, q.id = u.id ∧ 0 ≤ u.remaining.val ∧ u.remaining.val ≤ q.remaining.val := by
  unfold checkPoolUpdate at checked
  split at checked
  · cases checked
  · rename_i q found
    split at checked
    · cases checked
    · rename_i fits
      refine ⟨q, List.mem_of_find?_eq_some found, by simpa using List.find?_some found, ?_⟩
      omega

theorem forM_checkPoolUpdate_eq_ok {updates : List CreditPool}
    (checked : updates.forM b.checkPoolUpdate = .ok ()) :
    ∀ u ∈ updates, b.checkPoolUpdate u = .ok () := by
  induction updates with
  | nil => exact fun _ => nofun
  | cons first rest ih =>
    rw [List.forM_eq_forM, List.forM_cons] at checked
    obtain ⟨_, passed, later⟩ := eq_ok_of_bind checked
    exact List.forall_mem_cons.mpr ⟨passed, ih later⟩

theorem foldl_putBalance_extends {puts : List Balance} {old now : List Balance}
    (grown : Extends
      (fun row row' => row' = row ∨ (balance row row' ∧ row'.account.lockKey ∈ t.locks))
      (fun row => row.account.lockKey ∈ t.locks) old now)
    (keeps : ∀ row row', balance row row' → row'.account = row.account)
    (own : ∀ put ∈ puts, put.account.lockKey ∈ t.locks)
    (changes : ∀ put ∈ puts, ∀ row ∈ old, row.account = put.account → balance row put) :
    Extends (fun row row' => row' = row ∨ (balance row row' ∧ row'.account.lockKey ∈ t.locks))
      (fun row => row.account.lockKey ∈ t.locks) old (puts.foldl Transaction.putBalance now) := by
  induction puts generalizing now with
  | nil => exact grown
  | cons put rest ih =>
    obtain ⟨first, later⟩ := List.forall_mem_cons.mp own
    refine ih ?_ later fun put member => changes put (List.mem_cons_of_mem _ member)
    refine grown.upsert first fun row member row' kept same => .inr ⟨?_, first⟩
    refine changes put List.mem_cons_self row member ?_
    rcases kept with rfl | ⟨changed, -⟩
    · exact same
    · exact (keeps row row' changed).symm.trans same

/-- What a commit does to the books, if the rows that it replaces relate to what they were. -/
theorem touched_commit (distinct : (b.pools.map (·.id)).Nodup) (guarded : t.Guarded)
    (pools : ∀ u ∈ t.poolUpdates, ∀ q ∈ b.pools, q.id = u.id → pool q u)
    (balances : ∀ u ∈ t.balanceUpdates, ∀ row ∈ b.balances, row.account = u.account →
      balance row u)
    (keeps : ∀ row row', balance row row' → row'.account = row.account)
    (committed : b.commit t = .ok after) : b.Touched pool balance t after := by
  obtain ⟨-, opened, checked, rfl⟩ := commit_eq_ok committed
  refine ⟨⟨b.entries, t.entries, rfl, List.forall₂_same.mpr fun _ _ => rfl, ?_⟩,
    ⟨b.pools.map t.overlay, t.newPools, rfl, ?_, ?_⟩,
    foldl_putBalance_extends (.refl fun _ => .inl rfl) keeps ?_ ?_⟩
  · exact fun e member => guarded.entry member
  · rw [List.forall₂_map_right_iff]
    refine List.forall₂_same.mpr fun p member => ?_
    unfold Transaction.overlay
    cases changed : t.poolUpdates.find? (·.id == p.id) with
    | none => exact .inl rfl
    | some u =>
      have staged := List.mem_of_find?_eq_some changed
      have same : u.id = p.id := by simpa using List.find?_some changed
      obtain ⟨q, there, same', nonneg, less⟩ :=
        checkPoolUpdate_eq_ok (forM_checkPoolUpdate_eq_ok checked u staged)
      -- the commit compared the change with the first pool of that id, which is the only one
      obtain rfl := List.inj_on_of_nodup_map distinct there member (same'.trans same)
      exact .inr ⟨pools u staged q there same.symm, nonneg, less, guarded.poolUpdate staged⟩
  · exact fun p member => guarded.newPool member
  · exact fun put member => guarded.balance member
  · intro put member row there same
    rcases List.mem_append.mp member with new | changed
    -- a row that is new to the books replaces none, or else the commit was refused
    · have free : ∀ row ∈ b.balances, row.account ≠ put.account := by
        simpa using List.any_eq_false.mp opened put new
      exact absurd same (free row there)
    · exact balances put changed row there same

end Books

namespace Memory

/-- A commit changes committed rows in their places, each under the lock of the account in the row
that was passed, and no more remains of a pool than before. If no row was ever passed to change one
of another origin, then nothing changes but what remains of pools, balances and the times of the
change, and all rows of accounts whose locks the transaction does not hold are as before. -/
theorem commit_touches (cs : List StoreCall)
    (fresh : ({} : Memory).Throughout RowKeys.poolIds.Fresh cs) (tx : TxId) (t : Transaction)
    (held : (({} : Memory).calls cs).tx? tx = some t) :
    let b := (({} : Memory).calls cs).books
    let after := ((({} : Memory).calls cs).perform (.commit tx)).2.books
    b.Touched (fun p p' => p'.id = p.id) (fun row row' => row'.account = row.account) t after ∧
      (({} : Memory).Throughout KeepsOrigins cs →
        b.Touched CreditPool.OnlyDrawn Balance.OnlyMoved t after ∧
          ∀ a, Account.lockKey a ∉ t.locks → after.rows a = b.rows a) := by
  intro b after
  have guarded := (guarded_calls {} cs).live tx t held
  have distinct := (RowKeys.distinct_calls (b := {}) List.nodup_nil fresh).committed
  have touched {pool : CreditPool → CreditPool → Prop} {balance : Balance → Balance → Prop}
      (pools : ∀ u ∈ t.poolUpdates, ∀ q ∈ b.pools, q.id = u.id → pool q u)
      (balances : ∀ u ∈ t.balanceUpdates, ∀ row ∈ b.balances, row.account = u.account →
        balance row u)
      (keeps : ∀ row row', balance row row' → row'.account = row.account) :
      b.Touched pool balance t after := by
    cases granted : (({} : Memory).calls cs).grants (.commit tx) with
    | true =>
      exact Books.touched_commit distinct guarded pools balances keeps
        (commit_of_grants held granted)
    | false =>
      have same : after = b := books_of_not_grants granted
      exact same ▸ .refl
  refine ⟨touched (fun _ _ _ _ same => same.symm) (fun _ _ _ _ same => same.symm)
    fun _ _ => id, fun kept => ?_⟩
  have origins := keepsOrigins_calls (b := {}) fresh kept tx t held
  have only := touched
    (fun u member q there same =>
      CreditPool.onlyDrawn_of_origin_eq ((origins.pools u member).2 q there same))
    (fun u member row there same =>
      Balance.onlyMoved_of_origin_eq (origins.balances u member row there same))
    fun _ _ => Balance.OnlyMoved.account_eq
  exact ⟨only, fun a free =>
    only.rows_eq (fun _ _ => CreditPool.OnlyDrawn.account_eq)
      (fun _ _ => Balance.OnlyMoved.account_eq) free⟩

/-- A pool of Ann and a balance row are created and committed. Then both are changed in a transaction
that holds the lock of one user. -/
def rowsChanged (user : String) (ann p : CreditPool) (before row : Balance) : List StoreCall :=
  [.use (.request .beginTx), .use (.request (.lockAccount ⟨0⟩ ⟨"acme", "ann"⟩)),
    .use (.request (.lockAccount ⟨0⟩ ⟨"acme", user⟩)), .use (.request (.createPool ⟨0⟩ ann)),
    .use (.request (.createBalance ⟨0⟩ before)), .use (.request (.commit ⟨0⟩)),
    .use (.request .beginTx), .use (.request (.lockAccount ⟨1⟩ ⟨"acme", user⟩)),
    .use (.request (.updatePool ⟨1⟩ p)), .use (.request (.updateBalance ⟨1⟩ row))]

/-- Ann's pool is drawn on, and her balance goes down. -/
theorem commit_touches_drawn :
    let ann := CreditPool.opened ⟨.ofNat 1⟩ ⟨"acme", "ann"⟩ ⟨.ofNat 2⟩ ⟨10, by decide⟩ .epoch
    let row := Balance.opened ⟨.ofNat 3⟩ ⟨"acme", "ann"⟩ ⟨10, by decide⟩ .epoch
    let drawn := { ann with remaining := ⟨6, by decide⟩, consumedAt := some .epoch }
    let moved := { row with balance := ⟨6, by decide⟩ }
    let cs := rowsChanged "ann" ann drawn row moved
    let b := (({} : Memory).calls cs).books
    let after := ((({} : Memory).calls cs).perform (.commit ⟨1⟩)).2.books
    ∃ t, (({} : Memory).calls cs).tx? ⟨1⟩ = some t ∧ after.pools = [drawn] ∧
      after.balances = [moved] ∧ b.Touched CreditPool.OnlyDrawn Balance.OnlyMoved t after ∧
      ∀ a, Account.lockKey a ∉ t.locks → after.rows a = b.rows a := by
  intro ann row drawn moved cs b after
  have alive : ((({} : Memory).calls cs).tx? ⟨1⟩).isSome = true := by decide +kernel
  obtain ⟨t, held⟩ := Option.isSome_iff_exists.mp alive
  obtain ⟨-, only⟩ := commit_touches cs (by decide +kernel) ⟨1⟩ t held
  exact ⟨t, held, by decide +kernel, by decide +kernel, only (by decide +kernel)⟩

/-- Bob's lock is enough to give him Ann's pool, as the pool of another credit and of another time.
His balance row gets another identifier and another time of creation. -/
theorem pool_given_away :
    let ann := CreditPool.opened ⟨.ofNat 1⟩ ⟨"acme", "ann"⟩ ⟨.ofNat 2⟩ ⟨10, by decide⟩ .epoch
    let later : Timestamp := ⟨.epoch, 0, 0, 1, 0, by decide⟩
    let bob := CreditPool.opened ⟨.ofNat 1⟩ ⟨"acme", "bob"⟩ ⟨.ofNat 4⟩ ⟨10, by decide⟩ later
    let row := Balance.opened ⟨.ofNat 3⟩ ⟨"acme", "bob"⟩ ⟨10, by decide⟩ .epoch
    let other := Balance.opened ⟨.ofNat 5⟩ ⟨"acme", "bob"⟩ ⟨10, by decide⟩ later
    let cs := rowsChanged "bob" ann bob row other
    let m := ({} : Memory).calls cs
    let after := (m.perform (.commit ⟨1⟩)).2.books
    ({} : Memory).Throughout RowKeys.poolIds.Fresh cs ∧ m.grants (.commit ⟨1⟩) = true ∧
      ¬ m.Holds ⟨1⟩ ann.account.lockKey ∧ m.books.pools = [ann] ∧ after.pools = [bob] ∧
      m.books.balances = [row] ∧ after.balances = [other] := by
  decide +kernel

end Memory
end PointLedger

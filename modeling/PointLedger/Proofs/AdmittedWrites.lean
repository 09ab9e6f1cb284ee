import PointLedger.Proofs.DatabaseReads
import PointLedger.Proofs.RowUpdates
import PointLedger.Sql.Rules

/-!
Writes that no rule of the schema stands against. A transaction sees the books with its own writes
laid over them. If a database holds what the transaction sees, then it admits the statement of a
write of the kinds that follow, and holds what the transaction sees afterwards.
-/

namespace PointLedger

open Sql

/-! ### What a transaction sees -/

/-- The books as a transaction sees them, and as they are once it has committed. -/
def Transaction.over (t : Transaction) (b : Books) : Books where
  entries := b.entries ++ t.entries
  pools := b.pools.map t.overlay ++ t.newPools
  balances := (t.newBalances ++ t.balanceUpdates).foldl Transaction.putBalance b.balances

theorem Books.commit_eq_over {b after : Books} {t : Transaction}
    (committed : b.commit t = .ok after) : after = t.over b :=
  (commit_eq_ok committed).2.2.2

/-! ### Rows that fit -/

/-- The account's names are short enough for their columns. -/
structure Account.Fits (a : Account) : Prop where
  organization : a.organizationId.length ≤ 255
  user : a.userId.length ≤ 255

/-- The entry keeps to the sizes and the checks of its table. -/
structure Entry.Fits (e : Entry) : Prop where
  amount : 0 < e.amount.val
  account : e.account.Fits
  transaction : e.transactionId.length ≤ 32
  reference : e.referenceId.length ≤ 255
  description : e.description.length ≤ 1024
  previous : e.previousHash.length ≤ 64
  hash : e.hash.length ≤ 64

theorem Entry.Fits.row {e : Entry} (fits : e.Fits) : entryRules.fits e.toRow = true := by
  obtain ⟨amount, ⟨organization, user⟩, transaction, reference, description, previous, hash⟩ := fits
  simp_all [Rules.fits, entryRules, entryTable, fieldNames, toRow, Row.get?, Row.text?, List.lookup,
    Condition.accepts, Value.compare?, Comparison.holds, Entry.account, Int.compare_eq_gt]

theorem CreditPool.fits_row {p : CreditPool} (account : p.account.Fits)
    (nonneg : 0 ≤ p.remaining.val) : poolRules.fits p.toRow = true := by
  obtain ⟨organization, user⟩ := account
  simp_all [Rules.fits, poolRules, poolTable, fieldNames, toRow, Row.get?, Row.text?, List.lookup,
    Condition.accepts, Value.compare?, Comparison.holds, CreditPool.account, Int.isGE_compare]

theorem Balance.fits_row {row : Balance} (account : row.account.Fits) :
    balanceRules.fits row.toRow = true := by
  obtain ⟨organization, user⟩ := account
  simp_all [Rules.fits, balanceRules, balanceTable, fieldNames, toRow, Row.get?, Row.text?,
    List.lookup, Balance.account]

/-! ### Lawful writes -/

/-- What the ledger keeps to in a write of a transaction that has staged `t` over the books `b`. -/
def Request.Lawful (b : Books) (t : Transaction) : Request → Prop
  | .createEntry _ e => e.Fits ∧ ∀ other ∈ (t.over b).entries, other.id ≠ e.id ∧ other.key ≠ e.key
  | .createPool _ p =>
    p.account.Fits ∧ 0 ≤ p.remaining.val ∧ (∃ e ∈ t.entries, e.id = p.entryId) ∧
      ∀ other ∈ (t.over b).pools, other.id ≠ p.id ∧ other.entryId ≠ p.entryId
  | .updatePool _ p =>
    p.account.Fits ∧ 0 ≤ p.remaining.val ∧ (∃ old ∈ (t.over b).pools, old.id = p.id) ∧
      ∀ old ∈ (t.over b).pools, old.id = p.id →
        old.OnlyDrawn p ∧ p.remaining.val < old.remaining.val
  | .createBalance _ row =>
    row.account.Fits ∧
      ∀ other ∈ (t.over b).balances, other.id ≠ row.id ∧ other.account ≠ row.account
  | .updateBalance _ row =>
    row.account.Fits ∧ (∃ old ∈ (t.over b).balances, old.id = row.id) ∧
      ∀ old ∈ (t.over b).balances, old.id = row.id → old.OnlyMoved row
  | _ => True

/-- A write with which the transaction `t` becomes `t'` is lawful, and no rule of the schema keeps
a database that holds what the transaction sees from doing the same. -/
structure Request.Obeys (request : Request) (b : Books) (t t' : Transaction) : Prop where
  lawful : request.Lawful b t
  admitted : (Database.holding (t.over b)).Admits (statement request)
  agrees : (Database.holding (t.over b)).after (statement request) = Database.holding (t'.over b)

/-! ### The tables of some books -/

namespace Sql.Database

theorem put_entryTable (b : Books) (entries : List Entry) :
    (holding b).put entryTable (entries.map Entry.toRow) =
      holding { b with entries := entries } := by
  refine congrArg Database.mk (funext fun name => ?_)
  by_cases own : name = entryTable.name <;> simp [holding, own]

theorem put_poolTable (b : Books) (pools : List CreditPool) :
    (holding b).put poolTable (pools.map CreditPool.toRow) =
      holding { b with pools := pools } := by
  refine congrArg Database.mk (funext fun name => ?_)
  have other : poolTable.name ≠ entryTable.name := by decide
  by_cases own : name = poolTable.name <;> simp [holding, own, other]

theorem put_balanceTable (b : Books) (balances : List Balance) :
    (holding b).put balanceTable (balances.map Balance.toRow) =
      holding { b with balances := balances } := by
  refine congrArg Database.mk (funext fun name => ?_)
  have other : balanceTable.name ≠ entryTable.name ∧ balanceTable.name ≠ poolTable.name := by decide
  by_cases own : name = balanceTable.name <;> simp [holding, own, other]

variable {α : Type} (toRow : α → Row) {values : List α}

/-- Changing the rows that meet a condition is changing what these rows stand for. -/
theorem map_change {changes : Row} {condition : Condition} {picks : α → Bool} {value : α}
    (accepts : ∀ old ∈ values, condition.accepts (toRow old) = picks old)
    (changed : ∀ old ∈ values, picks old = true → Row.change (toRow old) changes = toRow value) :
    (values.map toRow).map (fun row =>
        if condition.accepts row then Row.change row changes else row) =
      (values.map fun old => if picks old then value else old).map toRow := by
  rw [List.map_map, List.map_map]
  refine List.map_congr_left fun old member => ?_
  simp only [Function.comp_apply, accepts old member]
  split
  · exact changed old member ‹_›
  · rfl

end Sql.Database

theorem Entry.key_toRow_id {e other : Entry} :
    Row.key other.toRow ["id"] = Row.key e.toRow ["id"] ↔ other.id = e.id := by
  rcases e with ⟨⟨_⟩⟩
  rcases other with ⟨⟨_⟩⟩
  simp [Row.key, Row.get?, toRow]

theorem Entry.key_toRow_reference {e other : Entry} :
    Row.key other.toRow ["organization_id", "reference_id"] =
      Row.key e.toRow ["organization_id", "reference_id"] ↔ other.key = e.key := by
  simp [Row.key, Row.get?, toRow, List.lookup, Entry.key]

theorem CreditPool.key_toRow_id {p other : CreditPool} :
    Row.key other.toRow ["id"] = Row.key p.toRow ["id"] ↔ other.id = p.id := by
  rcases p with ⟨⟨_⟩⟩
  rcases other with ⟨⟨_⟩⟩
  simp [Row.key, Row.get?, toRow]

theorem CreditPool.key_toRow_entryId {p other : CreditPool} :
    Row.key other.toRow ["ledger_entry_id"] = Row.key p.toRow ["ledger_entry_id"] ↔
      other.entryId = p.entryId := by
  rcases p with ⟨_, _, _, ⟨_⟩⟩
  rcases other with ⟨_, _, _, ⟨_⟩⟩
  simp [Row.key, Row.get?, toRow, List.lookup]

theorem Balance.key_toRow_id {row other : Balance} :
    Row.key other.toRow ["id"] = Row.key row.toRow ["id"] ↔ other.id = row.id := by
  rcases row with ⟨⟨_⟩⟩
  rcases other with ⟨⟨_⟩⟩
  simp [Row.key, Row.get?, toRow]

theorem Balance.key_toRow_account {row other : Balance} :
    Row.key other.toRow ["organization_id", "user_id"] =
      Row.key row.toRow ["organization_id", "user_id"] ↔ other.account = row.account := by
  simp [Row.key, Row.get?, toRow, List.lookup, Balance.account]

/-- A pool that was drawn on is what the statement makes of its row. -/
theorem CreditPool.OnlyDrawn.change_toRow {old p : CreditPool} (drawn : old.OnlyDrawn p) :
    Row.change old.toRow
      (p.toRow.filter fun (column, _) => ["remaining", "consumed_at"].contains column) =
        p.toRow := by
  rw [drawn]
  simp [Row.change, toRow, Row.get?, List.lookup, List.filter]

theorem Balance.OnlyMoved.change_toRow {old row : Balance} (moved : old.OnlyMoved row) :
    Row.change old.toRow
      (row.toRow.filter fun (column, _) => ["balance", "updated_at"].contains column) =
        row.toRow := by
  rw [moved]
  simp [Row.change, toRow, Row.get?, List.lookup, List.filter]

/-- A committed pool as a transaction sees it after one more change. -/
theorem Transaction.overlay_stageUpdate (t : Transaction) (p q : CreditPool) :
    ({ t with poolUpdates := CreditPool.stageUpdate t.poolUpdates p } : Transaction).overlay q =
      if q.id == p.id then p else t.overlay q := by
  unfold Transaction.overlay CreditPool.stageUpdate
  rw [find?_upsert CreditPool.id, Bool.beq_comm]
  split <;> rfl

theorem CreditPool.accepts_withId (p q : CreditPool) :
    (withId p.id.uuid).accepts q.toRow = (q.id == p.id) := by
  have here (q : CreditPool) : Row.get? q.toRow "id" = some (.uuid q.id.uuid) := rfl
  rw [withId, Condition.accepts_uuid (here q)]
  exact Bool.eq_iff_iff.mpr (by rcases q with ⟨⟨_⟩⟩; rcases p with ⟨⟨_⟩⟩; simp)

theorem Balance.accepts_withId (row r : Balance) :
    (withId row.id.uuid).accepts r.toRow = (r.id == row.id) := by
  have here (r : Balance) : Row.get? r.toRow "id" = some (.uuid r.id.uuid) := rfl
  rw [withId, Condition.accepts_uuid (here r)]
  exact Bool.eq_iff_iff.mpr (by rcases r with ⟨⟨_⟩⟩; rcases row with ⟨⟨_⟩⟩; simp)

/-- A pool of which less remains passes the triggers. -/
theorem CreditPool.OnlyDrawn.permits {old p : CreditPool} (drawn : old.OnlyDrawn p)
    (less : p.remaining.val ≤ old.remaining.val) : poolRules.permits old.toRow p.toRow = true := by
  rw [drawn]
  simp [Rules.permits, poolRules, toRow, Row.get?, List.lookup, Condition.accepts, Value.compare?,
    Comparison.holds, Int.isLE_compare, less]

/-! ### Lawful writes are admitted -/

namespace Request

variable {b : Books} {t : Transaction} {tx : TxId}

theorem obeys_createEntry {e : Entry} (lawful : (createEntry tx e).Lawful b t) :
    (createEntry tx e).Obeys b t { t with entries := t.entries ++ [e] } := by
  obtain ⟨fits, free⟩ := lawful
  refine ⟨⟨fits, free⟩, .insert (show entryRules ∈ Schema.rules by simp [Schema.rules])
    ⟨fits.row, fun key member row there => ?_, fun _ => nofun⟩, ?_⟩
  · obtain ⟨other, known, rfl⟩ := List.mem_map.mp there
    obtain ⟨id, reference⟩ := free other known
    rcases List.mem_pair.mp member with rfl | rfl
    · exact fun same => id (Entry.key_toRow_id.mp same)
    · exact fun same => reference (Entry.key_toRow_reference.mp same)
  · have added := Database.put_entryTable (t.over b) ((t.over b).entries ++ [e])
    rw [List.map_append] at added
    refine added.trans (congrArg Database.holding ?_)
    simp only [Transaction.over, List.append_assoc]
    rfl

theorem obeys_createPool {p : CreditPool} (lawful : (createPool tx p).Lawful b t) :
    (createPool tx p).Obeys b t { t with newPools := t.newPools ++ [p] } := by
  obtain ⟨account, nonneg, ⟨e, created, same⟩, free⟩ := lawful
  refine ⟨⟨account, nonneg, ⟨e, created, same⟩, free⟩,
    .insert (show poolRules ∈ Schema.rules by simp [Schema.rules])
      ⟨p.fits_row account nonneg, fun key member row there => ?_, fun reference member => ?_⟩, ?_⟩
  · obtain ⟨other, known, rfl⟩ := List.mem_map.mp there
    obtain ⟨id, entryId⟩ := free other known
    rcases List.mem_pair.mp member with rfl | rfl
    · exact fun same => id (CreditPool.key_toRow_id.mp same)
    · exact fun same => entryId (CreditPool.key_toRow_entryId.mp same)
  · obtain rfl := List.mem_singleton.mp member
    refine ⟨e.toRow, List.mem_map_of_mem (List.mem_append_right b.entries created), ?_⟩
    exact congrArg (fun id : EntryId => some (Value.uuid id.uuid)) same
  · have added := Database.put_poolTable (t.over b) ((t.over b).pools ++ [p])
    rw [List.map_append] at added
    refine added.trans (congrArg Database.holding ?_)
    simp only [Transaction.over, List.append_assoc]
    rfl

theorem obeys_createBalance {row : Balance} (lawful : (createBalance tx row).Lawful b t)
    (first : t.newBalances = []) (unchanged : t.balanceUpdates = []) :
    (createBalance tx row).Obeys b t { t with newBalances := [row] } := by
  obtain ⟨account, free⟩ := lawful
  refine ⟨⟨account, free⟩, .insert (show balanceRules ∈ Schema.rules by simp [Schema.rules])
    ⟨row.fits_row account, fun key member found there => ?_, fun _ => nofun⟩, ?_⟩
  · obtain ⟨other, known, rfl⟩ := List.mem_map.mp there
    obtain ⟨id, owner⟩ := free other known
    rcases List.mem_pair.mp member with rfl | rfl
    · exact fun same => id (Balance.key_toRow_id.mp same)
    · exact fun same => owner (Balance.key_toRow_account.mp same)
  · have added := Database.put_balanceTable (t.over b) ((t.over b).balances ++ [row])
    rw [List.map_append] at added
    refine added.trans (congrArg Database.holding ?_)
    have own : (t.over b).balances = b.balances := by simp [Transaction.over, first, unchanged]
    rw [own] at free ⊢
    rw [← upsert_of_absent fun r member => beq_eq_false_iff_ne.mpr (free r member).2]
    simp only [Transaction.over, unchanged]
    rfl

/-- An update finds the row by its id, and the store in memory finds it by its account. -/
theorem obeys_updateBalance {row : Balance} (lawful : (updateBalance tx row).Lawful b t)
    (distinct : (b.balances.map Balance.account).Nodup)
    (first : t.newBalances = []) (unchanged : t.balanceUpdates = []) :
    (updateBalance tx row).Obeys b t { t with balanceUpdates := [row] } := by
  have seen : (t.over b).balances = b.balances := by simp [Transaction.over, first, unchanged]
  refine ⟨lawful, .update (show balanceRules ∈ Schema.rules by simp [Schema.rules]) ?_, ?_⟩
  · obtain ⟨account, -, moves⟩ := lawful
    intro changed there meets
    obtain ⟨r, known, rfl⟩ := List.mem_map.mp there
    have same : r.id = row.id := eq_of_beq (row.accepts_withId r ▸ meets)
    have moved := moves r known same
    rw [moved.change_toRow]
    refine ⟨?_, row.fits_row account, fun key member => .inl ?_, fun _ => nofun⟩
    · simp [Rules.permits, balanceRules]
    · rcases List.mem_pair.mp member with rfl | rfl
      · exact Balance.key_toRow_id.mpr same.symm
      · exact Balance.key_toRow_account.mpr moved.account_eq
  · obtain ⟨-, ⟨old, there, same⟩, moves⟩ := lawful
    have moved := moves old there same
    have one : ∀ r ∈ b.balances, (r.id == row.id) = (r.account == row.account) := by
      intro r member
      refine Bool.eq_iff_iff.mpr ?_
      rw [beq_iff_eq, beq_iff_eq]
      refine ⟨fun here => (moves r (seen ▸ member) here).account_eq.symm, fun here => ?_⟩
      rw [List.inj_on_of_nodup_map distinct member (seen ▸ there) (here.trans moved.account_eq)]
      exact same
    have changed := Database.map_change Balance.toRow (fun r _ => row.accepts_withId r)
      fun r known meets => (moves r known (eq_of_beq meets)).change_toRow
    refine (congrArg _ changed).trans
      ((Database.put_balanceTable (t.over b) _).trans (congrArg Database.holding ?_))
    have put : Transaction.putBalance b.balances row =
        b.balances.map fun r => if r.id == row.id then row else r := by
      refine (upsert_eq_map distinct ⟨old, seen ▸ there, moved.account_eq.symm⟩).trans ?_
      exact List.map_congr_left fun r member => by rw [one r member]
    simp only [Transaction.over, first, unchanged, List.append_nil, List.nil_append,
      List.foldl_nil, List.foldl_cons, put]
    rfl

theorem obeys_updatePool {p : CreditPool} (lawful : (updatePool tx p).Lawful b t)
    (committed : t.newPools = []) :
    (updatePool tx p).Obeys b t
      { t with poolUpdates := CreditPool.stageUpdate t.poolUpdates p } := by
  refine ⟨lawful, .update (show poolRules ∈ Schema.rules by simp [Schema.rules]) ?_, ?_⟩
  · obtain ⟨account, nonneg, -, draws⟩ := lawful
    intro changed there meets
    obtain ⟨q, known, rfl⟩ := List.mem_map.mp there
    have same : q.id = p.id := eq_of_beq (p.accepts_withId q ▸ meets)
    obtain ⟨drawn, less⟩ := draws q known same
    have credit : p.entryId = q.entryId := by rw [drawn]
    rw [drawn.change_toRow]
    refine ⟨drawn.permits (Int.le_of_lt less), p.fits_row account nonneg,
      fun key member => .inl ?_, fun reference member => .inl ?_⟩
    · rcases List.mem_pair.mp member with rfl | rfl
      · exact CreditPool.key_toRow_id.mpr same.symm
      · exact CreditPool.key_toRow_entryId.mpr credit
    · obtain rfl := List.mem_singleton.mp member
      exact congrArg (fun id : EntryId => some (Value.uuid id.uuid)) credit
  · obtain ⟨-, -, -, draws⟩ := lawful
    have changed := Database.map_change CreditPool.toRow
      (fun q _ => p.accepts_withId q)
      fun q known meets => (draws q known (eq_of_beq meets)).1.change_toRow
    refine (congrArg _ changed).trans
      ((Database.put_poolTable (t.over b) _).trans (congrArg Database.holding ?_))
    have laid : (b.pools.map t.overlay).map (fun q => if q.id == p.id then p else q) =
        b.pools.map ({ t with poolUpdates := CreditPool.stageUpdate t.poolUpdates p } :
          Transaction).overlay := by
      rw [List.map_map]
      exact List.map_congr_left fun q _ => by simp [Transaction.overlay_stageUpdate]
    simp only [Transaction.over, committed, List.append_nil, laid]

end Request
end PointLedger

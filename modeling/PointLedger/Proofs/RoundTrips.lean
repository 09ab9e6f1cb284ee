import PointLedger.Proofs.Clock
import PointLedger.Proofs.DatabaseReads
import PointLedger.Proofs.Encoding
import PointLedger.Proofs.ReadBack
import PointLedger.Proofs.WrittenValues

/-!
Entries that leave the ledger and come back. The JSON form of an entry gives the entry as it is
shown, which is the same one unless its time lies in a leap second in the middle of a minute. A
database keeps the values of a row, but cuts its times to the microsecond; a sealed entry has no
finer time, nor have the pool and the balance that are opened with it, so they come back unchanged.
-/

namespace PointLedger

/-! ### JSON -/

/-- The JSON value of an entry is read as the entry that it shows, with the same hash, as long as
none of the caller's keys is a key of the ledger. That is the same entry, unless its time lies in a
leap second in the middle of a minute. The text of the value is read as the value, if the values
under the caller's keys are read back from theirs; they stand one object deep. -/
theorem Entry.json_round_trip {e : Entry} (opened : e.metadata.Open) :
    (∃ read, ofJson? e.toJson = some read ∧ read = e.shown ∧
      (read = e ↔ e.createdAt.Legible) ∧ read.computeHash = e.computeHash ∧
      read.verifyHash = e.verifyHash) ∧
    (Json.Legible (Json.maxDepth - 1) (.object e.metadata.extra) →
      Json.parse? e.toJson.text = some e.toJson) := by
  have digest : e.shown.computeHash = e.computeHash :=
    congrArg Sha256.hexOfText e.encoding_shown
  refine ⟨⟨e.shown, ofJson?_toJson opened, rfl, shown_eq_self_iff, digest, ?_⟩, fun extra => ?_⟩
  · rw [verifyHash, digest]
    rfl
  · exact Json.parse?_text (legible_toJson opened extra)

/-- A reversal of the least amount in a leap second of a year with five digits. -/
theorem Entry.json_round_trip_leap_second :
    let e : Entry := {
      id := ⟨Uuid.ofNat 3⟩, organizationId := "acme|", userId := "ann", kind := .debit
      amount := ⟨-0x8000000000000000, by decide⟩, transactionId := "20250101-00000A"
      referenceId := "first", description := ""
      metadata := {
        sources := [
          ⟨⟨Uuid.ofNat 1⟩, ⟨0x7fffffffffffffff, by decide⟩⟩,
          ⟨⟨Uuid.ofNat 1⟩, ⟨-1, by decide⟩⟩]
        reverts := some ⟨⟨Uuid.ofNat 2⟩, "abc"⟩
        extra := [("note", .array [
          .null, .object [("sources", .number (.decimal (.ofDecimal true 15 299)))]])] }
      previousHash := genesisHash, hash := "abc"
      createdAt := ⟨⟨-12345, 12, 31, by decide⟩, 23, 59, 59, 1999999999, by decide⟩ }
    e.metadata.Open ∧ e.createdAt.Legible ∧
      Json.Legible (Json.maxDepth - 1) (.object e.metadata.extra) ∧
      (∃ read, Entry.ofJson? e.toJson = some read ∧ read = e.shown ∧
        (read = e ↔ e.createdAt.Legible) ∧ read.computeHash = e.computeHash ∧
        read.verifyHash = e.verifyHash) ∧
      Json.parse? e.toJson.text = some e.toJson := by
  intro e
  have opened : e.metadata.Open := by decide
  have number : Json.Legible 123 (.number (.decimal (.ofDecimal true 15 299))) :=
    .decimal (by decide +kernel)
  have extra : Json.Legible (Json.maxDepth - 1) (.object e.metadata.extra) := by
    refine .object (by decide) (List.forall_mem_singleton.mpr (.array ?_))
    refine List.forall_mem_cons.mpr ⟨.null, List.forall_mem_singleton.mpr (.object (by decide) ?_)⟩
    exact List.forall_mem_singleton.mpr number
  obtain ⟨value, text⟩ := Entry.json_round_trip opened
  exact ⟨opened, by decide, extra, value, text extra⟩

/-- What is not read back as it was: an entry in a leap second that follows noon and 30 seconds is
read as one in the ordinary second after; of the text of a floating-point number another number may
be read; and the text of too many containers inside each other is refused. -/
theorem Entry.read_otherwise :
    let hidden : Entry := {
      id := ⟨Uuid.ofNat 1⟩, organizationId := "acme", userId := "ann", kind := .credit
      amount := ⟨10, by decide⟩, transactionId := "20250101-00000A", referenceId := "first"
      description := "", metadata := default, previousHash := genesisHash, hash := ""
      createdAt := ⟨⟨2025, 1, 1, by decide⟩, 12, 0, 30, 1500000000, by decide⟩ }
    let noted (value : Json) : Entry := { hidden with
      createdAt := ⟨⟨2025, 1, 1, by decide⟩, 12, 0, 30, 500000000, by decide⟩
      metadata := { extra := [("note", value)] } }
    let loose := noted (.number (.decimal (.ofDecimal false 31245270191439438 (-15))))
    let deep := noted (Nat.repeat (fun inner => .array [inner]) 126 .null)
    (hidden.metadata.Open ∧ Entry.ofJson? hidden.toJson ≠ some hidden) ∧
      (loose.metadata.Open ∧ (Json.parse? loose.toJson.text).bind Entry.ofJson? ≠ some loose) ∧
      (deep.metadata.Open ∧ (Json.parse? deep.toJson.text).bind Entry.ofJson? ≠ some deep) := by
  intro hidden noted loose deep
  refine ⟨⟨by decide, fun same => ?_⟩, ⟨by decide, ?_⟩, by decide, ?_⟩
  · rw [Entry.ofJson?_toJson (by decide), Option.some.injEq, Entry.shown_eq_self_iff] at same
    exact absurd same (by decide)
  · rw [Json.parse?, Json.text, String.toList_ofList]
    decide +kernel
  · rw [Json.parse?, Json.text, String.toList_ofList]
    decide +kernel

/-! ### What a database keeps -/

namespace Sql

/-- A value as a database keeps it: a time to the microsecond, and any other value as it is. -/
def Value.kept : Value → Value
  | .time moment => .time moment.truncate
  | value => value

/-- A row as a database keeps it. -/
def Row.kept (row : Row) : Row := row.map fun cell => (cell.1, cell.2.kept)

end Sql

open Sql

namespace Entry

/-- An entry as a database keeps it. -/
def kept (e : Entry) : Entry := { e with createdAt := e.createdAt.truncate }

theorem kept_toRow (e : Entry) : Row.kept e.toRow = e.kept.toRow := rfl

theorem kept_eq_self {e : Entry} (aligned : e.createdAt.truncate = e.createdAt) : e.kept = e := by
  rw [kept, aligned]

theorem ofRow?_kept {e : Entry} (opened : e.metadata.Open) :
    ofRow? (Row.kept e.toRow) = some (.ok e.kept) := by
  have readable : Metadata.ofStored? e.kept.metadata.toJson = some e.kept.metadata :=
    Metadata.ofStored?_toJson opened
  rw [kept_toRow, ofRow?_of_inRow? (inRow?_toRow readable)]

/-- What a database cuts off a time is not hashed. -/
theorem HashedAlike.of_kept (e : Entry) : e.kept.HashedAlike e where
  amount := rfl
  createdAt := e.createdAt.truncate_truncate
  description := rfl
  id := rfl
  organizationId := rfl
  previousHash := rfl
  referenceId := rfl
  transactionId := rfl
  kind := rfl
  userId := rfl

theorem verifyHash_kept (e : Entry) : e.kept.verifyHash = e.verifyHash := by
  have hash : e.kept.computeHash = e.computeHash :=
    congrArg Sha256.hexOfText (HashedAlike.of_kept e).encoding
  rw [verifyHash, hash]
  rfl

end Entry

namespace CreditPool

/-- A pool as a database keeps it. -/
def kept (p : CreditPool) : CreditPool :=
  { p with createdAt := p.createdAt.truncate, consumedAt := p.consumedAt.map Timestamp.truncate }

theorem kept_toRow (p : CreditPool) : Row.kept p.toRow = p.kept.toRow := by
  obtain ⟨_, _, _, _, _, _, _ | time⟩ := p <;> rfl

theorem ofRow?_kept (p : CreditPool) : ofRow? (Row.kept p.toRow) = some p.kept := by
  rw [kept_toRow, ofRow?_toRow]

theorem kept_opened (id : PoolId) (account : Account) (entryId : EntryId) (amount : Amount)
    {time : Timestamp} (aligned : time.truncate = time) :
    (opened id account entryId amount time).kept = opened id account entryId amount time := by
  simp [kept, opened, aligned]

end CreditPool

namespace Balance

/-- A balance as a database keeps it. -/
def kept (b : Balance) : Balance :=
  { b with createdAt := b.createdAt.truncate, updatedAt := b.updatedAt.truncate }

theorem kept_toRow (b : Balance) : Row.kept b.toRow = b.kept.toRow := rfl

theorem ofRow?_kept (b : Balance) : ofRow? (Row.kept b.toRow) = some b.kept := by
  rw [kept_toRow, ofRow?_toRow]

theorem kept_opened (id : BalanceId) (account : Account) (amount : Amount) {time : Timestamp}
    (aligned : time.truncate = time) :
    (opened id account amount time).kept = opened id account amount time := by
  simp [kept, opened, aligned]

end Balance

namespace Draft

theorem truncate_sealed (d : Draft) : d.sealed.createdAt.truncate = d.sealed.createdAt :=
  d.createdAt.truncate_truncate

theorem verifyHash_sealed (d : Draft) : d.sealed.verifyHash = true :=
  beq_iff_eq.mpr d.computeHash_sealed

/-- A sealed entry that goes through a database comes back as it was and carries its hash, however
fine the time of its draft was. So do a pool and a balance that are opened at its time. -/
theorem sealed_outlasts_storage {d : Draft} (opened : d.metadata.Open) (account : Account)
    (amount : Amount) (poolId : PoolId) (balanceId : BalanceId) :
    let e := d.sealed
    let pool := CreditPool.opened poolId account e.id amount e.createdAt
    let balance := Balance.opened balanceId account amount e.createdAt
    (∃ read, Entry.ofRow? (Row.kept e.toRow) = some (.ok read) ∧ read = e ∧
        read.verifyHash = true) ∧
      CreditPool.ofRow? (Row.kept pool.toRow) = some pool ∧
      Balance.ofRow? (Row.kept balance.toRow) = some balance := by
  intro e pool balance
  have entry : e.kept = e := Entry.kept_eq_self d.truncate_sealed
  have pool' : pool.kept = pool := CreditPool.kept_opened _ _ _ _ d.truncate_sealed
  have balance' : balance.kept = balance := Balance.kept_opened _ _ _ d.truncate_sealed
  refine ⟨⟨e.kept, Entry.ofRow?_kept opened, entry, ?_⟩, ?_, ?_⟩
  · rw [Entry.verifyHash_kept, d.verifyHash_sealed]
  · rw [pool.ofRow?_kept, pool']
  · rw [balance.ofRow?_kept, balance']

/-- A draft in a leap second, with a time that a database cuts. -/
theorem sealed_outlasts_storage_leap_second :
    let d : Draft := {
      id := ⟨Uuid.ofNat 3⟩, account := ⟨"acme", "ann"⟩, kind := .debit, amount := ⟨5, by decide⟩
      transactionId := "20161231-00000A", referenceId := "first", description := ""
      metadata := {
        sources := [⟨⟨Uuid.ofNat 1⟩, ⟨5, by decide⟩⟩]
        reverts := some ⟨⟨Uuid.ofNat 2⟩, "abc"⟩
        extra := [("note", .null)] }
      previousHash := genesisHash
      createdAt := ⟨⟨2016, 12, 31, by decide⟩, 23, 59, 59, 1123456789, by decide⟩ }
    let e := d.sealed
    let pool := CreditPool.opened ⟨Uuid.ofNat 4⟩ d.account e.id d.amount e.createdAt
    let balance := Balance.opened ⟨Uuid.ofNat 5⟩ d.account d.amount e.createdAt
    d.metadata.Open ∧ d.createdAt.truncate ≠ d.createdAt ∧
      (∃ read, Entry.ofRow? (Row.kept e.toRow) = some (.ok read) ∧ read = e ∧
        read.verifyHash = true) ∧
      CreditPool.ofRow? (Row.kept pool.toRow) = some pool ∧
      Balance.ofRow? (Row.kept balance.toRow) = some balance := by
  intro d e pool balance
  have opened : d.metadata.Open := by decide
  exact ⟨opened, by decide, sealed_outlasts_storage opened d.account d.amount _ _⟩

end Draft

end PointLedger

import PointLedger.Proofs.Clock
import PointLedger.Entry.Encoding

/-!
A chain's time only moves forward. The time a microsecond after another is told here by the order
of times alone: it is the least later time with the same digits past the microsecond that enters no
leap second. The time of a new entry is the clock's, to the microsecond, when that is later than the
tail, and the time a microsecond after the tail when it is not; sealing cuts the digits past the
microsecond off, and what is left still comes after the tail. All this holds in a leap second too,
whichever second it follows.
-/

namespace PointLedger

theorem one_le_daysInMonth (year : Int) (month : Nat) : 1 ≤ daysInMonth year month := by
  unfold daysInMonth
  split
  · split <;> omega
  · split <;> omega

/-- Every day before another has a day after it, which is no later than the other. -/
theorem Date.exists_next?_le {d e : Date} (later : d.rank < e.rank) :
    ∃ d', d.next? = some d' ∧ d'.rank ≤ e.rank := by
  obtain ⟨⟨first, -⟩, ⟨january, december⟩, firstDay, -⟩ := d.valid
  obtain ⟨⟨-, last⟩, ⟨january', december'⟩, firstDay', lastDay'⟩ := e.valid
  have short := daysInMonth_le d.year d.month
  have short' := daysInMonth_le e.year e.month
  have sameMonth : e.year = d.year → e.month = d.month →
      daysInMonth e.year e.month = daysInMonth d.year d.month := fun year month => by
    rw [year, month]
  unfold rank at later
  unfold next? of?
  split
  · rw [dif_pos (by omega)]
    exact ⟨_, rfl, by dsimp only [rank]; omega⟩
  · split
    · have day := one_le_daysInMonth d.year (d.month + 1)
      rw [dif_pos (by omega)]
      exact ⟨_, rfl, by dsimp only [rank]; omega⟩
    · have day := one_le_daysInMonth (d.year + 1) 1
      rw [dif_pos (by omega)]
      exact ⟨_, rfl, by dsimp only [rank]; omega⟩

namespace Timestamp

/-- The time a microsecond after another: the least later one with the same digits past the
microsecond, in a leap second only if the other is in one. -/
structure MicrosecondLater (t u : Timestamp) : Prop where
  later : t < u
  digits : u.nano % 1000 = t.nano % 1000
  ordinary : u.InLeapSecond → t.InLeapSecond
  least : ∀ v : Timestamp, t < v → v.nano % 1000 = t.nano % 1000 →
    (v.InLeapSecond → t.InLeapSecond) → u ≤ v

theorem of?_eq {date : Date} {hour minute second nano : Nat}
    (valid : hour < 24 ∧ minute < 60 ∧ second < 60 ∧ nano < 2000000000) :
    of? date hour minute second nano = some ⟨date, hour, minute, second, nano, valid⟩ :=
  dif_pos valid

/-- Every minute before a time has a next minute, which starts no later than the time. -/
theorem exists_nextMinute?_le {t v : Timestamp}
    (later : (((t.date.rank * 24 + t.hour) * 60 + t.minute) * 60 + 60) * 2000000000 ≤ v.rank) :
    ∃ u, t.nextMinute? (v.nano % 1000) = some u ∧ u ≤ v ∧ u.nano = v.nano % 1000 := by
  obtain ⟨hour, minute, -, -⟩ := t.valid
  obtain ⟨hour', minute', second', nano'⟩ := v.valid
  have digits := Nat.mod_lt v.nano (show 0 < 1000 by omega)
  have small := Nat.mod_le v.nano 1000
  unfold rank at later
  unfold nextMinute?
  split
  · refine ⟨_, of?_eq (by omega), ?_, rfl⟩
    simp only [le_iff, rank]
    omega
  · split
    · refine ⟨_, of?_eq (by omega), ?_, rfl⟩
      simp only [le_iff, rank]
      omega
    · obtain ⟨date, tomorrow, soon⟩ := Date.exists_next?_le (d := t.date) (e := v.date) (by omega)
      rw [tomorrow]
      refine ⟨_, of?_eq (by omega), ?_, rfl⟩
      simp only [le_iff, rank]
      omega

/-- So has every second, with its leap second. -/
theorem exists_nextSecond?_le {t v : Timestamp}
    (later : ((((t.date.rank * 24 + t.hour) * 60 + t.minute) * 60 + t.second) + 1) * 2000000000 ≤
      v.rank) :
    ∃ u, t.nextSecond? (v.nano % 1000) = some u ∧ u ≤ v ∧ u.nano = v.nano % 1000 := by
  obtain ⟨hour, minute, second, -⟩ := t.valid
  have digits := Nat.mod_lt v.nano (show 0 < 1000 by omega)
  have small := Nat.mod_le v.nano 1000
  unfold nextSecond?
  split
  · refine ⟨_, of?_eq (by omega), ?_, rfl⟩
    unfold rank at later
    simp only [le_iff, rank]
    omega
  · exact exists_nextMinute?_le (by omega)

/-- Before every later time with its digits past the microsecond, in no leap second unless it is in
one itself, a time has one a microsecond later. -/
theorem exists_nextMicrosecond?_le {t v : Timestamp} (later : t < v)
    (digits : v.nano % 1000 = t.nano % 1000) (ordinary : v.InLeapSecond → t.InLeapSecond) :
    ∃ u, t.nextMicrosecond? = some u ∧ u ≤ v ∧
      u.nano % 1000 = t.nano % 1000 ∧ (u.InLeapSecond → t.InLeapSecond) := by
  obtain ⟨hour, minute, second, nano⟩ := t.valid
  obtain ⟨hour', minute', second', nano'⟩ := v.valid
  obtain ⟨early, whole⟩ := t.stop_spec
  rw [lt_iff] at later
  unfold InLeapSecond at ordinary ⊢
  unfold nextMicrosecond?
  dsimp only
  split
  · refine ⟨_, of?_eq (by omega), ?_, Nat.add_mod_right _ _, by dsimp only; omega⟩
    simp only [rank] at later
    simp only [le_iff, rank]
    omega
  · have passed : ((((t.date.rank * 24 + t.hour) * 60 + t.minute) * 60 + t.second) + 1) *
        2000000000 ≤ v.rank := by
      simp only [rank] at later ⊢
      omega
    obtain ⟨u, next, soon, nanos⟩ := exists_nextSecond?_le passed
    have carried : t.nano + 1000 - t.stop = v.nano % 1000 := by omega
    rw [carried]
    exact ⟨u, next, soon, by omega, by omega⟩

theorem lt_of_nextMicrosecond? {t u : Timestamp} (next : t.nextMicrosecond? = some u) : t < u := by
  have later := lt_truncate_of_nextMicrosecond? next
  rw [lt_iff, rank_truncate] at later
  rw [lt_iff]
  omega

/-- Adding a microsecond keeps the digits past it and enters no leap second. -/
theorem digits_of_nextMicrosecond? {t u : Timestamp} (next : t.nextMicrosecond? = some u) :
    u.nano % 1000 = t.nano % 1000 ∧ (u.InLeapSecond → t.InLeapSecond) := by
  obtain ⟨early, whole⟩ := t.stop_spec
  unfold InLeapSecond
  unfold nextMicrosecond? at next
  dsimp only at next
  split at next
  · have nanos := (of?_eq_some next).2.2.2.2
    omega
  · have nanos := (rank_nextSecond? next).2
    omega

/-- Adding a microsecond gives the time a microsecond later, whenever there is one. -/
theorem nextMicrosecond?_eq_some_iff {t u : Timestamp} :
    t.nextMicrosecond? = some u ↔ t.MicrosecondLater u := by
  constructor
  · intro next
    obtain ⟨digits, ordinary⟩ := digits_of_nextMicrosecond? next
    refine ⟨lt_of_nextMicrosecond? next, digits, ordinary, fun v later digits' ordinary' => ?_⟩
    obtain ⟨w, next', soon, -⟩ := exists_nextMicrosecond?_le later digits' ordinary'
    rw [next, Option.some.injEq] at next'
    exact next' ▸ soon
  · intro plus
    obtain ⟨w, next, soon, digits, ordinary⟩ :=
      exists_nextMicrosecond?_le plus.later plus.digits plus.ordinary
    have late := plus.least w (lt_of_nextMicrosecond? next) digits ordinary
    rw [next, eq_of_rank (Int.le_antisymm soon late)]

end Timestamp

namespace Ledger

/-- A new entry comes after the tail as it is sealed. Its time is the clock's to the microsecond,
if that is later than the tail, and the time a microsecond after the tail if it is not. -/
theorem nextTimestamp_moves_forward {tail : Entry} {next : Timestamp}
    (plus : tail.createdAt.MicrosecondLater next) (now : Timestamp) :
    (∀ d : Draft, d.createdAt = nextTimestamp now (some tail) →
      tail.createdAt < d.sealed.createdAt) ∧
    (tail.createdAt < now.truncate → nextTimestamp now (some tail) = now.truncate) ∧
    (¬ tail.createdAt < now.truncate → nextTimestamp now (some tail) = next) := by
  have added := Timestamp.nextMicrosecond?_eq_some_iff.2 plus
  refine ⟨fun d time => ?_, fun ahead => ?_, fun behind => ?_⟩
  · have fits : ClockFits now tail := fun _ => by simp [added]
    have later := lt_nextTimestamp fits
    rw [← time] at later
    exact later
  · exact if_neg (Int.not_le.2 ahead)
  · have behind : now.truncate ≤ tail.createdAt := Int.not_lt.1 behind
    simp [nextTimestamp, behind, added]

/-- The tail stands at the end of a leap second, half a microsecond past its last microsecond. The
time a microsecond later is in the next year, and what sealing leaves of it still comes after. -/
theorem nextTimestamp_moves_forward_leap_second :
    let time (nano : Nat) (small : nano < 2000000000) : Timestamp :=
      ⟨⟨2016, 12, 31, by decide⟩, 23, 59, 59, nano, ⟨by decide, by decide, by decide, small⟩⟩
    let next : Timestamp := ⟨⟨2017, 1, 1, by decide⟩, 0, 0, 0, 500, by decide⟩
    let tail : Entry := {
      id := ⟨Uuid.ofNat 1⟩, organizationId := "acme", userId := "ann", kind := .credit
      amount := ⟨10, by decide⟩, transactionId := "", referenceId := "first", description := ""
      metadata := default, previousHash := genesisHash, hash := ""
      createdAt := time 1999999500 (by decide) }
    let now := time 1999999700 (by decide)
    tail.createdAt.MicrosecondLater next ∧ ¬ tail.createdAt < now.truncate ∧
      (∀ d : Draft, d.createdAt = nextTimestamp now (some tail) →
        tail.createdAt < d.sealed.createdAt) ∧
      nextTimestamp now (some tail) = next := by
  intro time next tail now
  have plus : tail.createdAt.MicrosecondLater next :=
    Timestamp.nextMicrosecond?_eq_some_iff.1 (by decide)
  have behind : ¬ tail.createdAt < now.truncate := by decide
  obtain ⟨forward, -, after⟩ := nextTimestamp_moves_forward plus now
  exact ⟨plus, behind, forward, after behind⟩

end Ledger
end PointLedger

import PointLedger.Engine.Mutation

/-!
The times of a chain. A time is aligned when it has no digits past the microsecond. The time of a
new entry is aligned and comes after the tail, whatever the clock shows, as long as a microsecond
can be added to the time of the tail where one is needed.
-/

namespace PointLedger

/-- Days are told apart by their rank. -/
theorem Date.eq_of_rank {d d' : Date} (same : d.rank = d'.rank) : d = d' := by
  obtain ⟨-, month, day⟩ := d.valid
  obtain ⟨-, month', day'⟩ := d'.valid
  have short := daysInMonth_le d.year d.month
  have short' := daysInMonth_le d'.year d'.month
  unfold Date.rank at same
  have parts : d.year = d'.year ∧ d.month = d'.month ∧ d.day = d'.day := by omega
  cases d
  cases d'
  simp only [Date.mk.injEq]
  exact parts

theorem Date.rank_next? {d d' : Date} (next : d.next? = some d') : d.rank < d'.rank := by
  obtain ⟨-, ⟨-, month⟩, ⟨-, day⟩⟩ := d.valid
  have short := daysInMonth_le d.year d.month
  unfold Date.next? Date.of? at next
  unfold Date.rank
  split at next
  · split at next <;> cases next
    dsimp only
    omega
  · split at next
    · split at next <;> cases next
      dsimp only
      omega
    · split at next <;> cases next
      dsimp only
      omega

namespace Timestamp

/-- Points in time are told apart by their rank. -/
theorem eq_of_rank {s t : Timestamp} (same : s.rank = t.rank) : s = t := by
  obtain ⟨hour, minute, second, nano⟩ := s.valid
  obtain ⟨hour', minute', second', nano'⟩ := t.valid
  unfold rank at same
  have date : s.date = t.date := Date.eq_of_rank (by omega)
  rw [date] at same
  have clock : s.hour = t.hour ∧ s.minute = t.minute ∧ s.second = t.second ∧ s.nano = t.nano := by
    omega
  cases s
  cases t
  simp only [Timestamp.mk.injEq]
  exact ⟨date, clock⟩

@[simp] theorem nano_truncate (t : Timestamp) : t.truncate.nano = t.nano - t.nano % 1000 := rfl

theorem rank_truncate (t : Timestamp) : t.truncate.rank = t.rank - (t.nano % 1000 : Nat) := by
  have := Nat.mod_le t.nano 1000
  simp only [rank, truncate]
  omega

theorem truncate_eq_self {t : Timestamp} (aligned : t.nano % 1000 = 0) : t.truncate = t := by
  cases t
  simp_all [truncate]

theorem nano_truncate_mod (t : Timestamp) : t.truncate.nano % 1000 = 0 := by
  rw [nano_truncate]
  omega

/-- Cutting a time to the microsecond twice changes nothing more. -/
@[simp] theorem truncate_truncate (t : Timestamp) : t.truncate.truncate = t.truncate :=
  truncate_eq_self t.nano_truncate_mod

/-- The time lies in a leap second. -/
def InLeapSecond (t : Timestamp) : Prop := 1000000000 ≤ t.nano

instance (t : Timestamp) : Decidable t.InLeapSecond :=
  inferInstanceAs (Decidable (1000000000 ≤ t.nano))

theorem of?_eq_some {date : Date} {hour minute second nano : Nat} {u : Timestamp}
    (found : of? date hour minute second nano = some u) :
    u.date = date ∧ u.hour = hour ∧ u.minute = minute ∧ u.second = second ∧ u.nano = nano := by
  unfold of? at found
  split at found <;> cases found
  exact ⟨rfl, rfl, rfl, rfl, rfl⟩

/-- The next minute starts after every second of this one. -/
theorem rank_nextMinute? {t u : Timestamp} {nano : Nat}
    (next : t.nextMinute? nano = some u) :
    (((t.date.rank * 24 + t.hour) * 60 + t.minute) * 60 + 60) * 2000000000 + nano ≤ u.rank ∧
      u.nano = nano := by
  obtain ⟨hour, minute, -, -⟩ := t.valid
  unfold nextMinute? at next
  split at next
  · obtain ⟨date, hours, minutes, seconds, nanos⟩ := of?_eq_some next
    refine ⟨?_, nanos⟩
    simp only [rank, date, hours, minutes, seconds, nanos]
    omega
  · split at next
    · obtain ⟨date, hours, minutes, seconds, nanos⟩ := of?_eq_some next
      refine ⟨?_, nanos⟩
      simp only [rank, date, hours, minutes, seconds, nanos]
      omega
    · cases tomorrow : t.date.next? with
      | none => simp [tomorrow] at next
      | some date' =>
        have later := Date.rank_next? tomorrow
        rw [tomorrow] at next
        obtain ⟨date, hours, minutes, seconds, nanos⟩ := of?_eq_some next
        refine ⟨?_, nanos⟩
        simp only [rank, date, hours, minutes, seconds, nanos]
        omega

/-- The next second starts after this one and after the leap second that may follow it. -/
theorem rank_nextSecond? {t u : Timestamp} {nano : Nat} (next : t.nextSecond? nano = some u) :
    ((((t.date.rank * 24 + t.hour) * 60 + t.minute) * 60 + t.second) + 1) * 2000000000 + nano ≤
      u.rank ∧ u.nano = nano := by
  obtain ⟨-, -, second, -⟩ := t.valid
  unfold nextSecond? at next
  split at next
  · obtain ⟨date, hours, minutes, seconds, nanos⟩ := of?_eq_some next
    refine ⟨?_, nanos⟩
    simp only [rank, date, hours, minutes, seconds, nanos]
    omega
  · obtain ⟨later, nanos⟩ := rank_nextMinute? next
    exact ⟨by omega, nanos⟩

/-- A second ends behind every time in it, at a whole second. -/
theorem stop_spec (t : Timestamp) :
    t.nano < t.stop ∧ (t.stop = 1000000000 ∨ t.stop = 2000000000 ∧ 1000000000 ≤ t.nano) := by
  have nano := t.valid.2.2.2
  unfold stop
  split <;> omega

/-- A microsecond later is later, to the microsecond. -/
theorem lt_truncate_of_nextMicrosecond? {t u : Timestamp} (next : t.nextMicrosecond? = some u) :
    t < u.truncate := by
  obtain ⟨early, whole⟩ := t.stop_spec
  rw [lt_iff, rank_truncate]
  unfold nextMicrosecond? at next
  dsimp only at next
  split at next
  · obtain ⟨date, hours, minutes, seconds, nanos⟩ := of?_eq_some next
    simp only [rank, date, hours, minutes, seconds, nanos]
    omega
  · obtain ⟨later, nanos⟩ := rank_nextSecond? next
    rw [nanos]
    simp only [rank] at later ⊢
    omega

end Timestamp

namespace Ledger

/-- A microsecond can be added to the time of the tail, if the clock makes that necessary. -/
def ClockFits (now : Timestamp) (tail : Entry) : Prop :=
  now.truncate ≤ tail.createdAt → tail.createdAt.nextMicrosecond? ≠ none

/-- The time of a new entry comes after the tail. -/
theorem lt_nextTimestamp {now : Timestamp} {tail : Entry} (fits : ClockFits now tail) :
    tail.createdAt < (nextTimestamp now (some tail)).truncate := by
  simp only [nextTimestamp]
  split
  · rename_i behind
    cases next : tail.createdAt.nextMicrosecond? with
    | none => exact absurd next (fits behind)
    | some time => exact Timestamp.lt_truncate_of_nextMicrosecond? next
  · rename_i ahead
    rw [Timestamp.truncate_truncate]
    rw [Timestamp.le_iff, Int.not_le] at ahead
    exact ahead

end Ledger
end PointLedger

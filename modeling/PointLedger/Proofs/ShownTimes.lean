import PointLedger.Entry.Basic
import PointLedger.Proofs.Clock

/-!
What a written form tells of a time. A leap second is written as the second after the one that it
follows. At the end of a minute that is second 60, which no other time has; before that it is a
second of its own, with times of its own, and nobody can tell which of the two was meant. The reader
takes it for the ordinary second. So every written form stands for the time that it shows, which is
the time itself unless a leap second hides in the middle of a minute. The ledger makes no such times
by itself: a new entry has one only if the clock shows one.
-/

namespace PointLedger
namespace Timestamp

/-- A leap second stands nowhere but at the end of a minute. -/
def Legible (t : Timestamp) : Prop := t.InLeapSecond → t.second = 59

instance (t : Timestamp) : Decidable t.Legible :=
  inferInstanceAs (Decidable (t.InLeapSecond → t.second = 59))

/-- The time that the written forms show: in the middle of a minute a leap second passes for the
ordinary second after it. -/
def shown (t : Timestamp) : Timestamp :=
  if hidden : 1000000000 ≤ t.nano ∧ t.second < 59 then
    { t with
      second := t.second + 1
      nano := t.nano - 1000000000
      valid := by
        obtain ⟨hour, minute, -, nano⟩ := t.valid
        omega }
  else t

theorem shown_eq_self_iff {t : Timestamp} : t.shown = t ↔ t.Legible := by
  have second := t.valid.2.2.1
  unfold shown Legible InLeapSecond
  split
  · rename_i hidden
    refine iff_of_false (fun same => ?_) (by omega)
    have later := congrArg Timestamp.second same
    dsimp only at later
    omega
  · exact iff_of_true rfl (by omega)

/-- A clock that shows the written second and its fraction shows this time. -/
theorem ofClock?_written (t : Timestamp) :
    ofClock? t.date t.hour t.minute t.writtenSecond t.writtenNano = some t.shown := by
  obtain ⟨hour, minute, second, nano⟩ := t.valid
  unfold ofClock? writtenSecond writtenNano shown
  by_cases leap : 1000000000 ≤ t.nano
  · have carried : t.nano / 1000000000 = 1 := by omega
    have fraction : t.nano % 1000000000 = t.nano - 1000000000 := by omega
    rw [carried, fraction]
    by_cases last : t.second = 59
    · have whole : t.nano - 1000000000 + 1000000000 = t.nano := by omega
      rw [if_pos (by omega), dif_neg (by omega), whole, ← last]
      exact dif_pos t.valid
    · rw [if_neg (by omega), dif_pos (by omega)]
      exact dif_pos (by omega)
  · have carried : t.nano / 1000000000 = 0 := by omega
    have fraction : t.nano % 1000000000 = t.nano := by omega
    rw [carried, fraction, if_neg (by omega), dif_neg (by omega)]
    exact dif_pos t.valid

/-- What a clock shows is legible. -/
theorem legible_of_ofClock? {date : Date} {hour minute second nano : Nat} {t : Timestamp}
    (found : ofClock? date hour minute second nano = some t) (small : nano < 1000000000) :
    t.Legible := by
  unfold ofClock? at found
  split at found
  · exact fun _ => (of?_eq_some found).2.2.2.1
  · have nanos := (of?_eq_some found).2.2.2.2
    exact fun leap : 1000000000 ≤ t.nano => by omega

theorem legible_shown (t : Timestamp) : t.shown.Legible :=
  legible_of_ofClock? t.ofClock?_written (Nat.mod_lt _ (by decide))

/-- The time that is shown is written as the time is. -/
theorem written_shown (t : Timestamp) :
    t.shown.date = t.date ∧ t.shown.hour = t.hour ∧ t.shown.minute = t.minute ∧
      t.shown.writtenSecond = t.writtenSecond ∧ t.shown.writtenNano = t.writtenNano := by
  unfold shown writtenSecond writtenNano
  split
  · refine ⟨rfl, rfl, rfl, ?_, ?_⟩
    · dsimp only
      have := t.valid.2.2.2
      omega
    · dsimp only
      omega
  · exact ⟨rfl, rfl, rfl, rfl, rfl⟩

@[simp] theorem hashed_shown (t : Timestamp) : t.shown.hashed = t.hashed := by
  obtain ⟨date, hour, minute, second, nano⟩ := t.written_shown
  simp only [hashed, dateChars, timeChars, date, hour, minute, second, nano]

/-! ### Cutting to the microsecond -/

theorem writtenSecond_truncate (t : Timestamp) : t.truncate.writtenSecond = t.writtenSecond := by
  unfold writtenSecond
  rw [nano_truncate, truncate]
  dsimp only
  omega

theorem writtenNano_truncate (t : Timestamp) :
    t.truncate.writtenNano = t.writtenNano / 1000 * 1000 := by
  unfold writtenNano
  rw [nano_truncate]
  omega

@[simp] theorem hashed_truncate (t : Timestamp) : t.truncate.hashed = t.hashed := by
  have micro : t.truncate.writtenNano / 1000 = t.writtenNano / 1000 := by
    rw [writtenNano_truncate]
    omega
  rw [hashed, micro]
  simp only [hashed, timeChars, t.writtenSecond_truncate]
  rfl

/-- Times that are written alike down to the microsecond show one time down to it. -/
theorem shown_truncate_eq {s t : Timestamp} (date : s.date = t.date) (hour : s.hour = t.hour)
    (minute : s.minute = t.minute) (second : s.writtenSecond = t.writtenSecond)
    (micro : s.writtenNano / 1000 = t.writtenNano / 1000) :
    s.truncate.shown = t.truncate.shown := by
  have same : ofClock? s.date s.hour s.minute s.truncate.writtenSecond s.truncate.writtenNano =
      ofClock? t.date t.hour t.minute t.truncate.writtenSecond t.truncate.writtenNano := by
    simp only [writtenSecond_truncate, writtenNano_truncate, date, hour, minute, second, micro]
  exact Option.some.inj
    (s.truncate.ofClock?_written.symm.trans (same.trans t.truncate.ofClock?_written))

theorem Legible.truncate {t : Timestamp} (legible : t.Legible) : t.truncate.Legible := fun leap =>
  legible (Nat.le_trans leap (Nat.sub_le _ _))

/-- It makes no difference whether a time is cut before it is shown or after. -/
theorem truncate_shown (t : Timestamp) : t.shown.truncate = t.truncate.shown := by
  obtain ⟨date, hour, minute, second, nano⟩ := t.written_shown
  rw [← shown_eq_self_iff.mpr t.legible_shown.truncate]
  exact shown_truncate_eq date hour minute second (by rw [nano])

/-! ### Moving on -/

/-- A microsecond does not lead into a leap second, so it does not lead into a hidden one. -/
theorem Legible.nextMicrosecond? {t u : Timestamp} (legible : t.Legible)
    (next : t.nextMicrosecond? = some u) : u.Legible := by
  intro leap
  obtain ⟨early, whole⟩ := t.stop_spec
  unfold InLeapSecond at leap
  unfold Timestamp.nextMicrosecond? at next
  dsimp only at next
  split at next
  · obtain ⟨-, -, -, seconds, nanos⟩ := of?_eq_some next
    rw [seconds]
    exact legible (show 1000000000 ≤ t.nano by omega)
  · have nanos := (rank_nextSecond? next).2
    omega

end Timestamp

/-- The time of a new entry is legible if the tail's is and the clock's. -/
theorem Ledger.legible_nextTimestamp {now : Timestamp} {tail : Option Entry} (legible : now.Legible)
    (before : ∀ e ∈ tail, e.createdAt.Legible) : (nextTimestamp now tail).Legible := by
  cases tail with
  | none => exact legible.truncate
  | some e =>
    simp only [nextTimestamp]
    split
    · cases next : e.createdAt.nextMicrosecond? with
      | none => exact legible.truncate
      | some time => exact (before e rfl).nextMicrosecond? next
    · exact legible.truncate

namespace Entry

/-- The entry as its written forms show it. -/
def shown (e : Entry) : Entry := { e with createdAt := e.createdAt.shown }

theorem shown_eq_self_iff {e : Entry} : e.shown = e ↔ e.createdAt.Legible := by
  rw [← Timestamp.shown_eq_self_iff]
  refine ⟨fun same => congrArg createdAt same, fun same => ?_⟩
  rw [shown, same]

end Entry
end PointLedger

import PointLedger.Time.Date
/-!
Points in time in UTC, to the nanosecond. In a leap second the nanoseconds of the second before it
run on, from one second to below two. Any second may be followed by one, and it comes before the
next second. Time moves on by a microsecond over the end of a second, a minute and a day, and never
into a leap second that it is not already in.
-/

namespace PointLedger

/-- A point in time in UTC. -/
structure Timestamp where
  date : Date
  hour : Nat
  minute : Nat
  second : Nat
  /-- The nanoseconds since the second began; from a whole second on they are a leap second's. -/
  nano : Nat
  valid : hour < 24 ∧ minute < 60 ∧ second < 60 ∧ nano < 2000000000
  deriving DecidableEq, Repr

namespace Timestamp

/-- The point in time with these parts, when there is one. -/
def of? (date : Date) (hour minute second nano : Nat) : Option Timestamp :=
  if h : hour < 24 ∧ minute < 60 ∧ second < 60 ∧ nano < 2000000000 then
    some ⟨date, hour, minute, second, nano, h⟩
  else none

/-- The point in time that a clock shows; on a clock a leap second is second 60 of its minute. -/
def ofClock? (date : Date) (hour minute second nano : Nat) : Option Timestamp :=
  if second = 60 then of? date hour minute 59 (nano + 1000000000)
  else of? date hour minute second nano

/-- The start of 1970. -/
def epoch : Timestamp := ⟨Date.epoch, 0, 0, 0, 0, by decide⟩

instance : Inhabited Timestamp := ⟨epoch⟩

/-- A number that grows with time; points in time are ordered by it. -/
def rank (t : Timestamp) : Int :=
  (((t.date.rank * 24 + t.hour) * 60 + t.minute) * 60 + t.second) * 2000000000 + t.nano

instance : LE Timestamp := ⟨fun a b => a.rank ≤ b.rank⟩
instance : LT Timestamp := ⟨fun a b => a.rank < b.rank⟩

instance (a b : Timestamp) : Decidable (a ≤ b) := inferInstanceAs (Decidable (a.rank ≤ b.rank))
instance (a b : Timestamp) : Decidable (a < b) := inferInstanceAs (Decidable (a.rank < b.rank))

theorem le_iff {a b : Timestamp} : a ≤ b ↔ a.rank ≤ b.rank := Iff.rfl
theorem lt_iff {a b : Timestamp} : a < b ↔ a.rank < b.rank := Iff.rfl

/-- The time without its digits past the microsecond. -/
def truncate (t : Timestamp) : Timestamp :=
  { t with
    nano := t.nano - t.nano % 1000
    valid := ⟨t.valid.1, t.valid.2.1, t.valid.2.2.1,
      Nat.lt_of_le_of_lt (Nat.sub_le _ _) t.valid.2.2.2⟩ }

/-- The first nanoseconds of the minute after, unless time ends. -/
def nextMinute? (t : Timestamp) (nano : Nat) : Option Timestamp :=
  if t.minute < 59 then of? t.date t.hour (t.minute + 1) 0 nano
  else if t.hour < 23 then of? t.date (t.hour + 1) 0 0 nano
  else do of? (← t.date.next?) 0 0 0 nano

/-- The first nanoseconds of the second after, unless time ends. -/
def nextSecond? (t : Timestamp) (nano : Nat) : Option Timestamp :=
  if t.second < 59 then of? t.date t.hour t.minute (t.second + 1) nano else t.nextMinute? nano

/-- The nanoseconds at which the second of the time ends, or its leap second. -/
def stop (t : Timestamp) : Nat := if t.nano < 1000000000 then 1000000000 else 2000000000

/-- The time one microsecond later, unless time ends. -/
def nextMicrosecond? (t : Timestamp) : Option Timestamp :=
  let nano := t.nano + 1000
  if nano < t.stop then of? t.date t.hour t.minute t.second nano else t.nextSecond? (nano - t.stop)

end Timestamp
end PointLedger

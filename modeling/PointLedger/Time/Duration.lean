import PointLedger.Text.Chars
/-!
Spans of time to the nanosecond, and how messages show them: in the largest unit of seconds,
milliseconds, microseconds and nanoseconds that has a whole part, with a fraction that has no
trailing zeros.
-/

namespace PointLedger

/-- A span of time. -/
structure Duration where
  nanos : Nat
  deriving DecidableEq, Repr, Inhabited

namespace Duration

/-- A span of whole milliseconds. -/
def ofMillis (n : Nat) : Duration := ⟨n * 1000000⟩

/-- A span of seconds and nanoseconds. -/
def ofParts (seconds nanos : Nat) : Duration := ⟨seconds * 1000000000 + nanos⟩

/-- The whole milliseconds of a span. -/
def millis (d : Duration) : Nat := d.nanos / 1000000

/-- A decimal fraction of `places` digits without its trailing zeros; empty when it is zero. -/
def fraction (places n : Nat) : String :=
  let ds := (Text.digits 10 places n).reverse.dropWhile (· == '0')
  if ds.isEmpty then "" else "." ++ String.ofList ds.reverse

/-- The span in the largest unit that has a whole part. -/
def display (d : Duration) : String :=
  let n := d.nanos
  if 1000000000 ≤ n then toString (n / 1000000000) ++ fraction 9 (n % 1000000000) ++ "s"
  else if 1000000 ≤ n then toString (n / 1000000) ++ fraction 6 (n % 1000000) ++ "ms"
  else if 1000 ≤ n then toString (n / 1000) ++ fraction 3 (n % 1000) ++ "µs"
  else toString n ++ "ns"

instance : ToString Duration := ⟨display⟩

end Duration
end PointLedger

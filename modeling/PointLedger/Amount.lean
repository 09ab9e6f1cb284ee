import PointLedger.Json.Decode
/-!
Amounts of points in minor units: signed 64-bit integers. Sums that may leave that range are
either checked, with no result outside it, or clamped to its nearer end.
-/

namespace PointLedger

/-- An amount of points; it may be negative. The range is from `-2 ^ 63` to below `2 ^ 63`. -/
structure Amount where
  val : Int
  inRange : -0x8000000000000000 ≤ val ∧ val < 0x8000000000000000
  deriving DecidableEq, Repr

namespace Amount

@[ext] theorem ext {a b : Amount} (h : a.val = b.val) : a = b := by
  cases a; cases b; simp_all

/-- The amount with a value, when it is in range. -/
def ofInt? (n : Int) : Option Amount :=
  if h : -0x8000000000000000 ≤ n ∧ n < 0x8000000000000000 then some ⟨n, h⟩ else none

/-- The amount nearest to a value. -/
def clamp (n : Int) : Amount :=
  if h : -0x8000000000000000 ≤ n ∧ n < 0x8000000000000000 then ⟨n, h⟩
  else if n < 0 then ⟨-0x8000000000000000, by decide⟩
  else ⟨0x7fffffffffffffff, by decide⟩

theorem ofInt?_eq_some {n : Int} {a : Amount} : ofInt? n = some a ↔ n = a.val := by
  unfold ofInt?
  constructor
  · intro h
    split at h
    · cases h; rfl
    · cases h
  · intro h
    subst h
    rw [dif_pos a.inRange]

theorem val_clamp_of_inRange {n : Int} (h : -0x8000000000000000 ≤ n ∧ n < 0x8000000000000000) :
    (clamp n).val = n := by
  unfold clamp
  rw [dif_pos h]

/-- No points. -/
def zero : Amount := ⟨0, by decide⟩

instance : Inhabited Amount := ⟨zero⟩
instance : ToString Amount := ⟨fun a => toString a.val⟩

/-- The sum, when it is in range. -/
def add? (a b : Amount) : Option Amount := ofInt? (a.val + b.val)

/-- The difference, when it is in range. -/
def sub? (a b : Amount) : Option Amount := ofInt? (a.val - b.val)

/-- The sum, clamped to the range. -/
def addClamped (a b : Amount) : Amount := clamp (a.val + b.val)

/-- The difference, clamped to the range. -/
def subClamped (a b : Amount) : Amount := clamp (a.val - b.val)

/-- The amount with the opposite sign; the lowest amount has none and stays as it is. -/
def neg (a : Amount) : Amount := (ofInt? (-a.val)).getD a

/-- The smaller of two amounts. -/
def min (a b : Amount) : Amount := if a.val ≤ b.val then a else b

/-- True above zero. -/
def isPositive (a : Amount) : Bool := 0 < a.val

def toJson (a : Amount) : Json := .int a.val
def ofJson? (value : Json) : Option Amount := (Json.asInt? value).bind ofInt?

end Amount
end PointLedger

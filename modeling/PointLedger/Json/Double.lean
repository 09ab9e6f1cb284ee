import PointLedger.Text.Chars
/-!
Binary floating-point numbers of 64 bits. The finite ones are the multiples of `2 ^ -1074` whose
significand has at most 53 bits. The result of an operation is the number nearest to the exact
result, and of two that are equally near the one with an even significand. A number is written with
the fewest decimal digits from which it can be told.
-/

namespace PointLedger

/-- A floating-point number of 64 bits, by its bits. -/
structure Double where
  bits : UInt64
  deriving DecidableEq, Repr, Inhabited

namespace Double

/-- The bit that is set below zero. -/
def signBit : Nat := 0x8000000000000000

/-- The lowest magnitude with 53 bits in its significand. -/
def firstNormal : Nat := 0x10000000000000

/-- The magnitude of the infinite numbers; what is above it is no number. -/
def infinity : Nat := 0x7FF0000000000000

/-- True for the numbers that are written with a minus sign, zero among them. -/
def isNegative (x : Double) : Bool := signBit ≤ x.bits.toNat

/-- The bits apart from the sign, as a number; it grows with the size of the number. -/
def magnitude (x : Double) : Nat := x.bits.toNat % signBit

/-- The number with a sign and a magnitude. -/
def ofMagnitude (negative : Bool) (magnitude : Nat) : Double :=
  ⟨UInt64.ofNat (if negative then signBit + magnitude else magnitude)⟩

def isFinite (x : Double) : Bool := x.magnitude < infinity
def isZero (x : Double) : Bool := x.magnitude == 0

/-- The number without its sign. -/
def abs (x : Double) : Double := ofMagnitude false x.magnitude

/-- The size of a finite number, as a multiple of `2 ^ -1074`. -/
def units (x : Double) : Nat :=
  if x.magnitude < firstNormal then x.magnitude
  else (x.magnitude % firstNormal + firstNormal) <<< (x.magnitude / firstNormal - 1)

/-! ### Rounding -/

/-- The number nearest to the quotient of two integers, with a sign. Half of the largest gap above
the finite numbers and beyond lies infinity. -/
def ofRatio (negative : Bool) (num den : Nat) : Double :=
  let num := num <<< 1074
  let shift := (num / den).log2 - 52
  let gap := den <<< shift
  let floor := num / gap
  let rest := num % gap
  let nearest := if gap < 2 * rest ∨ gap = 2 * rest ∧ floor % 2 = 1 then floor + 1 else floor
  ofMagnitude negative (min (shift * firstNormal + nearest) infinity)

/-- The number nearest to a decimal, with a sign. Nothing above zero has a power of ten beyond 400
and stays finite, and nothing with as many digits as a text can hold has one below -100000 and is
not rounded to zero. -/
def ofDecimal (negative : Bool) (digits : Nat) (power : Int) : Double :=
  if 0 ≤ power then ofRatio negative (digits * Nat.pow 10 (min power.toNat 400)) 1
  else ofRatio negative digits (Nat.pow 10 (min (-power).toNat 100000))

/-- The product of two sizes. -/
def mul (x y : Double) : Double := ofRatio false (x.units * y.units) (1 <<< 2148)

/-- The quotient of two sizes. -/
def div (x y : Double) : Double := ofRatio false x.units y.units

/-- The size of a decimal as readers of JSON compute it, which is quick and not always the nearest
number: the integer is rounded, and then multiplied or divided by powers of ten that are rounded
themselves. There is no result beyond the finite numbers. Two divisions by `1e308` leave nothing of
an integer of 64 bits. -/
def read? (digits : Nat) (power : Int) : Option Double :=
  let start := ofRatio false digits 1
  let ten (power : Int) : Double := ofRatio false (Nat.pow 10 power.toNat) 1
  if 308 < power then if digits = 0 then some start else none
  else if 0 ≤ power then
    let product := start.mul (ten power)
    if product.isFinite then some product else none
  else if -308 ≤ power then some (start.div (ten (-power)))
  else if -616 ≤ power then some ((start.div (ten 308)).div (ten (-power - 308)))
  else some (ofMagnitude false 0)

/-! ### Decimals -/

/-- The digits of the decimal that is nearest to the size of a number among the multiples of a power
of ten next to it, if the number can be told from it. -/
def digitsAt? (x : Double) (power : Int) : Option Nat :=
  let num := if 0 ≤ power then x.units else x.units * Nat.pow 10 (-power).toNat
  let den := if 0 ≤ power then Nat.pow 10 power.toNat <<< 1074 else 1 <<< 1074
  let floor := num / den
  let rest := num % den
  let order := if den < 2 * rest ∨ den = 2 * rest ∧ floor % 2 = 1 then [floor + 1, floor]
    else [floor, floor + 1]
  order.find? fun digits => ofDecimal false digits power == x.abs

/-- The first decimal from which a number can be told, over falling powers of ten. -/
def shortestFrom (x : Double) : Nat → Int → Nat × Int
  | 0, power => (0, power)
  | steps + 1, power =>
    match digitsAt? x power with
    | some digits => (digits, power)
    | none => shortestFrom x steps (power - 1)

/-- The shortest decimal from which a finite number can be told: seventeen digits always do. -/
def shortest (x : Double) : Nat × Int :=
  shortestFrom x 20 (((x.units.log2 : Int) - 1074) * 30103 / 100000 + 1)

/-- The number of digits before the point, when a decimal has this many digits and this power. -/
def pointAt (digits : List Char) (power : Int) : Int := digits.length + power

/-- A decimal without an exponent, with at least one digit on either side of the point. -/
def plainChars (digits : List Char) (power : Int) : List Char :=
  let point := pointAt digits power
  if 0 ≤ power then digits ++ List.replicate power.toNat '0' ++ ".0".toList
  else if 0 < point then digits.take point.toNat ++ '.' :: digits.drop point.toNat
  else "0.".toList ++ List.replicate (-point).toNat '0' ++ digits

/-- A decimal with one digit before the point and an exponent. -/
def scientificChars (digits : List Char) (power : Int) : List Char :=
  let fraction := if digits.length ≤ 1 then [] else '.' :: digits.drop 1
  digits.take 1 ++ fraction ++ 'e' :: (toString (pointAt digits power - 1)).toList

/-- A finite number in JSON: without an exponent from `1e-5` up to below `1e16`. -/
def chars (x : Double) : List Char :=
  let sign := if x.isNegative then ['-'] else []
  let written :=
    if x.isZero then "0.0".toList
    else
      let (n, power) := x.shortest
      let digits := Nat.toDigits 10 n
      let point := pointAt digits power
      if -5 < point ∧ point ≤ 16 then plainChars digits power
      else scientificChars digits power
  sign ++ written

end Double
end PointLedger

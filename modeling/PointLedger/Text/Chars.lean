/-!
Character classes that the ledger's text rules use: blanks and control characters as Unicode
classifies them, and the digits of decimal and hexadecimal numerals.
-/

namespace PointLedger.Text

/-- The Unicode property White_Space. -/
def isBlank (c : Char) : Bool :=
  let n := c.toNat
  (9 ≤ n && n ≤ 13) || n == 0x20 || n == 0x85 || n == 0xA0 || n == 0x1680 ||
    (0x2000 ≤ n && n ≤ 0x200A) || n == 0x2028 || n == 0x2029 || n == 0x202F || n == 0x205F ||
    n == 0x3000

/-- The Unicode category Cc. -/
def isControl (c : Char) : Bool :=
  let n := c.toNat
  n ≤ 0x1F || (0x7F ≤ n && n ≤ 0x9F)

/-- The text without its leading blanks. -/
def dropBlanks (cs : List Char) : List Char := cs.dropWhile isBlank

/-- The value of an ASCII decimal digit. -/
def digit? (c : Char) : Option Nat :=
  if '0' ≤ c ∧ c ≤ '9' then some (c.toNat - '0'.toNat) else none

/-- The value of an ASCII hexadecimal digit of either case. -/
def hexDigit? (c : Char) : Option Nat :=
  if '0' ≤ c ∧ c ≤ '9' then some (c.toNat - '0'.toNat)
  else if 'a' ≤ c ∧ c ≤ 'f' then some (c.toNat - 'a'.toNat + 10)
  else if 'A' ≤ c ∧ c ≤ 'F' then some (c.toNat - 'A'.toNat + 10)
  else none

/-- The digit character of a value below sixteen, in lower case. -/
def digitChar (n : Nat) : Char :=
  if n < 10 then Char.ofNat ('0'.toNat + n) else Char.ofNat ('a'.toNat + (n - 10))

/-- The number that a list of digit values writes in a base, first digit most significant. -/
def ofDigits (base : Nat) (digits : List Nat) : Nat :=
  digits.foldl (fun n d => n * base + d) 0

/-- The last `width` digits of a number in a base, with leading zeros. -/
def digits (base : Nat) : Nat → Nat → List Char
  | 0, _ => []
  | width + 1, n => digits base width (n / base) ++ [digitChar (n % base)]

theorem length_digits (base width n : Nat) : (digits base width n).length = width := by
  induction width generalizing n with
  | zero => rfl
  | succ width ih => simp [digits, ih]

/-- A number in decimal with at least `width` digits. -/
def padded (width n : Nat) : List Char :=
  let plain := Nat.toDigits 10 n
  List.replicate (width - plain.length) '0' ++ plain

/-- The decimal digits at the head of a text, at most `limit` of them, and what follows. -/
def takeDigits (limit : Nat) (cs : List Char) : List Nat × List Char :=
  match limit, cs with
  | 0, cs => ([], cs)
  | _, [] => ([], [])
  | limit + 1, c :: rest =>
    match digit? c with
    | none => ([], c :: rest)
    | some d =>
      let (ds, rest) := takeDigits limit rest
      (d :: ds, rest)

/-- The number that decimal digits write after an optional plus sign. -/
def natOfText? (s : String) : Option Nat :=
  let digits := match s.toList with
    | '+' :: rest => rest
    | cs => cs
  if digits.isEmpty then none else (digits.mapM digit?).map (ofDigits 10)

/-- A letter of A to Z in upper case; every other character as it is. -/
def asciiUpper (s : String) : String := s.map Char.toUpper

/-- A letter of A to Z in lower case; every other character as it is. -/
def asciiLower (s : String) : String := s.map Char.toLower

end PointLedger.Text

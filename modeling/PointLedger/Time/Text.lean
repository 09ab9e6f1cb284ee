import PointLedger.Text.Chars
import PointLedger.Time.Timestamp
import PointLedger.Json.Decode
/-!
Written forms of points in time. JSON and display form show a fraction of 0, 3, 6 or 9 digits, the
fewest that are exact; the hashed form always shows six. A leap second is written as the second
after the one that it follows, which is second 60 at the end of a minute. A year outside 0 to 9999
carries its sign. The reader takes any fraction, any offset from UTC, and blanks between the parts.
-/

namespace PointLedger

/-! ### Writing -/

/-- A year: four digits, or a sign and at least four. -/
def yearChars (year : Int) : List Char :=
  if 0 ≤ year ∧ year ≤ 9999 then Text.digits 10 4 year.toNat
  else if year < 0 then '-' :: Text.padded 4 year.natAbs
  else '+' :: Text.padded 4 year.natAbs

/-- A number in two digits. -/
def twoDigits (n : Nat) : List Char := Text.digits 10 2 n

namespace Timestamp

/-- Year, month and day with hyphens. -/
def dateChars (t : Timestamp) : List Char :=
  yearChars t.date.year ++ '-' :: (twoDigits t.date.month ++ '-' :: twoDigits t.date.day)

/-- The second that is written. -/
def writtenSecond (t : Timestamp) : Nat := t.second + t.nano / 1000000000

/-- The fraction of the written second. -/
def writtenNano (t : Timestamp) : Nat := t.nano % 1000000000

/-- Hour, minute and second with colons. -/
def timeChars (t : Timestamp) : List Char :=
  twoDigits t.hour ++ ':' :: (twoDigits t.minute ++ ':' :: twoDigits t.writtenSecond)

/-- The shortest exact fraction of 0, 3, 6 or 9 digits. -/
def fractionChars (t : Timestamp) : List Char :=
  let nano := t.writtenNano
  if nano = 0 then []
  else if nano % 1000000 = 0 then '.' :: Text.digits 10 3 (nano / 1000000)
  else if nano % 1000 = 0 then '.' :: Text.digits 10 6 (nano / 1000)
  else '.' :: Text.digits 10 9 nano

/-- The form that JSON values hold. -/
def text (t : Timestamp) : String :=
  String.ofList (t.dateChars ++ 'T' :: (t.timeChars ++ t.fractionChars ++ ['Z']))

/-- The form that messages show. -/
def display (t : Timestamp) : String :=
  String.ofList (t.dateChars ++ ' ' :: (t.timeChars ++ t.fractionChars ++ " UTC".toList))

/-- The form that is hashed: six fraction digits, the rest cut off. -/
def hashed (t : Timestamp) : String :=
  String.ofList
    (t.dateChars ++
      'T' :: (t.timeChars ++ '.' :: (Text.digits 10 6 (t.writtenNano / 1000) ++ ['Z'])))

/-- Year, month and day without separators. -/
def compactDate (t : Timestamp) : String :=
  String.ofList (yearChars t.date.year ++ twoDigits t.date.month ++ twoDigits t.date.day)

instance : ToString Timestamp := ⟨display⟩

/-! ### Reading -/

/-- A number of one to `limit` digits after blanks. -/
def readNumber (limit : Nat) (cs : List Char) : Option (Nat × List Char) :=
  match Text.takeDigits limit (Text.dropBlanks cs) with
  | ([], _) => none
  | (ds, rest) => some (Text.ofDigits 10 ds, rest)

/-- A year: up to four digits, or a sign and any number of digits. -/
def readYear (cs : List Char) : Option (Int × List Char) :=
  match Text.dropBlanks cs with
  | '-' :: rest =>
    match Text.takeDigits rest.length rest with
    | ([], _) => none
    | (ds, rest) => some (-(Text.ofDigits 10 ds : Int), rest)
  | '+' :: rest =>
    match Text.takeDigits rest.length rest with
    | ([], _) => none
    | (ds, rest) => some ((Text.ofDigits 10 ds : Int), rest)
  | cs => (readNumber 4 cs).map fun (n, rest) => ((n : Int), rest)

/-- Passes over one character after blanks. -/
def readMark (mark : Char) (cs : List Char) : Option (List Char) :=
  match Text.dropBlanks cs with
  | c :: rest => if c = mark then some rest else none
  | [] => none

/-- The fraction of a second in nanoseconds: digits past the ninth are dropped, and no point means
no fraction. -/
def readFraction (cs : List Char) : Option (Nat × List Char) :=
  match cs with
  | '.' :: rest =>
    match Text.takeDigits 9 rest with
    | ([], _) => none
    | (ds, rest) =>
      some (Text.ofDigits 10 ds * Nat.pow 10 (9 - ds.length),
        rest.dropWhile fun c => (Text.digit? c).isSome)
  | cs => some (0, cs)

/-- Two digits, without blanks before them. -/
def readPair : List Char → Option (Nat × List Char)
  | a :: b :: rest =>
    match Text.digit? a, Text.digit? b with
    | some a, some b => some (a * 10 + b, rest)
    | _, _ => none
  | _ => none

/-- The offset from UTC in minutes: `Z`, `UTC`, or a sign with hours and minutes. -/
def readOffset (cs : List Char) : Option (Int × List Char) :=
  match cs with
  | [] => none
  | c :: rest =>
    if (cs.take 3).map Char.toUpper = ['U', 'T', 'C'] then some (0, cs.drop 3)
    else if c = 'Z' ∨ c = 'z' then some (0, rest)
    else if c = '+' ∨ c = '-' ∨ c = '−' then do
      let (hours, rest) ← readPair rest
      let (minutes, rest) ← readPair (rest.dropWhile fun c => c == ':' || Text.isBlank c)
      if minutes < 60 then
        let offset : Int := hours * 60 + minutes
        some (if c = '+' then offset else -offset, rest)
      else none
    else none

/-- The point in time in UTC of a local date and time with an offset of `offset` minutes. -/
def ofLocal? (date : Date) (hour minute second nano : Nat) (offset : Int) : Option Timestamp := do
  if -1440 < offset ∧ offset < 1440 then
    let minutes : Int := hour * 60 + minute - offset
    let date ←
      if minutes < 0 then date.previous?
      else if minutes ≥ 1440 then date.next?
      else some date
    let minutes := (minutes % 1440).toNat
    of? date (minutes / 60) (minutes % 60) second nano
  else none

/-- Reads a date, a `T` or a space, a time of day and an offset. -/
def ofText? (s : String) : Option Timestamp := do
  let (year, cs) ← readYear s.toList
  let cs ← readMark '-' cs
  let (month, cs) ← readNumber 2 cs
  let cs ← readMark '-' cs
  let (day, cs) ← readNumber 2 cs
  let cs ← match cs with
    | c :: rest => if c = 'T' ∨ c = 't' ∨ c = ' ' then some rest else none
    | [] => none
  let (hour, cs) ← readNumber 2 cs
  let cs ← readMark ':' cs
  let (minute, cs) ← readNumber 2 cs
  let cs ← readMark ':' cs
  let (second, cs) ← readNumber 2 cs
  let (nano, cs) ← readFraction cs
  let (offset, cs) ← readOffset (Text.dropBlanks cs)
  let date ← Date.of? year month day
  let clock ← ofClock? date hour minute second nano
  if (Text.dropBlanks cs).isEmpty then
    ofLocal? clock.date clock.hour clock.minute clock.second clock.nano offset
  else none

def toJson (t : Timestamp) : Json := .string t.text
def ofJson? (value : Json) : Option Timestamp := (Json.asString? value).bind ofText?

end Timestamp
end PointLedger

import PointLedger.Text.Chars
import PointLedger.Json.Decode
/-!
Universally unique identifiers: 128-bit numbers, ordered as numbers, written as 32 hexadecimal
digits in groups of 8, 4, 4, 4 and 12.
-/

namespace PointLedger

/-- A universally unique identifier. -/
structure Uuid where
  /-- The identifier as a number, first digit most significant. -/
  value : Nat
  /-- It has 128 bits. -/
  lt : value < 0x100000000000000000000000000000000
  deriving DecidableEq, Repr

namespace Uuid

/-- The identifier whose bits are all zero. -/
def nil : Uuid := ⟨0, by decide⟩

instance : Inhabited Uuid := ⟨nil⟩

/-- The identifier with the low 128 bits of a number. -/
def ofNat (n : Nat) : Uuid := 
  ⟨n % 0x100000000000000000000000000000000, Nat.mod_lt _ (by decide)⟩

/-- The version: the thirteenth hexadecimal digit. -/
def version (id : Uuid) : Nat := id.value >>> 76 % 16

/-- A time-ordered identifier (version 7) of a millisecond count, with 74 bits of its own. -/
def timeOrdered (millis bits : Nat) : Uuid :=
  let high := bits >>> 62 % 0x1000
  let low := bits % 0x4000000000000000
  ofNat (((millis % 0x1000000000000) <<< 80) + (7 <<< 76) + (high <<< 64) + (2 <<< 62) + low)

/-- The written form: lower-case digits with hyphens between the groups. -/
def chars (id : Uuid) : List Char :=
  let ds := Text.digits 16 32 id.value
  ds.take 8 ++ '-' :: ((ds.drop 8).take 4 ++ '-' :: ((ds.drop 12).take 4 ++ '-' ::
    ((ds.drop 16).take 4 ++ '-' :: ds.drop 20)))

/-- The written form as a string. -/
def text (id : Uuid) : String := String.ofList id.chars

instance : ToString Uuid := ⟨text⟩

/-- Reads 32 hexadecimal digits of either case. -/
def ofHex? (cs : List Char) : Option Uuid := do
  let ds ← cs.mapM Text.hexDigit?
  if ds.length = 32 then some (ofNat (Text.ofDigits 16 ds)) else none

/-- Reads the hyphenated form. -/
def ofHyphenated? (cs : List Char) : Option Uuid :=
  let tail (n : Nat) := cs.drop n
  if cs.length = 36 ∧ (tail 8).head? = some '-' ∧ (tail 13).head? = some '-' ∧
      (tail 18).head? = some '-' ∧ (tail 23).head? = some '-' then
    ofHex? (cs.take 8 ++ (tail 9).take 4 ++ (tail 14).take 4 ++ (tail 19).take 4 ++ tail 24)
  else none

/-- Reads any accepted form: 32 digits, the hyphenated form, and the hyphenated form in braces or
after `urn:uuid:` in letters of either case. -/
def ofText? (s : String) : Option Uuid :=
  let cs := s.toList
  if cs.length = 32 then ofHex? cs
  else if cs.length = 36 then ofHyphenated? cs
  else if cs.length = 38 ∧ cs.head? = some '\x7b' ∧ cs.getLast? = some '\x7d' then
    ofHyphenated? ((cs.drop 1).take 36)
  else if cs.length = 45 ∧ (cs.take 9).map Char.toLower = "urn:uuid:".toList then
    ofHyphenated? (cs.drop 9)
  else none

/-- The identifier as a JSON string. -/
def toJson (id : Uuid) : Json := .string id.text

/-- Reads an identifier from a JSON string in any accepted form. -/
def ofJson? (value : Json) : Option Uuid := (Json.asString? value).bind ofText?

end Uuid

/-! ### Identifiers of rows -/

/-- The identifier of a ledger entry. -/
structure EntryId where
  uuid : Uuid
  deriving DecidableEq, Repr, Inhabited

/-- The identifier of a credit pool. -/
structure PoolId where
  uuid : Uuid
  deriving DecidableEq, Repr, Inhabited

/-- The identifier of a balance row. -/
structure BalanceId where
  uuid : Uuid
  deriving DecidableEq, Repr, Inhabited

instance : ToString EntryId := ⟨fun id => id.uuid.text⟩
instance : ToString PoolId := ⟨fun id => id.uuid.text⟩
instance : ToString BalanceId := ⟨fun id => id.uuid.text⟩

namespace EntryId

def toJson (id : EntryId) : Json := id.uuid.toJson
def ofJson? (value : Json) : Option EntryId := (Uuid.ofJson? value).map EntryId.mk

/-- Reads an entry id in any accepted form. -/
def ofText? (s : String) : Option EntryId := (Uuid.ofText? s).map EntryId.mk

/-- Entry ids are ordered as numbers. -/
def le (a b : EntryId) : Bool := a.uuid.value ≤ b.uuid.value

/-- The ids in ascending order. -/
def sort (ids : List EntryId) : List EntryId := ids.mergeSort le

end EntryId

namespace PoolId

def toJson (id : PoolId) : Json := id.uuid.toJson
def ofJson? (value : Json) : Option PoolId := (Uuid.ofJson? value).map PoolId.mk

end PoolId

namespace BalanceId

def toJson (id : BalanceId) : Json := id.uuid.toJson
def ofJson? (value : Json) : Option BalanceId := (Uuid.ofJson? value).map BalanceId.mk

end BalanceId
end PointLedger

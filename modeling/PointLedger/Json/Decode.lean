import PointLedger.Json.Basic
/-!
Typed values out of JSON values. A record is read from an object by the names of its fields, or
from an array by their order; an object may hold more than the record needs, an array may not.
-/

namespace PointLedger.Json

/-- A string. -/
def asString? : Json → Option String
  | .string value => some value
  | _ => none

/-- A truth value. -/
def asBool? : Json → Option Bool
  | .bool value => some value
  | _ => none

/-- An exact integer. -/
def asInt? : Json → Option Int
  | .number (.integer value) => some value
  | _ => none

/-- An exact integer from 0 to below `bound`. -/
def asNat? (bound : Nat) (value : Json) : Option Nat := do
  let n ← asInt? value
  if 0 ≤ n ∧ n < bound then some n.toNat else none

/-- An unsigned integer of 16 bits. -/
def asUInt16? (value : Json) : Option UInt16 := (asNat? UInt16.size value).map UInt16.ofNat

/-- An unsigned integer of 32 bits. -/
def asUInt32? (value : Json) : Option UInt32 := (asNat? UInt32.size value).map UInt32.ofNat

/-- An unsigned integer of 64 bits. -/
def asUInt64? (value : Json) : Option UInt64 := (asNat? UInt64.size value).map UInt64.ofNat

/-- An array whose items can all be read. -/
def asList? {α : Type} (item : Json → Option α) : Json → Option (List α)
  | .array items => items.mapM item
  | _ => none

/-- A value that may be `null`. -/
def asOption? {α : Type} (decode : Json → Option α) : Json → Option (Option α)
  | .null => some none
  | value => (decode value).map some

/-- The members of an object. -/
def asMembers? : Json → Option Members
  | .object members => some members
  | _ => none

/-- The name of a variant without data: a string, or an object with that one key over `null`. -/
def asName? : Json → Option String
  | .string name => some name
  | .object [(name, .null)] => some name
  | _ => none

/-- The fields of a record as they were given. -/
structure Fields where
  /-- The value of a field, when it was given. -/
  find? : String → Option Json
  /-- True when the fields were given by name. -/
  named : Bool

/-- The fields of a record with these field names, in this order. -/
def fields? (names : List String) : Json → Option Fields
  | .object members => some ⟨Members.get? members, true⟩
  | .array items =>
    if items.length ≤ names.length then
      some ⟨fun name => List.lookup name (names.zip items), false⟩
    else none
  | _ => none

namespace Fields

/-- A field that must be given. -/
def required {α : Type} (fields : Fields) (name : String) (decode : Json → Option α) : Option α :=
  (fields.find? name).bind decode

/-- A field that may be `null`, or left out when fields are given by name. -/
def optional {α : Type} (fields : Fields) (name : String) (decode : Json → Option α) :
    Option (Option α) :=
  match fields.find? name with
  | some value => asOption? decode value
  | none => if fields.named then some none else none

/-- A field that may be left out, with the value it then has. -/
def defaulted {α : Type} (fields : Fields) (name : String) (default : α)
    (decode : Json → Option α) : Option α :=
  match fields.find? name with
  | some value => decode value
  | none => some default

end Fields
end PointLedger.Json

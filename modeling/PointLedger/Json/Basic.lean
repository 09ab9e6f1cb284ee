import PointLedger.Json.Double
/-!
JSON values. An object keeps its members in a list; writing a key a second time replaces the
first value, so a well-built object has each key once. Numbers are exact integers or floating-point
numbers.
-/

namespace PointLedger

/-- A JSON number. -/
inductive Json.Number where
  /-- An integer that fits in 64 bits, signed or unsigned. -/
  | integer (value : Int)
  /-- Any other number. -/
  | decimal (value : Double)
  deriving DecidableEq, Repr, Inhabited

/-- A JSON value. -/
inductive Json where
  | null
  | bool (value : Bool)
  | number (value : Json.Number)
  | string (value : String)
  | array (items : List Json)
  | object (members : List (String × Json))
  deriving Repr, Inhabited

namespace Json

mutual

/-- Equality of JSON values can be decided. -/
def decEq : (a b : Json) → Decidable (a = b)
  | .null, .null => isTrue rfl
  | .bool a, .bool b => if h : a = b then isTrue (by rw [h]) else isFalse (by simp [h])
  | .number a, .number b => if h : a = b then isTrue (by rw [h]) else isFalse (by simp [h])
  | .string a, .string b => if h : a = b then isTrue (by rw [h]) else isFalse (by simp [h])
  | .array a, .array b =>
    match decEqItems a b with
    | isTrue h => isTrue (by rw [h])
    | isFalse h => isFalse (by simp [h])
  | .object a, .object b =>
    match decEqMembers a b with
    | isTrue h => isTrue (by rw [h])
    | isFalse h => isFalse (by simp [h])
  | .null, .bool _ | .null, .number _ | .null, .string _ | .null, .array _ | .null, .object _
  | .bool _, .null | .bool _, .number _ | .bool _, .string _ | .bool _, .array _
  | .bool _, .object _ | .number _, .null | .number _, .bool _ | .number _, .string _
  | .number _, .array _ | .number _, .object _ | .string _, .null | .string _, .bool _
  | .string _, .number _ | .string _, .array _ | .string _, .object _ | .array _, .null
  | .array _, .bool _ | .array _, .number _ | .array _, .string _ | .array _, .object _
  | .object _, .null | .object _, .bool _ | .object _, .number _ | .object _, .string _
  | .object _, .array _ => isFalse (by simp)

/-- Equality of item lists can be decided. -/
def decEqItems : (a b : List Json) → Decidable (a = b)
  | [], [] => isTrue rfl
  | a :: as, b :: bs =>
    match decEq a b, decEqItems as bs with
    | isTrue h, isTrue hs => isTrue (by rw [h, hs])
    | isFalse h, _ => isFalse (by simp [h])
    | _, isFalse hs => isFalse (by simp [hs])
  | [], _ :: _ => isFalse (by simp)
  | _ :: _, [] => isFalse (by simp)

/-- Equality of member lists can be decided. -/
def decEqMembers : (a b : List (String × Json)) → Decidable (a = b)
  | [], [] => isTrue rfl
  | (k, a) :: as, (l, b) :: bs =>
    if hk : k = l then
      match decEq a b, decEqMembers as bs with
      | isTrue h, isTrue hs => isTrue (by rw [hk, h, hs])
      | isFalse h, _ => isFalse (by simp [h])
      | _, isFalse hs => isFalse (by simp [hs])
    else isFalse (by simp [hk])
  | [], _ :: _ => isFalse (by simp)
  | _ :: _, [] => isFalse (by simp)

end

instance : DecidableEq Json := decEq

/-- The members of an object, each key once. -/
abbrev Members := List (String × Json)

namespace Members

/-- The value under a key. -/
def get? (members : Members) (key : String) : Option Json := List.lookup key members

/-- True when the key is present. -/
def has (members : Members) (key : String) : Bool := members.any (·.1 == key)

/-- The members with a key set: in its place when it was present, at the end otherwise. -/
def set (members : Members) (key : String) (value : Json) : Members :=
  if members.has key then members.map fun m => if m.1 == key then (key, value) else m
  else members ++ [(key, value)]

/-- The members without some keys. -/
def without (members : Members) (keys : List String) : Members :=
  members.filter fun m => !keys.contains m.1

end Members

/-- An integer as a JSON value. -/
def int (value : Int) : Json := .number (.integer value)

/-- A value that may be absent, with `null` for absence. -/
def option {α : Type} (encode : α → Json) : Option α → Json
  | none => .null
  | some value => encode value

/-- A list of values. -/
def list {α : Type} (encode : α → Json) (values : List α) : Json := .array (values.map encode)

/-- The member of an object, `null` when the value is no object or lacks the key. -/
def member (value : Json) (key : String) : Json :=
  match value with
  | .object members => (Members.get? members key).getD .null
  | _ => .null

end Json
end PointLedger

import PointLedger.Text.Chars
import PointLedger.Json.Decode
/-!
The two kinds of ledger entries.
-/

namespace PointLedger

/-- The direction of a ledger entry. -/
inductive EntryKind where
  /-- Points are earned; a credit opens a pool. -/
  | credit
  /-- Points are spent; a debit draws on the open pools, oldest first. -/
  | debit
  deriving DecidableEq, Repr, Inhabited

namespace EntryKind

/-- The name of a kind, as it is hashed and stored. -/
def name : EntryKind → String
  | .credit => "CREDIT"
  | .debit => "DEBIT"

instance : ToString EntryKind := ⟨name⟩

/-- The kind with a name, in exactly these letters. -/
def ofName? (s : String) : Option EntryKind :=
  if s = "CREDIT" then some .credit else if s = "DEBIT" then some .debit else none

/-- The kind with a name in letters of either case. -/
def ofText? (s : String) : Option EntryKind := ofName? (Text.asciiUpper s)

def toJson (kind : EntryKind) : Json := .string kind.name
def ofJson? (value : Json) : Option EntryKind := (Json.asName? value).bind ofName?

end EntryKind
end PointLedger

import PointLedger.Json.Decode
/-!
Accounts: a user within an organization. Each account has its own chain of entries, its own credit
pools, its own balance and its own lock.
-/

namespace PointLedger

/-- The pair that owns a chain, its pools and its balance. -/
structure Account where
  organizationId : String
  userId : String
  deriving DecidableEq, Repr, Inhabited

namespace Account

/-- The text that names the account's lock. The unit separator between the parts cannot stand in a
valid identifier, so two valid accounts never share a lock. -/
def lockKey (a : Account) : String :=
  String.ofList (a.organizationId.toList ++ Char.ofNat 0x1F :: a.userId.toList)

instance : ToString Account := ⟨fun a => a.organizationId ++ "/" ++ a.userId⟩

/-- Accounts are ordered by organization, then by user, code point by code point. -/
def compare (a b : Account) : Ordering :=
  (compareOfLessAndEq a.organizationId b.organizationId).then
    (compareOfLessAndEq a.userId b.userId)

def toJson (a : Account) : Json :=
  .object [("organization_id", .string a.organizationId), ("user_id", .string a.userId)]

def ofJson? (value : Json) : Option Account := do
  let fields ← Json.fields? ["organization_id", "user_id"] value
  let organizationId ← fields.required "organization_id" Json.asString?
  let userId ← fields.required "user_id" Json.asString?
  return ⟨organizationId, userId⟩

end Account
end PointLedger

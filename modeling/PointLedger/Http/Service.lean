import PointLedger.Engine.Inquiry
import PointLedger.Engine.Mutation
import PointLedger.Http.EntryBody
import PointLedger.Http.ListQuery
import PointLedger.Http.Message
import PointLedger.Http.Target
/-!
The ledger over HTTP. A path names a resource, and each resource answers to its own methods; `HEAD`
is answered as `GET` without the body. A request is checked in the order of path, content type and
body, and the ledger is asked only when all of them can be read. Every response may be read by
pages of any origin.
-/

namespace PointLedger.Http

/-- What a path names. The parts that paths hold are still encoded. -/
inductive Resource where
  | health
  | entries (organization user : String)
  | balance (organization user : String)
  | chain (organization user : String)
  | reconciliation (organization user : String)
  | entry (id : String)
  | reversal (id : String)
  deriving DecidableEq, Repr

namespace Resource

/-- The resource of a path; no part of a path is empty. -/
def ofSegments? (segments : List String) : Option Resource :=
  if segments.any (·.isEmpty) then none
  else
    match segments with
    | ["api", "v1", "health"] => some .health
    | ["api", "v1", "organizations", organization, "users", user, "entries"] =>
      some (.entries organization user)
    | ["api", "v1", "organizations", organization, "users", user, "balance"] =>
      some (.balance organization user)
    | ["api", "v1", "organizations", organization, "users", user, "chain", "verify"] =>
      some (.chain organization user)
    | ["api", "v1", "organizations", organization, "users", user, "reconciliation"] =>
      some (.reconciliation organization user)
    | ["api", "v1", "entries", id] => some (.entry id)
    | ["api", "v1", "entries", id, "revert"] => some (.reversal id)
    | _ => none

/-- The methods that a resource answers to. -/
def methods : Resource → List String
  | .entries _ _ => ["POST", "GET", "HEAD"]
  | .reversal _ => ["POST"]
  | _ => ["GET", "HEAD"]

/-- The methods as a header lists them. -/
def allow (r : Resource) : String := String.intercalate "," r.methods

end Resource

/-! ### Answers -/

/-- The response to the outcome of an operation; a text that is hidden from clients is reported. -/
def respond {α : Type} (status : Nat) (encode : α → Json) :
    Except LedgerError α → Program Response
  | .ok value => .done (.json status (encode value))
  | .error error =>
    let response := (Failure.ofLedger error).response
    if Failure.hides error then .report (.failureHidden error) (.done response)
    else .done response

/-- The response to a path with a part that is no text. -/
def invalidPart (name : String) : Response := .text 400 s!"Invalid URL: Invalid UTF-8 in \x60{name}\x60"

/-- Goes on with the account that two parts of a path name. -/
def withAccount (organization user : String) (next : Account → Program Response) :
    Program Response :=
  match decodeSegment? organization, decodeSegment? user with
  | none, _ => .done (invalidPart "org_id")
  | _, none => .done (invalidPart "user_id")
  | some organizationId, some userId => next ⟨organizationId, userId⟩

/-- Goes on with the entry id that a part of a path writes. -/
def withEntryId (raw : String) (next : EntryId → Program Response) : Program Response :=
  match decodeSegment? raw with
  | none => .done (invalidPart "entry_id")
  | some text =>
    match EntryId.ofText? text with
    | none => .done (Failure.invalidArgument s!"invalid entry id: {text}").response
    | some id => next id

/-- What a response says about a body that cannot be read. -/
def faultMessage : Json.Fault → String
  | .malformed => "Failed to parse the request body as JSON"
  | .mistyped => "Failed to deserialize the JSON body into the target type"

/-- Reads the body of a request for a new entry. -/
def readEntryBody (request : Request) : Except Failure EntryBody :=
  if (List.lookup "content-type" request.headers).any isJsonContent then
    (EntryBody.ofText? request.body).mapError fun fault => .invalidArgument (faultMessage fault)
  else
    .error (.invalidArgument "Expected request with \x60Content-Type: application/json\x60")

/-- Adds the entry that a request's body asks for. -/
def postEntry (config : EngineConfig) (request : Request) (account : Account) :
    Program Response :=
  match readEntryBody request with
  | .error failure => .done failure.response
  | .ok body => do
    respond 201 Entry.toJson (← Ledger.addEntry config (body.request account))

/-- Lists the entries that a request's query asks for. -/
def getEntries (config : EngineConfig) (pairs : List (String × String)) (account : Account) :
    Program Response :=
  match ListQuery.ofPairs? pairs with
  | none => .done (Failure.invalidArgument "Failed to deserialize query string").response
  | some query => do
    let outcome ← Ledger.listEntries config (query.forAccount account)
    respond 200 (fun page => (page.map Entry.toJson).toJson) outcome

/-- Says that the service is up, and which version of it. -/
def healthy : Response :=
  .json 200 (.object [("status", .string "healthy"), ("version", .string "0.1.0")])

/-- The answer of a resource to one of its methods, where `HEAD` counts as `GET`. -/
def answer (config : EngineConfig) (request : Request) (pairs : List (String × String)) :
    Resource → Program Response
  | .health => .done healthy
  | .entries organization user =>
    withAccount organization user
      (if request.method = "POST" then postEntry config request else getEntries config pairs)
  | .balance organization user =>
    withAccount organization user fun account => do
      respond 200 BalanceSnapshot.toJson (← Ledger.getBalance account)
  | .chain organization user =>
    withAccount organization user fun account => do
      respond 200 ChainReport.toJson (← Ledger.verifyChain account)
  | .reconciliation organization user =>
    withAccount organization user fun account => do
      respond 200 Reconciliation.toJson (← Ledger.reconcile account)
  | .entry id =>
    withEntryId id fun id => do respond 200 Entry.toJson (← Ledger.getEntry id)
  | .reversal id =>
    withEntryId id fun id => do respond 200 Entry.toJson (← Ledger.revertEntry config id)

/-- The response to a request whose origin is not looked at. -/
def route (config : EngineConfig) (request : Request) : Program Response :=
  let target := Target.ofText request.target
  match Resource.ofSegments? target.segments with
  | none => .done { status := 404 }
  | some resource =>
    if resource.methods.contains request.method then do
      let response ← answer config request target.query resource
      return if request.method = "HEAD" then response.withoutBody else response
    else .done { status := 405, headers := [("allow", resource.allow)] }

/-- The response to a question about what may be asked: everything, by everyone. -/
def preflight (request : Request) : Response :=
  let response : Response := {
    status := 200
    headers := [
      ("access-control-allow-origin", "*"),
      ("access-control-allow-methods", "*"),
      ("access-control-allow-headers", "*")] }
  match Resource.ofSegments? (Target.ofText request.target).segments with
  | none => response
  | some resource => response.withHeader "allow" resource.allow

/-- The response to a request. -/
def serve (config : EngineConfig) (request : Request) : Program Response :=
  if request.method = "OPTIONS" then .done (preflight request)
  else do
    let response ← route config request
    return response.withHeader "access-control-allow-origin" "*"

end PointLedger.Http

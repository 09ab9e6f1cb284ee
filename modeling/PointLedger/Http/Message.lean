import PointLedger.Error
import PointLedger.Json.Basic
/-!
Requests and responses as the service sees them, and the bodies of failures. A response to a
failure carries a code and a text; the text of a failure that clients may not see is replaced.
-/

namespace PointLedger.Http

/-- A request. -/
structure Request where
  /-- The method, in capitals when it is a standard one. -/
  method : String
  /-- The path with its query. -/
  target : String
  /-- The headers, each with its name in lower case. -/
  headers : List (String × String) := []
  body : String := ""
  deriving DecidableEq, Repr

/-- The body of a response. -/
inductive Body where
  | empty
  | json (value : Json)
  | text (value : String)
  deriving DecidableEq, Repr

/-- A response. -/
structure Response where
  status : Nat
  headers : List (String × String) := []
  body : Body := .empty
  deriving DecidableEq, Repr

namespace Response

/-- A response with a JSON body. -/
def json (status : Nat) (value : Json) : Response :=
  ⟨status, [("content-type", "application/json")], .json value⟩

/-- A response with a plain text. -/
def text (status : Nat) (value : String) : Response :=
  ⟨status, [("content-type", "text/plain; charset=utf-8")], .text value⟩

/-- The response without its body. -/
def withoutBody (r : Response) : Response := { r with body := .empty }

/-- The response with one more header. -/
def withHeader (r : Response) (name value : String) : Response :=
  { r with headers := r.headers ++ [(name, value)] }

end Response

/-- A failure as a response shows it. -/
structure Failure where
  status : Nat
  code : String
  message : String
  deriving DecidableEq, Repr

namespace Failure

/-- What a response says in place of a text that clients may not see. -/
def hiddenMessage : String := "An internal error occurred"

/-- A request whose shape is wrong. -/
def invalidArgument (message : String) : Failure := ⟨400, "INVALID_ARGUMENT", message⟩

/-- True when clients may not see the text of a ledger failure. -/
def hides (error : LedgerError) : Bool := !error.toAppError.isClientVisible

/-- A ledger failure as a response shows it. -/
def ofLedger (error : LedgerError) : Failure :=
  ⟨error.httpStatus, error.code, if hides error then hiddenMessage else error.message⟩

/-- The response to a failure. -/
def response (f : Failure) : Response :=
  .json f.status (.object [("error", .string f.code), ("message", .string f.message)])

end Failure
end PointLedger.Http

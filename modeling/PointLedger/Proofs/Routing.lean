import PointLedger.Http.Service
import PointLedger.Proofs.AuditTrail

/-!
Which operation a request over HTTP comes to. A request is answered out of hand, or it makes one
call of one operation and is answered with the result. Only a POST to the entries of an account or
to the reversal of an entry calls an operation that writes, and a POST that calls none is refused.
-/

namespace PointLedger

namespace Http

/-- The resource that the target of a request names. -/
def Request.resource? (r : Request) : Option Resource :=
  Resource.ofSegments? (Target.ofText r.target).segments

/-- A response as it is sent: without its body to `HEAD`, and for pages of any origin. -/
def Request.sent (r : Request) (response : Response) : Response :=
  (if r.method = "HEAD" then response.withoutBody else response).withHeader
    "access-control-allow-origin" "*"

@[simp] theorem Request.status_sent (r : Request) (response : Response) :
    (r.sent response).status = response.status := by
  unfold Request.sent Response.withHeader Response.withoutBody
  split <;> rfl

/-- The end of a request: the result of its operation is answered. -/
def Request.conclude {α : Type} (r : Request) (status : Nat) (encode : α → Json)
    (result : Except LedgerError α) : Program Response :=
  (respond status encode result).bind fun response => .done (r.sent response)

/-- The response to the result of an operation. -/
def reply {α : Type} (status : Nat) (encode : α → Json) : Except LedgerError α → Response
  | .ok value => .json status (encode value)
  | .error error => (Failure.ofLedger error).response

/-- The ways in which a request is answered. -/
inductive Serves (config : EngineConfig) (r : Request) : Program Response → Prop where
  /-- Out of hand. -/
  | plain (response : Response) (refused : r.method = "POST" → 400 ≤ response.status) :
      Serves config r (.done response)
  | addition (organization user : String) (account : Account) (body : EntryBody)
      (named : r.resource? = some (.entries organization user)) (posted : r.method = "POST") :
      Serves config r
        ((Ledger.addEntry config (body.request account)).bind (r.conclude 201 Entry.toJson))
  | reversal (raw text : String) (id : EntryId) (named : r.resource? = some (.reversal raw))
      (posted : r.method = "POST") (decoded : decodeSegment? raw = some text)
      (read : EntryId.ofText? text = some id) :
      Serves config r ((Ledger.revertEntry config id).bind (r.conclude 200 Entry.toJson))
  | inquiry (q : Inquiry) (encode : q.Answer → Json) (asked : r.method ≠ "POST") :
      Serves config r (q.program.bind (r.conclude 200 encode))

variable {config : EngineConfig} {r : Request}

/-- A response that is known before any operation is called. -/
theorem serves_done (response : Response) (refused : r.method = "POST" → 400 ≤ response.status) :
    Serves config r ((Program.done response).bind fun response => .done (r.sent response)) :=
  .plain (r.sent response) fun posted => by
    rw [Request.status_sent]
    exact refused posted

theorem serves_withAccount {organization user : String} {next : Account → Program Response}
    (rest : ∀ account,
      Serves config r ((next account).bind fun response => .done (r.sent response))) :
    Serves config r
      ((withAccount organization user next).bind fun response => .done (r.sent response)) := by
  unfold withAccount
  split
  · exact serves_done _ fun _ => Nat.le_refl 400
  · exact serves_done _ fun _ => Nat.le_refl 400
  · exact rest _

theorem serves_withEntryId {raw : String} {next : EntryId → Program Response}
    (rest : ∀ text id, decodeSegment? raw = some text → EntryId.ofText? text = some id →
      Serves config r ((next id).bind fun response => .done (r.sent response))) :
    Serves config r
      ((withEntryId raw next).bind fun response => .done (r.sent response)) := by
  unfold withEntryId
  split
  · exact serves_done _ fun _ => Nat.le_refl 400
  · rename_i text decoded
    split
    · exact serves_done _ fun _ => Nat.le_refl 400
    · rename_i id read
      exact rest text id decoded read

theorem serves_inquiry (q : Inquiry) (encode : q.Answer → Json) (asked : r.method ≠ "POST") :
    Serves config r ((q.program.bind (respond 200 encode)).bind
      fun response => .done (r.sent response)) := by
  rw [Program.bind_assoc]
  exact .inquiry q encode asked

/-- A resource answers to `POST` or to other methods. -/
theorem Resource.ne_post_of_mem_methods {resource : Resource} {method : String}
    (allowed : method ∈ resource.methods)
    (entries : ∀ organization user, resource ≠ .entries organization user)
    (reversal : ∀ raw, resource ≠ .reversal raw) : method ≠ "POST" := by
  rintro rfl
  cases resource with
  | entries organization user => exact entries organization user rfl
  | reversal raw => exact reversal raw rfl
  | _ => simp [methods] at allowed

theorem status_of_readEntryBody {failure : Failure} (unread : readEntryBody r = .error failure) :
    failure.status = 400 := by
  unfold readEntryBody at unread
  split at unread
  · cases body : EntryBody.ofText? r.body with
    | error fault =>
      rw [body] at unread
      cases unread
      rfl
    | ok body' =>
      rw [body] at unread
      cases unread
  · cases unread
    rfl

theorem serves_postEntry {organization user : String}
    (named : r.resource? = some (.entries organization user)) (posted : r.method = "POST")
    (account : Account) :
    Serves config r
      ((postEntry config r account).bind fun response => .done (r.sent response)) := by
  unfold postEntry
  split
  · rename_i failure unread
    refine serves_done _ fun _ => ?_
    exact Nat.le_of_eq (status_of_readEntryBody unread).symm
  · rename_i body read
    exact (Program.bind_assoc _ _ _).symm ▸ .addition organization user account body named posted

theorem serves_getEntries {pairs : List (String × String)} (asked : r.method ≠ "POST")
    (account : Account) :
    Serves config r
      ((getEntries config pairs account).bind fun response => .done (r.sent response)) := by
  unfold getEntries
  split
  · exact serves_done _ fun _ => Nat.le_refl 400
  · rename_i query read
    exact serves_inquiry (.listing config (query.forAccount account)) _ asked

theorem serves_answer {resource : Resource} (named : r.resource? = some resource)
    (allowed : r.method ∈ resource.methods) (pairs : List (String × String)) :
    Serves config r
      ((answer config r pairs resource).bind fun response => .done (r.sent response)) := by
  cases resource with
  | entries organization user =>
    refine serves_withAccount fun account => ?_
    split
    · rename_i posted
      exact serves_postEntry named posted account
    · rename_i asked
      exact serves_getEntries asked account
  | reversal raw =>
    have posted : r.method = "POST" := by simpa [Resource.methods] using allowed
    refine serves_withEntryId fun text id decoded read => ?_
    exact (Program.bind_assoc _ _ _).symm ▸ .reversal raw text id named posted decoded read
  | health =>
    have asked := Resource.ne_post_of_mem_methods allowed nofun nofun
    exact serves_done _ fun posted => absurd posted asked
  | balance organization user =>
    have asked := Resource.ne_post_of_mem_methods allowed nofun nofun
    exact serves_withAccount fun account => serves_inquiry (.balance account) _ asked
  | chain organization user =>
    have asked := Resource.ne_post_of_mem_methods allowed nofun nofun
    exact serves_withAccount fun account => serves_inquiry (.verification account) _ asked
  | reconciliation organization user =>
    have asked := Resource.ne_post_of_mem_methods allowed nofun nofun
    exact serves_withAccount fun account => serves_inquiry (.reconciliation account) _ asked
  | entry raw =>
    have asked := Resource.ne_post_of_mem_methods allowed nofun nofun
    exact serves_withEntryId fun text id _ _ => serves_inquiry (.entry id) _ asked

theorem serves_serve (config : EngineConfig) (r : Request) : Serves config r (serve config r) := by
  unfold serve
  split
  · rename_i options
    exact .plain _ fun posted => absurd (options.symm.trans posted) (by decide)
  · change Serves config r ((route config r).bind fun response =>
      .done (response.withHeader "access-control-allow-origin" "*"))
    unfold route
    dsimp only
    split
    · exact .plain _ fun _ => by decide
    · rename_i resource named
      split
      · rename_i allowed
        refine (Program.bind_assoc _ _ _).symm ▸ serves_answer named ?_ _
        simpa using allowed
      · exact .plain _ fun _ => show 400 ≤ 405 by decide

end Http
end PointLedger

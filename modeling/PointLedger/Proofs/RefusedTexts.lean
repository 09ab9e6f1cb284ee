import PointLedger.Proofs.Composition
import PointLedger.Proofs.Discipline
import PointLedger.Proofs.StorableTexts

/-!
Texts that a database refuses. A store that refuses every statement with a null character in a text
answers such a request with a failure of the backend and does nothing else. On it programs run as
they do elsewhere until they send such a statement, and an operation whose request fails in the
backend ends with that failure, whatever it did before. So an entry that a store takes is taken by
such a database exactly when its description and metadata hold no null character; otherwise the
caller is told of a failure of the machinery, and that trying again may help.
-/

namespace PointLedger

/-- A host that refuses, with a failure of its backend, every request whose statement a database
cannot hold, and answers all others as another host does. -/
def Host.refusing {σ : Type} (host : Host σ) (reason : String) : Host σ :=
  { host with
    answer := fun s request =>
      if (Sql.statement request).Storable then host.answer s request
      else (.error (.backend reason), s)
    answerInTime := fun s request =>
      if (Sql.statement request).Storable then host.answerInTime s request
      else (some (.error (.backend reason)), s) }

namespace Program

variable {α σ : Type} {host : Host σ} {reason : String}

/-- As long as nothing is refused, a program runs as it does on the other host. -/
theorem run_refusing {program : Program α} {s : σ}
    (storable : ∀ x ∈ program.record host s, (Sql.statement x.request).Storable) :
    program.run (host.refusing reason) s = program.run host s := by
  induction program generalizing s with
  | done value => rfl
  | ask request next ih | askInTime request next ih =>
    obtain ⟨own, later⟩ := List.forall_mem_cons.mp storable
    simp only [run, Host.refusing, if_pos own]
    exact ih _ later
  | startTimer limit next ih => exact ih storable
  | clock next ih => exact ih _ storable
  | fresh next ih => exact ih _ storable
  | random next ih => exact ih _ storable
  | report signal next ih => exact ih storable

/-- If a statement would be refused, then one is, with a failure of the backend. -/
theorem exists_refused (reason : String) {program : Program α} {s : σ}
    (sent : ∃ x ∈ program.record host s, ¬ (Sql.statement x.request).Storable) :
    ∃ x ∈ program.record (host.refusing reason) s, ¬ (Sql.statement x.request).Storable ∧
      x.answer = some (.error (.backend reason)) := by
  induction program generalizing s with
  | done value =>
    obtain ⟨x, member, -⟩ := sent
    cases member
  | ask request next ih | askInTime request next ih =>
    by_cases own : (Sql.statement request).Storable
    · obtain ⟨x, member, unstorable⟩ := sent
      rcases List.mem_cons.mp member with rfl | later
      · exact absurd own unstorable
      · obtain ⟨y, found, refused⟩ := ih _ ⟨x, later, unstorable⟩
        simp only [record, Host.refusing, if_pos own]
        exact ⟨y, List.mem_cons_of_mem _ found, refused⟩
    · simp only [record, Host.refusing, if_neg own]
      exact ⟨_, List.mem_cons_self, own, rfl⟩
  | startTimer limit next ih => exact ih sent
  | clock next ih => exact ih _ sent
  | fresh next ih => exact ih _ sent
  | random next ih => exact ih _ sent
  | report signal next ih => exact ih sent

end Program

/-! ### A failure of the backend decides -/

/-- Work in which a request other than a rollback fails in the backend ends with that failure. -/
def Decided {α ε : Type} (fails : StoreError → ε) (work : ExceptT ε Program α) : Prop :=
  ∀ xs result x reason, work.run.Exhibits xs (some result) → x ∈ xs →
    (∀ tx, x.request ≠ .rollback tx) → x.answer = some (.error (.backend reason)) →
      result = .error (fails (.backend reason))

namespace Decided

variable {α β ε : Type} {fails : StoreError → ε}

theorem bind {first : ExceptT ε Program α} {next : α → ExceptT ε Program β}
    (decided : Decided fails first) (rest : ∀ value, Decided fails (next value)) :
    Decided fails (first >>= next) := by
  intro xs result x reason exhibits member plain failed
  rcases Program.Exhibits.of_bind exhibits with ⟨-, dropped⟩ | ⟨value, ys, zs, rfl, done, second⟩
  · cases dropped
  · rcases List.mem_append.mp member with early | late
    · have same := decided ys value x reason done early plain failed
      subst same
      exact second.of_done.2 _ rfl
    · cases value with
      | error error =>
        obtain ⟨rfl, -⟩ := second.of_done
        cases late
      | ok value => exact rest value zs result x reason second late plain failed

theorem silent {work : ExceptT ε Program α}
    (silent : ∀ xs outcome, work.run.Exhibits xs outcome → xs = []) : Decided fails work := by
  intro xs result x reason exhibits member
  rw [silent xs _ exhibits] at member
  cases member

end Decided

theorem Staged.composes_decided :
    Staged.Composes fun work => Decided (fun error => .failed (.store error)) work where
  pure value := .silent fun _ _ exhibits => exhibits.of_done.1
  fail error := .silent fun _ _ exhibits => exhibits.of_done.1
  ask {request} named := by
    intro xs result x reason exhibits member _ failed
    cases exhibits with
    | askInTime answer rest =>
      have alone : x = ⟨request, answer⟩ := by
        rcases answer with _ | error | value <;>
          · obtain ⟨rfl, -⟩ := rest.of_done
            exact List.mem_singleton.mp member
      subst alone
      change answer = some (.error (.backend reason)) at failed
      subst failed
      exact rest.of_done.2 _ rfl
  fresh := .silent Staged.silent_fresh
  clock := .silent Staged.silent_clock
  bind := .bind

namespace Attempt

variable {α : Type} {config : EngineConfig} {tx : TxId} {xs : List Exchange}

theorem decided_ask (request : Request) : Decided LedgerError.store (ask request) := by
  intro xs result x reason exhibits member _ failed
  cases exhibits with
  | ask answer rest =>
    have alone : x = ⟨request, answer⟩ := by
      rcases answer with error | value <;>
        · obtain ⟨rfl, -⟩ := rest.of_done
          exact List.mem_singleton.mp member
    subst alone
    change some answer = some (.error (.backend reason)) at failed
    cases failed
    exact rest.of_done.2 _ rfl

theorem decided_settle (staged : Except Interruption α) :
    Decided LedgerError.store (settle config tx staged) := by
  intro xs result x reason exhibits member plain failed
  rcases exhibits_settle exhibits with ⟨rfl, -⟩ | ⟨answer, rfl⟩ | ⟨-, value, rfl⟩
  · cases member
  · exact absurd (congrArg Exchange.request (List.mem_singleton.mp member)) (plain tx)
  · have commits : Decided LedgerError.store (settle config tx (.ok value)) :=
      .bind (decided_ask _) fun _ => .silent fun _ _ exhibits => exhibits.of_done.1
    exact commits xs result x reason exhibits member plain failed

/-- Work that ended early is rolled back, and if it failed then its failure is the result. -/
theorem result_of_settle {early : Interruption} {result : Except LedgerError α}
    (exhibits : (settle config tx (.error early)).run.Exhibits xs (some result)) :
    ∃ error, result = .error error ∧ ∀ failure, early = .failed failure → error = failure := by
  cases early with
  | failed error =>
    rcases Program.Exhibits.of_bindLift exhibits with ⟨-, dropped⟩ | ⟨_, ys, zs, rfl, -, thrown⟩
    · cases dropped
    · exact ⟨error, (Program.Exhibits.of_done thrown).2 _ rfl, fun _ same => by cases same; rfl⟩
  | overdue =>
    rcases Program.Exhibits.of_bindLift exhibits with ⟨-, dropped⟩ | ⟨_, ys, zs, rfl, -, thrown⟩
    · cases dropped
    · exact ⟨_, (Program.Exhibits.of_done thrown).2 _ rfl, fun _ same => by cases same⟩

theorem result_of_adapt {attempt : Attempt α} {change : LedgerError → LedgerError}
    {result : Except LedgerError α}
    (exhibits : (ExceptT.adapt change attempt).run.Exhibits xs (some result)) :
    ∃ first, attempt.run.Exhibits xs (some first) ∧ result = first.mapError change := by
  rcases Program.Exhibits.of_bind exhibits with ⟨-, dropped⟩ | ⟨first, ys, zs, rfl, done, last⟩
  · cases dropped
  · obtain ⟨rfl, same⟩ := Program.Exhibits.of_done last
    rw [List.append_nil]
    exact ⟨first, done, same _ rfl⟩

/-- How a transaction that was started and not dropped comes to its result. -/
theorem of_inTransaction {organizationId referenceId : String} {work : TxId → Staged α}
    {result : Except LedgerError α}
    (exhibits : (inTransaction config organizationId referenceId work).run.Exhibits xs
      (some result)) :
    (∃ answer error, xs = [⟨.beginTx, answer⟩] ∧ result = .error error ∧
      ∀ failure, answer = some (.error failure) → error = .store failure) ∨
    ∃ tx ys zs staged settled, xs = .begun tx :: (ys ++ zs) ∧
      (work tx).run.Exhibits ys (some staged) ∧
      (settle config tx staged).run.Exhibits zs (some settled) ∧
      result = settled.mapError (referenceConflict organizationId referenceId) := by
  cases exhibits with
  | startTimer exhibits =>
    cases exhibits with
    | askInTime answer rest =>
      rcases answer with _ | error | tx
      · obtain ⟨rfl, same⟩ := rest.of_done
        exact .inl ⟨_, _, rfl, same _ rfl, nofun⟩
      · obtain ⟨rfl, same⟩ := rest.of_done
        exact .inl ⟨_, _, rfl, same _ rfl, fun failure told => by cases told; rfl⟩
      · rcases Program.Exhibits.of_bindLift rest with
          ⟨-, dropped⟩ | ⟨staged, ys, zs, rfl, first, second⟩
        · cases dropped
        · obtain ⟨settled, ended, same⟩ := result_of_adapt second
          exact .inr ⟨tx, ys, zs, staged, settled, rfl, first, ended, same⟩

theorem decided_inTransaction {organizationId referenceId : String} {work : TxId → Staged α}
    (decided : ∀ tx, Decided (fun error => .failed (.store error)) (work tx)) :
    Decided LedgerError.store (inTransaction config organizationId referenceId work) := by
  intro xs result x reason exhibits member plain failed
  rcases of_inTransaction exhibits with
    ⟨answer, error, rfl, rfl, told⟩ | ⟨tx, ys, zs, staged, settled, rfl, first, ended, rfl⟩
  · rw [List.mem_singleton.mp member] at failed
    rw [told _ failed]
  · rcases List.mem_cons.mp member with rfl | member
    · cases failed
    · rcases List.mem_append.mp member with early | late
      · have same := decided tx ys staged x reason first early plain failed
        subst same
        obtain ⟨error, rfl, kept⟩ := result_of_settle ended
        rw [kept _ rfl]
        rfl
      · rw [decided_settle staged zs settled x reason ended late plain failed]
        rfl

theorem silent_newTransactionId {outcome : Option (Except LedgerError String)}
    (exhibits : newTransactionId.run.Exhibits xs outcome) : xs = [] := by
  cases exhibits with
  | dropped => rfl
  | clock time exhibits =>
    cases exhibits with
    | dropped => rfl
    | random bytes rest => cases bytes <;> exact rest.of_done.1

theorem composes_decided : Composes fun attempt => Decided LedgerError.store attempt where
  ofExcept _ := .silent fun _ _ exhibits => exhibits.of_done.1
  ask _ := decided_ask _
  newTransactionId := .silent fun _ _ exhibits => silent_newTransactionId exhibits
  inTransaction _ _ _ _ steps :=
    decided_inTransaction fun tx => steps Staged.composes_decided tx
  bind := .bind

end Attempt

/-! ### Adding an entry -/

namespace Ledger

variable {config : EngineConfig} {r : EntryRequest} {xs : List Exchange}

theorem of_addEntry {result : Except LedgerError Entry}
    (exhibits : (addEntry config r).Exhibits xs (some result)) :
    (tryAdd config r).run.Exhibits xs (some result) := by
  rcases Program.Exhibits.of_bind exhibits with ⟨-, dropped⟩ | ⟨value, ys, zs, rfl, tried, last⟩
  · cases dropped
  · cases value <;>
      · cases last with
        | report rest =>
          obtain ⟨rfl, same⟩ := rest.of_done
          rw [List.append_nil, same _ rfl]
          exact tried

/-- An entry is added only by asking for it. -/
theorem adds_of_tryAdd {e : Entry} (exhibits : (tryAdd config r).run.Exhibits xs (some (.ok e))) :
    ∃ x ∈ xs, x.request.adds = true := by
  -- The checks, the search, its verdict and the transaction id, and then the transaction.
  obtain ⟨_, _, xs, rfl, -, exhibits⟩ := exhibits.of_bindOk
  obtain ⟨_, _, xs, rfl, -, exhibits⟩ := exhibits.of_bindOk
  obtain ⟨_, _, xs, rfl, -, exhibits⟩ := exhibits.of_bindOk
  obtain ⟨id, _, xs, rfl, -, exhibits⟩ := exhibits.of_bindOk
  obtain ⟨added, ys, xs, rfl, exhibits, -⟩ := exhibits.of_bindOk
  rcases Attempt.of_inTransaction exhibits with
    ⟨_, _, -, failed, -⟩ | ⟨tx, work, closing, staged, settled, rfl, first, last, succeeded⟩
  · cases failed
  · cases staged with
    | error early =>
      obtain ⟨error, rfl, -⟩ := Attempt.result_of_settle last
      cases succeeded
    | ok value =>
      obtain ⟨reads, writes, rfl, script⟩ := Staged.performs_stageAdd r id _ _ first
      obtain ⟨x, writes, rfl⟩ := List.exists_cons_of_ne_nil (script.written value rfl)
      obtain ⟨entry, adds, -⟩ := script.entryFirst x rfl
      exact ⟨x, by simp, by rw [adds]; rfl⟩

section

variable {σ : Type} {host : Host σ} {s : σ}

/-- A call that succeeds has asked for its entry to be added. -/
theorem exists_adds (taken : ((addEntry config r).run host s).1.isOk = true) :
    ∃ x ∈ (addEntry config r).record host s, x.request.adds = true := by
  have tried := of_addEntry (Program.exhibits_record host (addEntry config r) s)
  cases result : ((addEntry config r).run host s).1 with
  | error error =>
    rw [result] at taken
    cases taken
  | ok e =>
    rw [result] at tried
    exact adds_of_tryAdd tried

/-- A call that sends what a database refuses ends there with a failure of the backend. -/
theorem error_of_unstorable (reason : String)
    (sent : ∃ x ∈ (addEntry config r).record host s, ¬ (Sql.statement x.request).Storable) :
    ((addEntry config r).run (host.refusing reason) s).1 = .error (.store (.backend reason)) := by
  obtain ⟨x, member, refused, failed⟩ := Program.exists_refused reason sent
  -- Nothing can be refused that only ends a transaction.
  have plain (tx : TxId) : x.request ≠ .rollback tx := fun same =>
    refused (same ▸ Sql.storable_statement rfl nofun)
  have tried := of_addEntry (Program.exhibits_record (host.refusing reason) (addEntry config r) s)
  exact Attempt.composes_decided.tryAdd config r _ _ x reason tried member plain failed

end

/-- Of all that is sent for a new entry a database can refuse only the entry itself, and refuses it
exactly when a null character is in its description or metadata. Without one the call goes as it
does elsewhere; with one, a call that succeeds elsewhere ends with a failure of the backend. -/
theorem addEntry_refusing {σ : Type} (host : Host σ) (s : σ) (reason : String)
    (links : ∀ x ∈ (addEntry config r).record host s, x.LinkStorable) :
    (∀ x ∈ (addEntry config r).record host s,
      (Sql.statement x.request).Storable ↔ (x.request.adds = true → r.Storable)) ∧
    (r.Storable →
      (addEntry config r).run (host.refusing reason) s = (addEntry config r).run host s) ∧
    (¬ r.Storable → ((addEntry config r).run host s).1.isOk = true →
      ((addEntry config r).run (host.refusing reason) s).1 =
        .error (.store (.backend reason))) := by
  have tried := of_addEntry (Program.exhibits_record host (addEntry config r) s)
  have governs : ∀ x ∈ (addEntry config r).record host s, r.Governs x.request :=
    (sends_tryAdd config r).of_exhibits tried links
  refine ⟨governs, fun storable => ?_, fun unstorable taken => ?_⟩
  · exact Program.run_refusing fun x member => (governs x member).mpr fun _ => storable
  · obtain ⟨x, member, adds⟩ := exists_adds taken
    refine error_of_unstorable reason ⟨x, member, fun holds => ?_⟩
    exact unstorable ((governs x member).mp holds adds)

/-- A null character deep in the metadata of an account's second entry. -/
theorem addEntry_refusing_nested :
    let note := String.ofList ['a', Char.ofNat 0]
    let metadata := [("notes", Json.array [.object [("first", .string note)]])]
    let request (reference : String) (metadata : Json.Members) : EntryRequest :=
      ⟨"acme", "ann", .credit, ⟨10, by decide⟩, reference, "", metadata⟩
    let call (n : Nat) (r : EntryRequest) := Call.numbered n (.add r)
    let r := request "second" metadata
    let w : World := {
      source := (call 1 r).source
      memory := ((call 0 (request "first" [])).run {}).2 }
    (∀ x ∈ (addEntry default r).record World.host w, x.LinkStorable) ∧ ¬ r.Storable ∧
    ((addEntry default r).run World.host w).1.isOk = true ∧
    ((addEntry default r).run (World.host.refusing "unsupported") w).1 =
      .error (.store (.backend "unsupported")) := by
  intro note metadata request call r w
  have links : ∀ x ∈ (addEntry default r).record World.host w, x.LinkStorable := by decide +kernel
  have unstorable : ¬ r.Storable := by decide
  have taken : ((addEntry default r).run World.host w).1.isOk = true := by decide +kernel
  exact ⟨links, unstorable, taken,
    (addEntry_refusing World.host w "unsupported" links).2.2 unstorable taken⟩

/-- A description with a null character passes every check and is taken by a store in memory. On a
database that refuses the character the same request fails in the backend, as if trying again could
help. -/
theorem accepted_unstorable :
    let description := String.ofList ['a', Char.ofNat 0, 'b']
    let r : EntryRequest := ⟨"acme", "ann", .credit, ⟨10, by decide⟩, "first", description, []⟩
    let w : World := { source := (Call.numbered 0 (.add r)).source }
    let refused := LedgerError.store (.backend "unsupported")
    validateRequest r = .ok () ∧ ¬ Text.Storable r.description ∧
    ((addEntry default r).run World.host w).1.map Entry.description = .ok r.description ∧
    ((addEntry default r).run (World.host.refusing "unsupported") w).1 = .error refused ∧
    refused.kind = .internal ∧ refused.isRetryable = true := by
  intro description r w refused
  exact ⟨by decide +kernel, by decide, by decide +kernel, by decide +kernel, rfl, rfl⟩

end Ledger

end PointLedger

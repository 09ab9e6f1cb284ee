import PointLedger.Proofs.CallSteps
import PointLedger.Proofs.Delays

/-!
Calls one after the other. A call that runs alone on a store in which nothing misbehaves ends with
the result of `Books.apply` and leaves the books that it gives, and no transaction is left over. A
call whose requests come late, or whose lock someone holds, does the same or changes nothing.
-/

namespace PointLedger

/-- What the steps of a call come to between two points of its run, when nobody else does
anything. -/
def Effected (c : Call) (before after : Books) (g g' : Progress) : Prop :=
  (after = before ∧ g'.outcome = g.outcome) ∨
    ∃ result, g.outcome = none ∧ g'.outcome = some result ∧ before.apply c = (result, after)

theorem Effect.effected {c : Call} {before after : Memory} {g g' : Progress}
    (effect : Effect c before after g g') : Effected c before.books after.books g g' := by
  cases effect with
  | silent books outcome => exact .inl ⟨books, outcome⟩
  | decided result pending outcome applied => exact .inr ⟨result, pending, outcome, applied⟩

theorem Effected.trans {c : Call} {b₁ b₂ b₃ : Books} {g₁ g₂ g₃ : Progress}
    (first : Effected c b₁ b₂ g₁ g₂) (second : Effected c b₂ b₃ g₂ g₃) :
    Effected c b₁ b₃ g₁ g₃ := by
  rcases first with ⟨rfl, same⟩ | ⟨result, pending, decided, applied⟩
  · rcases second with ⟨rfl, kept⟩ | ⟨result, pending, decided, applied⟩
    · exact .inl ⟨rfl, kept.trans same⟩
    · exact .inr ⟨result, same ▸ pending, decided, applied⟩
  · rcases second with ⟨rfl, kept⟩ | ⟨result', open_, -⟩
    · exact .inr ⟨result, pending, kept.trans decided, applied⟩
    · rw [decided] at open_
      cases open_

/-- The world of a call that nobody disturbs: what it gives out is what the call draws. With
`overdue` it may delay requests, and others may hold transactions while the call runs. -/
structure Alone (c : Call) (overdue : Prop) (w : World) (d : Draws) (g : Progress) : Prop where
  clock : ∀ k, w.source.clock (w.clockReads + k) = c.source.clock (d.clock + k)
  fresh : ∀ k, w.source.fresh (w.freshDraws + k) = c.source.fresh (d.fresh + k)
  random : ∀ k, w.source.random (w.randomDraws + k) = c.source.random (d.random + k)
  late : FaultRule.OnlyDelay w.faults
  punctual : ¬overdue → w.faults = []
  wellFormed : w.memory.WellFormed
  live : ∀ tx t, w.memory.tx? tx = some t → g.tx = some tx ∨ overdue

namespace Alone

variable {c : Call} {overdue : Prop} {w : World} {d : Draws} {g : Progress}

/-- The store answers every request of a call that is all alone. -/
theorem answers (alone : Alone c overdue w d g) (onTime : ¬overdue) (request : Request) :
    ∃ answer after, w.memory.perform request = (some answer, after) := by
  have single : ∀ tx t, w.memory.tx? tx = some t → tx = g.tx.getD ⟨0⟩ := by
    intro tx t held
    rw [(alone.live tx t held).resolve_right onTime]
    rfl
  exact Memory.perform_answers single request

/-- The call is still alone when time has passed and the store has changed. -/
theorem after (alone : Alone c overdue w d g) {faults : List FaultRule} {now : Nat}
    {after : Memory} {g' : Progress}
    (kept : ∀ rule ∈ faults, ∃ rule' ∈ w.faults, rule'.act = rule.act) (wf : after.WellFormed)
    (live : ∀ tx t, after.tx? tx = some t → g'.tx = some tx ∨ overdue) :
    Alone c overdue { w with faults := faults, now := now, memory := after } d g' where
  clock := alone.clock
  fresh := alone.fresh
  random := alone.random
  late rule member := by
    obtain ⟨rule', old, act⟩ := kept rule member
    exact act ▸ alone.late rule' old
  punctual onTime := by
    refine List.eq_nil_iff_forall_not_mem.mpr fun rule member => ?_
    obtain ⟨rule', old, -⟩ := kept rule member
    rw [alone.punctual onTime] at old
    cases old
  wellFormed := wf
  live := live

/-- After a step of the call only it and those who were there before hold transactions. -/
theorem moved (alone : Alone c overdue w d g) {after : Memory} {g' : Progress}
    (moves : Moves c w.memory after g g') (tx : TxId) (t : Transaction)
    (held : after.tx? tx = some t) : g'.tx = some tx ∨ overdue := by
  rcases moves.live tx t held with own | ⟨foreign, old⟩
  · exact .inl own
  · exact .inr ((alone.live tx t old).resolve_left foreign)

end Alone

/-- The run of a program that nobody disturbs. -/
theorem Program.Ensures.run {α : Type} {c : Call} {overdue : Prop} {program : Program α}
    {post : α → Draws → Memory → Progress → Prop} {d : Draws} {g : Progress} {w : World}
    (ensured : program.Ensures c overdue post d w.memory g) (quiet : overdue → program.Quiet)
    (alone : Alone c overdue w d g) :
    ∃ d' g', Alone c overdue (w.run program).2 d' g' ∧
      post (w.run program).1 d' (w.run program).2.memory g' ∧
      Effected c w.memory.books (w.run program).2.memory.books g g' := by
  induction program generalizing d g w with
  | done value => exact ⟨d, g, alone, ensured _ (.refl c g.tx _), .inl ⟨rfl, rfl⟩⟩
  | ask request next ih =>
    have answers : ∃ answer after, w.memory.perform request = (some answer, after) := by
      by_cases late : overdue
      · exact w.memory.perform_answers_of_not_isLock (quiet late).1
      · exact alone.answers late request
    obtain ⟨answer, after, ran⟩ := answers
    obtain ⟨g', moves, rest⟩ := ensured _ alone.wellFormed (.refl c g.tx _) answer after ran
    obtain ⟨faults, now, kept, answered⟩ := World.answer_of_onlyDelay alone.late ran
    have alone' : Alone c overdue { w with faults := faults, now := now, memory := after } d g' :=
      alone.after kept ((Memory.perform_changes ran).wellFormed alone.wellFormed)
        (alone.moved moves)
    obtain ⟨d', g'', alone'', reached, effected⟩ :=
      ih answer rest (fun late => (quiet late).2 answer) alone'
    rw [World.run_ask, answered]
    exact ⟨d', g'', alone'', reached, moves.effect.effected.trans effected⟩
  | askInTime request next ih =>
    obtain ⟨answered, expired⟩ := ensured _ alone.wellFormed (.refl c g.tx _)
    obtain ⟨faults, now, kept, ⟨answer, after, ran, heard⟩ |
      ⟨reason, memory, unanswered, heard⟩⟩ := World.answerInTime_of_onlyDelay alone.late request
    · obtain ⟨g', moves, rest⟩ := answered answer after ran
      have alone' : Alone c overdue { w with faults := faults, now := now, memory := after } d g' :=
        alone.after kept ((Memory.perform_changes ran).wellFormed alone.wellFormed)
          (alone.moved moves)
      obtain ⟨d', g'', alone'', reached, effected⟩ :=
        ih (some answer) rest (fun late => quiet late (some answer)) alone'
      rw [World.run_askInTime, heard]
      exact ⟨d', g'', alone'', reached, moves.effect.effected.trans effected⟩
    · -- Only where requests may be overdue does this one stay without an answer.
      have late : overdue := by
        by_contra onTime
        rcases reason with delayed | waiting
        · exact delayed (alone.punctual onTime)
        · obtain ⟨answer, after, ran⟩ := alone.answers onTime request
          rw [ran] at waiting
          cases waiting
      have same : memory.books = w.memory.books ∧ memory.live = w.memory.live := by
        rcases unanswered with rfl | ran
        · exact ⟨rfl, rfl⟩
        · exact Memory.perform_unanswered ran
      have wf : memory.WellFormed := by
        rcases unanswered with rfl | ran
        · exact alone.wellFormed
        · exact (Memory.perform_changes ran).wellFormed alone.wellFormed
      have alone' : Alone c overdue { w with faults := faults, now := now, memory := memory } d g :=
        alone.after kept wf fun _ _ _ => .inr late
      have rest : (next none).Ensures c overdue post d memory g :=
        (expired late).undisturbed (.of_same same.1 same.2)
      obtain ⟨d', g'', alone'', reached, effected⟩ :=
        ih none rest (fun late => quiet late none) alone'
      rw [same.1] at effected
      rw [World.run_askInTime, heard]
      exact ⟨d', g'', alone'', reached, effected⟩
  | startTimer limit next ih =>
    have alone' : Alone c overdue (w.startTimer limit) d g := { alone with }
    exact ih ensured quiet alone'
  | clock next ih =>
    have alone' : Alone c overdue w.clock.2 { d with clock := d.clock + 1 } g :=
      { alone with clock := fun k => by simpa [Nat.add_assoc, World.clock] using alone.clock (1 + k) }
    refine ih _ ?_ (fun late => quiet late _) alone'
    have drawn : w.source.clock w.clockReads = c.source.clock d.clock := alone.clock 0
    rw [drawn]
    exact ensured
  | fresh next ih =>
    have alone' : Alone c overdue w.fresh.2 { d with fresh := d.fresh + 1 } g :=
      { alone with fresh := fun k => by simpa [Nat.add_assoc, World.fresh] using alone.fresh (1 + k) }
    refine ih _ ?_ (fun late => quiet late _) alone'
    have drawn : w.source.fresh w.freshDraws = c.source.fresh d.fresh := alone.fresh 0
    rw [drawn]
    exact ensured
  | random next ih =>
    have alone' : Alone c overdue w.random.2 { d with random := d.random + 1 } g :=
      { alone with
        random := fun k => by simpa [Nat.add_assoc, World.random] using alone.random (1 + k) }
    refine ih _ ?_ (fun late => quiet late _) alone'
    have drawn : w.source.random w.randomDraws = c.source.random d.random := alone.random 0
    rw [drawn]
    exact ensured
  | report signal next ih =>
    obtain ⟨g', moves, rest⟩ := ensured _ alone.wellFormed (.refl c g.tx _)
    have rest' : next.Ensures c overdue post d (w.report signal).memory g' := rest
    have alone' : Alone c overdue (w.report signal) d g' :=
      { alone with live := alone.moved moves }
    obtain ⟨d', g'', alone'', reached, effected⟩ := ih rest' (fun late => (quiet late).2) alone'
    exact ⟨d', g'', alone'', reached, moves.effect.effected.trans effected⟩

/-- A store at rest: no transaction is live. -/
structure Memory.AtRest (m : Memory) : Prop where
  idle : m.live = []
  wellFormed : m.WellFormed

theorem Memory.atRest_empty : Memory.AtRest {} where
  idle := rfl
  wellFormed := ⟨fun _ _ held => (by cases held), fun _ _ _ _ held => (by cases held)⟩

/-- A call that runs alone does what it does on the books at once. -/
theorem Call.run_eq_apply (c : Call) {m : Memory} (rest : m.AtRest) :
    (c.run m).1 = (m.books.apply c).1 ∧ (c.run m).2.books = (m.books.apply c).2 ∧
      (c.run m).2.AtRest := by
  let w : World := { source := c.source, memory := m }
  have alone : Alone c False w {} {} :=
    ⟨fun _ => rfl, fun _ => rfl, fun _ => rfl, nofun, fun _ => rfl, rest.wellFormed, fun tx t held => by
      rw [Memory.tx?, rest.idle] at held
      cases held⟩
  obtain ⟨d, g, alone', ⟨released, ended⟩, effected⟩ :=
    (c.ensures_program False m).run False.elim alone
  have decided : g.outcome = some (w.run c.program).1 := by
    rcases ended with decided | ⟨late, -⟩
    · exact decided
    · exact late.elim
  rcases effected with ⟨-, pending⟩ | ⟨result, -, outcome, applied⟩
  · rw [decided] at pending
    cases pending
  · obtain rfl : result = (w.run c.program).1 := Option.some.inj (outcome.symm.trans decided)
    refine ⟨(congrArg Prod.fst applied).symm, (congrArg Prod.snd applied).symm, ?_,
      alone'.wellFormed⟩
    refine List.eq_nil_iff_forall_not_mem.mpr fun row member => ?_
    obtain ⟨t, held⟩ := Memory.exists_tx?_of_mem_live member
    have own := (alone'.live row.1 t held).resolve_right id
    rw [released] at own
    cases own

/-- Serving calls one after the other is posting them one after the other. -/
theorem Memory.serve_eq_applyAll {m : Memory} (rest : m.AtRest) (calls : List Call) :
    (m.serve calls).1 = (m.books.applyAll calls).1 ∧
      (m.serve calls).2.books = (m.books.applyAll calls).2 ∧ (m.serve calls).2.AtRest := by
  induction calls generalizing m with
  | nil => exact ⟨rfl, rfl, rest⟩
  | cons c calls ih =>
    obtain ⟨result, books, rest'⟩ := c.run_eq_apply rest
    obtain ⟨results, books', rest''⟩ := ih rest'
    rw [books] at results books'
    refine ⟨?_, books', rest''⟩
    simp only [serve, Books.applyAll]
    rw [result, results]

end PointLedger

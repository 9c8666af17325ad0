import RemoteControl.Theory.OwnCalls

/-!
# A Row That Is Not There

A call that names a row which is not the caller's. Every such call looks for
the row first, by its identifier and its owner together, and that look finds
nothing. It is then answered that there is no such row, whether the identifier
is that of another owner's row or of none (`misses_ends`).

Nothing holds the call up on the way there. A lock does not wait for a row it
does not select, so not even another call that is at work on the row can be
told from the answer.

## Main definitions

* `Declines`: A run alone that ends with an error and has changed no row.

## Theorems

* `Declines.transaction`: An error passes through the rollback.
* `misses_ends`: A call that misses its row.
* `declines_findRequest`, `declines_findSession`, `declines_lockRequest`,
  `declines_lockSession`: A look that finds nothing.
-/

namespace RemoteControl

open Concurrency

variable {throws : CallId → Emitter → Bool} {c : CallId} {env : Env} {w : World}
  {e : HttpException} {α β : Type}

/-- Run alone, the program ends with the error, and no row has changed. -/
def Declines (throws : CallId → Emitter → Bool) (c : CallId) (env : Env) (e : HttpException)
    (p : Service α) (w : World) : Prop :=
  ∃ w', p.runAlone (exec throws c env) w = some (.error e, w') ∧ w'.tables = w.tables

/-! ## Programs that decline -/

/-- To throw changes nothing. -/
theorem Declines.throw : Declines throws c env e (.throw e : Service α) w := ⟨w, rfl, rfl⟩

/-- A program that has declined does not come to what follows it. -/
theorem Declines.bind {p : Service α} {k : α → Service β} (h : Declines throws c env e p w) :
    Declines throws c env e (p.bind k) w := by
  rcases h with ⟨w', hrun, htables⟩
  refine ⟨w', ?_, htables⟩
  rw [Prog.runAlone_bind, hrun]

/-- A step that changes no row, before a program that declines. -/
theorem Declines.after {p q : Service α} {w₁ : World} (h : Declines throws c env e q w₁)
    (htables : w₁.tables = w.tables)
    (hrun : p.runAlone (exec throws c env) w = q.runAlone (exec throws c env) w₁) :
    Declines throws c env e p w := by
  rcases h with ⟨w', hrun', htables'⟩
  exact ⟨w', hrun.trans hrun', htables'.trans htables⟩

/-- A statement that changes no row, before a program that declines. -/
theorem declines_statement {o : Op} {k : Resp o → Service α} (r : Resp o) (w₁ : World)
    (hx : exec throws c env o w = some (r, w₁)) (htables : w₁.tables = w.tables)
    (h : Declines throws c env e (k r) w₁) :
    Declines throws c env e ((statement o).bind k) w := by
  refine h.after htables ?_
  simp only [statement, Prog.await_bind, Prog.op_bind, Prog.ret_bind, Prog.runAlone, hx]

/-- The clock is no row. -/
theorem declines_newDate {k : Timestamp → Service α}
    (h : ∀ (t : Timestamp) (w₁ : World), w₁.requests = w.requests → w₁.sessions = w.sessions →
      Declines throws c env e (k t) w₁) :
    Declines throws c env e (newDate.bind k) w := by
  have hlater := h (w.clock + env.tick)
    ({ w with clock := w.clock + env.tick }.record c (.ran .now)) rfl rfl
  exact hlater.after rfl rfl

/-- The error of a transaction's body is the error of the transaction. -/
theorem Declines.transaction {body : Service α}
    (h : ∀ w₁ : World, w₁.requests = w.requests → w₁.sessions = w.sessions →
      Declines throws c env e body w₁) :
    Declines throws c env e (transaction body) w := by
  refine declines_statement () (w.record c (.ran .begin)) rfl rfl (.bind ?_)
  rcases h (w.record c (.ran .begin)) rfl rfl with ⟨w', hrun, htables⟩
  -- What the rollback takes back has not been committed.
  refine ⟨((w'.setRequests (w'.requests.rollback c)).setSessions (w'.sessions.rollback c)).record c
    (.ran .rollback), ?_, ?_⟩
  · rw [Prog.runAlone_onError, hrun]
    rfl
  · rw [← htables]
    simp only [World.tables, World.record, World.setRequests, World.setSessions,
      Table.rollback_committed]

/-! ## Rows that are not there -/

/-- The request is looked for by its identifier and its owner together. -/
theorem declines_findRequest {id : Uuid} {owner : Owner} {k : LoadedSupportRequest → Service α}
    (h : ∀ r, w.tables.requests id = some r → owner.ofRequest r = false) :
    Declines throws c env e
      (((statement (.findRequest id owner)).bind (fun found => orFail found e)).bind k) w := by
  -- The answer is nothing, and the error follows.
  refine .bind (declines_statement none (w.record c (.ran (.findRequest id owner))) ?_ rfl
    .throw)
  have hnone : w.requests.select none id owner.ofRequest = none := by
    rw [Table.select_eq_none, Table.auto_view]
    exact h
  simp only [exec, hnone]
  rfl

/-- Likewise the session. -/
theorem declines_findSession {id : Uuid} {owner : Owner} {k : LoadedRemoteSession → Service α}
    (h : ∀ s, w.tables.sessions id = some s → owner.ofSession s = false) :
    Declines throws c env e
      (((statement (.findSession id owner)).bind (fun found => orFail found e)).bind k) w := by
  refine .bind (declines_statement none (w.record c (.ran (.findSession id owner))) ?_ rfl
    .throw)
  have hnone : w.sessions.select none id owner.ofSession = none := by
    rw [Table.select_eq_none, Table.auto_view]
    exact h
  simp only [exec, hnone]
  rfl

/-- A row that is not selected is not waited for. -/
theorem declines_lockRequest {id : Uuid} {owner : Owner} {k : SupportRequest → Service α}
    (hholds : w.requests.Holds c none)
    (h : ∀ r, w.tables.requests id = some r → owner.ofRequest r = false) :
    Declines throws c env e
      (((statement (.lockRequest id owner)).bind (fun found => orFail found e)).bind k) w := by
  refine .bind (declines_statement none (w.record c (.ran (.lockRequest id owner))) ?_ rfl
    .throw)
  have hnone : w.requests.select (some c) id owner.ofRequest = none := by
    rw [Table.select_eq_none, Table.holds_none_view hholds]
    exact h
  simp only [exec, Table.selectForUpdate, hnone]
  rfl

/-- Likewise for the session. -/
theorem declines_lockSession {id : Uuid} {owner : Owner} {k : RemoteSession → Service α}
    (hholds : w.sessions.Holds c none)
    (h : ∀ s, w.tables.sessions id = some s → owner.ofSession s = false) :
    Declines throws c env e
      (((statement (.lockSession id owner)).bind (fun found => orFail found e)).bind k) w := by
  refine .bind (declines_statement none (w.record c (.ran (.lockSession id owner))) ?_ rfl
    .throw)
  have hnone : w.sessions.select (some c) id owner.ofSession = none := by
    rw [Table.select_eq_none, Table.holds_none_view hholds]
    exact h
  simp only [exec, Table.selectForUpdate, hnone]
  rfl

/-! ## Calls that miss their row -/

/-- A row that is not among the owner's is not the owner's. -/
theorem not_own_request {owner : Owner} {id : Uuid}
    (h : (w.ownRows env owner).requests id = none) (r : SupportRequest)
    (hr : w.tables.requests id = some r) : owner.ofRequest r = false := by
  by_contra ho
  rw [Bool.not_eq_false] at ho
  rw [ownRows_request hr ho] at h
  simp only [reduceCtorEq] at h

/-- Likewise for the sessions. -/
theorem not_own_session {owner : Owner} {id : Uuid}
    (h : (w.ownRows env owner).sessions id = none) (s : RemoteSession)
    (hs : w.tables.sessions id = some s) : owner.ofSession s = false := by
  by_contra ho
  rw [Bool.not_eq_false] at ho
  rw [ownRows_session hs ho] at h
  simp only [reduceCtorEq] at h

/-- A call that misses its row is answered so at once, and changes nothing. -/
theorem misses_ends (hr : w.requests.Holds c none) (hs : w.sessions.Holds c none)
    {call : OwnerCall} (h : call.Misses (w.ownRows env call.owner) e) :
    Declines throws c env e call.body w := by
  -- Whatever has happened up to the look, the rows are the same.
  have hrequests : ∀ {w₁ : World}, w₁.requests = w.requests → w₁.requests.Holds c none := by
    rintro w₁ heq
    rw [heq]
    exact hr
  have hsessions : ∀ {w₁ : World}, w₁.sessions = w.sessions → w₁.sessions.Holds c none := by
    rintro w₁ heq
    rw [heq]
    exact hs
  have hnone : ∀ {w₁ : World} {owner : Owner} {id : Uuid}, w₁.requests = w.requests →
      (w.ownRows env owner).requests id = none →
      ∀ r, w₁.tables.requests id = some r → owner.ofRequest r = false := by
    intro w₁ owner id heq hno r hr'
    refine not_own_request hno r ?_
    simpa only [World.tables, heq] using hr'
  have hnone' : ∀ {w₁ : World} {owner : Owner} {id : Uuid}, w₁.sessions = w.sessions →
      (w.ownRows env owner).sessions id = none →
      ∀ s, w₁.tables.sessions id = some s → owner.ofSession s = false := by
    intro w₁ owner id heq hno s hs'
    refine not_own_session hno s ?_
    simpa only [World.tables, heq] using hs'
  cases call with
  | createForDevice device => exact h.elim
  | currentRequestOfDevice device => exact h.elim
  | acceptByDevice id device =>
      rcases h with ⟨hno, rfl⟩
      exact .bind (declines_newDate (fun t w₁ hreq _ => declines_findRequest (hnone hreq hno)))
  | rejectByDevice id device =>
      rcases h with ⟨hno, rfl⟩
      exact .bind (declines_newDate (fun t w₁ hreq _ => declines_findRequest (hnone hreq hno)))
  | cancelByDevice id device =>
      rcases h with ⟨hno, rfl⟩
      exact .bind (.bind (.transaction (fun w₁ hreq _ =>
        declines_lockRequest (hrequests hreq) (hnone hreq hno))))
  | currentSessionOfDevice device => exact h.elim
  | closeByDevice id device =>
      rcases h with ⟨hno, rfl⟩
      exact .bind (declines_findSession (hnone' rfl hno))
  | create id user =>
      rcases h with ⟨hno, rfl⟩
      exact .bind (.bind (.transaction (fun w₁ hreq _ =>
        declines_lockRequest (hrequests hreq) (hnone hreq hno))))
  | currentSessionOfTechnician user => exact h.elim
  | findOneForTechnician id user =>
      rcases h with ⟨hno, rfl⟩
      exact .bind (declines_findSession (hnone' rfl hno))
  | activateByTechnician id user =>
      rcases h with ⟨hno, rfl⟩
      exact .bind (.bind (.transaction (fun w₁ _ hses =>
        declines_lockSession (hsessions hses) (hnone' hses hno))))
  | closeByTechnician id user =>
      rcases h with ⟨hno, rfl⟩
      exact .bind (declines_findSession (hnone' rfl hno))

end RemoteControl

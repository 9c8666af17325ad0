import RemoteControl.Concurrency.Waiting
import RemoteControl.Theory.Runs

/-!
# No Deadlocks

The lifecycle calls take rows of two tables, and not all in the same order: an
opening holds the request and then inserts a session, while a closure holds
the session and then wants the request. Yet they never wait in a circle.

What a call holds when it has to wait decides what it can be waiting for. Most
calls hold nothing while they wait, so nobody waits for them. The two that do
are an opening at its insertion and a closure at the request of its session.
The closure cannot be waiting for an opening: the request it wants has a
session already, and an opening of that request would have found it. And what
an insertion waits for has written a session, so it is past its own insertion.
So every wait is one step down from the calls that hold nothing, by way of the
openings, to the closures and the calls that do not wait
(`waitsFor_wellFounded`).

That a call which waits holds nothing else is read off the assertion that its
thread stands at (`waits_holding`). What the rules of `Theory.Operations`
demand of a state before a statement is sent holds through the wait, and it
says what the call has in hand then.

The other half is about being stuck. An operation that has no answer is
blocked by somebody (`blocks_of_none`), if the identifier of a new row is a
new one. All other operations are answered at once, and a call stands at one
of these only within a turn (`IsPrompt`). So a call that cannot take its turn
waits for another call.

## Main definitions

* `Blocks`, `WaitsFor`: The wait-for graph of the calls.
* `Inserting`, `Completing`: The calls that hold a row while they wait.
* `Op.IsAtOnce`, `IsPrompt`: What is answered at once, and programs that wait
  for the database only.
* `Env.Fresh`: The identifier for a new row is a new one.
* `Holding`: The call holds a row.

## Theorems

* `no_deadlock`: The graph has no cycle.
* `goes_on`: Every call waits for one that can take its turn.
* `waits_holding`, `completing_waits`, `inserting_waits`: What a call that
  holds a row can wait for.
* `waitsFor_wellFounded`: The waits lead down.
* `blocks_of_none`, `waits_of_stuck`: An operation without an answer waits for
  somebody.
* `body_prompt`, `handle_prompt`: The methods wait for the database only.
-/

namespace RemoteControl

open Concurrency

variable {calls : CallId → Operation} {throws : CallId → Emitter → Bool} {sys : Calls}
  {c d : CallId}

/-- What the operation needs is in the hands of call `d`: the row it locks or
    writes, or one that clashes with the row it inserts. -/
def Blocks (c : CallId) (o : Op) (w : World) (d : CallId) : Prop :=
  match o with
  | .lockRequest id _ => w.requests.LockedBy (some c) id d
  | .updateRequest m id _ _ => w.requests.LockedBy (m.actor c) id d
  | .insertRequest draft => ∃ id createdAt,
      w.requests.ClashesWith supportRequestIndexes none (draft.toRow id createdAt) d
  | .lockSession id _ => w.sessions.LockedBy (some c) id d
  | .updateSession id _ _ => w.sessions.LockedBy (some c) id d
  | .insertSession draft => ∃ id createdAt,
      w.sessions.ClashesWith remoteSessionIndexes (some c) (draft.toRow id createdAt) d
  | _ => False

/-- The call waits for call `d` to finish. -/
abbrev WaitsFor (sys : Calls) (c d : CallId) : Prop := sys.WaitsFor Blocks c d

/-- The call holds a row. -/
def Holding (w : World) (c : CallId) : Prop :=
  (∃ k, (w.requests.row k).HeldBy c) ∨ ∃ k, (w.sessions.row k).HeldBy c

/-- The grip of a call says that it holds nothing. -/
theorem not_holding {w : World} (hr : w.requests.Holds c none) (hs : w.sessions.Holds c none) :
    ¬ Holding w c := by
  rintro (⟨k, hk⟩ | ⟨k, hk⟩)
  · exact hr k hk
  · exact hs k hk

/-- What is in the way is a version that somebody has in hand. -/
theorem Blocks.holding {o : Op} {w : World} (h : Blocks c o w d) : Holding w d := by
  cases o with
  | lockRequest id owner => exact .inl h.held
  | updateRequest m id source changes => exact .inl h.held
  | insertRequest draft =>
      rcases h with ⟨id, createdAt, hclash⟩
      exact .inl hclash.held
  | lockSession id owner => exact .inr h.held
  | updateSession id source changes => exact .inr h.held
  | insertSession draft =>
      rcases h with ⟨id, createdAt, hclash⟩
      exact .inr hclash.held
  | _ => exact h.elim

/-- What a waiting call waits for holds a row. -/
theorem waitsFor_holding (h : WaitsFor sys c d) : Holding sys.shared d := by
  rcases h with ⟨o, k, _, hblocks⟩
  exact hblocks.holding

/-! ## The calls that hold a row while they wait -/

/-- The call is about to insert a session. -/
def Inserting (sys : Calls) (c : CallId) : Prop :=
  ∃ draft k, sys.threads c = .await (.op (.insertSession draft) k)

/-- The call holds a session that is live, and is about to update its
    request. -/
def Completing (sys : Calls) (c : CallId) : Prop :=
  ∃ m id source changes k, sys.threads c = .await (.op (.updateRequest m id source changes) k) ∧
    sys.shared.requests.Holds c none ∧
    ∃ x s, sys.shared.tables.sessions x = some s ∧ s.supportRequestId = id

/-- A call that holds the one row it wants does not wait for it. -/
theorem not_lockedBy_of_holds {K V : Type} [DecidableEq K] {t : Table K V CallId} {h : Hold K V}
    (hh : t.Holds c (some h)) : ¬ t.LockedBy (some c) h.key d := by
  rintro ⟨hne, u, hu⟩
  rw [hh.1] at hu
  simp only [Option.some.injEq, Prod.mk.injEq] at hu
  exact hne (by rw [hu.1])

/-- A call that waits and holds a row is an opening or a closure. -/
theorem waits_holding (h : Reachable calls throws sys) (hwait : WaitsFor sys c d)
    (hheld : Holding sys.shared c) : Inserting sys c ∨ Completing sys c := by
  rcases hwait with ⟨o, k, hthread, hblocks⟩
  have hissue := h.sound.issued hthread
  cases o with
  -- A call that has to lock or to insert a request holds nothing yet.
  | lockRequest id owner => exact (not_holding hissue.1 hissue.2 hheld).elim
  | lockSession id owner => exact (not_holding hissue.1 hissue.2 hheld).elim
  | insertRequest draft => exact (not_holding hissue.1 hissue.2 hheld).elim
  | insertSession draft => exact .inl ⟨draft, k, hthread⟩
  | updateSession id source changes =>
      rcases hissue with ⟨hr, hs | ⟨hold, hs, hkey⟩⟩
      · exact (not_holding hr hs hheld).elim
      · -- The session is its own.
        unfold Blocks at hblocks
        rw [← hkey] at hblocks
        exact (not_lockedBy_of_holds hs hblocks).elim
  | updateRequest m id source changes =>
      -- It holds nothing, or this very request, or the session that it is closing.
      rcases hissue with ⟨hr, hs⟩ | ⟨hm, hold, hr, hkey⟩ | ⟨hr, hold, s, hs, hcommitted, _, hid⟩
      · exact (not_holding hr hs hheld).elim
      · unfold Blocks at hblocks
        rw [hm, ← hkey] at hblocks
        exact (not_lockedBy_of_holds hr hblocks).elim
      · refine .inr ⟨m, id, source, changes, k, hthread, hr, hold.key, s, ?_, hid⟩
        simp only [World.tables, Table.committed, hs.1]
        exact hcommitted
  | _ => exact hblocks.elim

/-- A closure waits for a call that does not wait. -/
theorem completing_waits (h : Reachable calls throws sys) (hc : Completing sys c)
    (hwait : WaitsFor sys c d) : ∀ e, ¬ WaitsFor sys d e := by
  intro e hnext
  rcases hc with ⟨m, id, source, changes, k, hthread, _, x, s, hrow, hid⟩
  rcases hwait with ⟨o, k', hthread', hblocks⟩
  rw [hthread] at hthread'
  cases hthread'
  have hlocked : (sys.shared.requests.row id).HeldBy d := hblocks.2
  rcases waits_holding h hnext (.inl ⟨id, hlocked⟩) with
    ⟨draft, k'', hinsert⟩ | ⟨_, _, _, _, _, _, hnone, _⟩
  · -- The request has a session, so nobody is opening one for it.
    rcases h.sound.issued hinsert with ⟨_, ⟨hold, hr, hkey⟩, hfresh⟩
    have hsame : id = hold.key := by
      by_contra hne
      exact hr.2 id hne hlocked
    refine hfresh x s hrow ?_
    rw [hid, hsame, hkey]
  · exact hnone id hlocked

/-- An opening waits for a closure, or for a call that does not wait. -/
theorem inserting_waits (h : Reachable calls throws sys) (hc : Inserting sys c)
    (hwait : WaitsFor sys c d) {e : CallId} (hnext : WaitsFor sys d e) : Completing sys d := by
  rcases hc with ⟨draft, k, hthread⟩
  rcases hwait with ⟨o, k', hthread', hblocks⟩
  rw [hthread] at hthread'
  cases hthread'
  rcases hblocks with ⟨id, createdAt, hclash⟩
  rcases hclash.held with ⟨x, hx⟩
  rcases waits_holding h hnext (.inr ⟨x, hx⟩) with ⟨draft', k', hinsert⟩ | hcompleting
  · exact ((h.sound.issued hinsert).1 x hx).elim
  · exact hcompleting

/-! ## The graph -/

/-- Whoever waits for nobody is at the bottom. -/
theorem acc_of_idle (hidle : ∀ e, ¬ WaitsFor sys d e) : Acc (fun d c => WaitsFor sys c d) d :=
  ⟨d, fun e he => (hidle e he).elim⟩

/-- A closure is one step above that. -/
theorem acc_of_completing (h : Reachable calls throws sys) (hc : Completing sys c) :
    Acc (fun d c => WaitsFor sys c d) c :=
  ⟨c, fun _ hwait => acc_of_idle (completing_waits h hc hwait)⟩

/-- An opening is one step above the closures. -/
theorem acc_of_inserting (h : Reachable calls throws sys) (hc : Inserting sys c) :
    Acc (fun d c => WaitsFor sys c d) c := by
  refine ⟨c, fun d hwait => ?_⟩
  -- What it waits for waits itself, or does not.
  by_cases hnext : ∃ e, WaitsFor sys d e
  · rcases hnext with ⟨e, he⟩
    exact acc_of_completing h (inserting_waits h hc hwait he)
  · exact acc_of_idle (fun e he => hnext ⟨e, he⟩)

/-- The waits lead down. -/
theorem waitsFor_wellFounded (h : Reachable calls throws sys) :
    WellFounded (fun d c => WaitsFor sys c d) := by
  refine ⟨fun c => ⟨c, fun d hwait => ?_⟩⟩
  by_cases hnext : ∃ e, WaitsFor sys d e
  · rcases hnext with ⟨e, he⟩
    rcases waits_holding h he (waitsFor_holding hwait) with hinserting | hcompleting
    · exact acc_of_inserting h hinserting
    · exact acc_of_completing h hcompleting
  · exact acc_of_idle (fun e he => hnext ⟨e, he⟩)

/-- No call waits, by way of others, for itself. -/
theorem no_deadlock (h : Reachable calls throws sys) (c : CallId) :
    ¬ Relation.TransGen (WaitsFor sys) c c :=
  not_cycle (waitsFor_wellFounded h) c

/-! ## Going on -/

/-- What is answered at once. -/
def Op.IsAtOnce : Op → Prop
  | .enter => True
  | .leave => True
  | .now => True
  | .isOnline _ => True
  | .emit _ => True
  | _ => False

/-- The program waits for the database, and for nothing else. -/
abbrev IsPrompt {α : Type} (p : Service α) : Prop := p.PromptFrom Op.IsAtOnce false

section Programs

variable {α : Type}

/-- A statement waits, and then goes on in the next turn. -/
theorem statement_prompt (o : Op) : IsPrompt (statement o) := ⟨.inl rfl, fun _ => trivial⟩

/-- What is answered at once does not. -/
theorem ask_prompt {o : Op} (ho : o.IsAtOnce) : IsPrompt (ask o) := ⟨.inr ho, fun _ => trivial⟩

/-- A check asks for nothing. -/
theorem throwIf_prompt (reason : Bool) (e : HttpException) : IsPrompt (throwIf reason e) := by
  cases reason <;> trivial

/-- Nor does the check of a result. -/
theorem orFail_prompt (found : Option α) (e : HttpException) : IsPrompt (orFail found e) := by
  cases found <;> trivial

/-- Three statements around a program. -/
theorem transaction_prompt {body : Service α} (h : IsPrompt body) :
    IsPrompt (transaction body) := by
  refine .bind (statement_prompt .begin) (fun _ => .bind (.onError h (fun e => ?_)) (fun a => ?_))
  · exact .bind (statement_prompt .rollback) (fun _ => trivial)
  · exact .bind (statement_prompt .commit) (fun _ => trivial)

/-- An emission is answered at once. -/
theorem emit_prompt (e : Emission) : IsPrompt (emit e) :=
  .bind (ask_prompt trivial) (fun threw => throwIf_prompt threw _)

/-- And so is one that is caught. -/
theorem logErrors_prompt {body : Service Unit} (h : IsPrompt body) : IsPrompt (logErrors body) :=
  .onError h (fun _ => trivial)

namespace SupportRequestsService

/-- One statement. -/
theorem findByIdOrFail_prompt (id : Uuid) : IsPrompt (findByIdOrFail id) :=
  .bind (statement_prompt _) (fun _ => orFail_prompt _ _)

/-- An emission, if there is a technician. -/
theorem notifyTechnicianUpdated_prompt (r : LoadedSupportRequest) :
    IsPrompt (notifyTechnicianUpdated r) := by
  unfold notifyTechnicianUpdated
  split
  · trivial
  · exact logErrors_prompt (emit_prompt _)

/-- An emission. -/
theorem notifyQueueUpdated_prompt (r : LoadedSupportRequest) :
    IsPrompt (notifyQueueUpdated r) := logErrors_prompt (emit_prompt _)

/-- The insertion is a statement. -/
theorem createForDevice_prompt (device : Device) : IsPrompt (createForDevice device) := by
  refine .bind (throwIf_prompt _ _) (fun _ => .bind (statement_prompt _) (fun saved => ?_))
  rcases (saved : Except QueryFailedError SupportRequest) with error | row
  · simp only
    split <;> trivial
  · exact .bind (notifyQueueUpdated_prompt _) (fun _ => trivial)

/-- Three statements with their checks. -/
theorem runDeviceTransition_prompt (id : Uuid) (device : Device)
    (source : List SupportRequestStatus) (changes : SupportRequestTransition) :
    IsPrompt (runDeviceTransition id device source changes) := by
  refine .bind (.bind (statement_prompt _) (fun _ => orFail_prompt _ _)) (fun r => ?_)
  refine .bind (statement_prompt _) (fun _ => .bind (throwIf_prompt _ _) (fun _ => ?_))
  exact .bind (findByIdOrFail_prompt id) (fun _ =>
    .bind (notifyTechnicianUpdated_prompt _) (fun _ => trivial))

/-- The lock, the question about a session, and the update. -/
theorem cancelLocked_prompt (id : Uuid) (device : Device) :
    IsPrompt (cancelLocked id device) := by
  refine .bind (.bind (statement_prompt _) (fun _ => orFail_prompt _ _)) (fun r => ?_)
  refine .bind (throwIf_prompt _ _) (fun _ => ?_)
  have hrest : ∀ (now : Timestamp) (e : HttpException), IsPrompt
      ((applyTransition .entityManager id activeSupportRequestStatuses
        { status := .cancelled, closedAt := some now }).bind
        (fun cancelled => (throwIf (!cancelled) e).bind (fun _ => .ret r.status))) :=
    fun now e => .bind (statement_prompt _) (fun _ => .bind (throwIf_prompt _ e) (fun _ => trivial))
  split
  · refine .bind (statement_prompt _)
      (fun started => .bind (throwIf_prompt started _) (fun _ => ?_))
    exact .bind (ask_prompt trivial) (fun now => hrest now _)
  · exact ⟨.inr trivial, fun now => hrest now _⟩

/-- The transaction, the reading, and one of two emissions. -/
theorem cancelByDevice_prompt (id : Uuid) (device : Device) :
    IsPrompt (cancelByDevice id device) := by
  refine .bind (transaction_prompt (cancelLocked_prompt id device)) (fun previous => ?_)
  refine .bind (findByIdOrFail_prompt id) (fun r => ?_)
  split
  · exact .bind (notifyQueueUpdated_prompt r) (fun _ => trivial)
  · exact .bind (notifyTechnicianUpdated_prompt r) (fun _ => trivial)

/-- The presence and the clock are asked for between the statements. -/
theorem assign_prompt (id : Uuid) (technician : User) : IsPrompt (assign id technician) := by
  refine .bind (findByIdOrFail_prompt id) (fun r => .bind (throwIf_prompt _ _) (fun _ => ?_))
  refine .bind (ask_prompt trivial) (fun online => .bind (throwIf_prompt _ _) (fun _ => ?_))
  refine .bind (ask_prompt trivial) (fun now => .bind (statement_prompt _) (fun _ => ?_))
  refine .bind (throwIf_prompt _ _) (fun _ => .bind (findByIdOrFail_prompt id) (fun r => ?_))
  refine .bind (emit_prompt _) (fun _ => .bind (notifyQueueUpdated_prompt _) (fun _ => ?_))
  exact .bind (ask_prompt trivial) (fun _ => trivial)

end SupportRequestsService

namespace RemoteSessionsService

/-- The presence is answered at once. -/
theorem toResponse_prompt (s : LoadedRemoteSession) : IsPrompt (toResponse s) :=
  .bind (ask_prompt trivial) (fun _ => trivial)

/-- One statement. -/
theorem withRelations_prompt (s : RemoteSession) (user : User) :
    IsPrompt (withRelations s user) := .bind (statement_prompt _) (fun _ => trivial)

/-- One statement. -/
theorem save_prompt (draft : RemoteSessionDraft) : IsPrompt (save draft) := by
  refine .bind (statement_prompt _) (fun saved => ?_)
  rcases (saved : Except QueryFailedError RemoteSession) with error | row
  · simp only
    split <;> trivial
  · trivial

/-- The lock, the question, the insertion, and the device. -/
theorem openLocked_prompt (id : Uuid) (user : User) : IsPrompt (openLocked id user) := by
  refine .bind (.bind (statement_prompt _) (fun _ => orFail_prompt _ _)) (fun r => ?_)
  refine .bind (throwIf_prompt _ _) (fun _ => .bind (statement_prompt _) (fun busy => ?_))
  refine .bind (throwIf_prompt _ _) (fun _ => .bind (ask_prompt trivial) (fun online => ?_))
  refine .bind (throwIf_prompt _ _) (fun _ => .bind (save_prompt _) (fun s => ?_))
  exact .bind (statement_prompt _) (fun _ => trivial)

/-- The transaction, the emission, and the response. -/
theorem create_prompt (id : Uuid) (user : User) : IsPrompt (create id user) :=
  .bind (transaction_prompt (openLocked_prompt id user)) (fun created =>
    .bind (emit_prompt _) (fun _ => toResponse_prompt created))

/-- The lock, and the update if there is one. -/
theorem activateLocked_prompt (id : Uuid) (user : User) : IsPrompt (activateLocked id user) := by
  refine .bind (.bind (statement_prompt _) (fun _ => orFail_prompt _ _)) (fun s => ?_)
  refine .bind (throwIf_prompt _ _) (fun _ => ?_)
  split
  · exact .bind (withRelations_prompt _ _) (fun _ => trivial)
  · refine .bind (ask_prompt trivial) (fun now => .bind (statement_prompt _) (fun _ => ?_))
    exact .bind (throwIf_prompt _ _) (fun _ => .bind (withRelations_prompt _ _) (fun _ => trivial))

/-- The transaction and the two emissions. -/
theorem activateByTechnician_prompt (id : Uuid) (user : User) :
    IsPrompt (activateByTechnician id user) := by
  refine .bind (transaction_prompt (activateLocked_prompt id user)) (fun result => ?_)
  rcases result with ⟨s, activated⟩
  cases activated with
  | false => exact toResponse_prompt s
  | true =>
      exact .bind (.bind (logErrors_prompt (emit_prompt _)) (fun _ =>
        logErrors_prompt (emit_prompt _))) (fun _ => toResponse_prompt s)

/-- The clock, and two updates in a transaction. -/
theorem close_prompt (s : LoadedRemoteSession) (endedBy : RemoteSessionEndedBy) :
    IsPrompt (close s endedBy) := by
  refine .bind (ask_prompt trivial)
    (fun endedAt => .bind (transaction_prompt ?_) (fun _ => trivial))
  refine .bind (statement_prompt _) (fun _ => .bind (throwIf_prompt _ _) (fun _ => ?_))
  exact .bind (statement_prompt _) (fun _ => throwIf_prompt _ _)

/-- A closure from either end. -/
theorem closing_prompt (id : Uuid) (owner : Owner) (endedBy : RemoteSessionEndedBy)
    {f : LoadedRemoteSession → Service Unit} (hf : ∀ s, IsPrompt (f s)) :
    IsPrompt ((findOwnedOrFail id owner).bind (fun s => (close s endedBy).bind (fun closed =>
      (f closed).bind (fun _ => toResponse closed)))) := by
  refine .bind (.bind (statement_prompt _) (fun _ => orFail_prompt _ _)) (fun s => ?_)
  exact .bind (close_prompt s endedBy) (fun closed =>
    .bind (hf closed) (fun _ => toResponse_prompt closed))

end RemoteSessionsService

/-- All nine methods. -/
theorem body_prompt (op : Operation) : IsPrompt op.body := by
  cases op with
  | createForDevice device =>
      exact .bind (SupportRequestsService.createForDevice_prompt device) (fun _ => trivial)
  | assign id technician =>
      exact .bind (SupportRequestsService.assign_prompt id technician) (fun _ => trivial)
  | acceptByDevice id device =>
      exact .bind (.bind (ask_prompt trivial) (fun _ =>
        SupportRequestsService.runDeviceTransition_prompt id device _ _)) (fun _ => trivial)
  | rejectByDevice id device =>
      exact .bind (.bind (ask_prompt trivial) (fun _ =>
        SupportRequestsService.runDeviceTransition_prompt id device _ _)) (fun _ => trivial)
  | cancelByDevice id device =>
      exact .bind (SupportRequestsService.cancelByDevice_prompt id device) (fun _ => trivial)
  | create id user => exact .bind (RemoteSessionsService.create_prompt id user) (fun _ => trivial)
  | activateByTechnician id user =>
      exact .bind (RemoteSessionsService.activateByTechnician_prompt id user) (fun _ => trivial)
  -- The two closures differ in who catches the errors of an emission.
  | closeByTechnician id user =>
      exact Prog.PromptFrom.bind (RemoteSessionsService.closing_prompt id (.technician user.id)
        .technician (fun _ => emit_prompt _)) (fun _ => trivial)
  | closeByDevice id device =>
      exact Prog.PromptFrom.bind (RemoteSessionsService.closing_prompt id (.device device.id)
        .device (fun _ => logErrors_prompt (emit_prompt _))) (fun _ => trivial)

/-- And the marks around them. -/
theorem handle_prompt (op : Operation) : IsPrompt (handle op) := by
  refine .bind (ask_prompt trivial) (fun _ => .bind (.onError (body_prompt op) (fun e => ?_))
    (fun r => ?_))
  · exact .bind (ask_prompt trivial) (fun _ => trivial)
  · exact .bind (ask_prompt trivial) (fun _ => trivial)

end Programs

/-- The identifier the database generates is a new one. -/
def Env.Fresh (env : Env) (w : World) : Prop :=
  env.newId ∉ w.requests.dom ∧ env.newId ∉ w.sessions.dom

/-- Such an operation always has an answer. -/
theorem exec_atOnce {env : Env} (o : Op) (w : World) (ho : o.IsAtOnce) :
    (exec throws c env o w).isSome := by
  cases o <;> first | rfl | exact ho.elim

/-- The operation needs an identifier. -/
def Op.Inserts : Op → Prop
  | .insertRequest _ => True
  | .insertSession _ => True
  | _ => False

/-- An operation without an answer waits for a call. A lock and an update wait for
    whoever has the row in hand, an insertion for whoever has written one that
    clashes. -/
theorem blocks_of_none {env : Env} {o : Op} {w : World} (hfresh : o.Inserts → env.Fresh w)
    (h : exec throws c env o w = none) : ∃ d, Blocks c o w d := by
  cases o with
  | lockRequest id owner =>
      simp only [exec] at h
      split at h
      · rename_i hlock
        exact Table.selectForUpdate_eq_none hlock
      · simp only [reduceCtorEq] at h
  | lockSession id owner =>
      simp only [exec] at h
      split at h
      · rename_i hlock
        exact Table.selectForUpdate_eq_none hlock
      · simp only [reduceCtorEq] at h
  | updateSession id source changes =>
      simp only [exec] at h
      split at h
      · rename_i hupdate
        exact Table.update_eq_none hupdate
      · simp only [reduceCtorEq] at h
  | updateRequest m id source changes =>
      simp only [exec, runUpdateRequest] at h
      split at h
      · rename_i hupdate
        exact Table.update_eq_none hupdate
      · split at h <;> simp only [reduceCtorEq] at h
  | insertRequest draft =>
      simp only [exec, runInsertRequest] at h
      split at h
      · rename_i hinsert
        -- The identifier is new, so what is in the way is somebody's uncommitted row.
        rcases Table.insert_eq_none hinsert with hin | ⟨d, hclash⟩
        · exact ((hfresh trivial).1 hin).elim
        · exact ⟨d, env.newId, env.createdAt, hclash⟩
      · simp only [reduceCtorEq] at h
      · simp only [reduceCtorEq] at h
  | insertSession draft =>
      simp only [exec, runInsertSession] at h
      split at h
      · rename_i hinsert
        rcases Table.insert_eq_none hinsert with hin | ⟨d, hclash⟩
        · exact ((hfresh trivial).2 hin).elim
        · exact ⟨d, env.newId, env.createdAt, hclash⟩
      · simp only [reduceCtorEq] at h
      · simp only [reduceCtorEq] at h
  | _ => simp only [exec, reduceCtorEq] at h

/-- In every reachable system the calls wait for the database only. -/
theorem Reachable.prompt (h : Reachable calls throws sys) : sys.Prompt Op.IsAtOnce := by
  rcases h with ⟨devices, users, clock, hrun⟩
  exact (System.Prompt.start (fun c => handle_prompt (calls c))).run hrun

/-- A call that is not over and has no turn to take waits for a call. -/
theorem waits_of_stuck (h : Reachable calls throws sys) {p : Service Response}
    (hp : sys.threads c = .await p) {env : Env} (hfresh : env.Fresh sys.shared)
    (hstuck : sys.turn (exec throws) c env = none) : ∃ d, WaitsFor sys c d :=
  System.waits_of_stuck h.prompt exec_atOnce (fun _ => blocks_of_none (fun _ => hfresh)) hp hstuck

/-- A call that is not over is between two turns. -/
theorem await_of_unfinished (h : Reachable calls throws sys)
    (hreturned : (sys.threads c).returned = none) (hthrown : (sys.threads c).thrown = none) :
    ∃ p, sys.threads c = .await p := by
  have hsuspended := h.sound.suspended c
  cases hc : sys.threads c with
  | ret r =>
      rw [hc] at hreturned
      simp only [Prog.returned, reduceCtorEq] at hreturned
  | throw e =>
      rw [hc] at hthrown
      simp only [Prog.thrown, reduceCtorEq] at hthrown
  -- Between two turns a call is never in the middle of a segment.
  | op o k =>
      rw [hc] at hsuspended
      exact hsuspended.elim
  | await p => exact ⟨p, rfl⟩

/-- A call that holds a row is not over. -/
theorem await_of_holding (h : Reachable calls throws sys) (hheld : Holding sys.shared c) :
    ∃ p, sys.threads c = .await p := by
  refine await_of_unfinished h (Option.eq_none_iff_forall_ne_some.mpr (fun r hr => ?_))
    (Option.eq_none_iff_forall_ne_some.mpr (fun e he => ?_))
  -- A call that has returned holds nothing.
  · rw [Prog.returned_eq_some] at hr
    rcases h.returned hr with ⟨_, before, a, ws, ha, _⟩
    exact not_holding ha.requests ha.sessions hheld
  · rw [Prog.thrown_eq_some] at he
    -- Nor does one that has failed, before its commit or after it.
    rcases h.raised he with ⟨before, a, n, ha, _⟩ | ⟨_, _, _, before, a, ws, em, rest, ha, _⟩
    · exact not_holding ha.requests ha.sessions hheld
    · exact not_holding ha.requests ha.sessions hheld

/-- Whatever a call waits for, a call at the end of the waits can take its
    turn. -/
theorem goes_on (h : Reachable calls throws sys) {p : Service Response}
    (hp : sys.threads c = .await p) :
    ∃ d, Relation.ReflTransGen (WaitsFor sys) c d ∧
      ∀ env : Env, env.Fresh sys.shared → (sys.turn (exec throws) d env).isSome := by
  rcases follow_waits (waitsFor_wellFounded h) c with ⟨d, hpath, hidle⟩
  have hd : ∃ q, sys.threads d = .await q := by
    -- The last call of the path is the one that was asked about, or one that holds a lock.
    rcases Relation.ReflTransGen.cases_tail hpath with heq | ⟨e, _, hwait⟩
    · rw [heq]
      exact ⟨p, hp⟩
    · exact await_of_holding h (waitsFor_holding hwait)
  rcases hd with ⟨q, hq⟩
  refine ⟨d, hpath, fun env hfresh => ?_⟩
  cases hturn : sys.turn (exec throws) d env with
  | some sys' => rfl
  | none =>
      rcases waits_of_stuck h hq hfresh hturn with ⟨e, he⟩
      exact (hidle e he).elim

/-- A cancellation holds the request that a closure wants to update next. -/
def crossing : List (CallId × Env) := opening ++ turns 6 4 0 ++ turns 5 7 0

/-- The environment of the turn that cannot be taken. -/
def crossingTurn : Env := { tick := 1, online := fun _ => true, newId := 0, createdAt := 0 }

/-- The closure waits, but not for itself. It waits for the cancellation, which
    waits for nobody. -/
theorem no_deadlock_crossing : ∃ sys, Reachable assistance quiet sys ∧
    (∃ d, WaitsFor sys 5 d) ∧ ¬ Relation.TransGen (WaitsFor sys) 5 5 := by
  have hrun : ((follow (exec quiet) (boot assistance (fun _ => tablet) (fun _ => agent) 0)
      crossing).any (fun sys => (sys.threads 5).returned.isNone && (sys.threads 5).thrown.isNone &&
        (sys.turn (exec quiet) 5 crossingTurn).isNone &&
        decide (crossingTurn.newId ∉ sys.shared.requests.dom) &&
        decide (crossingTurn.newId ∉ sys.shared.sessions.dom))) = true := by
    decide +kernel
  rcases reachable_of_follow hrun with ⟨sys, hsys, hp⟩
  simp only [Bool.and_eq_true, Option.isNone_iff_eq_none, decide_eq_true_eq] at hp
  rcases hp with ⟨⟨⟨⟨hreturned, hthrown⟩, hstuck⟩, hr⟩, hs⟩
  rcases await_of_unfinished hsys hreturned hthrown with ⟨p, hthread⟩
  exact ⟨sys, hsys, waits_of_stuck hsys hthread ⟨hr, hs⟩ hstuck, no_deadlock hsys 5⟩

end RemoteControl

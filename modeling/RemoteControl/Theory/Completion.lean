import RemoteControl.Concurrency.Turns
import RemoteControl.Theory.Deadlocks
import RemoteControl.Theory.Notifications
import Mathlib.Data.Fintype.EquivFin

/-!
# Every Call Comes to an End

The lifecycle calls have no loops, so each takes a bounded number of turns
(`Operation.turns`), and they never wait in a circle, so as long as one of
them is not over some call can go on. Together: whatever the schedule, a
finite number of calls is done after a finite number of turns, and from any
point on the way they can all be brought to their ends.

The call that can go on is one of those that have begun. What a call waits for
holds a row, and a call that has had no turn holds none.

The bounds are put together like the programs. A statement takes two turns,
one to send it and one to go on with its answer, what is asked for without a
wait takes none of its own, and a program takes at most the turns of its parts
(`Bounded.bind`). Errors only make a way shorter.

For the second part, a system in which only the calls of a finite set have had
turns is `Confined`. Whoever is waited for holds a row, and so belongs to the
set (`Confined.mem_of_holding`). So there is always a turn left that can be
taken, and the bound says that this ends.

## Main definitions

* `Operation.turns`: How many turns a call takes at most.
* `Confined`: Only the calls of the set have done anything.

## Theorems

* `handle_bounded`: A call takes no more turns than that.
* `lifecycle_completes`: Schedules end, and can be made to end well.
* `body_bounded`: The bound of each method.
* `Confined.boot`, `Confined.turn`: The set is not left.
* `Confined.goes_on`: Whoever is not over can go on, or waits for somebody who
  can.
-/

namespace RemoteControl

open Concurrency

variable {calls : CallId → Operation} {throws : CallId → Emitter → Bool} {c : CallId}

/-! ## Turns of a call -/

/-- Two for each statement on the longest way through the method, and one to
    begin with. -/
def Operation.turns : Operation → Nat
  | .createForDevice _ => 3
  | .assign _ _ => 7
  | .acceptByDevice _ _ => 7
  | .rejectByDevice _ _ => 7
  | .cancelByDevice _ _ => 13
  | .create _ _ => 13
  | .activateByTechnician _ _ => 11
  | .closeByTechnician _ _ => 11
  | .closeByDevice _ _ => 11

section Programs

variable {α : Type} {n : Nat}

/-- A result takes no turn. -/
theorem ret_bounded (a : α) : (Prog.ret a : Service α).Bounded n := trivial

/-- Nor does an error. -/
theorem throw_bounded (e : HttpException) : (Prog.throw e : Service α).Bounded n := trivial

/-- A statement is sent, and answered in a later turn. -/
theorem statement_bounded (o : Op) : (statement o).Bounded 2 := fun r => ret_bounded (n := 0) r

/-- What is answered at once takes no turn of its own. -/
theorem ask_bounded (o : Op) : (ask o).Bounded 0 := fun r => ret_bounded r

/-- A check is made in the same turn. -/
theorem throwIf_bounded (reason : Bool) (e : HttpException) : (throwIf reason e).Bounded 0 := by
  cases reason <;> trivial

/-- So is the check of a result. -/
theorem orFail_bounded (found : Option α) (e : HttpException) : (orFail found e).Bounded 0 := by
  cases found <;> trivial

/-- An emission is made in the same turn. -/
theorem emit_bounded (e : Emission) : (emit e).Bounded 0 :=
  .bind 0 0 (ask_bounded _) (fun _ => throwIf_bounded _ _)

/-- Its error is caught in that turn, too. -/
theorem logErrors_bounded {body : Service Unit} (h : body.Bounded n) :
    (logErrors body).Bounded n :=
  .onError n 0 h (fun _ => ret_bounded _)

/-- A transaction begins, and commits or is rolled back. -/
theorem transaction_bounded {body : Service α} (h : body.Bounded n) :
    (transaction body).Bounded (2 + (n + 2)) := by
  refine .bind 2 (n + 2) (statement_bounded .begin) (fun _ => .onError_bind n 2 h ?_ ?_)
  · exact fun e _ => throw_bounded (α := α) (n := 0) e
  · exact fun a => .bind 2 0 (statement_bounded .commit) (fun _ => ret_bounded a)

namespace SupportRequestsService

/-- One statement. -/
theorem findByIdOrFail_bounded (id : Uuid) : (findByIdOrFail id).Bounded 2 :=
  .bind 2 0 (statement_bounded _) (fun _ => orFail_bounded _ _)

/-- Nobody is waited for. -/
theorem notifyTechnicianUpdated_bounded (r : LoadedSupportRequest) :
    (notifyTechnicianUpdated r).Bounded 0 := by
  unfold notifyTechnicianUpdated
  split
  · trivial
  · exact logErrors_bounded (emit_bounded _)

/-- Here neither. -/
theorem notifyQueueUpdated_bounded (r : LoadedSupportRequest) : (notifyQueueUpdated r).Bounded 0 :=
  logErrors_bounded (emit_bounded _)

/-- One statement, the insertion. -/
theorem createForDevice_bounded (device : Device) : (createForDevice device).Bounded 2 := by
  refine .bind 0 2 (throwIf_bounded _ _) (fun _ =>
    .bind 2 0 (statement_bounded _) (fun saved => ?_))
  rcases (saved : Except QueryFailedError SupportRequest) with error | row
  · simp only
    split <;> trivial
  · exact .bind 0 0 (notifyQueueUpdated_bounded _) (fun _ => ret_bounded _)

/-- Three statements: the reading, the update, and the reading again. -/
theorem runDeviceTransition_bounded (id : Uuid) (device : Device)
    (source : List SupportRequestStatus) (changes : SupportRequestTransition) :
    (runDeviceTransition id device source changes).Bounded 6 := by
  refine .bind 2 4 (.bind 2 0 (statement_bounded _) (fun _ => orFail_bounded _ _)) (fun r => ?_)
  refine .bind 2 2 (statement_bounded _) (fun _ => .bind 0 2 (throwIf_bounded _ _) (fun _ => ?_))
  exact .bind 2 0 (findByIdOrFail_bounded id) (fun _ =>
    .bind 0 0 (notifyTechnicianUpdated_bounded _) (fun _ => ret_bounded _))

/-- Three at most: the lock, the question about a session, and the update. -/
theorem cancelLocked_bounded (id : Uuid) (device : Device) :
    (cancelLocked id device).Bounded 6 := by
  refine .bind 2 4 (.bind 2 0 (statement_bounded _) (fun _ => orFail_bounded _ _))
    (fun r => .bind 0 4 (throwIf_bounded _ _) (fun _ => ?_))
  have hrest : ∀ (now : Timestamp) (e : HttpException),
      ((applyTransition .entityManager id activeSupportRequestStatuses
        { status := .cancelled, closedAt := some now }).bind
        (fun cancelled => (throwIf (!cancelled) e).bind (fun _ => .ret r.status))).Bounded 2 :=
    fun now e => .bind 2 0 (statement_bounded _) (fun _ =>
      .bind 0 0 (throwIf_bounded _ e) (fun _ => ret_bounded _))
  -- Only an accepted request is asked about a session.
  split
  · refine .bind 2 2 (statement_bounded _) (fun started =>
      .bind 0 2 (throwIf_bounded started _) (fun _ => ?_))
    exact .bind 0 2 (ask_bounded _) (fun now => hrest now _)
  · exact fun now => (hrest now _).mono (by omega)

/-- The transaction has two more, and then the row is read again. -/
theorem cancelByDevice_bounded (id : Uuid) (device : Device) :
    (cancelByDevice id device).Bounded 12 := by
  refine .bind 10 2 (transaction_bounded (cancelLocked_bounded id device)) (fun previous =>
    .bind 2 0 (findByIdOrFail_bounded id) (fun r => ?_))
  split
  · exact .bind 0 0 (notifyQueueUpdated_bounded r) (fun _ => ret_bounded _)
  · exact .bind 0 0 (notifyTechnicianUpdated_bounded r) (fun _ => ret_bounded _)

/-- Three statements. -/
theorem assign_bounded (id : Uuid) (technician : User) : (assign id technician).Bounded 6 := by
  refine .bind 2 4 (findByIdOrFail_bounded id) (fun r =>
    .bind 0 4 (throwIf_bounded _ _) (fun _ => ?_))
  refine .bind 0 4 (ask_bounded _) (fun online => .bind 0 4 (throwIf_bounded _ _) (fun _ => ?_))
  refine .bind 0 4 (ask_bounded _) (fun now => .bind 2 2 (statement_bounded _) (fun _ => ?_))
  refine .bind 0 2 (throwIf_bounded _ _) (fun _ =>
    .bind 2 0 (findByIdOrFail_bounded id) (fun r => ?_))
  refine .bind 0 0 (emit_bounded _) (fun _ =>
    .bind 0 0 (notifyQueueUpdated_bounded _) (fun _ => ?_))
  exact .bind 0 0 (ask_bounded _) (fun _ => ret_bounded _)

end SupportRequestsService

namespace RemoteSessionsService

/-- The presence is known at once. -/
theorem toResponse_bounded (s : LoadedRemoteSession) : (toResponse s).Bounded 0 :=
  .bind 0 0 (ask_bounded _) (fun _ => ret_bounded _)

/-- One statement. -/
theorem withRelations_bounded (s : RemoteSession) (user : User) :
    (withRelations s user).Bounded 2 :=
  .bind 2 0 (statement_bounded _) (fun _ => ret_bounded _)

/-- One statement, and its error is translated. -/
theorem save_bounded (draft : RemoteSessionDraft) : (save draft).Bounded 2 := by
  refine .bind 2 0 (statement_bounded _) (fun saved => ?_)
  rcases (saved : Except QueryFailedError RemoteSession) with error | row
  · simp only
    split <;> trivial
  · trivial

/-- Four statements. -/
theorem openLocked_bounded (id : Uuid) (user : User) : (openLocked id user).Bounded 8 := by
  refine .bind 2 6 (.bind 2 0 (statement_bounded _) (fun _ => orFail_bounded _ _))
    (fun r => .bind 0 6 (throwIf_bounded _ _) (fun _ => ?_))
  refine .bind 2 4 (statement_bounded _) (fun busy => .bind 0 4 (throwIf_bounded _ _) (fun _ => ?_))
  refine .bind 0 4 (ask_bounded _) (fun online => .bind 0 4 (throwIf_bounded _ _) (fun _ => ?_))
  exact .bind 2 2 (save_bounded _) (fun s =>
    .bind 2 0 (statement_bounded _) (fun _ => ret_bounded _))

/-- The transaction has two more. -/
theorem create_bounded (id : Uuid) (user : User) : (create id user).Bounded 12 :=
  .bind 12 0 (transaction_bounded (openLocked_bounded id user)) (fun created =>
    .bind 0 0 (emit_bounded _) (fun _ => toResponse_bounded created))

/-- Three statements, or two if the session is active. -/
theorem activateLocked_bounded (id : Uuid) (user : User) :
    (activateLocked id user).Bounded 6 := by
  refine .bind 2 4 (.bind 2 0 (statement_bounded _) (fun _ => orFail_bounded _ _))
    (fun s => .bind 0 4 (throwIf_bounded _ _) (fun _ => ?_))
  split
  -- A session that is active already is only read again.
  · exact .bind 2 2 (withRelations_bounded _ _) (fun _ => ret_bounded _)
  · refine .bind 0 4 (ask_bounded _) (fun now => .bind 2 2 (statement_bounded _) (fun _ => ?_))
    exact .bind 0 2 (throwIf_bounded _ _) (fun _ =>
      .bind 2 0 (withRelations_bounded _ _) (fun _ => ret_bounded _))

/-- The transaction has two more. -/
theorem activateByTechnician_bounded (id : Uuid) (user : User) :
    (activateByTechnician id user).Bounded 10 := by
  refine .bind 10 0 (transaction_bounded (activateLocked_bounded id user)) (fun result => ?_)
  rcases result with ⟨s, activated⟩
  cases activated with
  | false => exact toResponse_bounded s
  | true =>
      exact .bind 0 0 (.bind 0 0 (logErrors_bounded (emit_bounded _)) (fun _ =>
        logErrors_bounded (emit_bounded _))) (fun _ => toResponse_bounded s)

/-- Two updates in a transaction. -/
theorem close_bounded (s : LoadedRemoteSession) (endedBy : RemoteSessionEndedBy) :
    (close s endedBy).Bounded 8 := by
  refine .bind 0 8 (ask_bounded _) (fun endedAt =>
    .bind 8 0 (transaction_bounded (n := 4) ?_) (fun _ => ret_bounded _))
  refine .bind 2 2 (statement_bounded _) (fun _ => .bind 0 2 (throwIf_bounded _ _) (fun _ => ?_))
  exact .bind 2 0 (statement_bounded _) (fun _ => throwIf_bounded _ _)

/-- A closure from either end. -/
theorem closing_bounded (id : Uuid) (owner : Owner) (endedBy : RemoteSessionEndedBy)
    {f : LoadedRemoteSession → Service Unit} (hf : ∀ s, (f s).Bounded 0) :
    ((findOwnedOrFail id owner).bind (fun s => (close s endedBy).bind (fun closed =>
      (f closed).bind (fun _ => toResponse closed)))).Bounded 10 := by
  refine .bind 2 8 (.bind 2 0 (statement_bounded _) (fun _ => orFail_bounded _ _)) (fun s => ?_)
  exact .bind 8 0 (close_bounded s endedBy) (fun closed =>
    .bind 0 0 (hf closed) (fun _ => toResponse_bounded closed))

end RemoteSessionsService

/-- One bound for each operation, less the turn that begins it. -/
theorem body_bounded (op : Operation) : op.body.Bounded (op.turns - 1) := by
  cases op with
  | createForDevice device =>
      exact .bind 2 0 (SupportRequestsService.createForDevice_bounded device)
        (fun _ => ret_bounded _)
  | assign id technician =>
      exact .bind 6 0 (SupportRequestsService.assign_bounded id technician) (fun _ => ret_bounded _)
  | acceptByDevice id device =>
      exact .bind 6 0 (.bind 0 6 (ask_bounded _) (fun _ =>
        SupportRequestsService.runDeviceTransition_bounded id device _ _)) (fun _ => ret_bounded _)
  | rejectByDevice id device =>
      exact .bind 6 0 (.bind 0 6 (ask_bounded _) (fun _ =>
        SupportRequestsService.runDeviceTransition_bounded id device _ _)) (fun _ => ret_bounded _)
  | cancelByDevice id device =>
      exact .bind 12 0 (SupportRequestsService.cancelByDevice_bounded id device)
        (fun _ => ret_bounded _)
  | create id user =>
      exact .bind 12 0 (RemoteSessionsService.create_bounded id user) (fun _ => ret_bounded _)
  | activateByTechnician id user =>
      exact .bind 10 0 (RemoteSessionsService.activateByTechnician_bounded id user)
        (fun _ => ret_bounded _)
  | closeByTechnician id user =>
      exact Prog.Bounded.bind 10 0 (RemoteSessionsService.closing_bounded id
        (.technician user.id) .technician (fun _ => emit_bounded _)) (fun _ => ret_bounded _)
  | closeByDevice id device =>
      exact Prog.Bounded.bind 10 0 (RemoteSessionsService.closing_bounded id
        (.device device.id) .device (fun _ => logErrors_bounded (emit_bounded _)))
        (fun _ => ret_bounded _)

/-- The marks at the beginning and at the end are entries of turns that are
    counted already. -/
theorem handle_bounded (op : Operation) : (handle op).Bounded (op.turns - 1) := by
  have hrest : ((op.body.onError (fun e => (ask .leave).bind (fun _ => .throw e))).bind
      (fun response => (ask .leave).bind (fun _ => .ret response))).Bounded (op.turns - 1) :=
    .onError_bind (op.turns - 1) 0 (body_bounded op) (fun e _ => throw_bounded (α := Response) e)
      (fun r => .bind 0 0 (ask_bounded .leave) (fun _ => ret_bounded r))
  exact fun _ => hrest

end Programs

/-! ## Calls that have had no turn -/

/-- The system keeps to the rules, and the calls outside `S` have done
    nothing. -/
structure Confined (calls : CallId → Operation) (throws : CallId → Emitter → Bool)
    (S : Finset CallId) (sys : Calls) : Prop where
  reachable : Reachable calls throws sys
  bounded : ∃ left : CallId → Nat, sys.Bounded left
  start : ∀ d ∉ S, At d Progress.start .free sys.shared

/-- At the beginning nobody has done anything. -/
theorem Confined.boot (S : Finset CallId) (devices : Uuid → Device) (users : Uuid → User)
    (clock : Timestamp) : Confined calls throws S (boot calls devices users clock) where
  reachable := ⟨devices, users, clock, .refl⟩
  bounded := ⟨_, System.Bounded.start (fun c => handle_bounded (calls c))⟩
  start := fun _ _ => init_at devices users clock

/-- A turn of one of the calls of the set. -/
theorem Confined.turn {S : Finset CallId} {a b : Calls} {c : CallId} {env : Env} (hc : c ∈ S)
    (h : Confined calls throws S a) (hturn : a.turn (exec throws) c env = some b) :
    Confined calls throws S b := by
  rcases h.reachable with ⟨devices, users, clock, hrun⟩
  rcases h.bounded with ⟨left, hleft⟩
  refine ⟨⟨devices, users, clock, .step a b c env hrun trivial hturn⟩,
    ⟨_, (hleft.turn hturn).2⟩, fun d hd => ?_⟩
  rcases h.reachable.sound.turn (fun _ _ => Returned.stable) (fun _ _ => Raised.stable) hturn with
    ⟨_, hsteps⟩
  -- For a call outside `S` the turn is interference.
  have hother : (lifecycle calls throws).Interference d a.shared b.shared :=
    Relation.ReflTransGen.mono
      (fun _ _ hab => ⟨c, fun hcd => hd (hcd ▸ hc), hab.1, hab.2.2⟩) _ _ hsteps
  exact (hother.keeps At.stable h.reachable.inv (h.start d hd)).1

/-- What holds a row is one of the calls that have begun. -/
theorem Confined.mem_of_holding {S : Finset CallId} {sys : Calls} {d : CallId}
    (h : Confined calls throws S sys) (hheld : Holding sys.shared d) : d ∈ S := by
  by_contra hd
  exact not_holding (h.start d hd).requests (h.start d hd).sessions hheld

/-- A call that is not over waits for one of the calls that have begun, or for
    itself to be given a turn. -/
theorem Confined.goes_on {S : Finset CallId} {sys : Calls} {c : CallId}
    (h : Confined calls throws S sys) (hc : c ∈ S) (hover : ¬ Over sys c) :
    ∃ d ∈ S, Relation.ReflTransGen (WaitsFor sys) c d ∧
      ∀ env : Env, env.Fresh sys.shared → (sys.turn (exec throws) d env).isSome := by
  -- A call that is not over is at an operation.
  rcases await_of_unfinished h.reachable
    (Option.eq_none_iff_forall_ne_some.mpr
      (fun r hr => hover (.inl ⟨r, Prog.returned_eq_some.mp hr⟩)))
    (Option.eq_none_iff_forall_ne_some.mpr
      (fun e he => hover (.inr ⟨e, Prog.thrown_eq_some.mp he⟩))) with ⟨p, hp⟩
  rcases RemoteControl.goes_on h.reachable hp with ⟨d, hpath, hturn⟩
  refine ⟨d, ?_, hpath, hturn⟩
  -- It can go on itself, or somebody at the end of the waits can.
  rcases Relation.ReflTransGen.cases_tail hpath with heq | ⟨e, _, hwait⟩
  · exact heq ▸ hc
  · exact h.mem_of_holding (waitsFor_holding hwait)

/-- There is always an identifier that no row has. -/
theorem exists_fresh (w : World) : ∃ env : Env, env.Fresh w := by
  rcases Infinite.exists_notMem_finset (w.requests.dom ++ w.sessions.dom).toFinset with ⟨id, hid⟩
  rw [List.mem_toFinset, List.mem_append, not_or] at hid
  exact ⟨{ tick := 0, online := fun _ => true, newId := id, createdAt := 0 }, hid⟩

/-! ## Schedules -/

/-- A schedule of finitely many calls gives no call more turns than it takes,
    whatever the calls find and whoever waits for whom, so it comes to an end.
    As long as some call is not over, one of those that have begun can take its
    turn, and from every point on the way all of them can be brought to their
    ends. -/
theorem lifecycle_completes {devices : Uuid → Device} {users : Uuid → User} {clock : Timestamp}
    {S : Finset CallId} {ls : List (CallId × Env)} {sys : Calls} (hls : ∀ x ∈ ls, x.1 ∈ S)
    (h : follow (exec throws) (boot calls devices users clock) ls = some sys) :
    (∀ c, (ls.filter (fun x => x.1 = c)).length ≤ (calls c).turns) ∧
    ls.length ≤ ∑ c ∈ S, (calls c).turns ∧
    (∀ c ∈ S, ¬ Over sys c → ∃ d ∈ S, Relation.ReflTransGen (WaitsFor sys) c d ∧
      ∀ env : Env, env.Fresh sys.shared → (sys.turn (exec throws) d env).isSome) ∧
    ∃ rest fin, (∀ x ∈ rest, x.1 ∈ S) ∧ follow (exec throws) sys rest = some fin ∧
      ∀ c ∈ S, Over fin c := by
  have hconfined : Confined calls throws S sys :=
    follow_invariant hls h (.boot S devices users clock) (fun _ _ _ _ hc hP => hP.turn hc)
  have hturns : ∀ c, (calls c).turns - 1 + 1 = (calls c).turns := by
    intro c
    cases calls c <;> rfl
  -- The bound holds of every schedule from the beginning.
  have hbound := System.Bounded.start (s := World.init devices users clock)
    (fun c => handle_bounded (calls c))
  refine ⟨fun c => ?_, ?_, fun c hc => hconfined.goes_on hc, ?_⟩
  · have hlength := turns_le_of_follow hbound h c
    rw [hturns] at hlength
    exact hlength
  · have hlength := length_le_of_follow hbound hls h
    simp only [hturns] at hlength
    exact hlength
  · rcases hconfined.bounded with ⟨left, hleft⟩
    -- As long as somebody is not over, a turn can be taken, with an identifier that is
    -- free.
    refine exists_completion (fun _ _ _ _ hc hP => hP.turn hc) (fun a ha => ?_) hleft hconfined
    rintro ⟨c, hc, hover⟩
    rcases ha.goes_on hc hover with ⟨d, hd, _, hgo⟩
    rcases exists_fresh a.shared with ⟨env, hfresh⟩
    exact ⟨d, hd, env, hgo env hfresh⟩

/-- A closure that waits for a cancellation gets to its end. -/
theorem lifecycle_completes_crossing : ∃ sys,
    follow (exec quiet) (boot assistance (fun _ => tablet) (fun _ => agent) 0) crossing =
      some sys ∧ ¬ Over sys 5 ∧
    ∃ rest fin, follow (exec quiet) sys rest = some fin ∧ Over fin 5 := by
  have hrun : ((follow (exec quiet) (boot assistance (fun _ => tablet) (fun _ => agent) 0)
      crossing).any (fun sys => (sys.threads 5).returned.isNone &&
        (sys.threads 5).thrown.isNone)) = true := by
    decide +kernel
  rw [Option.any_eq_true] at hrun
  rcases hrun with ⟨sys, hsys, hp⟩
  simp only [Bool.and_eq_true, Option.isNone_iff_eq_none] at hp
  rcases lifecycle_completes (S := Finset.range 7) (by decide) hsys with
    ⟨_, _, _, rest, fin, _, hrest, hover⟩
  refine ⟨sys, hsys, ?_, rest, fin, hrest, hover 5 (by decide)⟩
  rintro (⟨r, hr⟩ | ⟨e, he⟩)
  · rw [hr, Prog.returned] at hp
    exact absurd hp.1 (by simp only [reduceCtorEq, not_false_eq_true])
  · rw [he, Prog.thrown] at hp
    exact absurd hp.2 (by simp only [reduceCtorEq, not_false_eq_true])

end RemoteControl

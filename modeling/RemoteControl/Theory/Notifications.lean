import RemoteControl.Theory.Linearizability
import Mathlib.Algebra.BigOperators.Group.Finset.Piecewise

/-!
# Notifications

The emissions of a call against what its commit calls for.

When emissions throw, a call that has committed is robust if it returns its
normal answer and has attempted every emission all the same (`Robust`). Six
of the nine calls always are. The other three send the event to the device
with its errors uncaught, and are robust exactly when that does not throw
(`realtime_failures`).

When nothing throws, the emissions of a run can be counted. Every emission
belongs to a call, and so does every transition, so it is enough to compare
the two call by call; and for one call it is a matter of what a commit of it
calls for. `tally_congr` is that argument, and `exactly_once_notification`
the result, with one clause for each event.

The count of one call is settled when it is over (`Reachable.settled`): its
emissions are then the ones that its commit calls for, and without a commit
there are none. So for every event it is left to compare two numbers of one
commit (`Explains.announced`), which is a computation for each of the ten
kinds of commits.

## Main definitions

* `Robust`: A committed call that no failed emission has touched.
* `tally`, `sent`, `requestCommits`, `sessionCommits`: Counting over a history.
* `Addressed`: An emission goes to whom it concerns.
* `Over`: A call has returned or thrown.
* `Emission.isQueueUpdated`, `Emission.isUpdated`, `Emission.isAssigned`,
  `Emission.isCreated`, `Emission.isActive`, `Emission.isClosed`: The events.

## Theorems

* `realtime_failures`: When a committed call is robust.
* `tally_congr`: Counting call by call.
* `exactly_once_notification`: The emissions of a run in which nothing throws.
* `Reachable.kept`: What a call wrote is kept.
* `Explains.announced`: What a commit calls for is counted by its transitions.
* `Explains.addressed`: What a commit calls for goes to whom the rows say.
* `Reachable.settled`: The emissions of a call that is over.
-/

namespace RemoteControl

open Concurrency Machine

variable {calls : CallId → Operation} {throws : CallId → Emitter → Bool} {c : CallId}

/-- The call has returned or thrown. -/
def Over (sys : Calls) (c : CallId) : Prop :=
  (∃ r, sys.threads c = .ret r) ∨ ∃ e, sys.threads c = .throw e

/-- A call that has committed `ws` returns its normal answer, has attempted
    every emission its commit calls for once and in order, and what it wrote
    is kept. -/
structure Robust (calls : CallId → Operation) (sys : Calls) (c : CallId) (ws : Writes) :
    Prop where
  returns : ∃ r, sys.threads c = .ret r ∧ Answers sys.shared.tables (calls c) ws r
  attempts : (progress c sys.shared.log).emissions.map Prod.fst = announcements (calls c) ws
  requests : ∀ w ∈ ws.requests, ∃ r, sys.shared.tables.requests w.key = some r ∧
    RequestKeeps w.new r
  sessions : ∀ w ∈ ws.sessions, ∃ s, sys.shared.tables.sessions w.key = some s ∧
    SessionKeeps w.new s

/-- What a call wrote is kept, whatever became of its emissions. -/
theorem Reachable.kept {sys : Calls} (h : Reachable calls throws sys) {ws : Writes}
    (hc : (progress c sys.shared.log).committed = some ws) :
    (∀ w ∈ ws.requests, ∃ r, sys.shared.tables.requests w.key = some r ∧
      RequestKeeps w.new r) ∧
    (∀ w ∈ ws.sessions, ∃ s, sys.shared.tables.sessions w.key = some s ∧
      SessionKeeps w.new s) := by
  rcases committed_entry hc with ⟨e, l, hs, _, he⟩
  have hgrows := h.inv.grows_since hs
  have hwritten := h.inv.written hs he
  exact ⟨fun w hw => hgrows.requests w.key w.new (hwritten.1 w hw),
    fun w hw => hgrows.sessions w.key w.new (hwritten.2 w hw)⟩

/-- A committed call is robust unless it sends an event to the device with
    its errors uncaught, and that throws. -/
theorem realtime_failures {sys : Calls} (h : Reachable calls throws sys) {ws : Writes}
    (hc : (progress c sys.shared.log).committed = some ws) (hover : Over sys c) :
    Robust calls sys c ws ↔ ¬ ((calls c).Leaks ∧ throws c .emitToDevice = true) := by
  constructor
  · -- A call that has returned has not thrown on its way.
    rintro hr ⟨hl, ht⟩
    rcases hr.returns with ⟨r, hret, _⟩
    rw [(h.returned hret).1 hl] at ht
    simp only [Bool.false_eq_true] at ht
  · intro hnot
    rcases h.kept hc with ⟨hreq, hses⟩
    rcases hover with ⟨r, hr⟩ | ⟨e, he⟩
    · rcases h.returned hr with ⟨_, before, a, ws', ha, hans⟩
      -- It has committed once.
      have hws : ws' = ws := by
        rw [ha.progress] at hc
        exact Option.some.inj hc
      subst hws
      refine ⟨⟨r, hr, hans⟩, ?_, hreq, hses⟩
      rw [ha.progress]
      simp only [Progress.gone, announcing, RemoteControl.attempts, List.map_map]
      exact List.map_id _
    · -- Before its commit a call emits nothing, and fails without one.
      rcases h.raised he with ⟨before, a, n, ha, _⟩ | ⟨_, hl, ht, _⟩
      · rw [ha.progress] at hc
        simp only [Progress.gone, working, reduceCtorEq] at hc
      · -- After it only the uncaught emission can throw.
        exact absurd ⟨hl, ht⟩ hnot

/-- The events to devices throw, the others do not. -/
def deviceDown : CallId → Emitter → Bool := fun _ e => decide (e = .emitToDevice)

/-- An assignment that cannot reach the device has committed, fails all the
    same, and never tells the technicians. -/
theorem realtime_failures_leak : ¬ ∀ (calls : CallId → Operation)
    (throws : CallId → Emitter → Bool) (sys : Calls) (c : CallId) (ws : Writes),
    Reachable calls throws sys → (progress c sys.shared.log).committed = some ws →
    Over sys c → Robust calls sys c ws := by
  intro hall
  have hrun : ((follow (exec deviceDown) (boot assistance (fun _ => tablet) (fun _ => agent) 0)
      (turns 0 3 10 ++ turns 1 7 0)).any (fun sys =>
        (progress 1 sys.shared.log).committed.isSome && (sys.threads 1).thrown.isSome)) = true := by
    decide +kernel
  rcases reachable_of_follow hrun with ⟨sys, hsys, hp⟩
  rw [Bool.and_eq_true, Option.isSome_iff_exists, Option.isSome_iff_exists] at hp
  rcases hp with ⟨⟨ws, hws⟩, e, hthrow⟩
  rw [Prog.thrown_eq_some] at hthrow
  rcases (hall assistance deviceDown sys 1 ws hsys hws (.inr ⟨e, hthrow⟩)).returns with ⟨r, hr, _⟩
  rw [hthrow] at hr
  simp only [reduceCtorEq] at hr

/-- The events to the technicians throw, the others do not. -/
def techniciansDown : CallId → Emitter → Bool := fun _ e => !decide (e = .emitToDevice)

/-- With the technicians out of reach, the event of a creation throws, and the
    creation is robust nevertheless. -/
theorem realtime_failures_create : ∃ sys ws, Reachable assistance techniciansDown sys ∧
    (progress 0 sys.shared.log).committed = some ws ∧
    (∃ em, (em, true) ∈ (progress 0 sys.shared.log).emissions) ∧
    Robust assistance sys 0 ws := by
  have hrun : ((follow (exec techniciansDown) (boot assistance (fun _ => tablet)
      (fun _ => agent) 0) (turns 0 3 10)).any (fun sys =>
        (progress 0 sys.shared.log).committed.isSome && (sys.threads 0).returned.isSome &&
          (progress 0 sys.shared.log).emissions.any Prod.snd)) = true := by
    decide +kernel
  rcases reachable_of_follow hrun with ⟨sys, hsys, hp⟩
  rw [Bool.and_eq_true, Bool.and_eq_true, Option.isSome_iff_exists, Option.isSome_iff_exists,
    List.any_eq_true] at hp
  rcases hp with ⟨⟨⟨ws, hws⟩, r, hret⟩, ⟨em, threw⟩, hmem, hthrew⟩
  subst hthrew
  have hover : Over sys 0 := .inl ⟨r, Prog.returned_eq_some.mp hret⟩
  exact ⟨sys, ws, hsys, hws, ⟨em, hmem⟩,
    (realtime_failures hsys hws hover).mpr (fun hc => hc.1)⟩

/-! ## Counting -/

/-- A number for each entry, summed over a history. -/
def tally (f : Entry → Nat) : List Entry → Nat
  | [] => 0
  | e :: l => f e + tally f l

/-- The entries of a call. -/
def own (c : CallId) (l : List Entry) : List Entry := l.filter (fun e => decide (e.call = c))

/-- The newest entry is the call's own. -/
theorem own_cons_self {e : Entry} {l : List Entry} (h : e.call = c) :
    own c (e :: l) = e :: own c l := by
  simp only [own, List.filter_cons, h, decide_true, if_true]

/-- The newest entry is another call's. -/
theorem own_cons_ne {e : Entry} {l : List Entry} (h : e.call ≠ c) :
    own c (e :: l) = own c l := by
  simp only [own, List.filter_cons, h, decide_false, Bool.false_eq_true, if_false]

/-- Every entry belongs to one call. -/
theorem tally_by_call (f : Entry → Nat) (l : List Entry) (S : Finset CallId)
    (hS : ∀ e ∈ l, e.call ∈ S) : tally f l = ∑ c ∈ S, tally f (own c l) := by
  induction l with
  | nil => simp only [own, List.filter_nil, tally, Finset.sum_const_zero]
  | cons e l ih =>
      have hrest := ih (fun e' he' => hS e' (List.mem_cons_of_mem e he'))
      -- The entry counts for one of the calls only.
      have hsplit : ∀ c, tally f (own c (e :: l)) =
          (if e.call = c then f e else 0) + tally f (own c l) := by
        intro c
        by_cases hc : e.call = c
        · rw [own_cons_self hc, tally, if_pos hc]
        · rw [own_cons_ne hc, if_neg hc, Nat.zero_add]
      rw [tally, hrest]
      simp only [hsplit, Finset.sum_add_distrib, Finset.sum_ite_eq,
        if_pos (hS e List.mem_cons_self)]

/-- Two counts that agree on the entries of every call agree. -/
theorem tally_congr {f g : Entry → Nat} {l : List Entry}
    (h : ∀ c, tally f (own c l) = tally g (own c l)) : tally f l = tally g l := by
  have hS : ∀ e ∈ l, e.call ∈ (l.map Entry.call).toFinset :=
    fun e he => List.mem_toFinset.mpr (List.mem_map_of_mem he)
  rw [tally_by_call f l _ hS, tally_by_call g l _ hS]
  exact Finset.sum_congr rfl (fun c _ => h c)

/-- The emissions of a kind in a history. -/
def sent (p : Emission → Bool) (l : List Entry) : Nat :=
  tally (fun e => match e.event with
    | .emitted em _ => if p em then 1 else 0
    | _ => 0) l

/-- The commits of a kind of change to a request. -/
def requestCommits (q : Write Uuid SupportRequest → Bool) (l : List Entry) : Nat :=
  tally (fun e => match e.event with
    | .committed ws => ws.requests.countP q
    | _ => 0) l

/-- The commits of a kind of change to a session. -/
def sessionCommits (q : Write Uuid RemoteSession → Bool) (l : List Entry) : Nat :=
  tally (fun e => match e.event with
    | .committed ws => ws.sessions.countP q
    | _ => 0) l

/-- The emissions of a call are counted in its progress. -/
theorem sent_own (p : Emission → Bool) (l : List Entry) :
    sent p (own c l) = (progress c l).emissions.countP (fun x => p x.1) := by
  induction l with
  | nil => rfl
  | cons e l ih =>
      by_cases hc : e.call = c
      · rw [own_cons_self hc, sent, tally, progress_own hc]
        rw [sent] at ih
        rw [ih]
        cases he : e.event with
        | emitted em threw =>
            simp only [Progress.add, List.countP_append, List.countP_cons, List.countP_nil,
              Nat.zero_add]
            omega
        | ran o => cases o <;> exact Nat.zero_add _
        | _ => exact Nat.zero_add _
      · rw [own_cons_ne hc, progress_other hc, ih]

/-- A call commits once, so its commits are those of its one commit. -/
theorem commits_own {f : Writes → Nat} {l : List Entry} (h : History calls throws l) :
    tally (fun e => match e.event with | .committed ws => f ws | _ => 0) (own c l) =
      (progress c l).committed.elim 0 f := by
  induction l with
  | nil => rfl
  | cons e l ih =>
      have ih' := ih h.2
      by_cases hc : e.call = c
      · rw [own_cons_self hc, tally, progress_own hc, ih']
        have hok := h.1.event
        cases he : e.event with
        | committed ws =>
            simp only [he, hc] at hok
            simp only [hok.1, Progress.add, Option.elim_none, Option.elim_some, Nat.add_zero]
        | ran o => cases o <;> exact Nat.zero_add _
        | _ => exact Nat.zero_add _
      · rw [own_cons_ne hc, progress_other hc, ih']

/-! ## The transitions an event is for -/

/-- The write takes a request from the one status to the other. -/
@[simp] def requestStep (k : Uuid) (source target : SupportRequestStatus)
    (w : Write Uuid SupportRequest) : Bool :=
  decide (w.key = k) && w.old.any (fun r => decide (r.status = source)) &&
    decide (w.new.status = target)

/-- The request enters or leaves the queue. -/
@[simp] def queueStep (k : Uuid) (w : Write Uuid SupportRequest) : Bool :=
  decide (w.key = k) &&
    (w.old.any (fun r => decide (r.status = .waiting)) != decide (w.new.status = .waiting))

/-- The changes the technician of a request is told of. -/
@[simp] def technicianStep (k : Uuid) (w : Write Uuid SupportRequest) : Bool :=
  requestStep k .assigned .accepted w || requestStep k .assigned .rejected w ||
    requestStep k .assigned .cancelled w || requestStep k .accepted .cancelled w

/-- The session is inserted. -/
@[simp] def openingStep (k : Uuid) (w : Write Uuid RemoteSession) : Bool :=
  decide (w.key = k) && w.old.isNone

/-- The session goes from connecting to active. -/
@[simp] def activationStep (k : Uuid) (w : Write Uuid RemoteSession) : Bool :=
  decide (w.key = k) && w.old.any (fun s => decide (s.status = .connecting)) &&
    decide (w.new.status = .active)

/-- The session stops being live. -/
@[simp] def closingStep (k : Uuid) (w : Write Uuid RemoteSession) : Bool :=
  decide (w.key = k) && w.old.any RemoteSession.isLive && decide (w.new.status = .closed)

/-! ## The events -/

namespace Emission

/-- The queue has changed, for this request. -/
@[simp] def isQueueUpdated (k : Uuid) (e : Emission) : Bool :=
  decide (e.message = .supportRequestQueueUpdated k)

/-- The request has changed, for its technician. -/
@[simp] def isUpdated (k : Uuid) (e : Emission) : Bool :=
  decide (e.message = .supportRequestUpdated k)

/-- The request was assigned. -/
@[simp] def isAssigned (k : Uuid) (e : Emission) : Bool :=
  match e.message with
  | .supportAssigned id _ => decide (id = k)
  | _ => false

/-- The session was created. -/
@[simp] def isCreated (k : Uuid) (e : Emission) : Bool :=
  match e.message with
  | .remoteSessionCreated id _ _ => decide (id = k)
  | _ => false

/-- To the device or to the technician, by the way it is emitted. -/
@[simp] def isActive (k : Uuid) (emitter : Emitter) (e : Emission) : Bool :=
  decide (e.message = .remoteSessionActive k ∧ e.emitter = emitter)

/-- The session was closed. -/
@[simp] def isClosed (k : Uuid) (e : Emission) : Bool :=
  match e.message with
  | .remoteSessionClosed id _ => decide (id = k)
  | _ => false

end Emission

/-- The end of a session that did not close it. -/
def RemoteSession.otherEnd (s : RemoteSession) : RemoteSessionEndedBy → Option Recipient
  | .technician => some (.device s.deviceId)
  | .device => some (.technician s.technicianId)
  | .system => none

/-- The emission goes to whom the stored row says, and says what it says. -/
def Addressed (T : Tables) (e : Emission) : Prop :=
  match e.message with
  | .supportAssigned k technician => ∃ r, T.requests k = some r ∧
      r.technicianId = some technician.id ∧ e.recipient = .device r.deviceId
  | .supportRequestUpdated k => ∃ r t, T.requests k = some r ∧ r.technicianId = some t ∧
      e.recipient = .technician t
  | .supportRequestQueueUpdated k => (T.requests k).isSome ∧ e.recipient = .allTechnicians
  | .remoteSessionCreated k id technician => ∃ s, T.sessions k = some s ∧
      s.supportRequestId = id ∧ s.technicianId = technician.id ∧ e.recipient = .device s.deviceId
  | .remoteSessionActive k => ∃ s, T.sessions k = some s ∧
      (e.recipient = .device s.deviceId ∨ e.recipient = .technician s.technicianId)
  | .remoteSessionClosed k endedBy => ∃ s, T.sessions k = some s ∧ s.endedBy = some endedBy ∧
      s.otherEnd endedBy = some e.recipient

/-! ## One commit -/

section Commits

variable {T T' : Tables} {t : Timestamp} {op : Operation} {ws : Writes}

/-- A request that was taken has a technician. -/
theorem Consistent.technician (hc : Consistent T) {k : Uuid} {r : SupportRequest}
    (hr : T.requests k = some r) (hs : r.status = .assigned ∨ r.status = .accepted) :
    ∃ technicianId, r.technicianId = some technicianId := by
  have hwf := hc.requestWellFormed k r hr
  rcases hs with hs | hs <;> rw [SupportRequest.WellFormed, hs] at hwf <;>
    exact Option.isSome_iff_exists.mp hwf.1

/-- A commit calls for each event as often as it makes the transition the
    event is for. -/
theorem Explains.announced (h : Explains T t op ws) (hc : Consistent T) (k : Uuid) :
    (announcements op ws).countP (Emission.isQueueUpdated k) =
      ws.requests.countP (queueStep k) ∧
    (announcements op ws).countP (Emission.isUpdated k) =
      ws.requests.countP (technicianStep k) ∧
    (announcements op ws).countP (Emission.isAssigned k) =
      ws.requests.countP (requestStep k .waiting .assigned) ∧
    (announcements op ws).countP (Emission.isCreated k) = ws.sessions.countP (openingStep k) ∧
    (announcements op ws).countP (Emission.isActive k .emitToDevice) =
      ws.sessions.countP (activationStep k) ∧
    (announcements op ws).countP (Emission.isActive k .emitToTechnician) =
      ws.sessions.countP (activationStep k) ∧
    (announcements op ws).countP (Emission.isClosed k) = ws.sessions.countP (closingStep k) := by
  cases h with
  | created device id createdAt hactive hfresh hfree =>
      simp [announcements, requestWrites, queueUpdated, newRequest, hfresh, List.countP_cons]
  | assigned id technician r hr hs =>
      simp [announcements, requestWrites, queueUpdated, SupportRequestTransition.apply,
        assignment, hr, hs, List.countP_cons]
  | accepted id device r hr hd hs =>
      rcases hc.technician hr (.inl hs) with ⟨technicianId, ht⟩
      simp [announcements, requestWrites, technicianUpdated, SupportRequestTransition.apply,
        acceptance, hr, hs, ht, List.countP_cons]
  | rejected id device r hr hd hs =>
      rcases hc.technician hr (.inl hs) with ⟨technicianId, ht⟩
      simp [announcements, requestWrites, technicianUpdated, SupportRequestTransition.apply,
        rejection, hr, hs, ht, List.countP_cons]
  | cancelled id device r hr hd hs hnone htime =>
      -- Which of the two events it is depends on the status that was left.
      rcases isActive_iff.mp hs with hw | ha
      · simp [announcements, requestWrites, cancelNotice, queueUpdated,
          SupportRequestTransition.apply, cancellation, hr, hw, List.countP_cons]
      · rcases hc.technician hr ha with ⟨technicianId, ht⟩
        rcases ha with ha | ha <;>
        simp [announcements, requestWrites, cancelNotice, technicianUpdated,
          SupportRequestTransition.apply, cancellation, hr, ha, ht, List.countP_cons]
  | opened id user r sid createdAt hr hu hs hfresh hfree =>
      simp [announcements, sessionWrites, newSession, hfresh, List.countP_cons]
  | activated id user s hs hu hst =>
      simp [announcements, sessionWrites, RemoteSessionChanges.apply, activation,
        Emission.emitter, hs, hst, List.countP_cons]
  | repeated id user s hs hu hst => simp [announcements]
  | closedByTechnician id user s r hs hu hl hr hst ht =>
      simp [announcements, closureWrites, closedMessage, SupportRequestTransition.apply, completion,
        RemoteSessionChanges.apply, closure, hs, hl, hr, hst, List.countP_cons]
  | closedByDevice id user s r hs hu hl hr hst ht =>
      simp [announcements, closureWrites, closedMessage, SupportRequestTransition.apply, completion,
        RemoteSessionChanges.apply, closure, hs, hl, hr, hst, List.countP_cons]

/-- Where an emission belongs is read off columns that do not change any more. -/
theorem Addressed.grows (hg : Grows T T') {e : Emission} (h : Addressed T e) :
    Addressed T' e := by
  unfold Addressed at h ⊢
  cases hm : e.message with
  | supportAssigned k technician =>
      simp only [hm] at h ⊢
      rcases h with ⟨r, hr, ht, hto⟩
      rcases hg.requests k r hr with ⟨r', hr', hk⟩
      exact ⟨r', hr', hk.technicianId _ ht, by rw [hk.deviceId]; exact hto⟩
  | supportRequestUpdated k =>
      simp only [hm] at h ⊢
      rcases h with ⟨r, technicianId, hr, ht, hto⟩
      rcases hg.requests k r hr with ⟨r', hr', hk⟩
      exact ⟨r', technicianId, hr', hk.technicianId _ ht, hto⟩
  | supportRequestQueueUpdated k =>
      simp only [hm] at h ⊢
      rcases Option.isSome_iff_exists.mp h.1 with ⟨r, hr⟩
      rcases hg.requests k r hr with ⟨r', hr', _⟩
      exact ⟨by rw [hr']; rfl, h.2⟩
  | remoteSessionCreated k id technician =>
      simp only [hm] at h ⊢
      rcases h with ⟨s, hs, hid, ht, hto⟩
      rcases hg.sessions k s hs with ⟨s', hs', hk⟩
      exact ⟨s', hs', by rw [hk.supportRequestId, hid], by rw [hk.technicianId, ht],
        by rw [hk.deviceId]; exact hto⟩
  | remoteSessionActive k =>
      simp only [hm] at h ⊢
      rcases h with ⟨s, hs, hto⟩
      rcases hg.sessions k s hs with ⟨s', hs', hk⟩
      exact ⟨s', hs', by rw [hk.deviceId, hk.technicianId]; exact hto⟩
  | remoteSessionClosed k endedBy =>
      simp only [hm] at h ⊢
      rcases h with ⟨s, hs, hended, hto⟩
      rcases hg.sessions k s hs with ⟨s', hs', hk⟩
      refine ⟨s', hs', hk.endedBy _ hended, ?_⟩
      rw [← hto]
      cases endedBy <;> simp only [RemoteSession.otherEnd, hk.deviceId, hk.technicianId]

/-- What a commit calls for goes to whom the rows it leaves say. -/
theorem Explains.addressed (h : Explains T t op ws) {e : Emission}
    (he : e ∈ announcements op ws) : Addressed (T.apply ws) e := by
  rcases h.written with ⟨hrequest, hsession⟩
  -- An event to the technician of a request goes to the one the row names.
  have hnotified : ∀ w ∈ ws.requests, e ∈ technicianUpdated w → Addressed (T.apply ws) e := by
    intro w hw hmem
    simp only [technicianUpdated, List.mem_map, Option.mem_toList] at hmem
    rcases hmem with ⟨technicianId, ht, rfl⟩
    exact ⟨w.new, technicianId, hrequest w hw, ht, rfl⟩
  have hqueue : ∀ w ∈ ws.requests, Addressed (T.apply ws) (queueUpdated w.key) :=
    fun w hw => ⟨by rw [hrequest w hw]; rfl, rfl⟩
  cases h with
  | created device id createdAt hactive hfresh hfree =>
      rw [announcements, List.mem_map] at he
      rcases he with ⟨w, hw, rfl⟩
      exact hqueue w hw
  | assigned id technician r hr hs =>
      simp only [announcements, List.mem_flatMap, List.mem_cons, List.not_mem_nil, or_false] at he
      rcases he with ⟨w, hw, rfl | rfl⟩
      · refine ⟨w.new, hrequest w hw, ?_, rfl⟩
        rw [requestWrites, List.mem_singleton] at hw
        rw [hw]
        rfl
      · exact hqueue w hw
  | accepted id device r hr hd hs =>
      rw [announcements, List.mem_flatMap] at he
      rcases he with ⟨w, hw, hmem⟩
      exact hnotified w hw hmem
  | rejected id device r hr hd hs =>
      rw [announcements, List.mem_flatMap] at he
      rcases he with ⟨w, hw, hmem⟩
      exact hnotified w hw hmem
  | cancelled id device r hr hd hs hnone htime =>
      rw [announcements, List.mem_flatMap] at he
      rcases he with ⟨w, hw, hmem⟩
      -- A request that was waiting leaves the queue, another one has a technician to
      -- tell.
      by_cases hq : w.old.any (fun r => decide (r.status = .waiting)) = true
      · rw [cancelNotice, if_pos hq, List.mem_singleton] at hmem
        rw [hmem]
        exact hqueue w hw
      · rw [cancelNotice, if_neg hq] at hmem
        exact hnotified w hw hmem
  | opened id user r sid createdAt hr hu hs hfresh hfree =>
      rw [announcements, List.mem_map] at he
      rcases he with ⟨w, hw, rfl⟩
      refine ⟨w.new, hsession w hw, rfl, ?_, rfl⟩
      rw [sessionWrites, List.mem_singleton] at hw
      rw [hw]
      rfl
  | activated id user s hs hu hst =>
      simp only [announcements, List.mem_flatMap, List.mem_cons, List.not_mem_nil, or_false] at he
      rcases he with ⟨w, hw, rfl | rfl⟩
      · exact ⟨w.new, hsession w hw, .inl rfl⟩
      · exact ⟨w.new, hsession w hw, .inr rfl⟩
  | repeated id user s hs hu hst =>
      simp only [announcements, List.flatMap_nil, List.not_mem_nil] at he
  | closedByTechnician id user s r hs hu hl hr hst ht =>
      rw [announcements, List.mem_map] at he
      rcases he with ⟨w, hw, rfl⟩
      refine ⟨w.new, hsession w hw, ?_, ?_⟩ <;>
        (rw [closureWrites, List.mem_singleton] at hw; rw [hw]; rfl)
  | closedByDevice id device s r hs hd hl hr hst ht =>
      rw [announcements, List.mem_map] at he
      rcases he with ⟨w, hw, rfl⟩
      refine ⟨w.new, hsession w hw, ?_, ?_⟩ <;>
        (rw [closureWrites, List.mem_singleton] at hw; rw [hw]; rfl)

end Commits

/-! ## A run in which nothing throws -/

/-- A call without an entry has not begun. -/
theorem progress_of_no_entry {l : List Entry} (h : ∀ e ∈ l, e.call ≠ c) :
    progress c l = Progress.start := by
  induction l with
  | nil => rfl
  | cons e l ih =>
      rw [progress_other (h e List.mem_cons_self)]
      exact ih (fun e' he' => h e' (List.mem_cons_of_mem e he'))

/-- Once a call is over, its emissions are those its commit calls for; a call
    that has not begun has none. -/
theorem Reachable.settled {sys : Calls} (h : Reachable calls quiet sys)
    (hdone : (progress c sys.shared.log).entered.isSome → Over sys c) :
    (progress c sys.shared.log).emissions.map Prod.fst =
      (progress c sys.shared.log).committed.elim [] (announcements (calls c)) := by
  by_cases hentered : (progress c sys.shared.log).entered.isSome
  · -- It has begun, so it is over.
    rcases hdone hentered with ⟨r, hr⟩ | ⟨e, he⟩
    · rcases h.returned hr with ⟨_, before, a, ws, ha, _⟩
      rw [ha.progress]
      simp only [Progress.gone, announcing, RemoteControl.attempts, List.map_map, Option.elim_some]
      exact List.map_id _
    · rcases h.raised he with ⟨before, a, n, ha, _⟩ | ⟨_, _, ht, _⟩
      · rw [ha.progress]
        rfl
      · simp only [quiet, Bool.false_eq_true] at ht
  -- It has not begun, so it has no entry.
  · have hnone : ∀ e ∈ sys.shared.log, e.call ≠ c := by
      rintro e he rfl
      rcases List.append_of_mem he with ⟨l₁, l₂, hlog⟩
      have hhist := h.inv.history
      rw [hlog] at hhist hentered
      rcases entered_of_entry (hhist.suffix ⟨l₁, rfl⟩) with ⟨before, hb, _⟩
      rw [entered_kept hhist hb] at hentered
      exact hentered rfl
    rw [progress_of_no_entry hnone]
    rfl

/-- An event that every commit calls for as often as it makes some transition
    is sent as often as the transition is made. -/
theorem Reachable.sent_eq {sys : Calls} (h : Reachable calls quiet sys)
    (hdone : ∀ c, (progress c sys.shared.log).entered.isSome → Over sys c)
    {p : Emission → Bool} {f : Writes → Nat}
    (hf : ∀ T t op ws, Consistent T → Explains T t op ws →
      (announcements op ws).countP p = f ws) :
    sent p sys.shared.log = tally (fun e => match e.event with
      | .committed ws => f ws
      | _ => 0) sys.shared.log := by
  refine tally_congr (fun c => ?_)
  rw [commits_own h.inv.history]
  have hown : tally _ (own c sys.shared.log) = _ := sent_own p sys.shared.log
  refine hown.trans ?_
  -- The count over the emissions is the count over what the commit calls for.
  have hmap := congrArg (List.countP p) (h.settled (hdone c))
  rw [List.countP_map] at hmap
  refine hmap.trans ?_
  cases hc : (progress c sys.shared.log).committed with
  | none => rfl
  | some ws =>
      rcases committed_entry hc with ⟨e, l, hs, hcall, he⟩
      rcases h.inv.explained hs he with ⟨hcons, t, hx⟩
      rw [hcall] at hx
      exact hf _ _ _ _ hcons hx

/-- The emissions of a run in which nothing throws and every call that was
    made is over. Every event is sent as often as its transition is made, to
    whom the stored rows say, after the commit and before the call returns;
    a call that is refused sends nothing, and neither does one that repeats. -/
theorem exactly_once_notification {sys : Calls} (h : Reachable calls quiet sys)
    (hdone : ∀ c, (progress c sys.shared.log).entered.isSome → Over sys c) :
    (∀ k,
      sent (Emission.isQueueUpdated k) sys.shared.log =
        requestCommits (queueStep k) sys.shared.log ∧
      sent (Emission.isUpdated k) sys.shared.log =
        requestCommits (technicianStep k) sys.shared.log ∧
      sent (Emission.isAssigned k) sys.shared.log =
        requestCommits (requestStep k .waiting .assigned) sys.shared.log ∧
      sent (Emission.isCreated k) sys.shared.log =
        sessionCommits (openingStep k) sys.shared.log ∧
      sent (Emission.isActive k .emitToDevice) sys.shared.log =
        sessionCommits (activationStep k) sys.shared.log ∧
      sent (Emission.isActive k .emitToTechnician) sys.shared.log =
        sessionCommits (activationStep k) sys.shared.log ∧
      sent (Emission.isClosed k) sys.shared.log =
        sessionCommits (closingStep k) sys.shared.log) ∧
    (∀ e l em threw, e :: l <:+ sys.shared.log → e.event = .emitted em threw →
      Addressed sys.shared.tables em ∧ (progress e.call l).left = false ∧
      ∃ ws, (progress e.call l).committed = some ws ∧
        em ∈ announcements (calls e.call) ws) ∧
    (∀ c e, sys.threads c = .throw e → (progress c sys.shared.log).emissions = []) ∧
    (∀ c ws, (progress c sys.shared.log).committed = some ws → ws.requests = [] →
      ws.sessions = [] → (progress c sys.shared.log).emissions = []) := by
  refine ⟨fun k => ⟨?_, ?_, ?_, ?_, ?_, ?_, ?_⟩, ?_, ?_, ?_⟩
  · exact h.sent_eq hdone (fun T t op ws hc hx => (hx.announced hc k).1)
  · exact h.sent_eq hdone (fun T t op ws hc hx => (hx.announced hc k).2.1)
  · exact h.sent_eq hdone (fun T t op ws hc hx => (hx.announced hc k).2.2.1)
  · exact h.sent_eq hdone (fun T t op ws hc hx => (hx.announced hc k).2.2.2.1)
  · exact h.sent_eq hdone (fun T t op ws hc hx => (hx.announced hc k).2.2.2.2.1)
  · exact h.sent_eq hdone (fun T t op ws hc hx => (hx.announced hc k).2.2.2.2.2.1)
  · exact h.sent_eq hdone (fun T t op ws hc hx => (hx.announced hc k).2.2.2.2.2.2)
  · -- The emission comes after the commit of its call, and before its end.
    intro e l em threw hs he
    have hok := (h.inv.history.suffix hs).1
    have hev := hok.event
    simp only [he] at hev
    rcases hev with ⟨_, ws, hws, hmem⟩
    refine ⟨?_, hok.notLeft, ws, hws, hmem⟩
    rcases committed_entry hws with ⟨e', l', hs', hcall, he'⟩
    have hsuffix := hs'.trans ((List.suffix_cons e l).trans hs)
    rcases h.inv.explained hsuffix he' with ⟨_, t, hx⟩
    rw [hcall] at hx
    -- Since then the rows have only grown.
    have hgrows := h.inv.grows_since hsuffix
    simp only [replay, he'] at hgrows
    exact (hx.addressed hmem).grows hgrows
  · -- A call that has thrown has not committed, as no emission throws.
    intro c e he
    rcases h.raised he with ⟨before, a, n, ha, _⟩ | ⟨_, _, ht, _⟩
    · rw [ha.progress]
      rfl
    · simp only [quiet, Bool.false_eq_true] at ht
  · -- A commit that writes nothing calls for nothing.
    intro c ws hws hreq hses
    have hmap := h.settled (hdone c)
    rw [hws, Option.elim_some] at hmap
    have hnil : announcements (calls c) ws = [] := by
      cases calls c <;> simp only [announcements, hreq, hses, List.map_nil, List.flatMap_nil]
    rw [hnil, List.map_eq_nil_iff] at hmap
    exact hmap

/-- An assistance from the request to the closure: its end is one closure,
    told once. -/
theorem exactly_once_notification_assistance : ∃ sys, Reachable assistance quiet sys ∧
    sent (Emission.isClosed 20) sys.shared.log = 1 := by
  have hrun : ((follow (exec quiet) (boot assistance (fun _ => tablet) (fun _ => agent) 0)
      (opening ++ turns 4 11 0 ++ turns 5 11 0)).any (fun sys =>
        sys.shared.log.all (fun e => (sys.threads e.call).returned.isSome) &&
        decide (sessionCommits (closingStep 20) sys.shared.log = 1))) = true := by
    decide +kernel
  rcases reachable_of_follow hrun with ⟨sys, hsys, hp⟩
  rw [Bool.and_eq_true, List.all_eq_true, decide_eq_true_eq] at hp
  -- A call that has begun has an entry, and those with an entry have returned.
  have hdone : ∀ c, (progress c sys.shared.log).entered.isSome → Over sys c := by
    intro c hc
    by_cases hentry : ∃ e ∈ sys.shared.log, e.call = c
    · rcases hentry with ⟨e, he, rfl⟩
      rcases Option.isSome_iff_exists.mp (hp.1 e he) with ⟨r, hr⟩
      exact .inl ⟨r, Prog.returned_eq_some.mp hr⟩
    · rw [progress_of_no_entry (fun e he hcall => hentry ⟨e, he, hcall⟩)] at hc
      simp only [Progress.start, Option.isSome_none, Bool.false_eq_true] at hc
  exact ⟨sys, hsys, by rw [((exactly_once_notification hsys hdone).1 20).2.2.2.2.2.2, hp.2]⟩

end RemoteControl

import RemoteControl.Theory.Transitions

/-!
# The Abstract Machine

What the nine calls are for, said without statements, transactions or times.
A request has an owner, perhaps a technician, and a status; a session has its
request, its two ends, a status, and who ended it. Each call looks at the
state once, at one moment, and either changes it or refuses.

The machine is the reference the interleaved system is compared with. Its
state is a projection of the committed rows (`view`), and a commit that
`Explains` accounts for is, seen through the projection, the call's step of
the machine (`Explains.performs`). The refusals are stated one by one, each
with the fact about the rows that a program has found when it gives up.

The presence of the device is an input of a call, and so is the identifier
of a row it creates.

The refusals are not read off the definition of `perform` case by case later
on. A program that gives up has just found something out about the rows, and
the lemma to use is the one that begins with what it has found. For a row that
is missing or somebody else's there is one lemma for each call, because a
query for the row of an owner does not tell the two apart.

## Main definitions

* `Machine.State`: Requests and sessions, without their times.
* `Machine.Outcome`: The class of a call's answer.
* `Machine.perform`: A call as one step.
* `view`: The machine state of the committed rows.
* `Refuses`: The call changes nothing and answers with that class.
* `Machine.Fresh`: The identifier is free where one is needed.

## Theorems

* `Explains.performs`: An explained commit is a step of the machine.
* `refuses_assign`, `refuses_answer`, `refuses_cancel`, `refuses_create`,
  `refuses_activate`, `refuses_close`: Refusals by what the rows are, each with
  a companion for a row that is missing.
* `refuses_inactive`, `refuses_second_request`: The other refusals of a
  creation.
-/

namespace RemoteControl

open Concurrency

namespace Machine

/-- A request without its times. -/
structure RequestState where
  deviceId : Uuid
  technicianId : Option Uuid
  status : SupportRequestStatus

/-- A session without its times. -/
structure SessionState where
  supportRequestId : Uuid
  deviceId : Uuid
  technicianId : Uuid
  status : RemoteSessionStatus
  endedBy : Option RemoteSessionEndedBy

/-- The requests and the sessions there are. -/
structure State where
  requests : Uuid → Option RequestState
  sessions : Uuid → Option SessionState

/-- How a call is answered, up to the words. -/
inductive Outcome where
  | success
  | forbidden
  | notFound
  | conflict
  deriving DecidableEq, Repr

/-- The sessions and the other requests stay. -/
def State.setRequest (S : State) (id : Uuid) (r : RequestState) : State :=
  { S with requests := Function.update S.requests id (some r) }

/-- The requests and the other sessions stay. -/
def State.setSession (S : State) (id : Uuid) (s : SessionState) : State :=
  { S with sessions := Function.update S.sessions id (some s) }

/-- A device has one active request at most. -/
def State.HasActiveRequest (S : State) (deviceId : Uuid) : Prop :=
  ∃ k r, S.requests k = some r ∧ r.deviceId = deviceId ∧ r.status ∈ activeSupportRequestStatuses

/-- A technician has one live session at most. -/
def State.Busy (S : State) (technicianId : Uuid) : Prop :=
  ∃ k s, S.sessions k = some s ∧ s.technicianId = technicianId ∧ s.status ≠ .closed

/-- A request with a live session can no longer be cancelled. -/
def State.Started (S : State) (supportRequestId : Uuid) : Prop :=
  ∃ k s, S.sessions k = some s ∧ s.supportRequestId = supportRequestId ∧ s.status ≠ .closed

/-- The device answers the technician assigned to its request. -/
def State.answer (S : State) (id deviceId : Uuid) (status : SupportRequestStatus) :
    Outcome × State :=
  match (S.requests id).filter (fun r => decide (r.deviceId = deviceId)) with
  | none => (.notFound, S)
  | some r => if r.status = .assigned then (.success, S.setRequest id { r with status })
    else (.conflict, S)

/-- One end closes a session, and the request is completed with it. A session that
    is closed already is a conflict, whoever has closed it. -/
def State.close (S : State) (id : Uuid) (owned : SessionState → Bool)
    (endedBy : RemoteSessionEndedBy) : Outcome × State :=
  match (S.sessions id).filter owned with
  | none => (.notFound, S)
  | some s => if s.status = .closed then (.conflict, S)
    else
      let closed := S.setSession id { s with status := .closed, endedBy := some endedBy }
      match S.requests s.supportRequestId with
      | none => (.success, closed)
      | some r => (.success, closed.setRequest s.supportRequestId { r with status := .completed })

open Classical in
/-- A call as one step. `online` is the presence of the device it concerns,
    and `newId` the identifier of a row it creates. -/
noncomputable def perform (op : Operation) (online : Bool) (newId : Uuid) (S : State) :
    Outcome × State :=
  match op with
  | .createForDevice device =>
    if device.isActive = false then (.forbidden, S)
    else if S.HasActiveRequest device.id then (.conflict, S)
    else (.success, S.setRequest newId ⟨device.id, none, .waiting⟩)
  | .assign id technician => match S.requests id with
    | none => (.notFound, S)
    | some r => if r.status = .waiting ∧ online = true then
        (.success,
          S.setRequest id { r with status := .assigned, technicianId := some technician.id })
      else (.conflict, S)
  | .acceptByDevice id device => S.answer id device.id .accepted
  | .rejectByDevice id device => S.answer id device.id .rejected
  | .cancelByDevice id device =>
    match (S.requests id).filter (fun r => decide (r.deviceId = device.id)) with
    | none => (.notFound, S)
    | some r => if r.status ∈ activeSupportRequestStatuses ∧ ¬ S.Started id then
        (.success, S.setRequest id { r with status := .cancelled })
      else (.conflict, S)
  | .create id user =>
    match (S.requests id).filter (fun r => decide (r.technicianId = some user.id)) with
    | none => (.notFound, S)
    | some r => if r.status = .accepted ∧ ¬ S.Busy user.id ∧ online = true then
        (.success, S.setSession newId ⟨id, r.deviceId, user.id, .connecting, none⟩)
      else (.conflict, S)
  | .activateByTechnician id user =>
    match (S.sessions id).filter (fun s => decide (s.technicianId = user.id)) with
    | none => (.notFound, S)
    | some s => match s.status with
      | .closed => (.conflict, S)
      | .active => (.success, S)
      | .connecting => (.success, S.setSession id { s with status := .active })
  | .closeByTechnician id user =>
    S.close id (fun s => decide (s.technicianId = user.id)) .technician
  | .closeByDevice id device => S.close id (fun s => decide (s.deviceId = device.id)) .device

/-- The identifier is not in use where the call would create a row with it. -/
def Fresh (op : Operation) (newId : Uuid) (S : State) : Prop :=
  match op with
  | .createForDevice _ => S.requests newId = none
  | .create _ _ => S.sessions newId = none
  | _ => True

end Machine

open Machine

/-! ## The machine state of the committed rows -/

/-- What the machine sees of a request. -/
def SupportRequest.view (r : SupportRequest) : RequestState :=
  { deviceId := r.deviceId, technicianId := r.technicianId, status := r.status }

/-- What the machine sees of a session. -/
def RemoteSession.view (s : RemoteSession) : SessionState :=
  { supportRequestId := s.supportRequestId, deviceId := s.deviceId
    technicianId := s.technicianId, status := s.status, endedBy := s.endedBy }

/-- What the machine sees of the committed rows. -/
def view (T : Tables) : State :=
  { requests := fun k => (T.requests k).map SupportRequest.view
    sessions := fun k => (T.sessions k).map RemoteSession.view }

/-- A committed request is seen. -/
theorem view_request {T : Tables} {k : Uuid} {r : SupportRequest} (h : T.requests k = some r) :
    (view T).requests k = some r.view := by
  simp only [view, h, Option.map_some]

/-- A committed session is seen. -/
theorem view_session {T : Tables} {k : Uuid} {s : RemoteSession} (h : T.sessions k = some s) :
    (view T).sessions k = some s.view := by
  simp only [view, h, Option.map_some]

/-- A session that is seen is committed. -/
theorem view_session_inv {T : Tables} {k : Uuid} {s : SessionState}
    (h : (view T).sessions k = some s) : ∃ s', T.sessions k = some s' ∧ s'.view = s := by
  simp only [view, Option.map_eq_some_iff] at h
  exact h

/-- A request that is seen is committed. -/
theorem view_request_inv {T : Tables} {k : Uuid} {r : RequestState}
    (h : (view T).requests k = some r) : ∃ r', T.requests k = some r' ∧ r'.view = r := by
  simp only [view, Option.map_eq_some_iff] at h
  exact h

/-- A query for a request, seen through the projection. -/
theorem view_filter_request {T : Tables} {k : Uuid} {r : SupportRequest}
    {p : RequestState → Bool} (h : T.requests k = some r) (hp : p r.view = true) :
    ((view T).requests k).filter p = some r.view := by
  rw [view_request h, Option.filter_some, if_pos hp]

/-- A query for a session, seen through the projection. -/
theorem view_filter_session {T : Tables} {k : Uuid} {s : RemoteSession}
    {p : SessionState → Bool} (h : T.sessions k = some s) (hp : p s.view = true) :
    ((view T).sessions k).filter p = some s.view := by
  rw [view_session h, Option.filter_some, if_pos hp]

/-- No row under the key has what the query asks for. -/
theorem view_filter_request_none {T : Tables} {k : Uuid} {p : RequestState → Bool}
    (h : ∀ r, T.requests k = some r → p r.view = false) :
    ((view T).requests k).filter p = none := by
  rw [Option.filter_eq_none_iff]
  intro r hr
  rcases view_request_inv hr with ⟨r', hr', rfl⟩
  rw [h r' hr']
  simp only [Bool.false_eq_true, not_false_eq_true]

/-- No session under the key has what the query asks for. -/
theorem view_filter_session_none {T : Tables} {k : Uuid} {p : SessionState → Bool}
    (h : ∀ s, T.sessions k = some s → p s.view = false) :
    ((view T).sessions k).filter p = none := by
  rw [Option.filter_eq_none_iff]
  intro s hs
  rcases view_session_inv hs with ⟨s', hs', rfl⟩
  rw [h s' hs']
  simp only [Bool.false_eq_true, not_false_eq_true]

/-- A commit of one request, seen through the projection. -/
theorem view_apply_request {T : Tables} (id : Uuid) (row : SupportRequest) :
    view (T.apply (requestWrites T.requests id row)) = (view T).setRequest id row.view := by
  simp only [view, State.setRequest, apply_requestWrites_sessions, State.mk.injEq, and_true]
  funext k
  rw [apply_requestWrites]
  by_cases hk : id = k
  · subst hk
    simp only [if_true, Option.map_some, Function.update_self]
  · rw [if_neg hk, Function.update_of_ne (fun hc => hk hc.symm)]

/-- A commit of one session, seen through the projection. -/
theorem view_apply_session {T : Tables} (id : Uuid) (row : RemoteSession) :
    view (T.apply (sessionWrites T.sessions id row)) = (view T).setSession id row.view := by
  simp only [view, State.setSession, apply_sessionWrites_requests, State.mk.injEq, true_and]
  funext k
  rw [apply_sessionWrites]
  by_cases hk : id = k
  · subst hk
    simp only [if_true, Option.map_some, Function.update_self]
  · rw [if_neg hk, Function.update_of_ne (fun hc => hk hc.symm)]

/-- A commit of a closure, seen through the projection. -/
theorem view_apply_closure {T : Tables} (id : Uuid) (s : RemoteSession) (r : SupportRequest)
    (t : Timestamp) (endedBy : RemoteSessionEndedBy) :
    view (T.apply (closureWrites T id s r t endedBy)) =
      ((view T).setSession id ((closure t endedBy).apply s).view).setRequest s.supportRequestId
        ((completion t).apply r).view := by
  simp only [view, State.setSession, State.setRequest, State.mk.injEq]
  -- The two tables change under one key each.
  constructor
  · funext k
    simp only [Tables.apply, closureWrites, applyWrites_single]
    by_cases hk : s.supportRequestId = k
    · subst hk
      simp only [if_true, Option.map_some, Function.update_self]
    · rw [if_neg hk, Function.update_of_ne (fun hc => hk hc.symm)]
  · funext k
    simp only [Tables.apply, closureWrites, applyWrites_single]
    by_cases hk : id = k
    · subst hk
      simp only [if_true, Option.map_some, Function.update_self]
    · rw [if_neg hk, Function.update_of_ne (fun hc => hk hc.symm)]

/-! ## Commits are steps of the machine -/

/-- The calls that ask whether the device is online before they commit. -/
def Operation.NeedsPresence : Operation → Prop
  | .assign _ _ => True
  | .create _ _ => True
  | _ => False

/-- The closing calls, told apart by who owns the session and who ends it. The
    request is there, because a live session has one. -/
theorem closure_performs {T : Tables} {id : Uuid} {s : RemoteSession} {r : SupportRequest}
    {owned : SessionState → Bool} (t : Timestamp) (endedBy : RemoteSessionEndedBy)
    (hs : T.sessions id = some s) (ho : owned s.view = true) (hl : s.isLive = true)
    (hr : T.requests s.supportRequestId = some r) :
    (view T).close id owned endedBy =
      (.success, view (T.apply (closureWrites T id s r t endedBy))) := by
  have hopen : ¬ (s.view.status = .closed) := isLive_iff.mp hl
  have hreq : (view T).requests s.view.supportRequestId = some r.view := view_request hr
  rw [view_apply_closure]
  simp only [State.close, view_filter_session hs ho, if_neg hopen, hreq]
  rfl

/-- Seen through the projection, an explained commit is the call's step. The
    identifier of a new row is the one that was committed, and with any other call
    it does not matter. -/
theorem Explains.performs {T : Tables} {t : Timestamp} {op : Operation} {ws : Writes}
    (hx : Explains T t op ws) (h : Consistent T) (online : Bool)
    (honline : op.NeedsPresence → online = true) :
    ∃ newId, Fresh op newId (view T) ∧
      perform op online newId (view T) = (.success, view (T.apply ws)) := by
  cases hx with
  | created device id createdAt hactive hfresh hfree =>
      refine ⟨id, by simp only [Fresh, view, hfresh, Option.map_none], ?_⟩
      -- The unique index had no key for the device.
      have hidle : ¬ (view T).HasActiveRequest device.id := by
        rintro ⟨k, r, hr, hd, hs⟩
        rcases view_request_inv hr with ⟨r', hr', rfl⟩
        have hf := hfree k r' hr' hd
        simp only [SupportRequest.isActive, decide_eq_false_iff_not] at hf
        exact hf hs
      simp only [perform, hactive, Bool.true_eq_false, if_false, if_neg hidle,
        view_apply_request]
      rfl
  | assigned id technician r hr hs =>
      refine ⟨0, trivial, ?_⟩
      have hgo : r.view.status = .waiting ∧ online = true := ⟨hs, honline trivial⟩
      simp only [perform, view_request hr, if_pos hgo, view_apply_request]
      rfl
  | accepted id device r hr hd hs =>
      refine ⟨0, trivial, ?_⟩
      have hgo : r.view.status = .assigned := hs
      simp only [perform, State.answer, view_apply_request,
        view_filter_request hr (p := fun r => decide (r.deviceId = device.id))
          (decide_eq_true hd), if_pos hgo]
      rfl
  | rejected id device r hr hd hs =>
      refine ⟨0, trivial, ?_⟩
      have hgo : r.view.status = .assigned := hs
      simp only [perform, State.answer, view_apply_request,
        view_filter_request hr (p := fun r => decide (r.deviceId = device.id))
          (decide_eq_true hd), if_pos hgo]
      rfl
  | cancelled id device r hr hd hs hnone ht =>
      refine ⟨0, trivial, ?_⟩
      -- An explained cancellation has found no session for the request.
      have hgo : r.view.status ∈ activeSupportRequestStatuses ∧ ¬ (view T).Started id := by
        refine ⟨isActive_mem.mp hs, ?_⟩
        rintro ⟨k, s, hk, hid, _⟩
        rcases view_session_inv hk with ⟨s', hs', rfl⟩
        exact hnone k s' hs' hid
      simp only [perform, view_apply_request,
        view_filter_request hr (p := fun r => decide (r.deviceId = device.id))
          (decide_eq_true hd), if_pos hgo]
      rfl
  | opened id user r sid createdAt hr hu hs hfresh hfree =>
      refine ⟨sid, by simp only [Fresh, view, hfresh, Option.map_none], ?_⟩
      -- The technician has no live session, or the index would have refused another
      -- one.
      have hgo : r.view.status = .accepted ∧ ¬ (view T).Busy user.id ∧ online = true := by
        refine ⟨hs, ?_, honline trivial⟩
        rintro ⟨k, s, hk, hid, hne⟩
        rcases view_session_inv hk with ⟨s', hs', rfl⟩
        have hf := hfree k s' hs' hid
        rw [isLive_iff.mpr hne] at hf
        simp only [Bool.true_eq_false] at hf
      have hid := h.requestId id r hr
      simp only [perform, view_apply_session,
        view_filter_request hr (p := fun r => decide (r.technicianId = some user.id))
          (decide_eq_true hu), if_pos hgo, newSession, hid]
      rfl
  | activated id user s hs hu hst =>
      refine ⟨0, trivial, ?_⟩
      have hgo : s.view.status = .connecting := hst
      simp only [perform, view_apply_session,
        view_filter_session hs (p := fun s => decide (s.technicianId = user.id))
          (decide_eq_true hu), hgo]
      rfl
  | repeated id user s hs hu hst =>
      refine ⟨0, trivial, ?_⟩
      have hgo : s.view.status = .active := hst
      simp only [perform,
        view_filter_session hs (p := fun s => decide (s.technicianId = user.id))
          (decide_eq_true hu), hgo]
      rfl
  | closedByTechnician id user s r hs hu hl hr hst ht =>
      exact ⟨0, trivial, closure_performs t .technician hs (decide_eq_true hu) hl hr⟩
  | closedByDevice id device s r hs hd hl hr hst ht =>
      exact ⟨0, trivial, closure_performs t .device hs (decide_eq_true hd) hl hr⟩

/-! ## Refusals -/

/-- From these rows the call changes nothing and answers with that class. -/
def Refuses (op : Operation) (online : Bool) (cls : Outcome) (T : Tables) : Prop :=
  ∀ newId, perform op online newId (view T) = (cls, view T)

/-- An inactive device opens no request. -/
theorem refuses_inactive {T : Tables} {device : Device} (online : Bool)
    (h : device.isActive = false) : Refuses (.createForDevice device) online .forbidden T := by
  intro newId
  simp only [perform, h, if_true]

/-- A device with an open request opens no other. -/
theorem refuses_second_request {T : Tables} {device : Device} {k : Uuid} {r : SupportRequest}
    (online : Bool) (hactive : device.isActive = true) (hr : T.requests k = some r)
    (hd : r.deviceId = device.id) (hs : r.isActive = true) :
    Refuses (.createForDevice device) online .conflict T := by
  intro newId
  have hhas : (view T).HasActiveRequest device.id :=
    ⟨k, r.view, view_request hr, hd, isActive_mem.mp hs⟩
  simp only [perform, hactive, Bool.true_eq_false, if_false, if_pos hhas]

/-- There is no such request. -/
theorem refuses_assign_missing {T : Tables} {id : Uuid} {technician : User} (online : Bool)
    (h : T.requests id = none) : Refuses (.assign id technician) online .notFound T := by
  intro newId
  have hv : (view T).requests id = none := by simp only [view, h, Option.map_none]
  simp only [perform, hv]

/-- The request is not waiting any more, or the device is offline. -/
theorem refuses_assign {T : Tables} {id : Uuid} {technician : User} {r : SupportRequest}
    {online : Bool} (hr : T.requests id = some r) (h : r.status = .waiting → online = false) :
    Refuses (.assign id technician) online .conflict T := by
  intro newId
  have hno : ¬ (r.view.status = .waiting ∧ online = true) := by
    rintro ⟨hs, ho⟩
    rw [h hs] at ho
    simp only [Bool.false_eq_true] at ho
  simp only [perform, view_request hr, if_neg hno]

/-- The answers of a device to the technician of its request. -/
def Operation.IsAnswer (op : Operation) (id : Uuid) (device : Device) : Prop :=
  op = .acceptByDevice id device ∨ op = .rejectByDevice id device

/-- There is no such request of this device. -/
theorem refuses_answer_missing {T : Tables} {op : Operation} {id : Uuid} {device : Device}
    (online : Bool) (hop : op.IsAnswer id device)
    (h : ∀ r, T.requests id = some r → r.deviceId ≠ device.id) :
    Refuses op online .notFound T := by
  intro newId
  have hnone := view_filter_request_none (p := fun r => decide (r.deviceId = device.id))
    (fun r hr => decide_eq_false (h r hr))
  rcases hop with rfl | rfl <;> simp only [perform, State.answer, hnone]

/-- No technician is waiting for an answer. -/
theorem refuses_answer {T : Tables} {op : Operation} {id : Uuid} {device : Device}
    {r : SupportRequest} (online : Bool) (hop : op.IsAnswer id device)
    (hr : T.requests id = some r) (hd : r.deviceId = device.id) (hs : r.status ≠ .assigned) :
    Refuses op online .conflict T := by
  intro newId
  have hv := view_filter_request hr (p := fun r => decide (r.deviceId = device.id))
    (decide_eq_true hd)
  have hno : ¬ (r.view.status = .assigned) := hs
  rcases hop with rfl | rfl <;> simp only [perform, State.answer, hv, if_neg hno]

/-- There is no such request of this device. -/
theorem refuses_cancel_missing {T : Tables} {id : Uuid} {device : Device} (online : Bool)
    (h : ∀ r, T.requests id = some r → r.deviceId ≠ device.id) :
    Refuses (.cancelByDevice id device) online .notFound T := by
  intro newId
  have hnone := view_filter_request_none (p := fun r => decide (r.deviceId = device.id))
    (fun r hr => decide_eq_false (h r hr))
  simp only [perform, hnone]

/-- The request is over, or a session has started. -/
theorem refuses_cancel {T : Tables} {id : Uuid} {device : Device} {r : SupportRequest}
    (online : Bool) (hr : T.requests id = some r) (hd : r.deviceId = device.id)
    (h : r.isActive = true → ∃ k s, T.sessions k = some s ∧ s.supportRequestId = id ∧
      s.isLive = true) : Refuses (.cancelByDevice id device) online .conflict T := by
  intro newId
  have hv := view_filter_request hr (p := fun r => decide (r.deviceId = device.id))
    (decide_eq_true hd)
  -- Being active, the request has a live session, and that one has started.
  have hno : ¬ (r.view.status ∈ activeSupportRequestStatuses ∧ ¬ (view T).Started id) := by
    rintro ⟨hs, hnot⟩
    rcases h (isActive_mem.mpr hs) with ⟨k, s, hk, hid, hl⟩
    exact hnot ⟨k, s.view, view_session hk, hid, isLive_iff.mp hl⟩
  simp only [perform, hv, if_neg hno]

/-- There is no such request of this technician. -/
theorem refuses_create_missing {T : Tables} {id : Uuid} {user : User} (online : Bool)
    (h : ∀ r, T.requests id = some r → r.technicianId ≠ some user.id) :
    Refuses (.create id user) online .notFound T := by
  intro newId
  have hnone := view_filter_request_none (p := fun r => decide (r.technicianId = some user.id))
    (fun r hr => decide_eq_false (h r hr))
  simp only [perform, hnone]

/-- The request is not accepted, the technician is busy, or the device is offline. -/
theorem refuses_create {T : Tables} {id : Uuid} {user : User} {r : SupportRequest}
    {online : Bool} (hr : T.requests id = some r) (hu : r.technicianId = some user.id)
    (h : r.status = .accepted → online = true →
      ∃ k s, T.sessions k = some s ∧ s.technicianId = user.id ∧ s.isLive = true) :
    Refuses (.create id user) online .conflict T := by
  intro newId
  have hv := view_filter_request hr (p := fun r => decide (r.technicianId = some user.id))
    (decide_eq_true hu)
  -- Accepted and online, the technician has a live session.
  have hno : ¬ (r.view.status = .accepted ∧ ¬ (view T).Busy user.id ∧ online = true) := by
    rintro ⟨hs, hnot, ho⟩
    rcases h hs ho with ⟨k, s, hk, hid, hl⟩
    exact hnot ⟨k, s.view, view_session hk, hid, isLive_iff.mp hl⟩
  simp only [perform, hv, if_neg hno]

/-- There is no such session of this technician. -/
theorem refuses_activate_missing {T : Tables} {id : Uuid} {user : User} (online : Bool)
    (h : ∀ s, T.sessions id = some s → s.technicianId ≠ user.id) :
    Refuses (.activateByTechnician id user) online .notFound T := by
  intro newId
  have hnone := view_filter_session_none (p := fun s => decide (s.technicianId = user.id))
    (fun s hs => decide_eq_false (h s hs))
  simp only [perform, hnone]

/-- The session is closed. -/
theorem refuses_activate {T : Tables} {id : Uuid} {user : User} {s : RemoteSession}
    (online : Bool) (hs : T.sessions id = some s) (hu : s.technicianId = user.id)
    (hst : s.status = .closed) : Refuses (.activateByTechnician id user) online .conflict T := by
  intro newId
  have hclosed : s.view.status = .closed := hst
  simp only [perform, view_filter_session hs (p := fun s => decide (s.technicianId = user.id))
    (decide_eq_true hu), hclosed]

/-- The closing calls with the owner whose session they close. -/
def Operation.IsClosure (op : Operation) (id : Uuid) (owner : Owner) : Prop :=
  (∃ user, op = .closeByTechnician id user ∧ owner = .technician user.id) ∨
  (∃ device, op = .closeByDevice id device ∧ owner = .device device.id)

/-- There is no such session of whoever closes it. -/
theorem refuses_close_missing {T : Tables} {op : Operation} {id : Uuid} {owner : Owner}
    (online : Bool) (hop : op.IsClosure id owner)
    (h : ∀ s, T.sessions id = some s → owner.ofSession s = false) :
    Refuses op online .notFound T := by
  intro newId
  rcases hop with ⟨user, rfl, rfl⟩ | ⟨device, rfl, rfl⟩
  · have hnone := view_filter_session_none (p := fun s => decide (s.technicianId = user.id)) h
    simp only [perform, State.close, hnone]
  · have hnone := view_filter_session_none (p := fun s => decide (s.deviceId = device.id)) h
    simp only [perform, State.close, hnone]

/-- The session is closed already. -/
theorem refuses_close {T : Tables} {op : Operation} {id : Uuid} {owner : Owner}
    {s : RemoteSession} (online : Bool) (hop : op.IsClosure id owner)
    (hs : T.sessions id = some s) (ho : owner.ofSession s = true) (hst : s.status = .closed) :
    Refuses op online .conflict T := by
  intro newId
  have hclosed : s.view.status = .closed := hst
  rcases hop with ⟨user, rfl, rfl⟩ | ⟨device, rfl, rfl⟩
  · simp only [perform, State.close, if_pos hclosed,
      view_filter_session hs (p := fun s => decide (s.technicianId = user.id)) ho]
  · simp only [perform, State.close, if_pos hclosed,
      view_filter_session hs (p := fun s => decide (s.deviceId = device.id)) ho]

end RemoteControl

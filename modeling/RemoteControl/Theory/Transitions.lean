import RemoteControl.Core.Lifecycle

/-!
# Transitions

What a call may commit, as one step on the committed rows. `Explains T t op
ws` says that from the rows `T` the call `op`, with the time `t` for its
stamps, may write `ws`. There is one case for each transition of the source,
and one for an activation that finds the session active and writes nothing.

`Consistent` is what the two tables have in common at every moment: the
columns of a row are those its status calls for, a live session belongs to an
accepted request and a closed one to a completed request, with the same
device and technician on both sides, and a completed request has its closed
session. `Unique` is what the indexes add. The step lemma is
`Consistent.apply`: an explained commit keeps the rows consistent.

The other general fact is that rows only move forward. `RequestMove` and
`SessionMove` are the moves one commit makes, and every write of an explained
commit to a row that exists is one of them.

An explained commit is a single change of one request (`change_request`), a
single change of one session (`change_session`), or a closure (`close`), which
changes one row of each. Consistency is shown once for each of the three, and
the step lemma only checks the columns of the rows that are written. A request
that is changed alone must have no session, because a session and its request
have to agree; `no_session` gets this from the status.

The moves need the consistency of the rows they start from. An update of the
source fills columns that `apply` overwrites only where they are empty, and
that they are empty is what the old status calls for.

## Main definitions

* `SupportRequest.WellFormed`, `RemoteSession.WellFormed`: The columns a
  status calls for.
* `Consistent`, `Unique`: What holds of the committed rows.
* `Explains`, `RequestChange`: What a call may commit, and what that does to a
  request.
* `RequestMove`, `SessionMove`: How one commit changes one row.
* `assignment`, `acceptance`, `rejection`, `cancellation`, `completion`: What
  the calls write into a request.
* `activation`, `closure`: What the calls write into a session.
* `KeepsValue`, `RequestKeeps`, `SessionKeeps`: The columns that are fixed
  once filled.

## Theorems

* `Consistent.apply`: An explained commit keeps the rows consistent.
* `Explains.requestMove`, `Explains.sessionMove`: An explained commit changes
  rows by moves only.
* `Consistent.no_session`: A request that is neither accepted nor completed
  has no session.
* `Consistent.change_request`, `Consistent.change_session`,
  `Consistent.close`: The three shapes of a commit keep the rows consistent.
* `Explains.requestChange`: The ways in which a commit writes a request.
* `requestMove_apply`, `sessionMove_apply`: An update that fills only empty
  columns is a move.
-/

namespace RemoteControl

open Concurrency

/-! ## The columns of a row -/

/-- The columns that are filled are those the status calls for. -/
def SupportRequest.WellFormed (r : SupportRequest) : Prop :=
  match r.status with
  | .waiting => r.technicianId = none ∧ r.assignedAt = none ∧ r.respondedAt = none ∧
      r.closedAt = none
  | .assigned => r.technicianId.isSome ∧ r.assignedAt.isSome ∧ r.respondedAt = none ∧
      r.closedAt = none
  | .accepted => r.technicianId.isSome ∧ r.assignedAt.isSome ∧ r.respondedAt.isSome ∧
      r.closedAt = none
  | .rejected => r.technicianId.isSome ∧ r.assignedAt.isSome ∧ r.respondedAt.isSome ∧
      r.closedAt.isSome
  | .completed => r.technicianId.isSome ∧ r.assignedAt.isSome ∧ r.respondedAt.isSome ∧
      r.closedAt.isSome
  | .cancelled => r.closedAt.isSome ∧ (r.technicianId.isSome ↔ r.assignedAt.isSome) ∧
      (r.respondedAt.isSome → r.technicianId.isSome)

/-- The columns that are filled are those the status calls for. A session may
    be closed before or after it was active. -/
def RemoteSession.WellFormed (s : RemoteSession) : Prop :=
  match s.status with
  | .connecting => s.connectedAt = none ∧ s.endedAt = none ∧ s.endedBy = none
  | .active => s.connectedAt.isSome ∧ s.endedAt = none ∧ s.endedBy = none
  | .closed => s.endedAt.isSome ∧ s.endedBy.isSome

/-! ## The rows together -/

/-- What holds between the committed rows of the two tables. -/
structure Consistent (T : Tables) : Prop where
  requestId : ∀ k r, T.requests k = some r → r.id = k
  sessionId : ∀ k s, T.sessions k = some s → s.id = k
  requestWellFormed : ∀ k r, T.requests k = some r → r.WellFormed
  sessionWellFormed : ∀ k s, T.sessions k = some s → s.WellFormed
  owned : ∀ k s, T.sessions k = some s → ∃ r, T.requests s.supportRequestId = some r ∧
    r.deviceId = s.deviceId ∧ r.technicianId = some s.technicianId ∧
    r.status = if s.isLive then .accepted else .completed
  completed : ∀ k r, T.requests k = some r → r.status = .completed →
    ∃ k' s, T.sessions k' = some s ∧ s.supportRequestId = k ∧ s.status = .closed

/-- What the unique indexes say of the committed rows. -/
structure Unique (T : Tables) : Prop where
  activeRequest : ∀ k k' r r', T.requests k = some r → T.requests k' = some r' →
    r.isActive = true → r'.isActive = true → r.deviceId = r'.deviceId → k = k'
  sessionOfRequest : ∀ k k' s s', T.sessions k = some s → T.sessions k' = some s' →
    s.supportRequestId = s'.supportRequestId → k = k'
  liveOfDevice : ∀ k k' s s', T.sessions k = some s → T.sessions k' = some s' →
    s.isLive = true → s'.isLive = true → s.deviceId = s'.deviceId → k = k'
  liveOfTechnician : ∀ k k' s s', T.sessions k = some s → T.sessions k' = some s' →
    s.isLive = true → s'.isLive = true → s.technicianId = s'.technicianId → k = k'

/-- Before the first commit there is nothing to be consistent. -/
theorem consistent_empty : Consistent Tables.empty where
  requestId := fun _ _ h => by simp only [Tables.empty, reduceCtorEq] at h
  sessionId := fun _ _ h => by simp only [Tables.empty, reduceCtorEq] at h
  requestWellFormed := fun _ _ h => by simp only [Tables.empty, reduceCtorEq] at h
  sessionWellFormed := fun _ _ h => by simp only [Tables.empty, reduceCtorEq] at h
  owned := fun _ _ h => by simp only [Tables.empty, reduceCtorEq] at h
  completed := fun _ _ h => by simp only [Tables.empty, reduceCtorEq] at h

/-- The statuses that the source lists as active are all but `closed`. -/
theorem isLive_iff {s : RemoteSession} : s.isLive = true ↔ s.status ≠ .closed := by
  simp only [RemoteSession.isLive, activeRemoteSessionStatuses]
  cases s.status <;> decide

/-- A live session that is not active is still connecting. -/
theorem connecting_of_live {status : RemoteSessionStatus} (hclosed : status ≠ .closed)
    (hactive : status ≠ .active) : status = .connecting := by
  cases status with
  | connecting => rfl
  | active => exact absurd rfl hactive
  | closed => exact absurd rfl hclosed

/-- A request is active if its status is in the list of the source. -/
theorem isActive_mem {r : SupportRequest} :
    r.isActive = true ↔ r.status ∈ activeSupportRequestStatuses := decide_eq_true_iff

/-- The list of the source, written out. -/
theorem isActive_iff {r : SupportRequest} : r.isActive = true ↔
    r.status = .waiting ∨ r.status = .assigned ∨ r.status = .accepted := by
  simp only [SupportRequest.isActive, activeSupportRequestStatuses, decide_eq_true_eq,
    List.mem_cons, List.not_mem_nil, or_false]

/-- A request that is neither accepted nor completed has no session. -/
theorem Consistent.no_session {T : Tables} (h : Consistent T) {k : Uuid} {r : SupportRequest}
    (hr : T.requests k = some r) (ha : r.status ≠ .accepted) (hc : r.status ≠ .completed)
    {k' : Uuid} {s : RemoteSession} (hs : T.sessions k' = some s) : s.supportRequestId ≠ k := by
  intro hk
  rcases h.owned k' s hs with ⟨r', hr', _, _, hst⟩
  rw [hk, hr, Option.some.injEq] at hr'
  subst hr'
  by_cases hl : s.isLive = true
  · rw [if_pos hl] at hst
    exact ha hst
  · rw [if_neg hl] at hst
    exact hc hst

/-! ## What a call may commit -/

/-- What a commit writes when it changes one session. -/
def sessionWrites (T : Uuid → Option RemoteSession) (id : Uuid) (row : RemoteSession) : Writes :=
  { requests := [], sessions := [⟨id, T id, row⟩] }

/-- `assign` names the technician. -/
def assignment (technicianId : Uuid) (t : Timestamp) : SupportRequestTransition :=
  { status := .assigned, technicianId := some technicianId, assignedAt := some t }

/-- `acceptByDevice` records the response. -/
def acceptance (t : Timestamp) : SupportRequestTransition :=
  { status := .accepted, respondedAt := some t }

/-- `rejectByDevice` records the response, and that is the end of the request. -/
def rejection (t : Timestamp) : SupportRequestTransition :=
  { status := .rejected, respondedAt := some t, closedAt := some t }

/-- `cancelByDevice` ends the request without a response. -/
def cancellation (t : Timestamp) : SupportRequestTransition :=
  { status := .cancelled, closedAt := some t }

/-- A closure completes the request of its session. -/
def completion (t : Timestamp) : SupportRequestTransition :=
  { status := .completed, closedAt := some t }

/-- `activateByTechnician` records when the session became active. -/
def activation (t : Timestamp) : RemoteSessionChanges :=
  { status := .active, connectedAt := some t }

/-- `close` records the end, and who has ended it. -/
def closure (t : Timestamp) (endedBy : RemoteSessionEndedBy) : RemoteSessionChanges :=
  { status := .closed, endedAt := some t, endedBy := some endedBy }

/-- What a closure writes: the session and its request. -/
def closureWrites (T : Tables) (id : Uuid) (s : RemoteSession) (r : SupportRequest)
    (t : Timestamp) (endedBy : RemoteSessionEndedBy) : Writes :=
  { requests := [⟨s.supportRequestId, T.requests s.supportRequestId, (completion t).apply r⟩]
    sessions := [⟨id, T.sessions id, (closure t endedBy).apply s⟩] }

/-- The row a request is created with. -/
def newRequest (deviceId id : Uuid) (createdAt : Timestamp) : SupportRequest :=
  { id, deviceId, createdAt, technicianId := none, status := .waiting, assignedAt := none
    respondedAt := none, closedAt := none }

/-- The row a session is opened with. -/
def newSession (r : SupportRequest) (technicianId id : Uuid) (createdAt : Timestamp) :
    RemoteSession :=
  { id, createdAt, technicianId, supportRequestId := r.id, deviceId := r.deviceId
    status := .connecting, connectedAt := none, endedAt := none, endedBy := none }

/-- The stamps a request already has are not later than `t`. -/
def SupportRequest.StampedBy (r : SupportRequest) (t : Timestamp) : Prop :=
  (∀ τ, r.assignedAt = some τ → τ ≤ t) ∧ ∀ τ, r.respondedAt = some τ → τ ≤ t

/-- From the rows `T`, the call may write `ws`, stamping with the time `t`. -/
inductive Explains (T : Tables) (t : Timestamp) : Operation → Writes → Prop where
  | created (device : Device) (id : Uuid) (createdAt : Timestamp)
      (hactive : device.isActive = true) (hfresh : T.requests id = none)
      (hfree : ∀ k r, T.requests k = some r → r.deviceId = device.id → r.isActive = false) :
      Explains T t (.createForDevice device)
        (requestWrites T.requests id (newRequest device.id id createdAt))
  | assigned (id : Uuid) (technician : User) (r : SupportRequest)
      (hr : T.requests id = some r) (hs : r.status = .waiting) :
      Explains T t (.assign id technician) (requestWrites T.requests id
        ((assignment technician.id t).apply r))
  | accepted (id : Uuid) (device : Device) (r : SupportRequest) (hr : T.requests id = some r)
      (hd : r.deviceId = device.id) (hs : r.status = .assigned) :
      Explains T t (.acceptByDevice id device) (requestWrites T.requests id
        ((acceptance t).apply r))
  | rejected (id : Uuid) (device : Device) (r : SupportRequest) (hr : T.requests id = some r)
      (hd : r.deviceId = device.id) (hs : r.status = .assigned) :
      Explains T t (.rejectByDevice id device) (requestWrites T.requests id
        ((rejection t).apply r))
  | cancelled (id : Uuid) (device : Device) (r : SupportRequest) (hr : T.requests id = some r)
      (hd : r.deviceId = device.id) (hs : r.isActive = true)
      (hnone : ∀ k s, T.sessions k = some s → s.supportRequestId ≠ id) (ht : r.StampedBy t) :
      Explains T t (.cancelByDevice id device) (requestWrites T.requests id
        ((cancellation t).apply r))
  | opened (id : Uuid) (user : User) (r : SupportRequest) (sid : Uuid) (createdAt : Timestamp)
      (hr : T.requests id = some r) (hu : r.technicianId = some user.id)
      (hs : r.status = .accepted) (hfresh : T.sessions sid = none)
      (hfree : ∀ k s, T.sessions k = some s → s.technicianId = user.id → s.isLive = false) :
      Explains T t (.create id user)
        (sessionWrites T.sessions sid (newSession r user.id sid createdAt))
  | activated (id : Uuid) (user : User) (s : RemoteSession) (hs : T.sessions id = some s)
      (hu : s.technicianId = user.id) (hst : s.status = .connecting) :
      Explains T t (.activateByTechnician id user) (sessionWrites T.sessions id
        ((activation t).apply s))
  | repeated (id : Uuid) (user : User) (s : RemoteSession) (hs : T.sessions id = some s)
      (hu : s.technicianId = user.id) (hst : s.status = .active) :
      Explains T t (.activateByTechnician id user) { requests := [], sessions := [] }
  | closedByTechnician (id : Uuid) (user : User) (s : RemoteSession) (r : SupportRequest)
      (hs : T.sessions id = some s) (hu : s.technicianId = user.id) (hl : s.isLive = true)
      (hr : T.requests s.supportRequestId = some r) (hst : r.status = .accepted)
      (ht : r.StampedBy t) :
      Explains T t (.closeByTechnician id user) (closureWrites T id s r t .technician)
  | closedByDevice (id : Uuid) (device : Device) (s : RemoteSession) (r : SupportRequest)
      (hs : T.sessions id = some s) (hd : s.deviceId = device.id) (hl : s.isLive = true)
      (hr : T.requests s.supportRequestId = some r) (hst : r.status = .accepted)
      (ht : r.StampedBy t) :
      Explains T t (.closeByDevice id device) (closureWrites T id s r t .device)

/-- The ways in which a commit writes a request. -/
inductive RequestChange (T : Tables) (t : Timestamp) (op : Operation)
    (w : Write Uuid SupportRequest) : Prop where
  | created (device : Device) (createdAt : Timestamp) (hop : op = .createForDevice device)
      (hr : T.requests w.key = none) (hnew : w.new = newRequest device.id w.key createdAt)
  | assigned (technician : User) (r : SupportRequest) (hop : op = .assign w.key technician)
      (hr : T.requests w.key = some r) (hs : r.status = .waiting)
      (hnew : w.new = (assignment technician.id t).apply r)
  | accepted (device : Device) (r : SupportRequest) (hop : op = .acceptByDevice w.key device)
      (hr : T.requests w.key = some r) (hs : r.status = .assigned)
      (hnew : w.new = (acceptance t).apply r)
  | rejected (device : Device) (r : SupportRequest) (hop : op = .rejectByDevice w.key device)
      (hr : T.requests w.key = some r) (hs : r.status = .assigned)
      (hnew : w.new = (rejection t).apply r)
  | cancelled (r : SupportRequest) (hr : T.requests w.key = some r) (hs : r.isActive = true)
      (ht : r.StampedBy t) (hnew : w.new = (cancellation t).apply r)
  | completed (r : SupportRequest) (hr : T.requests w.key = some r) (hs : r.status = .accepted)
      (ht : r.StampedBy t) (hnew : w.new = (completion t).apply r)

/-- Every write of a commit to a request is one of the six changes. -/
theorem Explains.requestChange {T : Tables} {t : Timestamp} {op : Operation} {ws : Writes}
    (h : Explains T t op ws) {w : Write Uuid SupportRequest} (hw : w ∈ ws.requests) :
    RequestChange T t op w := by
  cases h with
  | created device id createdAt hactive hfresh hfree =>
      rw [requestWrites, List.mem_singleton] at hw
      subst hw
      exact .created device createdAt rfl hfresh rfl
  | assigned id technician r hr hs =>
      rw [requestWrites, List.mem_singleton] at hw
      subst hw
      exact .assigned technician r rfl hr hs rfl
  | accepted id device r hr hd hs =>
      rw [requestWrites, List.mem_singleton] at hw
      subst hw
      exact .accepted device r rfl hr hs rfl
  | rejected id device r hr hd hs =>
      rw [requestWrites, List.mem_singleton] at hw
      subst hw
      exact .rejected device r rfl hr hs rfl
  | cancelled id device r hr hd hs hnone ht =>
      rw [requestWrites, List.mem_singleton] at hw
      subst hw
      exact .cancelled r hr hs ht rfl
  | closedByTechnician id user s r hs hu hl hr hst ht =>
      rw [closureWrites, List.mem_singleton] at hw
      subst hw
      exact .completed r hr hst ht rfl
  | closedByDevice id device s r hs hd hl hr hst ht =>
      rw [closureWrites, List.mem_singleton] at hw
      subst hw
      exact .completed r hr hst ht rfl
  -- The other commits write to no request.
  | _ => simp only [sessionWrites, List.not_mem_nil] at hw

/-- The requests after a commit. -/
theorem apply_requests (T : Tables) (ws : Writes) :
    (T.apply ws).requests = applyWrites ws.requests T.requests := rfl

/-- The sessions after a commit. -/
theorem apply_sessions (T : Tables) (ws : Writes) :
    (T.apply ws).sessions = applyWrites ws.sessions T.sessions := rfl

/-- A commit of one request changes the row under its key. -/
theorem apply_requestWrites (T : Tables) (id : Uuid) (row : SupportRequest) (k : Uuid) :
    (T.apply (requestWrites T.requests id row)).requests k =
      if id = k then some row else T.requests k := by
  simp only [Tables.apply, requestWrites, applyWrites_single]

/-- It does not change the sessions. -/
@[simp] theorem apply_requestWrites_sessions (T : Tables) (id : Uuid) (row : SupportRequest) :
    (T.apply (requestWrites T.requests id row)).sessions = T.sessions := rfl

/-- A commit of one session changes the row under its key. -/
theorem apply_sessionWrites (T : Tables) (id : Uuid) (row : RemoteSession) (k : Uuid) :
    (T.apply (sessionWrites T.sessions id row)).sessions k =
      if id = k then some row else T.sessions k := by
  simp only [Tables.apply, sessionWrites, applyWrites_single]

/-- It does not change the requests. -/
@[simp] theorem apply_sessionWrites_requests (T : Tables) (id : Uuid) (row : RemoteSession) :
    (T.apply (sessionWrites T.sessions id row)).requests = T.requests := rfl

/-! ## An explained commit keeps the rows consistent -/

/-- A change of a request that has no session. Since it has none, the sessions
    have their requests as before, and since it is not completed, it needs none. -/
theorem Consistent.change_request {T : Tables} (h : Consistent T) {id : Uuid}
    {row : SupportRequest} (hid : row.id = id) (hwf : row.WellFormed)
    (hc : row.status ≠ .completed)
    (hnone : ∀ k s, T.sessions k = some s → s.supportRequestId ≠ id) :
    Consistent (T.apply (requestWrites T.requests id row)) where
  requestId := by
    intro k r hr
    rw [apply_requestWrites] at hr
    by_cases hk : id = k
    · rw [if_pos hk, Option.some.injEq] at hr
      rw [← hr, hid, hk]
    · rw [if_neg hk] at hr
      exact h.requestId k r hr
  sessionId := h.sessionId
  requestWellFormed := by
    intro k r hr
    rw [apply_requestWrites] at hr
    by_cases hk : id = k
    · rw [if_pos hk, Option.some.injEq] at hr
      rw [← hr]
      exact hwf
    · rw [if_neg hk] at hr
      exact h.requestWellFormed k r hr
  sessionWellFormed := h.sessionWellFormed
  owned := by
    intro k s hs
    -- The session of another request sees its own request unchanged.
    have hne : ¬ (id = s.supportRequestId) := fun hc => hnone k s hs hc.symm
    rw [apply_requestWrites, if_neg hne]
    exact h.owned k s hs
  completed := by
    intro k r hr hst
    rw [apply_requestWrites] at hr
    by_cases hk : id = k
    · rw [if_pos hk, Option.some.injEq] at hr
      rw [← hr] at hst
      exact absurd hst hc
    · rw [if_neg hk] at hr
      exact h.completed k r hr hst

/-- A change of one session that keeps it live, or the opening of one. It has its
    request by assumption. A completed request had a closed session, and that is
    not the one that is written. -/
theorem Consistent.change_session {T : Tables} (h : Consistent T) {id : Uuid}
    {row : RemoteSession} {r : SupportRequest} (hid : row.id = id) (hwf : row.WellFormed)
    (hl : row.isLive = true) (hr : T.requests row.supportRequestId = some r)
    (hd : r.deviceId = row.deviceId) (hu : r.technicianId = some row.technicianId)
    (hst : r.status = .accepted) (hold : ∀ s, T.sessions id = some s → s.isLive = true) :
    Consistent (T.apply (sessionWrites T.sessions id row)) where
  requestId := h.requestId
  sessionId := by
    intro k s hs
    rw [apply_sessionWrites] at hs
    by_cases hk : id = k
    · rw [if_pos hk, Option.some.injEq] at hs
      rw [← hs, hid, hk]
    · rw [if_neg hk] at hs
      exact h.sessionId k s hs
  requestWellFormed := h.requestWellFormed
  sessionWellFormed := by
    intro k s hs
    rw [apply_sessionWrites] at hs
    by_cases hk : id = k
    · rw [if_pos hk, Option.some.injEq] at hs
      rw [← hs]
      exact hwf
    · rw [if_neg hk] at hs
      exact h.sessionWellFormed k s hs
  owned := by
    intro k s hs
    rw [apply_sessionWrites] at hs
    by_cases hk : id = k
    · rw [if_pos hk, Option.some.injEq] at hs
      rw [← hs]
      exact ⟨r, hr, hd, hu, by rw [if_pos hl]; exact hst⟩
    · rw [if_neg hk] at hs
      exact h.owned k s hs
  completed := by
    intro k r' hr' hst'
    rcases h.completed k r' hr' hst' with ⟨k', s, hs, hk, hclosed⟩
    -- The row that is written was live or new, and so it closed no request.
    have hne : ¬ (id = k') := by
      rintro rfl
      exact isLive_iff.mp (hold s hs) hclosed
    exact ⟨k', s, by rw [apply_sessionWrites, if_neg hne]; exact hs, hk, hclosed⟩

/-- The closure of a live session and the completion of its request. The session
    is not live any more and the request is completed, so the two agree again. -/
theorem Consistent.close {T : Tables} (h : Consistent T) (hu : Unique T) {id : Uuid}
    {s : RemoteSession} {r : SupportRequest} {t : Timestamp} {endedBy : RemoteSessionEndedBy}
    (hs : T.sessions id = some s)
    (hr : T.requests s.supportRequestId = some r) (hst : r.status = .accepted) :
    Consistent (T.apply (closureWrites T id s r t endedBy)) := by
  -- What the commit does to the two tables, one key each.
  have hrequests : ∀ k, (T.apply (closureWrites T id s r t endedBy)).requests k =
      if s.supportRequestId = k
      then some ((completion t).apply r)
      else T.requests k := by
    intro k
    simp only [Tables.apply, closureWrites, applyWrites_single]
  have hsessions : ∀ k, (T.apply (closureWrites T id s r t endedBy)).sessions k =
      if id = k
      then some ((closure t endedBy).apply s)
      else T.sessions k := by
    intro k
    simp only [Tables.apply, closureWrites, applyWrites_single]
  have hwf := h.requestWellFormed _ r hr
  simp only [SupportRequest.WellFormed, hst] at hwf
  constructor
  · intro k r' hr'
    rw [hrequests] at hr'
    by_cases hk : s.supportRequestId = k
    · rw [if_pos hk, Option.some.injEq] at hr'
      rw [← hr', ← hk]
      exact h.requestId _ r hr
    · rw [if_neg hk] at hr'
      exact h.requestId k r' hr'
  · intro k s' hs'
    rw [hsessions] at hs'
    by_cases hk : id = k
    · rw [if_pos hk, Option.some.injEq] at hs'
      rw [← hs', ← hk]
      exact h.sessionId _ s hs
    · rw [if_neg hk] at hs'
      exact h.sessionId k s' hs'
  · intro k r' hr'
    rw [hrequests] at hr'
    by_cases hk : s.supportRequestId = k
    · rw [if_pos hk, Option.some.injEq] at hr'
      rw [← hr']
      simp only [SupportRequest.WellFormed, completion, SupportRequestTransition.apply,
        Option.none_or, Option.some_or, Option.isSome_some, and_true]
      exact ⟨hwf.1, hwf.2.1, hwf.2.2.1⟩
    · rw [if_neg hk] at hr'
      exact h.requestWellFormed k r' hr'
  · intro k s' hs'
    rw [hsessions] at hs'
    by_cases hk : id = k
    · rw [if_pos hk, Option.some.injEq] at hs'
      rw [← hs']
      simp only [RemoteSession.WellFormed, closure, RemoteSessionChanges.apply, Option.some_or,
        Option.isSome_some, and_true]
    · rw [if_neg hk] at hs'
      exact h.sessionWellFormed k s' hs'
  · intro k s' hs'
    rw [hsessions] at hs'
    by_cases hk : id = k
    · rw [if_pos hk, Option.some.injEq] at hs'
      rcases h.owned id s hs with ⟨r₀, hr₀, hd, hu', _⟩
      rw [hr, Option.some.injEq] at hr₀
      subst hr₀
      subst hs'
      refine ⟨(completion t).apply r, ?_,
        hd, hu', ?_⟩
      · rw [hrequests]
        simp only [closure, RemoteSessionChanges.apply, if_true]
      · have hdead : ¬ ((closure t endedBy).apply s).isLive = true := by
          rw [isLive_iff]
          simp only [closure, RemoteSessionChanges.apply, ne_eq, not_true_eq_false,
            not_false_eq_true]
        rw [if_neg hdead]
        rfl
    · rw [if_neg hk] at hs'
      -- Another session of the same request would break the index.
      have hne : ¬ (s.supportRequestId = s'.supportRequestId) :=
        fun hc => hk (hu.sessionOfRequest id k s s' hs hs' hc)
      rw [hrequests, if_neg hne]
      exact h.owned k s' hs'
  · intro k r' hr' hst'
    rw [hrequests] at hr'
    by_cases hk : s.supportRequestId = k
    · exact ⟨id, (closure t endedBy).apply s,
        by rw [hsessions, if_pos rfl], hk, rfl⟩
    · rw [if_neg hk] at hr'
      rcases h.completed k r' hr' hst' with ⟨k', s', hs', hk', hclosed⟩
      have hne : ¬ (id = k') := by
        rintro rfl
        rw [hs, Option.some.injEq] at hs'
        rw [hs'] at hk
        exact hk hk'
      exact ⟨k', s', by rw [hsessions, if_neg hne]; exact hs', hk', hclosed⟩

/-- The step lemma of the consistency of the two tables. There is one case for
    each transition, and what is left to each is that the columns of the new row
    are those of its new status. -/
theorem Consistent.apply {T : Tables} (h : Consistent T) (hu : Unique T) {t : Timestamp}
    {op : Operation} {ws : Writes} (hx : Explains T t op ws) : Consistent (T.apply ws) := by
  cases hx with
  | created device id createdAt hactive hfresh hfree =>
      refine h.change_request rfl ⟨rfl, rfl, rfl, rfl⟩ ?_ (fun k s hs hk => ?_)
      · simp only [newRequest, ne_eq, reduceCtorEq, not_false_eq_true]
      -- No session can refer to a request that did not exist.
      rcases h.owned k s hs with ⟨r, hr, _⟩
      rw [hk, hfresh] at hr
      simp only [reduceCtorEq] at hr
  | assigned id technician r hr hs =>
      -- What is empty while the request is waiting stays so, up to the two columns filled.
      have hwf := h.requestWellFormed id r hr
      simp only [SupportRequest.WellFormed, hs] at hwf
      refine h.change_request (h.requestId id r hr) ?_ ?_
        (fun k s hk => h.no_session hr (by rw [hs]; decide) (by rw [hs]; decide) hk)
      · simp only [SupportRequest.WellFormed, assignment, SupportRequestTransition.apply,
          Option.some_or, Option.none_or, Option.isSome_some, true_and]
        exact ⟨hwf.2.2.1, hwf.2.2.2⟩
      · simp only [assignment, SupportRequestTransition.apply, ne_eq, reduceCtorEq,
          not_false_eq_true]
  | accepted id device r hr hd hs =>
      have hwf := h.requestWellFormed id r hr
      simp only [SupportRequest.WellFormed, hs] at hwf
      refine h.change_request (h.requestId id r hr) ?_ ?_
        (fun k s hk => h.no_session hr (by rw [hs]; decide) (by rw [hs]; decide) hk)
      · simp only [SupportRequest.WellFormed, acceptance, SupportRequestTransition.apply,
          Option.some_or, Option.none_or, Option.isSome_some, true_and]
        exact ⟨hwf.1, hwf.2.1, hwf.2.2.2⟩
      · simp only [acceptance, SupportRequestTransition.apply, ne_eq, reduceCtorEq,
          not_false_eq_true]
  | rejected id device r hr hd hs =>
      have hwf := h.requestWellFormed id r hr
      simp only [SupportRequest.WellFormed, hs] at hwf
      refine h.change_request (h.requestId id r hr) ?_ ?_
        (fun k s hk => h.no_session hr (by rw [hs]; decide) (by rw [hs]; decide) hk)
      · simp only [SupportRequest.WellFormed, rejection, SupportRequestTransition.apply,
          Option.some_or, Option.none_or, Option.isSome_some, and_true]
        exact ⟨hwf.1, hwf.2.1⟩
      · simp only [rejection, SupportRequestTransition.apply, ne_eq, reduceCtorEq,
          not_false_eq_true]
  | cancelled id device r hr hd hs hnone ht =>
      have hwf := h.requestWellFormed id r hr
      refine h.change_request (h.requestId id r hr) ?_ ?_ hnone
      · simp only [SupportRequest.WellFormed, cancellation, SupportRequestTransition.apply,
          Option.some_or, Option.none_or, Option.isSome_some, true_and]
        -- A cancelled request may have been in any of the three active statuses.
        rcases isActive_iff.mp hs with hst | hst | hst
        · simp only [SupportRequest.WellFormed, hst] at hwf
          simp only [hwf.1, hwf.2.1, hwf.2.2.1, Option.isSome_none, Bool.false_eq_true,
            false_imp_iff, and_self]
        · simp only [SupportRequest.WellFormed, hst] at hwf
          simp only [hwf.1, hwf.2.1, implies_true, and_self]
        · simp only [SupportRequest.WellFormed, hst] at hwf
          simp only [hwf.1, hwf.2.1, implies_true, and_self]
      · simp only [cancellation, SupportRequestTransition.apply, ne_eq, reduceCtorEq,
          not_false_eq_true]
  | opened id user r sid createdAt hr hu' hs hfresh hfree =>
      have hid := h.requestId id r hr
      refine h.change_session (r := r) rfl ⟨rfl, rfl, rfl⟩ (isLive_iff.mpr ?_) ?_ rfl hu' hs
        (fun s hs' => ?_)
      · simp only [newSession, ne_eq, reduceCtorEq, not_false_eq_true]
      -- The session refers to the request it is opened for, which is accepted.
      · simp only [newSession, hid]
        exact hr
      · rw [hfresh] at hs'
        simp only [reduceCtorEq] at hs'
  | activated id user s hs hu' hst =>
      -- The request of a live session is accepted, and it stays so.
      have hl : s.isLive = true := isLive_iff.mpr (by rw [hst]; decide)
      rcases h.owned id s hs with ⟨r, hr, hd, htech, hacc⟩
      rw [if_pos hl] at hacc
      have hwf := h.sessionWellFormed id s hs
      simp only [RemoteSession.WellFormed, hst] at hwf
      refine h.change_session (r := r) (h.sessionId id s hs) ?_ ?_ hr hd htech hacc
        (fun s' hs' => ?_)
      · simp only [RemoteSession.WellFormed, activation, RemoteSessionChanges.apply, Option.some_or,
          Option.none_or, Option.isSome_some, true_and]
        exact ⟨hwf.2.1, hwf.2.2⟩
      · rw [isLive_iff]
        simp only [activation, RemoteSessionChanges.apply, ne_eq, reduceCtorEq, not_false_eq_true]
      · rw [hs, Option.some.injEq] at hs'
        rw [← hs']
        exact hl
  | repeated id user s hs hu' hst => exact h
  | closedByTechnician id user s r hs hu' hl hr hst ht => exact h.close hu hs hr hst
  | closedByDevice id device s r hs hd hl hr hst ht => exact h.close hu hs hr hst

/-! ## Rows move forward -/

/-- The moves of a request's status. -/
inductive StatusMove : SupportRequestStatus → SupportRequestStatus → Prop where
  | assign : StatusMove .waiting .assigned
  | accept : StatusMove .assigned .accepted
  | reject : StatusMove .assigned .rejected
  | cancelWaiting : StatusMove .waiting .cancelled
  | cancelAssigned : StatusMove .assigned .cancelled
  | cancelAccepted : StatusMove .accepted .cancelled
  | complete : StatusMove .accepted .completed

/-- The moves of a session's status. -/
inductive SessionStatusMove : RemoteSessionStatus → RemoteSessionStatus → Prop where
  | activate : SessionStatusMove .connecting .active
  | closeConnecting : SessionStatusMove .connecting .closed
  | closeActive : SessionStatusMove .active .closed

/-- A column that is filled keeps its value. -/
def KeepsValue {α : Type} (a b : Option α) : Prop := ∀ x, a = some x → b = some x

/-- Nothing has changed. -/
theorem keepsValue_refl {α : Type} (a : Option α) : KeepsValue a a := fun _ h => h

/-- What is filled and kept is kept on. -/
theorem KeepsValue.trans {α : Type} {a b c : Option α} (h : KeepsValue a b)
    (h' : KeepsValue b c) : KeepsValue a c := fun x hx => h' x (h x hx)

/-- The columns of a request that are fixed, or fixed once filled. -/
structure RequestKeeps (r r' : SupportRequest) : Prop where
  id : r'.id = r.id
  deviceId : r'.deviceId = r.deviceId
  createdAt : r'.createdAt = r.createdAt
  technicianId : KeepsValue r.technicianId r'.technicianId
  assignedAt : KeepsValue r.assignedAt r'.assignedAt
  respondedAt : KeepsValue r.respondedAt r'.respondedAt
  closedAt : KeepsValue r.closedAt r'.closedAt

/-- The columns of a session that are fixed, or fixed once filled. -/
structure SessionKeeps (s s' : RemoteSession) : Prop where
  id : s'.id = s.id
  supportRequestId : s'.supportRequestId = s.supportRequestId
  deviceId : s'.deviceId = s.deviceId
  technicianId : s'.technicianId = s.technicianId
  createdAt : s'.createdAt = s.createdAt
  connectedAt : KeepsValue s.connectedAt s'.connectedAt
  endedAt : KeepsValue s.endedAt s'.endedAt
  endedBy : KeepsValue s.endedBy s'.endedBy

/-- Nothing has changed. -/
theorem RequestKeeps.refl (r : SupportRequest) : RequestKeeps r r :=
  ⟨rfl, rfl, rfl, keepsValue_refl _, keepsValue_refl _, keepsValue_refl _, keepsValue_refl _⟩

/-- One change after another. -/
theorem RequestKeeps.trans {r₁ r₂ r₃ : SupportRequest} (h : RequestKeeps r₁ r₂)
    (h' : RequestKeeps r₂ r₃) : RequestKeeps r₁ r₃ :=
  ⟨h'.id.trans h.id, h'.deviceId.trans h.deviceId, h'.createdAt.trans h.createdAt,
    h.technicianId.trans h'.technicianId, h.assignedAt.trans h'.assignedAt,
    h.respondedAt.trans h'.respondedAt, h.closedAt.trans h'.closedAt⟩

/-- Nothing has changed. -/
theorem SessionKeeps.refl (s : RemoteSession) : SessionKeeps s s :=
  ⟨rfl, rfl, rfl, rfl, rfl, keepsValue_refl _, keepsValue_refl _, keepsValue_refl _⟩

/-- One change after another. -/
theorem SessionKeeps.trans {s₁ s₂ s₃ : RemoteSession} (h : SessionKeeps s₁ s₂)
    (h' : SessionKeeps s₂ s₃) : SessionKeeps s₁ s₃ :=
  ⟨h'.id.trans h.id, h'.supportRequestId.trans h.supportRequestId,
    h'.deviceId.trans h.deviceId, h'.technicianId.trans h.technicianId,
    h'.createdAt.trans h.createdAt, h.connectedAt.trans h'.connectedAt,
    h.endedAt.trans h'.endedAt, h.endedBy.trans h'.endedBy⟩

/-- What one commit does to one request. -/
structure RequestMove (r r' : SupportRequest) : Prop extends RequestKeeps r r' where
  status : StatusMove r.status r'.status

/-- What one commit does to one session. -/
structure SessionMove (s s' : RemoteSession) : Prop extends SessionKeeps s s' where
  status : SessionStatusMove s.status s'.status

/-- The status and the columns of a request, after an update that fills only
    empty columns. -/
theorem requestMove_apply {r : SupportRequest} {c : SupportRequestTransition}
    (hst : StatusMove r.status c.status) (ht : c.technicianId = none ∨ r.technicianId = none)
    (ha : c.assignedAt = none ∨ r.assignedAt = none)
    (hr : c.respondedAt = none ∨ r.respondedAt = none)
    (hc : c.closedAt = none ∨ r.closedAt = none) : RequestMove r (c.apply r) := by
  have keep : ∀ {a b : Option Nat}, a = none ∨ b = none → KeepsValue b (a.or b) := by
    intro a b hab x hx
    rcases hab with h | h
    · rw [h, Option.none_or]
      exact hx
    · rw [h] at hx
      simp only [reduceCtorEq] at hx
  exact ⟨⟨rfl, rfl, rfl, keep ht, keep ha, keep hr, keep hc⟩, hst⟩

/-- The same of a session. -/
theorem sessionMove_apply {s : RemoteSession} {c : RemoteSessionChanges}
    (hst : SessionStatusMove s.status c.status)
    (hc : c.connectedAt = none ∨ s.connectedAt = none) (he : c.endedAt = none ∨ s.endedAt = none)
    (hb : c.endedBy = none ∨ s.endedBy = none) : SessionMove s (c.apply s) := by
  have keep : ∀ {α : Type} {a b : Option α}, a = none ∨ b = none → KeepsValue b (a.or b) := by
    intro α a b hab x hx
    rcases hab with h | h
    · rw [h, Option.none_or]
      exact hx
    · rw [h] at hx
      simp only [reduceCtorEq] at hx
  exact ⟨⟨rfl, rfl, rfl, rfl, rfl, keep hc, keep he, keep hb⟩, hst⟩

/-- The columns a closed request has left to fill. -/
theorem Consistent.closedAt_none {T : Tables} (h : Consistent T) {k : Uuid} {r : SupportRequest}
    (hr : T.requests k = some r) (hs : r.isActive = true) : r.closedAt = none := by
  have hwf := h.requestWellFormed k r hr
  rcases isActive_iff.mp hs with hst | hst | hst <;>
    simp only [SupportRequest.WellFormed, hst] at hwf
  · exact hwf.2.2.2
  · exact hwf.2.2.2
  · exact hwf.2.2.2

/-- A live session has neither an end nor anybody who has ended it. -/
theorem Consistent.ended_none {T : Tables} (h : Consistent T) {k : Uuid} {s : RemoteSession}
    (hs : T.sessions k = some s) (hl : s.isLive = true) : s.endedAt = none ∧ s.endedBy = none := by
  have hwf := h.sessionWellFormed k s hs
  have hne := isLive_iff.mp hl
  cases hst : s.status with
  | connecting =>
      simp only [RemoteSession.WellFormed, hst] at hwf
      exact hwf.2
  | active =>
      simp only [RemoteSession.WellFormed, hst] at hwf
      exact hwf.2
  | closed => exact absurd hst hne

/-- A closure moves its session and its request. -/
theorem Consistent.closure_moves {T : Tables} (h : Consistent T) {id : Uuid} {s : RemoteSession}
    {r : SupportRequest} (t : Timestamp) (endedBy : RemoteSessionEndedBy)
    (hs : T.sessions id = some s) (hl : s.isLive = true)
    (hr : T.requests s.supportRequestId = some r) (hst : r.status = .accepted) :
    RequestMove r ((completion t).apply r) ∧
    SessionMove s ((closure t endedBy).apply s) := by
  -- An active request may be completed, and it has no time of closure yet.
  have hactive : r.isActive = true := isActive_iff.mpr (.inr (.inr hst))
  have hended := h.ended_none hs hl
  refine ⟨requestMove_apply ?_ (.inl rfl) (.inl rfl) (.inl rfl)
      (.inr (h.closedAt_none hr hactive)), sessionMove_apply ?_ (.inl rfl) (.inr hended.1)
      (.inr hended.2)⟩
  · rw [hst]
    exact .complete
  · have hne := isLive_iff.mp hl
    cases hss : s.status with
    | connecting => exact .closeConnecting
    | active => exact .closeActive
    | closed => exact absurd hss hne

/-- Every write of an explained commit to a request that exists is a move,
    and records the row it found. -/
theorem Explains.requestMove {T : Tables} {t : Timestamp} {op : Operation} {ws : Writes}
    (hx : Explains T t op ws) (h : Consistent T) :
    ∀ w ∈ ws.requests, w.old = T.requests w.key ∧ ∀ r, w.old = some r → RequestMove r w.new := by
  -- The rows an update finds have the columns it fills still empty.
  cases hx with
  | created device id createdAt hactive hfresh hfree =>
      intro w hw
      rw [requestWrites, List.mem_singleton] at hw
      subst hw
      refine ⟨rfl, fun r hr => ?_⟩
      simp only [hfresh, reduceCtorEq] at hr
  | assigned id technician r hr hs =>
      intro w hw
      rw [requestWrites, List.mem_singleton] at hw
      subst hw
      refine ⟨rfl, fun r' hr' => ?_⟩
      simp only [hr, Option.some.injEq] at hr'
      subst hr'
      have hwf := h.requestWellFormed id r hr
      simp only [SupportRequest.WellFormed, hs] at hwf
      exact requestMove_apply (by rw [hs]; exact .assign) (.inr hwf.1) (.inr hwf.2.1) (.inl rfl)
        (.inl rfl)
  | accepted id device r hr hd hs =>
      intro w hw
      rw [requestWrites, List.mem_singleton] at hw
      subst hw
      refine ⟨rfl, fun r' hr' => ?_⟩
      simp only [hr, Option.some.injEq] at hr'
      subst hr'
      have hwf := h.requestWellFormed id r hr
      simp only [SupportRequest.WellFormed, hs] at hwf
      exact requestMove_apply (by rw [hs]; exact .accept) (.inl rfl) (.inl rfl) (.inr hwf.2.2.1)
        (.inl rfl)
  | rejected id device r hr hd hs =>
      intro w hw
      rw [requestWrites, List.mem_singleton] at hw
      subst hw
      refine ⟨rfl, fun r' hr' => ?_⟩
      simp only [hr, Option.some.injEq] at hr'
      subst hr'
      have hwf := h.requestWellFormed id r hr
      simp only [SupportRequest.WellFormed, hs] at hwf
      exact requestMove_apply (by rw [hs]; exact .reject) (.inl rfl) (.inl rfl) (.inr hwf.2.2.1)
        (.inr hwf.2.2.2)
  | cancelled id device r hr hd hs hnone ht =>
      intro w hw
      rw [requestWrites, List.mem_singleton] at hw
      subst hw
      refine ⟨rfl, fun r' hr' => ?_⟩
      simp only [hr, Option.some.injEq] at hr'
      subst hr'
      refine requestMove_apply ?_ (.inl rfl) (.inl rfl) (.inl rfl) (.inr (h.closedAt_none hr hs))
      rcases isActive_iff.mp hs with hst | hst | hst
      -- The status moves from whichever of the three it had.
      · rw [hst]
        exact .cancelWaiting
      · rw [hst]
        exact .cancelAssigned
      · rw [hst]
        exact .cancelAccepted
  | opened id user r sid createdAt hr hu hs hfresh hfree =>
      intro w hw
      simp only [sessionWrites, List.not_mem_nil] at hw
  | activated id user s hs hu hst =>
      intro w hw
      simp only [sessionWrites, List.not_mem_nil] at hw
  | repeated id user s hs hu hst =>
      intro w hw
      simp only [List.not_mem_nil] at hw
  | closedByTechnician id user s r hs hu hl hr hst ht =>
      intro w hw
      simp only [closureWrites, List.mem_singleton] at hw
      subst hw
      refine ⟨rfl, fun r' hr' => ?_⟩
      simp only [hr, Option.some.injEq] at hr'
      subst hr'
      exact (h.closure_moves t .technician hs hl hr hst).1
  | closedByDevice id device s r hs hd hl hr hst ht =>
      intro w hw
      simp only [closureWrites, List.mem_singleton] at hw
      subst hw
      refine ⟨rfl, fun r' hr' => ?_⟩
      simp only [hr, Option.some.injEq] at hr'
      subst hr'
      exact (h.closure_moves t .device hs hl hr hst).1

/-- Every write of an explained commit to a session that exists is a move, and
    records the row it found. Only an opening, an activation and a closure write
    to a session. -/
theorem Explains.sessionMove {T : Tables} {t : Timestamp} {op : Operation} {ws : Writes}
    (hx : Explains T t op ws) (h : Consistent T) :
    ∀ w ∈ ws.sessions, w.old = T.sessions w.key ∧ ∀ s, w.old = some s → SessionMove s w.new := by
  cases hx with
  | opened id user r sid createdAt hr hu hs hfresh hfree =>
      intro w hw
      rw [sessionWrites, List.mem_singleton] at hw
      subst hw
      refine ⟨rfl, fun s hs' => ?_⟩
      simp only [hfresh, reduceCtorEq] at hs'
  | activated id user s hs hu hst =>
      intro w hw
      rw [sessionWrites, List.mem_singleton] at hw
      subst hw
      refine ⟨rfl, fun s' hs' => ?_⟩
      simp only [hs, Option.some.injEq] at hs'
      subst hs'
      have hwf := h.sessionWellFormed id s hs
      simp only [RemoteSession.WellFormed, hst] at hwf
      exact sessionMove_apply (by rw [hst]; exact .activate) (.inr hwf.1) (.inl rfl) (.inl rfl)
  | closedByTechnician id user s r hs hu hl hr hst ht =>
      intro w hw
      simp only [closureWrites, List.mem_singleton] at hw
      subst hw
      refine ⟨rfl, fun s' hs' => ?_⟩
      simp only [hs, Option.some.injEq] at hs'
      subst hs'
      exact (h.closure_moves t .technician hs hl hr hst).2
  | closedByDevice id device s r hs hd hl hr hst ht =>
      intro w hw
      simp only [closureWrites, List.mem_singleton] at hw
      subst hw
      refine ⟨rfl, fun s' hs' => ?_⟩
      simp only [hs, Option.some.injEq] at hs'
      subst hs'
      exact (h.closure_moves t .device hs hl hr hst).2
  | _ =>
      intro w hw
      simp only [requestWrites, List.not_mem_nil] at hw

end RemoteControl

import RemoteControl.Theory.Transitions

/-!
# What an Owner Has

A call that is made for a device or for a technician names a row by its
identifier, and the row has to be the caller's own. This module says what such
a call is answered as a function of the caller's rows alone (`OwnRows.reply`),
together with the devices, the users and the presence that belong to them. The
rows of all the others do not occur in it.

Two answers are alike when they differ at most in what is generated: the
identifier and the time of a new row, and the time at which a row was changed.

The reply is written in the order of the source: first the row, then the
checks of its status, then what is asked of the other rows. It is not
computable, as the current row of an owner is chosen among those that there
are; in a reachable state there is one at most.

## Main definitions

* `OwnerCall`, `OwnerCall.body`: The calls that are made for an owner, and
  their methods.
* `OwnRows`, `World.ownRows`: The rows of an owner with what belongs to them.
* `OwnRows.reply`: What a call is answered.
* `OwnerCall.Misses`: The identifier of the call is not that of a row of the
  caller's.
* `Alike`: The same answer, up to what is generated.
* `Spares`: The rows of the others stay what they were.
* `Generated`: What is new in an answer.
* `SupportRequestResponseDto.Alike`, `RemoteSessionResponseDto.Alike`: Two
  responses, column by column.

## Theorems

* `reply_alike`: Only what is generated tells two replies apart.
* `spares_apply`: A commit that writes the rows of an owner.
* `answered_assigned`, `closed_live`, `reply_create`, `reply_cancel_active`,
  `reply_activate_connecting`: The replies that are no errors.
-/

namespace RemoteControl

open Concurrency

/-! ## The calls of an owner -/

/-- The calls in which a device or a technician asks for what is its own. -/
inductive OwnerCall where
  | createForDevice (device : Device)
  | currentRequestOfDevice (device : Device)
  | acceptByDevice (id : Uuid) (device : Device)
  | rejectByDevice (id : Uuid) (device : Device)
  | cancelByDevice (id : Uuid) (device : Device)
  | currentSessionOfDevice (device : Device)
  | closeByDevice (id : Uuid) (device : Device)
  | create (supportRequestId : Uuid) (user : User)
  | currentSessionOfTechnician (user : User)
  | findOneForTechnician (id : Uuid) (user : User)
  | activateByTechnician (id : Uuid) (user : User)
  | closeByTechnician (id : Uuid) (user : User)

/-- For whom the call is made. -/
def OwnerCall.owner : OwnerCall → Owner
  | .createForDevice device => .device device.id
  | .currentRequestOfDevice device => .device device.id
  | .acceptByDevice _ device => .device device.id
  | .rejectByDevice _ device => .device device.id
  | .cancelByDevice _ device => .device device.id
  | .currentSessionOfDevice device => .device device.id
  | .closeByDevice _ device => .device device.id
  | .create _ user => .technician user.id
  | .currentSessionOfTechnician user => .technician user.id
  | .findOneForTechnician _ user => .technician user.id
  | .activateByTechnician _ user => .technician user.id
  | .closeByTechnician _ user => .technician user.id

/-- The bodies of the responses. -/
inductive Reply where
  | supportRequest (dto : SupportRequestResponseDto)
  | remoteSession (dto : RemoteSessionResponseDto)
  | currentRequest (found : Option SupportRequestResponseDto)
  | currentSession (found : Option RemoteSessionResponseDto)

/-- The service's method for the call. -/
def OwnerCall.body : OwnerCall → Service Reply
  | .createForDevice device => Reply.supportRequest <$>
      SupportRequestsService.createForDevice device
  | .currentRequestOfDevice device => Reply.currentRequest <$>
      SupportRequestsService.findCurrentForDevice device.id
  | .acceptByDevice id device => Reply.supportRequest <$>
      SupportRequestsService.acceptByDevice id device
  | .rejectByDevice id device => Reply.supportRequest <$>
      SupportRequestsService.rejectByDevice id device
  | .cancelByDevice id device => Reply.supportRequest <$>
      SupportRequestsService.cancelByDevice id device
  | .currentSessionOfDevice device => Reply.currentSession <$>
      RemoteSessionsService.findCurrentForDevice device.id
  | .closeByDevice id device => Reply.remoteSession <$>
      RemoteSessionsService.closeByDevice id device
  | .create supportRequestId user => Reply.remoteSession <$>
      RemoteSessionsService.create supportRequestId user
  | .currentSessionOfTechnician user => Reply.currentSession <$>
      RemoteSessionsService.findCurrentForTechnician user.id
  | .findOneForTechnician id user => Reply.remoteSession <$>
      RemoteSessionsService.findOneForTechnician id user
  | .activateByTechnician id user => Reply.remoteSession <$>
      RemoteSessionsService.activateByTechnician id user
  | .closeByTechnician id user => Reply.remoteSession <$>
      RemoteSessionsService.closeByTechnician id user

/-! ## The rows of an owner -/

/-- A request with what belongs to it. -/
structure OwnRequest where
  row : SupportRequest
  device : Device
  technician : Option User
  online : Bool
  deriving DecidableEq

/-- A session with what belongs to it. -/
structure OwnSession where
  row : RemoteSession
  device : Device
  technician : User
  online : Bool
  deriving DecidableEq

/-- The rows of an owner. -/
structure OwnRows where
  requests : Uuid → Option OwnRequest
  sessions : Uuid → Option OwnSession

/-- The row with its device, its technician and the presence of the device. -/
def World.ownRequest (w : World) (env : Env) (r : SupportRequest) : OwnRequest :=
  { row := r, device := w.devices r.deviceId, technician := r.technicianId.map w.users
    online := env.online r.deviceId }

/-- The row with its device, its technician and the presence of the device. -/
def World.ownSession (w : World) (env : Env) (s : RemoteSession) : OwnSession :=
  { row := s, device := w.devices s.deviceId, technician := w.users s.technicianId
    online := env.online s.deviceId }

/-- What belongs to an owner in this state and these surroundings. -/
def World.ownRows (w : World) (env : Env) (owner : Owner) : OwnRows :=
  { requests := fun k => ((w.tables.requests k).filter owner.ofRequest).map (w.ownRequest env)
    sessions := fun k => ((w.tables.sessions k).filter owner.ofSession).map (w.ownSession env) }

/-- The request as the repository loads it. -/
def OwnRequest.loaded (r : OwnRequest) : LoadedSupportRequest :=
  { r.row with device := some r.device, technician := r.technician }

/-- The session as the repository loads it. -/
def OwnSession.loaded (s : OwnSession) : LoadedRemoteSession :=
  { s.row with device := s.device, technician := s.technician }

/-- The request with other columns. -/
def OwnRequest.withRow (r : OwnRequest) (row : SupportRequest) : OwnRequest := { r with row }

/-- The session with other columns. -/
def OwnSession.withRow (s : OwnSession) (row : RemoteSession) : OwnSession := { s with row }

/-- The request as it is shown. -/
def OwnRequest.shown (r : OwnRequest) : SupportRequestResponseDto :=
  SupportRequestResponseDto.forDevice r.loaded

/-- The session as it is shown. -/
def OwnSession.shown (s : OwnSession) : RemoteSessionResponseDto :=
  RemoteSessionResponseDto.fromEntity s.loaded s.online

/-- What a call is given that is new: the time, and the identifier and the
    time of creation of a row. -/
structure Generated where
  now : Timestamp
  newId : Uuid
  createdAt : Timestamp

/-- What a call is given in this state and these surroundings. -/
def World.generated (w : World) (env : Env) : Generated :=
  { now := w.clock + env.tick, newId := env.newId, createdAt := env.createdAt }

/-! ## Replies -/

namespace OwnRows

variable (own : OwnRows)

/-- The owner has a request that is not settled. -/
def HasActiveRequest : Prop := ∃ k r, own.requests k = some r ∧ r.row.isActive = true

/-- The owner has a session that is not closed. -/
def HasLiveSession : Prop := ∃ k s, own.sessions k = some s ∧ s.row.isLive = true

/-- There is a live session about the request. -/
def Started (id : Uuid) : Prop :=
  ∃ k s, own.sessions k = some s ∧ s.row.supportRequestId = id ∧ s.row.isLive = true

/-- A device answers the technician of its request. -/
def answered (id : Uuid) (changes : SupportRequestTransition) : Except HttpException Reply :=
  match own.requests id with
  | none => .error (SupportRequestsService.requestNotFound id)
  | some r =>
    if r.row.status = .assigned then
      .ok (.supportRequest (r.withRow (changes.apply r.row)).shown)
    else .error (SupportRequestsService.cannotChange id r.row.status changes.status)

/-- One end closes a session. -/
def closed (id : Uuid) (now : Timestamp) (endedBy : RemoteSessionEndedBy) (fails : Bool) :
    Except HttpException Reply :=
  match own.sessions id with
  | none => .error (RemoteSessionsService.sessionNotFound id)
  | some s =>
    if s.row.status = .closed then .error (RemoteSessionsService.alreadyClosed id)
    else if fails = true then .error .transportError
    else .ok (.remoteSession (s.withRow ((closure now endedBy).apply s.row)).shown)

open Classical in
/-- The active request. -/
noncomputable def currentRequest : Option OwnRequest :=
  if h : ∃ r, (∃ k, own.requests k = some r) ∧ r.row.isActive = true then some h.choose else none

open Classical in
/-- The live session. -/
noncomputable def currentSession : Option OwnSession :=
  if h : ∃ s, (∃ k, own.sessions k = some s) ∧ s.row.isLive = true then some h.choose else none

open Classical in
/-- What a call is answered, when these are the caller's rows. `fails` says
    which ways of emitting fail. -/
noncomputable def reply (g : Generated) (fails : Emitter → Bool) :
    OwnerCall → Except HttpException Reply
  | .createForDevice device =>
    if device.isActive = false then .error (.forbidden "Device is inactive, talk with an admin")
    else if own.HasActiveRequest then
      .error (.conflict "The device already has an active support request")
    else .ok (.supportRequest (SupportRequestResponseDto.forDevice
      { newRequest device.id g.newId g.createdAt with device := none, technician := none }))
  | .currentRequestOfDevice _ => .ok (.currentRequest (own.currentRequest.map OwnRequest.shown))
  | .acceptByDevice id _ => own.answered id (acceptance g.now)
  | .rejectByDevice id _ => own.answered id (rejection g.now)
  | .cancelByDevice id _ => match own.requests id with
    | none => .error (SupportRequestsService.requestNotFound id)
    | some r =>
      if r.row.isActive = false then
        .error (SupportRequestsService.cannotChange id r.row.status .cancelled)
      else if own.Started id then .error (.conflict
        (s!"Remote assistance for support request with id {id} " ++
          "already started, close the remote session instead"))
      else .ok (.supportRequest (r.withRow ((cancellation g.now).apply r.row)).shown)
  | .currentSessionOfDevice _ => .ok (.currentSession (own.currentSession.map OwnSession.shown))
  | .closeByDevice id _ => own.closed id g.now .device false
  | .create id user => match own.requests id with
    | none => .error (SupportRequestsService.requestNotFound id)
    | some r =>
      if r.row.status ≠ .accepted then .error (.conflict
        s!"Support request with id {id} was not accepted by the device")
      else if own.HasLiveSession then .error (.conflict
        s!"Technician with id {user.id} already has an active remote session")
      else if r.online = false then .error (.conflict
        s!"Device with id {r.row.deviceId} is offline")
      else if fails .emitToDevice = true then .error .transportError
      else .ok (.remoteSession (RemoteSessionResponseDto.fromEntity
        { newSession r.row user.id g.newId g.createdAt with device := r.device, technician := user }
        r.online))
  | .currentSessionOfTechnician _ =>
    .ok (.currentSession (own.currentSession.map OwnSession.shown))
  | .findOneForTechnician id _ => match own.sessions id with
    | none => .error (RemoteSessionsService.sessionNotFound id)
    | some s => .ok (.remoteSession s.shown)
  | .activateByTechnician id user => match own.sessions id with
    | none => .error (RemoteSessionsService.sessionNotFound id)
    | some s =>
      if s.row.status = .closed then .error (RemoteSessionsService.alreadyClosed id)
      else if s.row.status = .active then .ok (.remoteSession { s with technician := user }.shown)
      else .ok (.remoteSession
        { s.withRow ((activation g.now).apply s.row) with technician := user }.shown)
  | .closeByTechnician id _ => own.closed id g.now .technician (fails .emitToDevice)

end OwnRows

/-- The call names a row, and among the caller's there is none under that
    identifier. It is then answered `e`. -/
def OwnerCall.Misses (own : OwnRows) (e : HttpException) : OwnerCall → Prop
  | .acceptByDevice id _ =>
    own.requests id = none ∧ e = SupportRequestsService.requestNotFound id
  | .rejectByDevice id _ =>
    own.requests id = none ∧ e = SupportRequestsService.requestNotFound id
  | .cancelByDevice id _ =>
    own.requests id = none ∧ e = SupportRequestsService.requestNotFound id
  | .closeByDevice id _ =>
    own.sessions id = none ∧ e = RemoteSessionsService.sessionNotFound id
  | .create id _ =>
    own.requests id = none ∧ e = SupportRequestsService.requestNotFound id
  | .findOneForTechnician id _ =>
    own.sessions id = none ∧ e = RemoteSessionsService.sessionNotFound id
  | .activateByTechnician id _ =>
    own.sessions id = none ∧ e = RemoteSessionsService.sessionNotFound id
  | .closeByTechnician id _ =>
    own.sessions id = none ∧ e = RemoteSessionsService.sessionNotFound id
  | _ => False

/-! ## Replies that are alike -/

/-- Two values are the same, or each is the new one of its run. -/
def SameOrNew {α : Type} (new new' a a' : α) : Prop := a = a' ∨ (a = new ∧ a' = new')

/-- Two responses differ at most in what is generated. -/
structure SupportRequestResponseDto.Alike (g g' : Generated) (d d' : SupportRequestResponseDto) :
    Prop where
  id : SameOrNew g.newId g'.newId d.id d'.id
  deviceId : d.deviceId = d'.deviceId
  status : d.status = d'.status
  technicianId : d.technicianId = d'.technicianId
  technician : d.technician = d'.technician
  createdAt : SameOrNew g.createdAt g'.createdAt d.createdAt d'.createdAt
  assignedAt : d.assignedAt = d'.assignedAt
  respondedAt : SameOrNew (some g.now) (some g'.now) d.respondedAt d'.respondedAt
  closedAt : SameOrNew (some g.now) (some g'.now) d.closedAt d'.closedAt
  device : d.device = d'.device

/-- Likewise for the sessions. -/
structure RemoteSessionResponseDto.Alike (g g' : Generated) (d d' : RemoteSessionResponseDto) :
    Prop where
  id : SameOrNew g.newId g'.newId d.id d'.id
  supportRequestId : d.supportRequestId = d'.supportRequestId
  status : d.status = d'.status
  createdAt : SameOrNew g.createdAt g'.createdAt d.createdAt d'.createdAt
  connectedAt : SameOrNew (some g.now) (some g'.now) d.connectedAt d'.connectedAt
  endedAt : SameOrNew (some g.now) (some g'.now) d.endedAt d'.endedAt
  endedBy : d.endedBy = d'.endedBy
  device : d.device = d'.device
  technician : d.technician = d'.technician

/-- Two results are the same, errors included, up to what is generated. -/
inductive Alike (g g' : Generated) :
    Except HttpException Reply → Except HttpException Reply → Prop where
  | same (res : Except HttpException Reply) : Alike g g' res res
  | supportRequest {d d' : SupportRequestResponseDto} (h : d.Alike g g' d') :
      Alike g g' (.ok (.supportRequest d)) (.ok (.supportRequest d'))
  | remoteSession {d d' : RemoteSessionResponseDto} (h : d.Alike g g' d') :
      Alike g g' (.ok (.remoteSession d)) (.ok (.remoteSession d'))

/-- A value that was there before. -/
theorem SameOrNew.refl {α : Type} {new new' : α} (a : α) : SameOrNew new new' a a := .inl rfl

/-- A value that is new in either. -/
theorem SameOrNew.new {α : Type} (a a' : α) : SameOrNew a a' a a' := .inr ⟨rfl, rfl⟩

variable {own : OwnRows} {g g' : Generated}

/-- Two answers to a request differ at most in the time. -/
theorem alike_answered {id : Uuid} {changes changes' : SupportRequestTransition}
    (hstatus : changes.status = changes'.status)
    (h : ∀ r : OwnRequest, (r.withRow (changes.apply r.row)).shown.Alike g g'
      (r.withRow (changes'.apply r.row)).shown) :
    Alike g g' (own.answered id changes) (own.answered id changes') := by
  simp only [OwnRows.answered, hstatus]
  cases own.requests id with
  | none => exact .same _
  | some r =>
      simp only
      split
      · exact .supportRequest (h r)
      · exact .same _

/-- Two closures differ at most in the time. -/
theorem alike_closed {id : Uuid} {endedBy : RemoteSessionEndedBy} {fails : Bool} :
    Alike g g' (own.closed id g.now endedBy fails) (own.closed id g'.now endedBy fails) := by
  simp only [OwnRows.closed]
  cases own.sessions id with
  | none => exact .same _
  | some s =>
      simp only
      split
      · exact .same _
      · split
        · exact .same _
        · exact .remoteSession ⟨.refl _, rfl, rfl, .refl _, .refl _, .new _ _, rfl, rfl, rfl⟩

/-- Only what is generated tells two replies to the same call apart. -/
theorem reply_alike (fails : Emitter → Bool) (call : OwnerCall) :
    Alike g g' (own.reply g fails call) (own.reply g' fails call) := by
  cases call with
  -- A creation generates the identifier and the time of the row.
  | createForDevice device =>
      simp only [OwnRows.reply]
      split
      · exact .same _
      · split
        · exact .same _
        · exact .supportRequest ⟨.new _ _, rfl, rfl, rfl, rfl, .new _ _, rfl, .refl _, .refl _, rfl⟩
  | currentRequestOfDevice device => exact .same _
  -- An answer generates the time of it, and a rejection that of its end as well.
  | acceptByDevice id device =>
      exact alike_answered rfl (fun r => ⟨.refl _, rfl, rfl, rfl, rfl, .refl _, rfl, .new _ _,
        .refl _, rfl⟩)
  | rejectByDevice id device =>
      exact alike_answered rfl (fun r => ⟨.refl _, rfl, rfl, rfl, rfl, .refl _, rfl, .new _ _,
        .new _ _, rfl⟩)
  | cancelByDevice id device =>
      simp only [OwnRows.reply]
      cases own.requests id with
      | none => exact .same _
      | some r =>
          simp only
          split
          · exact .same _
          · split
            · exact .same _
            · exact .supportRequest ⟨.refl _, rfl, rfl, rfl, rfl, .refl _, rfl, .refl _, .new _ _,
                rfl⟩
  | currentSessionOfDevice device => exact .same _
  | closeByDevice id device => exact alike_closed
  -- An opening generates the identifier and the time of the session.
  | create id user =>
      simp only [OwnRows.reply]
      cases own.requests id with
      | none => exact .same _
      | some r =>
          simp only
          split
          · exact .same _
          · split
            · exact .same _
            · split
              · exact .same _
              · split
                · exact .same _
                · exact .remoteSession ⟨.new _ _, rfl, rfl, .new _ _, .refl _, .refl _, rfl, rfl,
                    rfl⟩
  | currentSessionOfTechnician user => exact .same _
  | findOneForTechnician id user => exact .same _
  | activateByTechnician id user =>
      simp only [OwnRows.reply]
      cases own.sessions id with
      | none => exact .same _
      | some s =>
          simp only
          split
          · exact .same _
          · split
            · exact .same _
            · exact .remoteSession ⟨.refl _, rfl, rfl, .refl _, .new _ _, .refl _, rfl, rfl, rfl⟩
  | closeByTechnician id user => exact alike_closed

/-! ## The reply, case by case -/

section Equations

variable {id : Uuid} {r : OwnRequest} {s : OwnSession} {device : Device} {user : User}
  {fails : Emitter → Bool}

/-- An assigned request is answered. -/
theorem answered_assigned {changes : SupportRequestTransition} (hr : own.requests id = some r)
    (hst : r.row.status = .assigned) : own.answered id changes =
      .ok (.supportRequest (r.withRow (changes.apply r.row)).shown) := by
  simp only [OwnRows.answered, hr, if_pos hst]

/-- A request with another status is not. -/
theorem answered_conflict {changes : SupportRequestTransition} (hr : own.requests id = some r)
    (hst : r.row.status ≠ .assigned) : own.answered id changes =
      .error (SupportRequestsService.cannotChange id r.row.status changes.status) := by
  simp only [OwnRows.answered, hr, if_neg hst]

/-- A live session is closed. It is an error of the transport if the other end
    cannot be told and that is not caught. -/
theorem closed_live {now : Timestamp} {endedBy : RemoteSessionEndedBy} {fail : Bool}
    (hs : own.sessions id = some s) (hst : s.row.status ≠ .closed) :
    own.closed id now endedBy fail = if fail = true then .error .transportError
      else .ok (.remoteSession (s.withRow ((closure now endedBy).apply s.row)).shown) := by
  simp only [OwnRows.closed, hs, if_neg hst]

/-- A closed session cannot be closed. -/
theorem closed_closed {now : Timestamp} {endedBy : RemoteSessionEndedBy} {fail : Bool}
    (hs : own.sessions id = some s) (hst : s.row.status = .closed) :
    own.closed id now endedBy fail = .error (RemoteSessionsService.alreadyClosed id) := by
  simp only [OwnRows.closed, hs, if_pos hst]

/-- A settled request cannot be cancelled. -/
theorem reply_cancel_inactive (hr : own.requests id = some r) (ha : r.row.isActive = false) :
    own.reply g fails (.cancelByDevice id device) =
      .error (SupportRequestsService.cannotChange id r.row.status .cancelled) := by
  simp only [OwnRows.reply, hr, if_pos ha]

/-- An active request without a session can. -/
theorem reply_cancel_active (hr : own.requests id = some r) (ha : r.row.isActive = true)
    (hno : ¬ own.Started id) : own.reply g fails (.cancelByDevice id device) =
      .ok (.supportRequest (r.withRow ((cancellation g.now).apply r.row)).shown) := by
  simp only [OwnRows.reply, hr, ha, Bool.true_eq_false, if_false, if_neg hno]

/-- A session cannot be opened before the device has accepted. -/
theorem reply_create_unaccepted (hr : own.requests id = some r) (hst : r.row.status ≠ .accepted) :
    own.reply g fails (.create id user) = .error (.conflict
      s!"Support request with id {id} was not accepted by the device") := by
  simp only [OwnRows.reply, hr, if_pos hst]

/-- Nor by a technician with another one. -/
theorem reply_create_busy (hr : own.requests id = some r) (hst : r.row.status = .accepted)
    (hbusy : own.HasLiveSession) : own.reply g fails (.create id user) = .error (.conflict
      s!"Technician with id {user.id} already has an active remote session") := by
  simp only [OwnRows.reply, hr, hst, ne_eq, not_true_eq_false, if_false, if_pos hbusy]

/-- Nor with a device that is offline. -/
theorem reply_create_offline (hr : own.requests id = some r) (hst : r.row.status = .accepted)
    (hno : ¬ own.HasLiveSession) (hoff : r.online = false) :
    own.reply g fails (.create id user) = .error (.conflict
      s!"Device with id {r.row.deviceId} is offline") := by
  simp only [OwnRows.reply, hr, hst, hoff, ne_eq, not_true_eq_false, if_false, if_neg hno, if_true]

/-- A session is opened, and the device is told with errors uncaught. -/
theorem reply_create (hr : own.requests id = some r) (hst : r.row.status = .accepted)
    (hno : ¬ own.HasLiveSession) (hon : r.online = true) :
    own.reply g fails (.create id user) = if fails .emitToDevice = true then .error .transportError
      else .ok (.remoteSession (RemoteSessionResponseDto.fromEntity
        { newSession r.row user.id g.newId g.createdAt with device := r.device, technician := user }
        r.online)) := by
  simp only [OwnRows.reply, hr, hst, hon, ne_eq, not_true_eq_false, if_false, if_neg hno,
    Bool.true_eq_false]

/-- A closed session cannot be activated. -/
theorem reply_activate_closed (hs : own.sessions id = some s) (hst : s.row.status = .closed) :
    own.reply g fails (.activateByTechnician id user) =
      .error (RemoteSessionsService.alreadyClosed id) := by
  simp only [OwnRows.reply, hs, if_pos hst]

/-- An active session is shown as it is. -/
theorem reply_activate_active (hs : own.sessions id = some s) (hst : s.row.status = .active) :
    own.reply g fails (.activateByTechnician id user) =
      .ok (.remoteSession { s with technician := user }.shown) := by
  simp only [OwnRows.reply, hs, hst, reduceCtorEq, if_false, if_true]

/-- A connecting session is activated. -/
theorem reply_activate_connecting (hs : own.sessions id = some s)
    (hst : s.row.status = .connecting) : own.reply g fails (.activateByTechnician id user) =
      .ok (.remoteSession
        { s.withRow ((activation g.now).apply s.row) with technician := user }.shown) := by
  simp only [OwnRows.reply, hs, hst, reduceCtorEq, if_false]

end Equations

/-! ## The rows of the others -/

/-- Where a row has changed, it was the owner's, if there was one, and it is
    the owner's. -/
structure Spares (owner : Owner) (T T' : Tables) : Prop where
  requests : ∀ k, T'.requests k = T.requests k ∨
    ((∀ r, T.requests k = some r → owner.ofRequest r = true) ∧
      ∃ r, T'.requests k = some r ∧ owner.ofRequest r = true)
  sessions : ∀ k, T'.sessions k = T.sessions k ∨
    ((∀ s, T.sessions k = some s → owner.ofSession s = true) ∧
      ∃ s, T'.sessions k = some s ∧ owner.ofSession s = true)

/-- Nothing has changed. -/
theorem Spares.refl (owner : Owner) (T : Tables) : Spares owner T T :=
  ⟨fun _ => .inl rfl, fun _ => .inl rfl⟩

/-- A commit that takes rows of the owner's and leaves rows of the owner's. -/
theorem spares_apply {owner : Owner} {T : Tables} {ws : Writes}
    (hr : ∀ x ∈ ws.requests, (∀ r, T.requests x.key = some r → owner.ofRequest r = true) ∧
      owner.ofRequest x.new = true)
    (hs : ∀ x ∈ ws.sessions, (∀ s, T.sessions x.key = some s → owner.ofSession s = true) ∧
      owner.ofSession x.new = true) : Spares owner T (T.apply ws) := by
  refine ⟨fun k => ?_, fun k => ?_⟩
  -- The commit does not write the row, or the row is one it takes.
  · rcases applyWrites_split ws.requests T.requests k with ⟨_, heq⟩ | ⟨x, hx, rfl, heq⟩
    · exact .inl heq
    · exact .inr ⟨(hr x hx).1, x.new, heq, (hr x hx).2⟩
  · rcases applyWrites_split ws.sessions T.sessions k with ⟨_, heq⟩ | ⟨x, hx, rfl, heq⟩
    · exact .inl heq
    · exact .inr ⟨(hs x hx).1, x.new, heq, (hs x hx).2⟩

end RemoteControl

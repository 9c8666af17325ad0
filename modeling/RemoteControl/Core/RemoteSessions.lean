import RemoteControl.Core.Backend

/-!
# Remote Sessions

`RemoteSessionsService`: the technician of an accepted request opens a
session, reports it active, and either end closes it.

Opening locks the request, which is the row a cancellation locks as well.
Activation locks the session and is idempotent: repeated on an active session
it returns the session and does nothing. A closure reads the session first
and then changes the session and its request in one transaction, each by a
conditional update, so that of two closures one finds nothing left to close.

The events go out after the commit. `notifyCreated` and `notifyDeviceClosed`
let an error of the transport through; the others catch it.

Two of the transitions read before their transaction and use what they have
read afterwards. A closure builds its response from the row it read first, and
the row may have been activated since. The model keeps these reads where the
source has them.

## Main definitions

* `RemoteSessionsService.create`, `activateByTechnician`,
  `closeByTechnician`, `closeByDevice`: The four transitions.
* `RemoteSessionsService.findCurrentForTechnician`, `findCurrentForDevice`,
  `findOneForTechnician`: The reads.
* `openLocked`, `activateLocked`, `closeBoth`: What runs inside of the
  transactions.
-/

namespace RemoteControl

open Concurrency

namespace RemoteSessionsService

/-- There is no such session, or it is somebody else's. -/
def sessionNotFound (id : Uuid) : HttpException :=
  .notFound s!"Remote session with id {id} not found"

/-- The session has been closed, by either end. -/
def alreadyClosed (id : Uuid) : HttpException :=
  .conflict s!"Remote session with id {id} is already closed"

/-! ## Reading and writing the rows -/

/-- The session, if it belongs to the one who asks. -/
def findOwnedOrFail (id : Uuid) (owner : Owner) : Service LoadedRemoteSession := do
  let remoteSession ← statement (.findSession id owner)
  orFail remoteSession (sessionNotFound id)

/-- The session of this technician. -/
def findOwnedByTechnicianOrFail (id technicianId : Uuid) : Service LoadedRemoteSession :=
  findOwnedOrFail id (.technician technicianId)

/-- The session of this device. -/
def findOwnedByDeviceOrFail (id deviceId : Uuid) : Service LoadedRemoteSession :=
  findOwnedOrFail id (.device deviceId)

/-- The same, and locked until the transaction ends. -/
def lockSessionOwnedByTechnicianOrFail (id technicianId : Uuid) : Service RemoteSession := do
  let remoteSession ← statement (.lockSession id (.technician technicianId))
  orFail remoteSession (sessionNotFound id)

/-- The request of this technician, locked until the transaction ends. -/
def lockOwnedByTechnicianOrFail (id technicianId : Uuid) : Service SupportRequest := do
  let supportRequest ← statement (.lockRequest id (.technician technicianId))
  orFail supportRequest (.notFound s!"Support request with id {id} not found")

/-- Whether the technician is busy with another session. -/
def technicianHasLiveSession (technicianId : Uuid) : Service Bool :=
  statement (.existsLiveSession (.technician technicianId))

/-- The row with its relations. The technician is the caller, so only the device
    is read. -/
def withRelations (remoteSession : RemoteSession) (technician : User) :
    Service LoadedRemoteSession := do
  let device ← statement (.findDevice remoteSession.deviceId)
  return { remoteSession with device, technician }

/-- The update of a closure, on condition that the session is live. -/
def closeSession (id : Uuid) (endedAt : Timestamp) (endedBy : RemoteSessionEndedBy) :
    Service Bool :=
  statement (.updateSession id activeRemoteSessionStatuses
    { status := .closed, endedAt := some endedAt, endedBy := some endedBy })

/-- The update of an activation, on condition that the session is connecting. -/
def activateSession (id : Uuid) (connectedAt : Timestamp) : Service Bool :=
  statement (.updateSession id [.connecting] { status := .active, connectedAt := some connectedAt })

/-- The request of a session that is closed is completed, on condition that it is
    accepted. -/
def completeSupportRequest (id : Uuid) (closedAt : Timestamp) : Service Bool :=
  statement (.updateRequest .entityManager id [.accepted]
    { status := .completed, closedAt := some closedAt })

/-- The message for a violated unique index, told apart by its name. -/
def uniqueViolationMessage (error : QueryFailedError) (draft : RemoteSessionDraft) :
    Option String :=
  if error.code ≠ uniqueViolation then none
  else if error.constraint = activeRemoteSessionIndex then
    some s!"Device with id {draft.deviceId} already has an active remote session"
  else if error.constraint = activeTechnicianRemoteSessionIndex then
    some s!"Technician with id {draft.technicianId} already has an active remote session"
  else if error.constraint = remoteSessionSupportRequestIndex then
    some s!"Support request with id {draft.supportRequestId} already has a remote session"
  else none

/-- The insertion of a session. The unique indexes decide, and which one has
    refused the row words the conflict. -/
def save (draft : RemoteSessionDraft) : Service RemoteSession := do
  let saved ← statement (.insertSession draft)
  match saved with
  | .ok session => .ret session
  | .error error => match uniqueViolationMessage error draft with
    | some conflict => .throw (.conflict conflict)
    | none => .throw (.internalServerError "Please check server logs")

/-! ## Notifications -/

/-- The device is told that a session has been opened. An error is not caught. -/
def notifyCreated (remoteSession : LoadedRemoteSession) : Service Unit :=
  emitToDevice remoteSession.deviceId (.remoteSessionCreated remoteSession.id
    remoteSession.supportRequestId
    (SupportRequestTechnicianDto.fromTechnician remoteSession.technician))

/-- Each end is told separately: a failure on one does not keep the event
    from the other. -/
def notifyActivated (remoteSession : LoadedRemoteSession) : Service Unit := do
  logErrors (emitToDevice remoteSession.deviceId (.remoteSessionActive remoteSession.id))
  logErrors (emitToTechnician remoteSession.technicianId (.remoteSessionActive remoteSession.id))

/-- The event names the session and who has closed it. -/
def closedPayload (remoteSession : LoadedRemoteSession) : Message :=
  .remoteSessionClosed remoteSession.id (remoteSession.endedBy.getD .system)

/-- The device is told of a closure by the technician. An error is not caught. -/
def notifyDeviceClosed (remoteSession : LoadedRemoteSession) : Service Unit :=
  emitToDevice remoteSession.deviceId (closedPayload remoteSession)

/-- The technician is told of a closure by the device. -/
def notifyTechnicianClosed (remoteSession : LoadedRemoteSession) : Service Unit :=
  logErrors (emitToTechnician remoteSession.technicianId (closedPayload remoteSession))

/-- The response shows whether the device is connected when it is built. -/
def toResponse (remoteSession : LoadedRemoteSession) : Service RemoteSessionResponseDto := do
  let online ← isOnline remoteSession.deviceId
  return RemoteSessionResponseDto.fromEntity remoteSession online

/-! ## Closing -/

/-- The transaction of a closure: the session and its request, or neither. -/
def closeBoth (remoteSession : LoadedRemoteSession) (endedAt : Timestamp)
    (endedBy : RemoteSessionEndedBy) : Service Unit := do
  -- The session goes first, so of two closures one finds nothing to close here.
  let closed ← closeSession remoteSession.id endedAt endedBy
  throwIf (!closed) (alreadyClosed remoteSession.id)
  let completed ← completeSupportRequest remoteSession.supportRequestId endedAt
  throwIf (!completed) (.conflict
    (s!"Support request with id {remoteSession.supportRequestId} is not in a state " ++
      "that can complete the remote session"))

/-- What the caller gets is the row read before the transaction, with the
    columns of the closure written over it. -/
def close (remoteSession : LoadedRemoteSession) (endedBy : RemoteSessionEndedBy) :
    Service LoadedRemoteSession := do
  let endedAt ← newDate
  transaction (closeBoth remoteSession endedAt endedBy)
  return { remoteSession with status := .closed, endedAt := some endedAt, endedBy := some endedBy }

/-! ## Technicians -/

/-- The transaction that opens a session. -/
def openLocked (supportRequestId : Uuid) (user : User) : Service LoadedRemoteSession := do
  let supportRequest ← lockOwnedByTechnicianOrFail supportRequestId user.id
  throwIf (decide (supportRequest.status ≠ .accepted)) (.conflict
    s!"Support request with id {supportRequestId} was not accepted by the device")
  let busy ← technicianHasLiveSession user.id
  throwIf busy (.conflict s!"Technician with id {user.id} already has an active remote session")
  let online ← isOnline supportRequest.deviceId
  throwIf (!online) (.conflict s!"Device with id {supportRequest.deviceId} is offline")
  let session ← save
    { supportRequestId := supportRequest.id, deviceId := supportRequest.deviceId
      technicianId := user.id, status := .connecting, connectedAt := none, endedAt := none
      endedBy := none }
  let device ← statement (.findDevice supportRequest.deviceId)
  return { session with device, technician := user }

/-- The technician of an accepted request opens a session. -/
def create (supportRequestId : Uuid) (user : User) : Service RemoteSessionResponseDto := do
  let created ← transaction (openLocked supportRequestId user)
  notifyCreated created
  toResponse created

/-- The live session of the technician, the newest first. -/
def findCurrentForTechnician (technicianId : Uuid) : Service (Option RemoteSessionResponseDto) := do
  let remoteSession ← statement (.findLiveSession (.technician technicianId) true)
  match remoteSession with
  | none => return none
  | some remoteSession => do
    let response ← toResponse remoteSession
    return some response

/-- A session of the technician, live or closed. -/
def findOneForTechnician (id : Uuid) (user : User) : Service RemoteSessionResponseDto := do
  let remoteSession ← findOwnedByTechnicianOrFail id user.id
  toResponse remoteSession

/-- The transaction of an activation, which returns the session and whether
    it was this call that activated it. -/
def activateLocked (id : Uuid) (user : User) : Service (LoadedRemoteSession × Bool) := do
  let locked ← lockSessionOwnedByTechnicianOrFail id user.id
  throwIf (decide (locked.status = .closed)) (alreadyClosed id)
  if locked.status = .active then do
    let remoteSession ← withRelations locked user
    return (remoteSession, false)
  else do
    let connectedAt ← newDate
    let activated ← activateSession id connectedAt
    throwIf (!activated) (alreadyClosed id)
    let remoteSession ← withRelations
      { locked with status := .active, connectedAt := some connectedAt } user
    return (remoteSession, true)

/-- The technician reports that the session is connected. -/
def activateByTechnician (id : Uuid) (user : User) : Service RemoteSessionResponseDto := do
  let (remoteSession, activated) ← transaction (activateLocked id user)
  if activated then notifyActivated remoteSession else .ret ()
  toResponse remoteSession

/-- The technician closes the session. -/
def closeByTechnician (id : Uuid) (user : User) : Service RemoteSessionResponseDto := do
  let remoteSession ← findOwnedByTechnicianOrFail id user.id
  let closed ← close remoteSession .technician
  notifyDeviceClosed closed
  toResponse closed

/-! ## Device -/

/-- The live session of the device. -/
def findCurrentForDevice (deviceId : Uuid) : Service (Option RemoteSessionResponseDto) := do
  let remoteSession ← statement (.findLiveSession (.device deviceId) false)
  match remoteSession with
  | none => return none
  | some remoteSession => do
    let response ← toResponse remoteSession
    return some response

/-- The device closes the session. -/
def closeByDevice (id : Uuid) (device : Device) : Service RemoteSessionResponseDto := do
  let remoteSession ← findOwnedByDeviceOrFail id device.id
  let closed ← close remoteSession .device
  notifyTechnicianClosed closed
  toResponse closed

end RemoteSessionsService

end RemoteControl

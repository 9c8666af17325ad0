import RemoteControl.Core.Backend

/-!
# Support Requests

`SupportRequestsService`: a device opens a request, a technician takes it,
the device accepts or rejects the technician, and the device may cancel as
long as no session has come of it.

Every change of status is one conditional update, `applyTransition`, which
names the states it starts from. The transitions a device asks for run on
their own (`runDeviceTransition`); a cancellation runs in a transaction that
first locks the request, because opening a session locks the same row.

The events follow the change. The two that go to technicians are sent with
their errors caught; `notifyAssigned`, which goes to the device, is not.

A transition may find that the row has changed since it was read. The update
then changes no row, and the call fails with a conflict, whatever the read had
promised. So the reads word the errors, and the updates decide.

## Main definitions

* `SupportRequestsService.createForDevice`, `assign`, `acceptByDevice`,
  `rejectByDevice`, `cancelByDevice`: The five transitions.
* `SupportRequestsService.findCurrentForDevice`, `findOne`: The reads.
* `runDeviceTransition`: What accepting and rejecting have in common.
* `applyTransition`: The conditional update that every transition is.
-/

namespace RemoteControl

open Concurrency

namespace SupportRequestsService

/-- There is no such request, or it is somebody else's. -/
def requestNotFound (id : Uuid) : HttpException :=
  .notFound s!"Support request with id {id} not found"

/-- The message names the state that the call has seen and the one it was to lead
    to. -/
def cannotChange (id : Uuid) (source target : SupportRequestStatus) : HttpException :=
  .conflict s!"Support request with id {id} cannot change from {source} to {target}"

/-! ## Reading and writing the request -/

/-- The request, whoever it belongs to. -/
def findByIdOrFail (id : Uuid) : Service LoadedSupportRequest := do
  let supportRequest ← statement (.findRequest id .anyone)
  orFail supportRequest (requestNotFound id)

/-- The request of this device. The request of another one is not found. -/
def findOwnedByDeviceOrFail (id deviceId : Uuid) : Service LoadedSupportRequest := do
  let supportRequest ← statement (.findRequest id (.device deviceId))
  orFail supportRequest (requestNotFound id)

/-- The same, and locked until the transaction ends. -/
def lockOwnedByDeviceOrFail (id deviceId : Uuid) : Service SupportRequest := do
  let supportRequest ← statement (.lockRequest id (.device deviceId))
  orFail supportRequest (requestNotFound id)

/-- Whether a session has come of the request that is not closed. -/
def hasLiveRemoteSession (supportRequestId : Uuid) : Service Bool :=
  statement (.existsLiveSession (.supportRequest supportRequestId))

/-- The update, on condition that the request is in one of these states. It
    answers whether there was such a request. -/
def applyTransition (manager : Manager) (id : Uuid) (source : List SupportRequestStatus)
    (changes : SupportRequestTransition) : Service Bool :=
  statement (.updateRequest manager id source changes)

/-! ## Notifications -/

/-- The device is told who has taken its request. An error is not caught. -/
def notifyAssigned (supportRequest : LoadedSupportRequest) (technician : User) : Service Unit :=
  emitToDevice supportRequest.deviceId
    (.supportAssigned supportRequest.id ⟨technician.id, technician.fullName⟩)

/-- The technician of the request is told, if there is one. -/
def notifyTechnicianUpdated (supportRequest : LoadedSupportRequest) : Service Unit :=
  match supportRequest.technicianId with
  | none => .ret ()
  | some technicianId =>
    logErrors (emitToTechnician technicianId (.supportRequestUpdated supportRequest.id))

/-- All technicians are told to look at the queue again. -/
def notifyQueueUpdated (supportRequest : LoadedSupportRequest) : Service Unit :=
  logErrors (emitToAllTechnicians (.supportRequestQueueUpdated supportRequest.id))

/-- The response shows whether the device is connected when it is built. -/
def toTechnicianResponse (supportRequest : LoadedSupportRequest) :
    Service SupportRequestResponseDto := do
  let online ← isOnline supportRequest.deviceId
  return SupportRequestResponseDto.forTechnician supportRequest online

/-! ## Device -/

/-- A unique index has refused the row. -/
def isUniqueViolation (error : QueryFailedError) : Bool := decide (error.code = uniqueViolation)

/-- A device opens a request. That it has none open already is left to the unique
    index, so that of two attempts at once only one succeeds. -/
def createForDevice (device : Device) : Service SupportRequestResponseDto := do
  throwIf (!device.isActive) (.forbidden "Device is inactive, talk with an admin")
  let saved ← statement (.insertRequest
    { deviceId := device.id, status := .waiting, technicianId := none, assignedAt := none
      respondedAt := none, closedAt := none })
  match saved with
  | .error error =>
    if isUniqueViolation error then
      .throw (.conflict "The device already has an active support request")
    else .throw (.internalServerError "Please check server logs")
  | .ok row => do
    let created : LoadedSupportRequest := { row with device := none, technician := none }
    notifyQueueUpdated created
    return SupportRequestResponseDto.forDevice created

/-- The open request of the device, of which there is at most one. -/
def findCurrentForDevice (deviceId : Uuid) : Service (Option SupportRequestResponseDto) := do
  let supportRequest ← statement (.findActiveRequest deviceId)
  return supportRequest.map SupportRequestResponseDto.forDevice

/-- A transition the device asks for. The row read first decides whose
    request it is and words the error; whether the transition happens is
    decided by the update alone. -/
def runDeviceTransition (id : Uuid) (device : Device) (source : List SupportRequestStatus)
    (changes : SupportRequestTransition) : Service SupportRequestResponseDto := do
  let supportRequest ← findOwnedByDeviceOrFail id device.id
  let applied ← applyTransition .dataSource id source changes
  throwIf (!applied) (cannotChange id supportRequest.status changes.status)
  let updated ← findByIdOrFail id
  notifyTechnicianUpdated updated
  return SupportRequestResponseDto.forDevice updated

/-- The device accepts the technician. The clock is read before anything else. -/
def acceptByDevice (id : Uuid) (device : Device) : Service SupportRequestResponseDto := do
  let now ← newDate
  runDeviceTransition id device [.assigned] { status := .accepted, respondedAt := some now }

/-- The device rejects the technician, which ends the request. -/
def rejectByDevice (id : Uuid) (device : Device) : Service SupportRequestResponseDto := do
  let now ← newDate
  runDeviceTransition id device [.assigned]
    { status := .rejected, respondedAt := some now, closedAt := some now }

/-- The transaction of a cancellation, which returns the status it left. -/
def cancelLocked (id : Uuid) (device : Device) : Service SupportRequestStatus := do
  let supportRequest ← lockOwnedByDeviceOrFail id device.id
  throwIf (!supportRequest.isActive) (cannotChange id supportRequest.status .cancelled)
  -- Only an accepted request can have a session, so only it is asked about.
  let started ← if supportRequest.status = .accepted then hasLiveRemoteSession id else .ret false
  throwIf started (.conflict (s!"Remote assistance for support request with id {id} " ++
    "already started, close the remote session instead"))
  let now ← newDate
  let cancelled ← applyTransition .entityManager id activeSupportRequestStatuses
    { status := .cancelled, closedAt := some now }
  throwIf (!cancelled) (cannotChange id supportRequest.status .cancelled)
  return supportRequest.status

/-- The device cancels. Nobody has taken a request that was waiting, so all
    technicians are told; otherwise it is the one who has taken it. -/
def cancelByDevice (id : Uuid) (device : Device) : Service SupportRequestResponseDto := do
  let previousStatus ← transaction (cancelLocked id device)
  let cancelled ← findByIdOrFail id
  if previousStatus = .waiting then notifyQueueUpdated cancelled
  else notifyTechnicianUpdated cancelled
  return SupportRequestResponseDto.forDevice cancelled

/-! ## Technicians -/

/-- A request, as a technician sees it. -/
def findOne (id : Uuid) : Service SupportRequestResponseDto := do
  let supportRequest ← findByIdOrFail id
  toTechnicianResponse supportRequest

/-- A technician takes a request that is waiting. The device has to be connected
    when it is asked, and the update decides between two technicians. -/
def assign (id : Uuid) (technician : User) : Service SupportRequestResponseDto := do
  let supportRequest ← findByIdOrFail id
  throwIf (decide (supportRequest.status ≠ .waiting))
    (.conflict s!"Support request with id {id} is not waiting to be assigned")
  let online ← isOnline supportRequest.deviceId
  throwIf (!online) (.conflict s!"Device with id {supportRequest.deviceId} is offline")
  let now ← newDate
  let assigned ← applyTransition .dataSource id [.waiting]
    { status := .assigned, technicianId := some technician.id, assignedAt := some now }
  throwIf (!assigned)
    (.conflict s!"Support request with id {id} was already taken by another technician")
  let updated ← findByIdOrFail id
  notifyAssigned updated technician
  notifyQueueUpdated updated
  toTechnicianResponse updated

end SupportRequestsService

end RemoteControl

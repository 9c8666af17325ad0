import RemoteControl.Concurrency.RowTable

/-!
# Entities

The rows the service keeps about an assistance: the support request a device
opens, and the remote session that may come out of it once the device has
accepted a technician. Devices and users are known by the fields the rest of
the development reads.

A request is created `waiting`, is taken by a technician (`assigned`), and is
answered by the device (`accepted` or `rejected`). An accepted request may
lead to one session; closing that session completes the request. A request
that has not come that far can be cancelled.

Uniqueness is the database's business. `supportRequestIndexes` and
`remoteSessionIndexes` are the unique indexes the two entities declare, in
the order they declare them; a partial index keeps a row out by giving it no
key.

Identifiers and timestamps are numbers: nothing is done with an identifier
but compare and print it, and nothing with a timestamp but compare it.

An update names its new status and the columns it sets, and leaves the others
alone, as the query builder of the source does. So a transition is a value
(`SupportRequestTransition`, `RemoteSessionChanges`) and its effect on a row a
function of it, which is what the database runs and what the proofs reason
about.

## Main definitions

* `SupportRequestStatus`, `RemoteSessionStatus`, `RemoteSessionEndedBy`: The
  enumerations.
* `Device`, `User`, `SupportRequest`, `RemoteSession`: The entities.
* `SupportRequestTransition`, `RemoteSessionChanges`: The partial updates.
* `supportRequestIndexes`, `remoteSessionIndexes`: The unique indexes.
* `SupportRequestResponseDto`, `RemoteSessionResponseDto`: The responses.
-/

namespace RemoteControl

open Concurrency

/-- An identifier, of a row or of an account. -/
abbrev Uuid := Nat

/-- A moment, as the clock of the service tells it. -/
abbrev Timestamp := Nat

/-- The states of a request. The last three are final. -/
inductive SupportRequestStatus where
  | waiting
  | assigned
  | accepted
  | rejected
  | cancelled
  | completed
  deriving DecidableEq, Repr

instance : ToString SupportRequestStatus where
  toString
    | .waiting => "WAITING"
    | .assigned => "ASSIGNED"
    | .accepted => "ACCEPTED"
    | .rejected => "REJECTED"
    | .cancelled => "CANCELLED"
    | .completed => "COMPLETED"

/-- While a request is in one of these, its device cannot open another. -/
def activeSupportRequestStatuses : List SupportRequestStatus := [.waiting, .assigned, .accepted]

/-- The states of a session. A session is opened `connecting` and may be closed
    from there. -/
inductive RemoteSessionStatus where
  | connecting
  | active
  | closed
  deriving DecidableEq, Repr

/-- The session is live: it takes up its device and its technician. -/
def activeRemoteSessionStatuses : List RemoteSessionStatus := [.connecting, .active]

/-- Who closed a session. `system` is reserved for automatic closures, which
    nothing performs yet. -/
inductive RemoteSessionEndedBy where
  | technician
  | device
  | system
  deriving DecidableEq, Repr

/-- A device, with what is shown of it to technicians. -/
structure Device where
  id : Uuid
  publicId : String
  name : Option String
  manufacturer : Option String
  model : Option String
  androidVersion : Option String
  appVersion : Option String
  isActive : Bool
  deriving DecidableEq, Repr

/-- A technician, with the name that devices are told. -/
structure User where
  id : Uuid
  fullName : String
  deriving DecidableEq, Repr

/-- A request for assistance, with the moments at which its state has changed. -/
structure SupportRequest where
  id : Uuid
  deviceId : Uuid
  technicianId : Option Uuid
  status : SupportRequestStatus
  createdAt : Timestamp
  assignedAt : Option Timestamp
  respondedAt : Option Timestamp
  closedAt : Option Timestamp
  deriving DecidableEq, Repr

/-- The session that has come of a request, with its two ends and how it has
    ended. -/
structure RemoteSession where
  id : Uuid
  supportRequestId : Uuid
  deviceId : Uuid
  technicianId : Uuid
  status : RemoteSessionStatus
  createdAt : Timestamp
  connectedAt : Option Timestamp
  endedAt : Option Timestamp
  endedBy : Option RemoteSessionEndedBy
  deriving DecidableEq, Repr

/-- The request still takes up its device. -/
def SupportRequest.isActive (r : SupportRequest) : Bool :=
  decide (r.status ∈ activeSupportRequestStatuses)

/-- The session still takes up its device and its technician. -/
def RemoteSession.isLive (s : RemoteSession) : Bool :=
  decide (s.status ∈ activeRemoteSessionStatuses)

/-- What an update writes to a request along with the new status. A field
    that is absent is left as it is. -/
structure SupportRequestTransition where
  status : SupportRequestStatus
  technicianId : Option Uuid := none
  assignedAt : Option Timestamp := none
  respondedAt : Option Timestamp := none
  closedAt : Option Timestamp := none
  deriving DecidableEq, Repr

/-- The row after the update. -/
def SupportRequestTransition.apply (c : SupportRequestTransition) (r : SupportRequest) :
    SupportRequest :=
  { r with
    status := c.status
    technicianId := c.technicianId.or r.technicianId
    assignedAt := c.assignedAt.or r.assignedAt
    respondedAt := c.respondedAt.or r.respondedAt
    closedAt := c.closedAt.or r.closedAt }

/-- What an update writes to a session along with the new status. -/
structure RemoteSessionChanges where
  status : RemoteSessionStatus
  connectedAt : Option Timestamp := none
  endedAt : Option Timestamp := none
  endedBy : Option RemoteSessionEndedBy := none
  deriving DecidableEq, Repr

/-- The row after the update. -/
def RemoteSessionChanges.apply (c : RemoteSessionChanges) (s : RemoteSession) : RemoteSession :=
  { s with
    status := c.status
    connectedAt := c.connectedAt.or s.connectedAt
    endedAt := c.endedAt.or s.endedAt
    endedBy := c.endedBy.or s.endedBy }

/-- The columns a new request is saved with; the database adds the rest. -/
structure SupportRequestDraft where
  deviceId : Uuid
  status : SupportRequestStatus
  technicianId : Option Uuid
  assignedAt : Option Timestamp
  respondedAt : Option Timestamp
  closedAt : Option Timestamp
  deriving DecidableEq, Repr

/-- The row the database makes of it, with a key and the moment of its insertion. -/
def SupportRequestDraft.toRow (d : SupportRequestDraft) (id : Uuid) (createdAt : Timestamp) :
    SupportRequest :=
  { id, createdAt, deviceId := d.deviceId, technicianId := d.technicianId, status := d.status
    assignedAt := d.assignedAt, respondedAt := d.respondedAt, closedAt := d.closedAt }

/-- The columns a new session is saved with; the database adds the rest. -/
structure RemoteSessionDraft where
  supportRequestId : Uuid
  deviceId : Uuid
  technicianId : Uuid
  status : RemoteSessionStatus
  connectedAt : Option Timestamp
  endedAt : Option Timestamp
  endedBy : Option RemoteSessionEndedBy
  deriving DecidableEq, Repr

/-- The row the database makes of it, with a key and the moment of its insertion. -/
def RemoteSessionDraft.toRow (d : RemoteSessionDraft) (id : Uuid) (createdAt : Timestamp) :
    RemoteSession :=
  { id, createdAt, supportRequestId := d.supportRequestId, deviceId := d.deviceId
    technicianId := d.technicianId, status := d.status, connectedAt := d.connectedAt
    endedAt := d.endedAt, endedBy := d.endedBy }

/-! ## Unique indexes -/

def activeSupportRequestIndex : String := "IDX_support_requests_device_active"

def remoteSessionSupportRequestIndex : String := "IDX_remote_sessions_support_request"

def activeRemoteSessionIndex : String := "IDX_remote_sessions_device_active"

def activeTechnicianRemoteSessionIndex : String := "IDX_remote_sessions_technician_active"

/-- One active request for each device. A request that is over has no key in it,
    so a device may have any number of those. -/
def supportRequestIndexes : List (UniqueIndex SupportRequest Uuid) :=
  [⟨activeSupportRequestIndex, fun r => if r.isActive then some r.deviceId else none⟩]

/-- One session for each request, one live session for each device, and one live
    session for each technician. The first is not partial: a request never has a
    second session, not even after the first one was closed. -/
def remoteSessionIndexes : List (UniqueIndex RemoteSession Uuid) :=
  [⟨remoteSessionSupportRequestIndex, fun s => some s.supportRequestId⟩,
   ⟨activeRemoteSessionIndex, fun s => if s.isLive then some s.deviceId else none⟩,
   ⟨activeTechnicianRemoteSessionIndex, fun s => if s.isLive then some s.technicianId else none⟩]

/-! ## Responses -/

/-- What is published of a technician. -/
structure SupportRequestTechnicianDto where
  id : Uuid
  name : String
  deriving DecidableEq, Repr

def SupportRequestTechnicianDto.fromTechnician (technician : User) : SupportRequestTechnicianDto :=
  { id := technician.id, name := technician.fullName }

/-- Nobody is shown while nobody has taken the request. -/
def SupportRequestTechnicianDto.fromEntity (technician : Option User) :
    Option SupportRequestTechnicianDto :=
  technician.map fromTechnician

/-- What a technician sees of the device, and whether it is connected now. -/
structure SupportRequestDeviceDto where
  id : Uuid
  publicId : String
  name : Option String
  manufacturer : Option String
  model : Option String
  isOnline : Bool
  deriving DecidableEq, Repr

def SupportRequestDeviceDto.fromEntity (device : Device) (isOnline : Bool) :
    SupportRequestDeviceDto :=
  { id := device.id, publicId := device.publicId, name := device.name
    manufacturer := device.manufacturer, model := device.model, isOnline }

/-- A request with the relations a query loads along with it. A request that
    was just saved has none loaded. -/
structure LoadedSupportRequest extends SupportRequest where
  device : Option Device
  technician : Option User
  deriving DecidableEq, Repr

/-- A request as the API shows it. -/
structure SupportRequestResponseDto where
  id : Uuid
  deviceId : Uuid
  status : SupportRequestStatus
  technicianId : Option Uuid
  technician : Option SupportRequestTechnicianDto
  createdAt : Timestamp
  assignedAt : Option Timestamp
  respondedAt : Option Timestamp
  closedAt : Option Timestamp
  device : Option SupportRequestDeviceDto
  deriving DecidableEq, Repr

/-- The device is not shown itself. -/
def SupportRequestResponseDto.forDevice (r : LoadedSupportRequest) : SupportRequestResponseDto :=
  { id := r.id, deviceId := r.deviceId, status := r.status, technicianId := r.technicianId
    technician := SupportRequestTechnicianDto.fromEntity r.technician
    createdAt := r.createdAt, assignedAt := r.assignedAt, respondedAt := r.respondedAt
    closedAt := r.closedAt, device := none }

/-- The technician is shown the device as well. -/
def SupportRequestResponseDto.forTechnician (r : LoadedSupportRequest) (isOnline : Bool) :
    SupportRequestResponseDto :=
  { forDevice r with device := r.device.map (SupportRequestDeviceDto.fromEntity · isOnline) }

/-- What a response about a session shows of the device. -/
structure RemoteSessionDeviceDto where
  id : Uuid
  publicId : String
  name : Option String
  isOnline : Bool
  deriving DecidableEq, Repr

def RemoteSessionDeviceDto.fromEntity (device : Device) (isOnline : Bool) :
    RemoteSessionDeviceDto :=
  { id := device.id, publicId := device.publicId, name := device.name, isOnline }

/-- A session with its relations, both of which are mandatory. -/
structure LoadedRemoteSession extends RemoteSession where
  device : Device
  technician : User
  deriving DecidableEq, Repr

/-- A session as the API shows it, to either end. -/
structure RemoteSessionResponseDto where
  id : Uuid
  supportRequestId : Uuid
  status : RemoteSessionStatus
  createdAt : Timestamp
  connectedAt : Option Timestamp
  endedAt : Option Timestamp
  endedBy : Option RemoteSessionEndedBy
  device : RemoteSessionDeviceDto
  technician : SupportRequestTechnicianDto
  deriving DecidableEq, Repr

def RemoteSessionResponseDto.fromEntity (s : LoadedRemoteSession) (isOnline : Bool) :
    RemoteSessionResponseDto :=
  { id := s.id, supportRequestId := s.supportRequestId, status := s.status
    createdAt := s.createdAt, connectedAt := s.connectedAt, endedAt := s.endedAt
    endedBy := s.endedBy
    device := RemoteSessionDeviceDto.fromEntity s.device isOnline
    technician := SupportRequestTechnicianDto.fromTechnician s.technician }

end RemoteControl

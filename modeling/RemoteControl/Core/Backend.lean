import RemoteControl.Concurrency.Interleave
import RemoteControl.Concurrency.Statements
import RemoteControl.Core.Entities

/-!
# The Backend

What the two services ask of their surroundings, and what it does: statements
on the two tables, transactions, the clock, the presence of a device, and the
emission of events to the connected ends.

Every call runs its statements in its own transaction, so the identifier of a
call is also the identifier of the transaction. `Manager` says where a
statement runs, as the source does by passing an entity manager: on its own
through the data source, or inside the call's transaction.

The clock never goes back. How far it has moved, whether a device is online,
and what the database generates for a new row come from outside, as the
`Env` a turn is taken with. Whether an emission throws is fixed beforehand
for each call and each way of emitting, by a parameter.

The state carries the history of the run, newest entry first. It is a record
for the proofs: no operation reads it. Each operation adds one entry, and a
commit adds what it wrote, so the committed rows can be recomputed from the
history (`replay`).

A statement gives up the turn twice, before it is sent and before its answer
is used (`statement`). So any other call may run between the moment at which a
call decides on a statement and the statement itself, and again before the
call goes on with the answer. Inside of a segment nothing else happens, which
is what the single thread of the source guarantees.

## Main definitions

* `Op`, `Resp`: The operations and their answers.
* `World`: The tables, the clock and the history.
* `exec`: What an operation answers and does.
* `Event`, `Entry`: The history.
* `Tables`, `replay`: The committed rows, and the history that led to them.
* `Service`: A program of one of the services.
* `transaction`: A transaction around a program.
* `exec`: What an operation answers and does.
-/

namespace RemoteControl

open Concurrency

/-- The name of a call, and of the transaction it runs. -/
abbrev CallId := Nat

/-- What a service throws. The message of an internal error is fixed, and an
    error of the transport has none that matters. -/
inductive HttpException where
  | badRequest (message : String)
  | unauthorized (message : String)
  | forbidden (message : String)
  | notFound (message : String)
  | conflict (message : String)
  | internalServerError (message : String)
  | transportError
  deriving DecidableEq, Repr

/-- Whose row a query asks for. -/
inductive Owner where
  | anyone
  | device (id : Uuid)
  | technician (id : Uuid)
  deriving DecidableEq, Repr

/-- The condition on a request that the query adds. -/
def Owner.ofRequest (o : Owner) (r : SupportRequest) : Bool :=
  match o with
  | .anyone => true
  | .device id => decide (r.deviceId = id)
  | .technician id => decide (r.technicianId = some id)

/-- The condition on a session that the query adds. -/
def Owner.ofSession (o : Owner) (s : RemoteSession) : Bool :=
  match o with
  | .anyone => true
  | .device id => decide (s.deviceId = id)
  | .technician id => decide (s.technicianId = id)

/-- The live sessions a transaction looks for before it goes on. -/
inductive LiveSessionOf where
  | supportRequest (id : Uuid)
  | technician (id : Uuid)
  deriving DecidableEq, Repr

/-- The condition of the query. -/
def LiveSessionOf.found (whose : LiveSessionOf) (s : RemoteSession) : Bool :=
  match whose with
  | .supportRequest id => decide (s.supportRequestId = id) && s.isLive
  | .technician id => decide (s.technicianId = id) && s.isLive

/-- Where a statement runs. -/
inductive Manager where
  | dataSource
  | entityManager
  deriving DecidableEq, Repr

/-- Whose uncommitted versions a statement sees. -/
def Manager.actor (m : Manager) (c : CallId) : Option CallId :=
  match m with
  | .dataSource => none
  | .entityManager => some c

/-! ## Emissions -/

/-- The room an event is sent to. -/
inductive Recipient where
  | device (id : Uuid)
  | technician (id : Uuid)
  | allTechnicians
  deriving DecidableEq, Repr

/-- The events of the lifecycle with their payloads. -/
inductive Message where
  | supportAssigned (supportRequestId : Uuid) (technician : SupportRequestTechnicianDto)
  | supportRequestUpdated (supportRequestId : Uuid)
  | supportRequestQueueUpdated (supportRequestId : Uuid)
  | remoteSessionCreated (remoteSessionId supportRequestId : Uuid)
      (technician : SupportRequestTechnicianDto)
  | remoteSessionActive (remoteSessionId : Uuid)
  | remoteSessionClosed (remoteSessionId : Uuid) (endedBy : RemoteSessionEndedBy)
  deriving DecidableEq, Repr

/-- An event on its way to a room. -/
structure Emission where
  recipient : Recipient
  message : Message
  deriving DecidableEq, Repr

/-- The ways of emitting, any of which may throw. -/
inductive Emitter where
  | emitToDevice
  | emitToTechnician
  | emitToAllTechnicians
  deriving DecidableEq, Repr

/-- Which of the ways of emitting it takes is decided by its room. -/
def Emission.emitter (e : Emission) : Emitter :=
  match e.recipient with
  | .device _ => .emitToDevice
  | .technician _ => .emitToTechnician
  | .allTechnicians => .emitToAllTechnicians

/-! ## Operations -/

/-- What a program asks for. `enter` and `leave` are not in the source: they
    mark in the history where a call begins and where it has returned. -/
inductive Op where
  | enter
  | leave
  | now
  | isOnline (deviceId : Uuid)
  | begin
  | commit
  | rollback
  | findRequest (id : Uuid) (owner : Owner)
  | findActiveRequest (deviceId : Uuid)
  | lockRequest (id : Uuid) (owner : Owner)
  | updateRequest (manager : Manager) (id : Uuid) (source : List SupportRequestStatus)
      (changes : SupportRequestTransition)
  | insertRequest (draft : SupportRequestDraft)
  | findSession (id : Uuid) (owner : Owner)
  | findLiveSession (owner : Owner) (newestFirst : Bool)
  | existsLiveSession (whose : LiveSessionOf)
  | lockSession (id : Uuid) (owner : Owner)
  | updateSession (id : Uuid) (source : List RemoteSessionStatus)
      (changes : RemoteSessionChanges)
  | insertSession (draft : RemoteSessionDraft)
  | findDevice (id : Uuid)
  | emit (emission : Emission)
  deriving DecidableEq, Repr

/-- The error of the database driver that a failed statement throws. -/
structure QueryFailedError where
  code : String
  constraint : String
  deriving DecidableEq, Repr

/-- The code of the database for a value that is taken. -/
def uniqueViolation : String := "23505"

/-- What an operation is answered with. -/
def Resp : Op → Type
  | .now => Timestamp
  | .isOnline _ => Bool
  | .findRequest _ _ => Option LoadedSupportRequest
  | .findActiveRequest _ => Option LoadedSupportRequest
  | .lockRequest _ _ => Option SupportRequest
  | .updateRequest _ _ _ _ => Bool
  | .insertRequest _ => Except QueryFailedError SupportRequest
  | .findSession _ _ => Option LoadedRemoteSession
  | .findLiveSession _ _ => Option LoadedRemoteSession
  | .existsLiveSession _ => Bool
  | .lockSession _ _ => Option RemoteSession
  | .updateSession _ _ _ => Bool
  | .insertSession _ => Except QueryFailedError RemoteSession
  | .findDevice _ => Device
  | .emit _ => Bool
  | _ => Unit

/-! ## History -/

/-- What one commit wrote to the two tables. -/
structure Writes where
  requests : List (Write Uuid SupportRequest)
  sessions : List (Write Uuid RemoteSession)

/-- One entry of the history. An emission is recorded with whether it threw. -/
inductive Event where
  | entered
  | ran (o : Op)
  | asked (online : Bool)
  | committed (writes : Writes)
  | emitted (emission : Emission) (threw : Bool)
  | left

/-- What happened, in which call and when. -/
structure Entry where
  call : CallId
  time : Timestamp
  event : Event

/-- The committed rows of the two tables. -/
structure Tables where
  requests : Uuid → Option SupportRequest
  sessions : Uuid → Option RemoteSession

/-- Before anything was committed. -/
def Tables.empty : Tables := { requests := fun _ => none, sessions := fun _ => none }

/-- A commit changes both tables at once. -/
def Tables.apply (T : Tables) (ws : Writes) : Tables :=
  { requests := applyWrites ws.requests T.requests
    sessions := applyWrites ws.sessions T.sessions }

/-- The committed rows a history leads to. -/
def replay : List Entry → Tables
  | [] => Tables.empty
  | e :: l => match e.event with
    -- Only a commit changes what is committed.
    | .committed ws => (replay l).apply ws
    | _ => replay l

/-! ## State -/

/-- The state of the service and of its database. -/
structure World where
  requests : Table Uuid SupportRequest CallId
  sessions : Table Uuid RemoteSession CallId
  devices : Uuid → Device
  users : Uuid → User
  clock : Timestamp
  log : List Entry

namespace World

/-- No request and no session, at some moment. -/
def init (devices : Uuid → Device) (users : Uuid → User) (clock : Timestamp) : World :=
  { requests := Table.init, sessions := Table.init, devices, users, clock, log := [] }

/-- What the rest of the world sees of the two tables. -/
def tables (w : World) : Tables :=
  { requests := w.requests.committed, sessions := w.sessions.committed }

/-- What a commit of the call is about to write. -/
def writes (w : World) (c : CallId) : Writes :=
  { requests := w.requests.writes c, sessions := w.sessions.writes c }

/-- Add one entry to the history. -/
def record (w : World) (c : CallId) (ev : Event) : World :=
  { w with log := { call := c, time := w.clock, event := ev } :: w.log }

/-- The other parts of the state stay. -/
def setRequests (w : World) (t : Table Uuid SupportRequest CallId) : World :=
  { w with requests := t }

/-- The other parts of the state stay. -/
def setSessions (w : World) (t : Table Uuid RemoteSession CallId) : World :=
  { w with sessions := t }

/-- The relations of a request. The foreign keys make the lookups succeed. -/
def loadRequest (w : World) (r : SupportRequest) : LoadedSupportRequest :=
  { r with device := some (w.devices r.deviceId), technician := r.technicianId.map w.users }

/-- The relations of a session. -/
def loadSession (w : World) (s : RemoteSession) : LoadedRemoteSession :=
  { s with device := w.devices s.deviceId, technician := w.users s.technicianId }

end World

/-- What the surroundings decide during a turn: how far the clock has moved,
    who is online, and what the database generates for a new row. -/
structure Env where
  tick : Nat
  online : Uuid → Bool
  newId : Uuid
  createdAt : Timestamp

/-- What a committed statement on its own wrote to a request. -/
def requestWrites (T : Uuid → Option SupportRequest) (id : Uuid) (row : SupportRequest) :
    Writes :=
  { requests := [⟨id, T id, row⟩], sessions := [] }

/-- An update of a request. On its own it commits as it ends. -/
def runUpdateRequest (c : CallId) (m : Manager) (id : Uuid) (source : List SupportRequestStatus)
    (changes : SupportRequestTransition) (w : World) : Option (Bool × World) :=
  match w.requests.update (m.actor c) id (fun r => decide (r.status ∈ source)) changes.apply with
  | none => none
  | some (affected, t) =>
    let w' := w.setRequests t
    match m, affected, t.committed id with
    -- A statement on its own that has changed a row has committed it.
    | .dataSource, true, some row =>
      some (affected, w'.record c (.committed (requestWrites w.requests.committed id row)))
    | _, _, _ => some (affected, w'.record c (.ran (.updateRequest m id source changes)))

/-- The insertion of a request, which commits as it ends. -/
def runInsertRequest (c : CallId) (draft : SupportRequestDraft) (env : Env) (w : World) :
    Option (Except QueryFailedError SupportRequest × World) :=
  let row := draft.toRow env.newId env.createdAt
  match w.requests.insert supportRequestIndexes none env.newId row with
  | none => none
  | some (.error name, _) =>
    some (.error ⟨uniqueViolation, name⟩, w.record c (.ran (.insertRequest draft)))
  | some (.ok _, t) =>
    some (.ok row, (w.setRequests t).record c
      (.committed (requestWrites w.requests.committed env.newId row)))

/-- The insertion of a session, in the call's transaction. -/
def runInsertSession (c : CallId) (draft : RemoteSessionDraft) (env : Env) (w : World) :
    Option (Except QueryFailedError RemoteSession × World) :=
  let row := draft.toRow env.newId env.createdAt
  match w.sessions.insert remoteSessionIndexes (some c) env.newId row with
  | none => none
  | some (.error name, _) =>
    some (.error ⟨uniqueViolation, name⟩, w.record c (.ran (.insertSession draft)))
  | some (.ok _, t) => some (.ok row, (w.setSessions t).record c (.ran (.insertSession draft)))

/-- What an operation of call `c` answers and does, in a turn taken with
    `env`. No answer means that the call has to wait. -/
def exec (throws : CallId → Emitter → Bool) (c : CallId) (env : Env) :
    (o : Op) → World → Option (Resp o × World)
  | .enter, w => some ((), w.record c .entered)
  | .leave, w => some ((), w.record c .left)
  | .now, w =>
    some (w.clock + env.tick, { w with clock := w.clock + env.tick }.record c (.ran .now))
  | .isOnline d, w => some (env.online d, w.record c (.asked (env.online d)))
  | .begin, w => some ((), w.record c (.ran .begin))
  | .commit, w =>
    some ((), ((w.setRequests (w.requests.commit c)).setSessions (w.sessions.commit c)).record c
      (.committed (w.writes c)))
  | .rollback, w =>
    some ((), ((w.setRequests (w.requests.rollback c)).setSessions (w.sessions.rollback c)).record
      c (.ran .rollback))
  | .findRequest id owner, w =>
    some ((w.requests.select none id owner.ofRequest).map w.loadRequest,
      w.record c (.ran (.findRequest id owner)))
  | .findActiveRequest d, w =>
    some ((w.requests.scan none (fun r => (Owner.device d).ofRequest r && r.isActive)).head?.map
      w.loadRequest, w.record c (.ran (.findActiveRequest d)))
  | .lockRequest id owner, w =>
    match w.requests.selectForUpdate c id owner.ofRequest with
    | none => none
    | some (r, t) => some (r, (w.setRequests t).record c (.ran (.lockRequest id owner)))
  | .updateRequest m id source changes, w => runUpdateRequest c m id source changes w
  | .insertRequest draft, w => runInsertRequest c draft env w
  | .findSession id owner, w =>
    some ((w.sessions.select none id owner.ofSession).map w.loadSession,
      w.record c (.ran (.findSession id owner)))
  | .findLiveSession owner newestFirst, w =>
    let found := w.sessions.scan none (fun s => owner.ofSession s && s.isLive)
    -- Without an order the rows come as they were inserted.
    let ordered := if newestFirst then
        found.mergeSort (fun s s' => decide (s'.createdAt ≤ s.createdAt))
      else found
    some (ordered.head?.map w.loadSession, w.record c (.ran (.findLiveSession owner newestFirst)))
  | .existsLiveSession whose, w =>
    some (w.sessions.anyRow (some c) whose.found, w.record c (.ran (.existsLiveSession whose)))
  | .lockSession id owner, w =>
    match w.sessions.selectForUpdate c id owner.ofSession with
    | none => none
    | some (s, t) => some (s, (w.setSessions t).record c (.ran (.lockSession id owner)))
  | .updateSession id source changes, w =>
    match w.sessions.update (some c) id (fun s => decide (s.status ∈ source)) changes.apply with
    | none => none
    | some (affected, t) =>
      some (affected, (w.setSessions t).record c (.ran (.updateSession id source changes)))
  | .insertSession draft, w => runInsertSession c draft env w
  | .findDevice id, w => some (w.devices id, w.record c (.ran (.findDevice id)))
  | .emit e, w => some (throws c e.emitter, w.record c (.emitted e (throws c e.emitter)))

/-! ## Programs -/

/-- A program of one of the services. -/
abbrev Service (α : Type) := Prog Op Resp HttpException α

/-- Throw unless the check fails to find a reason to. -/
def throwIf (reason : Bool) (e : HttpException) : Service Unit :=
  if reason then .throw e else .ret ()

/-- What a query found, or the error when it found nothing. -/
def orFail {α : Type} (found : Option α) (e : HttpException) : Service α :=
  match found with
  | some a => .ret a
  | none => .throw e

/-- A statement: the call waits for the database, and then for its turn to go
    on with the answer. -/
def statement (o : Op) : Service (Resp o) := .await (.op o (fun r => .await (.ret r)))

/-- What is answered at once, without a wait. -/
def ask (o : Op) : Service (Resp o) := Prog.request o

/-- `new Date()`. -/
def newDate : Service Timestamp := ask .now

/-- Whether the device has a connection at this moment. -/
def isOnline (deviceId : Uuid) : Service Bool := ask (.isOnline deviceId)

/-- Run a program in a transaction. An error it throws rolls the transaction
    back and is thrown again. -/
def transaction {α : Type} (body : Service α) : Service α := do
  statement .begin
  -- Only an error of the body is caught. A commit does not fail here.
  let result ← body.onError (fun e => do
    statement .rollback
    .throw e)
  statement .commit
  return result

/-- Emit, throwing what the transport throws. -/
def emit (e : Emission) : Service Unit := do
  let threw ← ask (.emit e)
  throwIf threw .transportError

/-- Emit to the room of a device. -/
def emitToDevice (deviceId : Uuid) (message : Message) : Service Unit :=
  emit ⟨.device deviceId, message⟩

/-- Emit to the room of a technician. -/
def emitToTechnician (technicianId : Uuid) (message : Message) : Service Unit :=
  emit ⟨.technician technicianId, message⟩

/-- Emit to the room that all technicians are in. -/
def emitToAllTechnicians (message : Message) : Service Unit :=
  emit ⟨.allTechnicians, message⟩

/-- A `try` whose handler only logs. -/
def logErrors (body : Service Unit) : Service Unit := body.onError (fun _ => .ret ())

end RemoteControl

import RemoteControl.Concurrency.HeldRows
import RemoteControl.Core.Backend
import RemoteControl.Encoding.Hexadecimal

/-!
# The Backend of the Devices

What the services about devices ask of their surroundings: the rows of the
devices, their enrollments and their credentials, the sockets of the
`/devices` namespace, and the presence service, which keeps the registered
sockets of each device in memory.

An enrollment is a temporary activation code, of which only the hash is
kept. A credential is what a device has once it was activated. A device may
have several credentials, but the partial unique index of
`deviceCredentialIndexes` admits only one that is not revoked.

A statement over several rows visits them one by one: it asks which rows meet
its condition, and locks or writes each of these rows after evaluating the
condition again on the newest version. The others may commit in between, as
they may at READ COMMITTED.

Hashing and tokens belong to libraries, `Crypto` stands for
them. The answer of the clock is up to the surroundings, and nothing says
that it only moves forward.

As in `Core.Backend`, the history in `World.log` is only for the proofs.

The clock of this part is not monotone, unlike the one of `Core.Backend`: the
source compares times that it has read at different moments, and nothing it
does depends on their order. What a time was read as is part of the history
(`Event.told`).

## Main definitions

* `DeviceEnrollment`, `DeviceCredential`: The entities.
* `DevicePresenceService`: The registered sockets.
* `Socket`: A connection of a client to the namespace.
* `Crypto`: Hashing and tokens.
* `Op`, `Resp`, `exec`: The operations, their answers and their effects.
* `Event`, `Tables`, `replay`: The history, and the committed rows it led to.
* `exec`: What an operation answers and does.
-/

namespace RemoteControl.Devices

open Concurrency

/-! ## Entities -/

/-- An activation code, of which the hash is stored, with what has become of it. -/
structure DeviceEnrollment where
  id : Uuid
  deviceId : Uuid
  codeHash : String
  expiresAt : Timestamp
  usedAt : Option Timestamp
  revokedAt : Option Timestamp
  failedAttempts : Nat
  createdAt : Timestamp
  deriving DecidableEq, Repr

/-- Neither used nor revoked. -/
def DeviceEnrollment.isUnsettled (e : DeviceEnrollment) : Bool :=
  e.usedAt.isNone && e.revokedAt.isNone

/-- The code can still be used at this time. -/
def DeviceEnrollment.isPending (e : DeviceEnrollment) (now : Timestamp) : Bool :=
  e.isUnsettled && decide (now < e.expiresAt)

/-- What an activated device proves itself with. The secret is stored as a hash. -/
structure DeviceCredential where
  id : Uuid
  deviceId : Uuid
  secretHash : String
  lastUsedAt : Option Timestamp
  revokedAt : Option Timestamp
  createdAt : Timestamp
  deriving DecidableEq, Repr

/-- The credential has not been revoked. -/
def DeviceCredential.isActive (c : DeviceCredential) : Bool := c.revokedAt.isNone

/-- The unique index of the credentials, on the device of those not revoked. -/
def deviceCredentialIndexes : List (UniqueIndex DeviceCredential Uuid) :=
  [⟨"IDX_device_credentials_active", fun c => if c.isActive then some c.deviceId else none⟩]

/-- The columns a new enrollment is saved with. The database adds the rest. -/
structure DeviceEnrollmentDraft where
  deviceId : Uuid
  codeHash : String
  expiresAt : Timestamp
  usedAt : Option Timestamp
  revokedAt : Option Timestamp
  deriving DecidableEq, Repr

/-- The row the database makes of it. No attempt has failed yet. -/
def DeviceEnrollmentDraft.toRow (d : DeviceEnrollmentDraft) (id : Uuid) (createdAt : Timestamp) :
    DeviceEnrollment :=
  { id, createdAt, deviceId := d.deviceId, codeHash := d.codeHash, expiresAt := d.expiresAt
    usedAt := d.usedAt, revokedAt := d.revokedAt, failedAttempts := 0 }

/-- The columns a new credential is saved with. The database adds the rest. -/
structure DeviceCredentialDraft where
  deviceId : Uuid
  secretHash : String
  lastUsedAt : Option Timestamp
  revokedAt : Option Timestamp
  deriving DecidableEq, Repr

/-- The row the database makes of it. -/
def DeviceCredentialDraft.toRow (d : DeviceCredentialDraft) (id : Uuid) (createdAt : Timestamp) :
    DeviceCredential :=
  { id, createdAt, deviceId := d.deviceId, secretHash := d.secretHash
    lastUsedAt := d.lastUsedAt, revokedAt := d.revokedAt }

/-- Some columns of a device with values for them. A column that is absent is
    left alone, and `none` as a value is the null of the source. -/
structure DevicePatch where
  name : Option (Option String) := none
  manufacturer : Option (Option String) := none
  model : Option (Option String) := none
  androidVersion : Option (Option String) := none
  appVersion : Option (Option String) := none
  isActive : Option (Option Bool) := none
  deriving DecidableEq, Repr

/-- No column is named. -/
def DevicePatch.isEmpty (p : DevicePatch) : Bool := decide (p = {})

/-- The row with the columns of the patch, or nothing when the patch has a
    null for the one column that admits none. -/
def DevicePatch.apply (p : DevicePatch) (d : Device) : Option Device :=
  match p.isActive.getD (some d.isActive) with
  | none => none
  | some isActive => some { d with
      name := p.name.getD d.name
      manufacturer := p.manufacturer.getD d.manufacturer
      model := p.model.getD d.model
      androidVersion := p.androidVersion.getD d.androidVersion
      appVersion := p.appVersion.getD d.appVersion
      isActive }

/-! ## Presence -/

/-- The registered sockets of each device, which has no entry when it has
    none. A socket is known by the handshake it came from. -/
abbrev Connections := Uuid → Option (List CallId)

namespace DevicePresenceService

/-- One more socket of the device, once. -/
def register (connections : Connections) (deviceId : Uuid) (socketId : CallId) : Connections :=
  match connections deviceId with
  | some sockets => Function.update connections deviceId
      (some (if socketId ∈ sockets then sockets else sockets ++ [socketId]))
  | none => Function.update connections deviceId (some [socketId])

/-- Whether it was the last socket of the device, and the sockets that remain. -/
def unregister (connections : Connections) (deviceId : Uuid) (socketId : CallId) :
    Bool × Connections :=
  match connections deviceId with
  | none => (false, connections)
  | some sockets =>
    let rest := sockets.filter (fun s => decide (s ≠ socketId))
    if rest.isEmpty then (true, Function.update connections deviceId none)
    else (false, Function.update connections deviceId (some rest))

/-- The device has an entry, and so at least one socket. -/
def isOnline (connections : Connections) (deviceId : Uuid) : Bool :=
  (connections deviceId).isSome

/-- How many sockets the device has. -/
def connectionCount (connections : Connections) (deviceId : Uuid) : Nat :=
  (connections deviceId).elim 0 List.length

/-- The sockets of the device, and the registered sockets without them. -/
def take (connections : Connections) (deviceId : Uuid) : List CallId × Connections :=
  match connections deviceId with
  | none => ([], connections)
  | some sockets => (sockets, Function.update connections deviceId none)

end DevicePresenceService

/-- Whom a socket belongs to, from the token it came with. -/
structure DeviceSocketContext where
  deviceId : Uuid
  credentialId : Uuid
  publicId : String
  deriving DecidableEq, Repr

/-- A connection. `connected` says that it was let into the namespace,
    `disconnected` that it is over, and `handled` that the gateway has been
    told so. -/
structure Socket where
  device : Option DeviceSocketContext
  connected : Bool
  disconnected : Bool
  handled : Bool
  deriving DecidableEq, Repr

/-- A socket before its handshake. -/
def Socket.fresh : Socket :=
  { device := none, connected := false, disconnected := false, handled := false }

/-! ## Libraries -/

/-- What a token says of its device. -/
structure DeviceJwtPayload where
  sub : Uuid
  tokenType : String
  credentialId : Uuid
  deriving DecidableEq, Repr

/-- bcrypt, SHA-256, and tokens, which are signed at a time and verified at
    another. A bcrypt hash depends on a salt. -/
structure Crypto where
  hash : String → Nat → String
  compare : String → String → Bool
  sha256 : String → List UInt8
  sign : DeviceJwtPayload → Timestamp → String
  verify : String → Timestamp → Option DeviceJwtPayload

/-- `compare` accepts the code a hash was made of, and no other. -/
def Crypto.ComparesExactly (crypto : Crypto) : Prop :=
  ∀ code code' salt, crypto.compare code (crypto.hash code' salt) = decide (code = code')

/-- `compare` accepts the code a hash was made of. -/
def Crypto.AcceptsHashed (crypto : Crypto) : Prop :=
  ∀ code salt, crypto.compare code (crypto.hash code salt) = true

/-- A token that was signed stands for nothing else than its payload. -/
def Crypto.VerifiesSigned (crypto : Crypto) : Prop :=
  ∀ payload payload' iat now,
    crypto.verify (crypto.sign payload iat) now = some payload' → payload' = payload

/-- A token that was signed is verified until it expires, `ttl` seconds after it
    was signed. The library counts both times in whole seconds. -/
def Crypto.AcceptsSigned (crypto : Crypto) (ttl : Nat) : Prop :=
  ∀ payload iat now, now / 1000 < iat / 1000 + ttl →
    crypto.verify (crypto.sign payload iat) now = some payload

/-! ## Operations -/

/-- What a program asks for. -/
inductive Op where
  | now
  | randomInt (min max : Nat)
  | randomBytes (size : Nat)
  | bcryptHash (data : String)
  | bcryptCompare (data hash : String)
  | verifyToken (token : String)
  | signToken (payload : DeviceJwtPayload)
  | begin
  | commit
  | rollback
  | findDevice (id : Uuid)
  | findDeviceByPublicId (publicId : String)
  | updateDevice (id : Uuid) (patch : DevicePatch)
  | unsettledEnrollments (deviceId : Uuid)
  | revokeEnrollment (id deviceId : Uuid) (now : Timestamp)
  | insertEnrollment (draft : DeviceEnrollmentDraft)
  | pendingEnrollments (deviceId : Uuid) (now : Timestamp)
  | lockEnrollment (id deviceId : Uuid) (now : Timestamp)
  | consumeEnrollment (id : Uuid) (now : Timestamp)
  | updateEnrollment (id : Uuid) (failedAttempts : Nat) (revokedAt : Option Timestamp)
  | activeCredentials (deviceId : Uuid)
  | revokeCredential (id deviceId : Uuid) (now : Timestamp)
  | insertCredential (draft : DeviceCredentialDraft)
  | findActiveCredential (deviceId : Uuid)
  | touchCredential (id : Uuid) (now : Timestamp)
  | setSocketData (device : DeviceSocketContext)
  | socketData (socket : CallId)
  | establish
  | isDisconnected
  | disconnect (socket : CallId)
  | emitConnected (deviceId : Uuid) (publicId : String)
  | transportClosed (socket : CallId)
  | register (deviceId : Uuid)
  | unregister (deviceId : Uuid) (socket : CallId)
  | isOnline (deviceId : Uuid)
  | takeConnections (deviceId : Uuid)
  deriving DecidableEq, Repr

/-- The error of the database driver that a failed statement throws. -/
structure PostgresError where
  code : String
  detail : String
  constraint : String
  deriving DecidableEq, Repr

/-- The code of the database for a null where the column admits none. -/
def notNullViolation : String := "23502"

/-- What an operation is answered with. -/
def Resp : Op → Type
  | .now => Timestamp
  | .randomInt _ _ => Nat
  | .randomBytes _ => String
  | .bcryptHash _ => String
  | .bcryptCompare _ _ => Bool
  | .verifyToken _ => Option DeviceJwtPayload
  | .signToken _ => String
  | .findDevice _ => Option Device
  | .findDeviceByPublicId _ => Option Device
  | .updateDevice _ _ => Except PostgresError Bool
  | .unsettledEnrollments _ => List Uuid
  | .revokeEnrollment _ _ _ => Bool
  | .insertEnrollment _ => DeviceEnrollment
  | .pendingEnrollments _ _ => List Uuid
  | .lockEnrollment _ _ _ => Option DeviceEnrollment
  | .consumeEnrollment _ _ => Bool
  | .updateEnrollment _ _ _ => Bool
  | .activeCredentials _ => List Uuid
  | .revokeCredential _ _ _ => Bool
  | .insertCredential _ => Except PostgresError DeviceCredential
  | .findActiveCredential _ => Option DeviceCredential
  | .touchCredential _ _ => Bool
  | .socketData _ => Option DeviceSocketContext
  | .establish => Bool
  | .isDisconnected => Bool
  | .disconnect _ => Bool
  | .transportClosed _ => Bool
  | .unregister _ _ => Bool
  | .isOnline _ => Bool
  | .takeConnections _ => List CallId
  | _ => Unit

/-! ## History -/

/-- What one commit wrote to the three tables. -/
structure Writes where
  devices : List (Write Uuid Device)
  enrollments : List (Write Uuid DeviceEnrollment)
  credentials : List (Write Uuid DeviceCredential)

/-- One entry of the history. An operation without an event of its own is
    recorded as having run. `listed` says which enrollments an update is going
    to visit, and `passed` that one of them did not meet its condition any
    more. -/
inductive Event where
  | ran (o : Op)
  | told (now : Timestamp)
  | verified (payload : DeviceJwtPayload)
  | listed (ids : List Uuid)
  | passed (id : Uuid)
  | found (enrollment : DeviceEnrollment)
  | shownDevice (device : Device)
  | shownCredential (credential : DeviceCredential)
  | authenticated (device : DeviceSocketContext)
  | committed (writes : Writes)
  | registered (deviceId : Uuid)
  | unregistered (deviceId : Uuid) (socket : CallId)
  | closed (deviceId : Uuid)

/-- What happened, and in which call. -/
structure Entry where
  call : CallId
  event : Event

/-- The committed rows of the three tables. -/
structure Tables where
  devices : Uuid → Option Device
  enrollments : Uuid → Option DeviceEnrollment
  credentials : Uuid → Option DeviceCredential

/-- The rows there are at the beginning: these devices, and nothing else. -/
def Tables.initial (fleet : List Device) : Tables :=
  { devices := fun id => fleet.find? (fun d => decide (d.id = id))
    enrollments := fun _ => none
    credentials := fun _ => none }

/-- A commit changes the three tables at once. -/
def Tables.apply (T : Tables) (ws : Writes) : Tables :=
  { devices := applyWrites ws.devices T.devices
    enrollments := applyWrites ws.enrollments T.enrollments
    credentials := applyWrites ws.credentials T.credentials }

/-- The committed rows a history leads to. -/
def replay (fleet : List Device) : List Entry → Tables
  | [] => Tables.initial fleet
  | e :: l => match e.event with
    -- Only a commit changes what is committed.
    | .committed ws => (replay fleet l).apply ws
    | _ => replay fleet l

/-! ## State -/

/-- The three tables, the sockets, the registered sockets and the history. -/
structure World where
  devices : Table Uuid Device CallId
  enrollments : Table Uuid DeviceEnrollment CallId
  credentials : Table Uuid DeviceCredential CallId
  sockets : CallId → Socket
  connections : Connections
  log : List Entry

/-- The table of the given devices. The first one with an identifier counts. -/
def deviceTable : List Device → Table Uuid Device CallId
  | [] => Table.init
  | d :: fleet => (deviceTable fleet).set d.id { committed := some d, held := none }

namespace World

/-- These devices, without enrollments and credentials, and no connection. -/
def init (fleet : List Device) : World :=
  { devices := deviceTable fleet, enrollments := Table.init, credentials := Table.init
    sockets := fun _ => Socket.fresh, connections := fun _ => none, log := [] }

/-- What the rest of the world sees of the three tables. -/
def tables (w : World) : Tables :=
  { devices := w.devices.committed, enrollments := w.enrollments.committed
    credentials := w.credentials.committed }

/-- What a commit of the call is about to write. -/
def writes (w : World) (c : CallId) : Writes :=
  { devices := w.devices.writes c, enrollments := w.enrollments.writes c
    credentials := w.credentials.writes c }

/-- Add one entry to the history. -/
def record (w : World) (c : CallId) (ev : Event) : World :=
  { w with log := { call := c, event := ev } :: w.log }

/-- The other sockets stay. -/
def setSocket (w : World) (s : CallId) (socket : Socket) : World :=
  { w with sockets := Function.update w.sockets s socket }

end World

/-- What the surroundings decide during a turn: the time, the random values,
    what the database generates for a new row, and which of the sockets that
    the server closes tell the gateway so at once. -/
structure Env where
  time : Timestamp
  random : Nat
  bytes : String
  salt : Nat
  newId : Uuid
  createdAt : Timestamp
  atOnce : CallId → Bool

/-- The pending enrollments of a device, the newest first. -/
def pendingKeys (t : Table Uuid DeviceEnrollment CallId) (c : CallId) (deviceId : Uuid)
    (now : Timestamp) : List Uuid :=
  (t.keys (some c) (fun e => decide (e.deviceId = deviceId) && e.isPending now)).mergeSort
    (fun k k' => decide (((t.view (some c) k').elim 0 DeviceEnrollment.createdAt) ≤
      ((t.view (some c) k).elim 0 DeviceEnrollment.createdAt)))

/-- One row of an update of the enrollments, in the call's transaction. -/
def runUpdateEnrollment (c : CallId) (o : Op) (id : Uuid) (p : DeviceEnrollment → Bool)
    (f : DeviceEnrollment → DeviceEnrollment) (w : World) : Option (Bool × World) :=
  match w.enrollments.update (some c) id p f with
  | none => none
  | some (affected, t) => some (affected, { w with enrollments := t }.record c (.ran o))

/-- One row of `revokePendingEnrollments`, in the call's transaction. -/
def runRevokeEnrollment (c : CallId) (id deviceId : Uuid) (now : Timestamp) (w : World) :
    Option (Bool × World) :=
  match w.enrollments.update (some c) id
      (fun e => decide (e.deviceId = deviceId) && e.isUnsettled)
      (fun e => { e with revokedAt := some now }) with
  | none => none
  | some (affected, t) => some (affected, { w with enrollments := t }.record c
      (if affected then .ran (.revokeEnrollment id deviceId now) else .passed id))

/-- An update of a credential outside of any transaction, which commits. -/
def runTouchCredential (c : CallId) (id : Uuid) (now : Timestamp) (w : World) :
    Option (Bool × World) :=
  match w.credentials.update (some c) id (fun _ => true)
      (fun k => { k with lastUsedAt := some now }) with
  | none => none
  | some (affected, t) => some (affected, { w with credentials := t.commit c }.record c
      (.committed { devices := [], enrollments := [], credentials := t.writes c }))

/-- One row of an update of the credentials, in the call's transaction. -/
def runUpdateCredential (c : CallId) (o : Op) (id : Uuid) (p : DeviceCredential → Bool)
    (f : DeviceCredential → DeviceCredential) (w : World) : Option (Bool × World) :=
  match w.credentials.update (some c) id p f with
  | none => none
  | some (affected, t) => some (affected, { w with credentials := t }.record c (.ran o))

/-- The update of a device, in the call's transaction. A null where the
    column admits none is an error. -/
def runUpdateDevice (c : CallId) (id : Uuid) (patch : DevicePatch) (w : World) :
    Option (Except PostgresError Bool × World) :=
  match patch.isActive with
  | some none =>
    some (.error ⟨notNullViolation, "", ""⟩, w.record c (.ran (.updateDevice id patch)))
  | _ => match w.devices.update (some c) id (fun _ => true) (fun d => (patch.apply d).getD d) with
    | none => none
    | some (affected, t) =>
      some (.ok affected, { w with devices := t }.record c (.ran (.updateDevice id patch)))

/-- The insertion of an enrollment, in the call's transaction. The table has no
    unique index. -/
def runInsertEnrollment (c : CallId) (draft : DeviceEnrollmentDraft) (env : Env) (w : World) :
    Option (DeviceEnrollment × World) :=
  let row := draft.toRow env.newId env.createdAt
  match w.enrollments.insert ([] : List (UniqueIndex DeviceEnrollment Uuid)) (some c) env.newId
      row with
  | some (.ok _, t) =>
    some (row, { w with enrollments := t }.record c (.ran (.insertEnrollment draft)))
  | _ => none

/-- The insertion of a credential, in the call's transaction. The device may have
    one already that is not revoked. -/
def runInsertCredential (c : CallId) (draft : DeviceCredentialDraft) (env : Env) (w : World) :
    Option (Except PostgresError DeviceCredential × World) :=
  let row := draft.toRow env.newId env.createdAt
  match w.credentials.insert deviceCredentialIndexes (some c) env.newId row with
  | none => none
  | some (.error name, _) =>
    some (.error ⟨uniqueViolation, s!"Key (\"deviceId\")=({draft.deviceId}) already exists.", name⟩,
      w.record c (.ran (.insertCredential draft)))
  | some (.ok _, t) =>
    some (.ok row, { w with credentials := t }.record c (.ran (.insertCredential draft)))

/-- The end of a connection, from whichever side. The gateway is told now or
    later, but only once, and only of a socket that was let in. -/
def closeSocket (w : World) (s : CallId) (now : Bool) : Bool × World :=
  let socket := w.sockets s
  let fires := now && (socket.connected && !socket.handled)
  (fires, w.setSocket s
    { socket with disconnected := true, handled := socket.handled || fires })

/-- A row a statement found, and the entry that says so. -/
def foundEvent (o : Op) : Option DeviceEnrollment → Event
  | some e => .found e
  | none => .ran o

/-- What a token says, if it was verified, and the entry that says so. -/
def verifiedEvent (o : Op) : Option DeviceJwtPayload → Event
  | some payload => .verified payload
  | none => .ran o

/-- A device that was read, and the entry that says so. -/
def shownEvent (o : Op) : Option Device → Event
  | some d => .shownDevice d
  | none => .ran o

/-- A credential that was read, and the entry that says so. -/
def shownCredentialEvent (o : Op) : Option DeviceCredential → Event
  | some k => .shownCredential k
  | none => .ran o

/-- What an operation of call `c` answers and does, in a turn taken with
    `env`. No answer means that the call has to wait. -/
def exec (crypto : Crypto) (c : CallId) (env : Env) : (o : Op) → World → Option (Resp o × World)
  | .now, w => some (env.time, w.record c (.told env.time))
  | .randomInt min max, w =>
    some (min + env.random % (max - min), w.record c (.ran (.randomInt min max)))
  | .randomBytes size, w => some (env.bytes, w.record c (.ran (.randomBytes size)))
  | .bcryptHash data, w =>
    some (crypto.hash data env.salt, w.record c (.ran (.bcryptHash data)))
  | .bcryptCompare data hash, w =>
    some (crypto.compare data hash, w.record c (.ran (.bcryptCompare data hash)))
  | .verifyToken token, w =>
    some (crypto.verify token env.time,
      w.record c (verifiedEvent (.verifyToken token) (crypto.verify token env.time)))
  | .signToken payload, w =>
    some (crypto.sign payload env.time, w.record c (.ran (.signToken payload)))
  | .begin, w => some ((), w.record c (.ran .begin))
  | .commit, w =>
    some ((), { w with
      devices := w.devices.commit c
      enrollments := w.enrollments.commit c
      credentials := w.credentials.commit c }.record c (.committed (w.writes c)))
  | .rollback, w =>
    some ((), { w with
      devices := w.devices.rollback c
      enrollments := w.enrollments.rollback c
      credentials := w.credentials.rollback c }.record c (.ran .rollback))
  | .findDevice id, w =>
    some (w.devices.committed id,
      w.record c (shownEvent (.findDevice id) (w.devices.committed id)))
  | .findDeviceByPublicId publicId, w =>
    let found := (w.devices.scan (some c) (fun d => decide (d.publicId = publicId))).head?
    some (found, w.record c (shownEvent (.findDeviceByPublicId publicId) found))
  | .updateDevice id patch, w => runUpdateDevice c id patch w
  | .unsettledEnrollments deviceId, w =>
    let ids := w.enrollments.keys (some c)
      (fun e => decide (e.deviceId = deviceId) && e.isUnsettled)
    some (ids, w.record c (.listed ids))
  | .revokeEnrollment id deviceId now, w => runRevokeEnrollment c id deviceId now w
  | .insertEnrollment draft, w => runInsertEnrollment c draft env w
  | .pendingEnrollments deviceId now, w =>
    some (pendingKeys w.enrollments c deviceId now,
      w.record c (.ran (.pendingEnrollments deviceId now)))
  | .lockEnrollment id deviceId now, w =>
    -- The condition is evaluated again on the row as it is when it is free.
    match w.enrollments.selectForUpdate c id
        (fun e => decide (e.deviceId = deviceId) && e.isPending now) with
    | none => none
    | some (e, t) => some (e, { w with enrollments := t }.record c
        (foundEvent (.lockEnrollment id deviceId now) e))
  | .consumeEnrollment id now, w =>
    runUpdateEnrollment c (.consumeEnrollment id now) id (fun e => e.usedAt.isNone)
      (fun e => { e with usedAt := some now }) w
  | .updateEnrollment id failedAttempts revokedAt, w =>
    runUpdateEnrollment c (.updateEnrollment id failedAttempts revokedAt) id (fun _ => true)
      (fun e => { e with failedAttempts, revokedAt := revokedAt.or e.revokedAt }) w
  | .activeCredentials deviceId, w =>
    some (w.credentials.keys (some c) (fun k => decide (k.deviceId = deviceId) && k.isActive),
      w.record c (.ran (.activeCredentials deviceId)))
  | .revokeCredential id deviceId now, w =>
    runUpdateCredential c (.revokeCredential id deviceId now) id
      (fun k => decide (k.deviceId = deviceId) && k.isActive)
      (fun k => { k with revokedAt := some now }) w
  | .insertCredential draft, w => runInsertCredential c draft env w
  -- The credential is read outside of any transaction, so only committed ones are seen.
  | .findActiveCredential deviceId, w =>
    let found := (w.credentials.scan none
      (fun k => decide (k.deviceId = deviceId) && k.isActive)).head?
    some (found, w.record c (shownCredentialEvent (.findActiveCredential deviceId) found))
  | .touchCredential id now, w => runTouchCredential c id now w
  | .setSocketData device, w =>
    some ((), (w.setSocket c { w.sockets c with device := some device }).record c
      (.authenticated device))
  | .socketData s, w => some ((w.sockets s).device, w.record c (.ran (.socketData s)))
  | .establish, w =>
    -- A socket that its client has closed is not let in any more.
    if (w.sockets c).disconnected then some (false, w.record c (.ran .establish))
    else some (true, (w.setSocket c { w.sockets c with connected := true }).record c
      (.ran .establish))
  | .isDisconnected, w => some ((w.sockets c).disconnected, w.record c (.ran .isDisconnected))
  | .disconnect s, w =>
    some ((closeSocket w s (env.atOnce s)).1,
      (closeSocket w s (env.atOnce s)).2.record c (.ran (.disconnect s)))
  | .emitConnected deviceId publicId, w =>
    some ((), w.record c (.ran (.emitConnected deviceId publicId)))
  | .transportClosed s, w =>
    some ((closeSocket w s true).1, (closeSocket w s true).2.record c (.ran (.transportClosed s)))
  | .register deviceId, w =>
    some ((), { w with
      connections := DevicePresenceService.register w.connections deviceId c }.record c
        (.registered deviceId))
  | .unregister deviceId s, w =>
    some ((DevicePresenceService.unregister w.connections deviceId s).1, { w with
      connections := (DevicePresenceService.unregister w.connections deviceId s).2 }.record c
        (.unregistered deviceId s))
  | .isOnline deviceId, w =>
    some (DevicePresenceService.isOnline w.connections deviceId,
      w.record c (.ran (.isOnline deviceId)))
  | .takeConnections deviceId, w =>
    some ((DevicePresenceService.take w.connections deviceId).1, { w with
      connections := (DevicePresenceService.take w.connections deviceId).2 }.record c
        (.closed deviceId))

/-! ## Programs -/

/-- A program of one of the services. -/
abbrev Service (α : Type) := Prog Op Resp HttpException α

/-- A statement, or another asynchronous request: the call waits for it, and
    then for its turn to go on with the answer. -/
def statement (o : Op) : Service (Resp o) := .await (.op o (fun r => .await (.ret r)))

/-- What is answered at once, without a wait. -/
def ask (o : Op) : Service (Resp o) := Prog.request o

/-- Run a program in a transaction. An error it throws rolls the transaction
    back and is thrown again. -/
def transaction {α : Type} (body : Service α) : Service α := do
  statement .begin
  let result ← body.onError (fun e => do
    statement .rollback
    .throw e)
  statement .commit
  return result

end RemoteControl.Devices

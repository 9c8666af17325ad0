import RemoteControl.Core.DeviceBackend

/-!
# The Device Services

Enrollment, activation, administration, authentication and connection of
devices, as the services and the gateway of the source do it.

`createEnrollmentCode` revokes the codes that are still open and saves a new
one. `activate` locks the pending codes, compares the given code with each,
and either counts a failed attempt on all of them or consumes the one that
matched, revokes the credential of the device and issues another. A failed
attempt commits, which is why `runActivation` returns nothing where it might
have thrown.

A device trades the secret of its credential for a token (`login`), and comes
back with the token: in a request (`authorize`) or with a connection.

A connection is a call of its own. It is authenticated in the middleware of
the namespace, let in by `next` on a later tick, joins a room and registers
its socket. The socket may be closed at any time, by its client or by
`disconnectDevice`, and the event that tells the gateway so is another call
(`onDisconnect`).

A loop of the source over rows of the database is a recursion over the list of
their keys, with a wait at every statement. The keys are those of the rows
that met the condition at the beginning, and each row is looked at again when
its turn comes.

## Main definitions

* `DeviceCredentialsService`, `DevicePresenceService`, `DevicesService`,
  `DeviceEnrollmentService`, `DeviceAuthService`, `DeviceJwtStrategy`,
  `DevicesGateway`: The methods of the source.
* `Call`, `Response`: What can be asked of the services, and the answers.
* `boot`, `Reachable`: The interleaved system, and where its runs lead.
* `consume`, `tryCode`, `registerFailedAttempts`: The parts of an activation.
-/

namespace RemoteControl.Devices

open Concurrency Encoding

/-- What a query found, or the error when it found nothing. -/
def orFail {α : Type} (found : Option α) (e : HttpException) : Service α :=
  match found with
  | some a => .ret a
  | none => .throw e

/-- `new Date()`. -/
def newDate : Service Timestamp := ask .now

/-! ## Credentials -/

/-- The only time that a secret is shown. -/
structure IssuedDeviceCredential where
  credentialId : Uuid
  deviceSecret : String
  deriving DecidableEq, Repr

namespace DeviceCredentialsService

/-- The length of a secret, in bytes. -/
def secretBytes : Nat := 32

/-- What is stored of a secret. -/
def hashSecret (crypto : Crypto) (deviceSecret : String) : String :=
  toHex (crypto.sha256 deviceSecret)

/-- The two digests, read back from their digits, have the same bytes. -/
def matchesSecret (crypto : Crypto) (deviceSecret secretHash : String) : Bool :=
  decide (fromHex (hashSecret crypto deviceSecret) = fromHex secretHash)

/-- A secret, in the digits the library writes it with. -/
def generateSecret : Service String := ask (.randomBytes secretBytes)

/-- The rows of the update, one after the other. -/
def revokeEach (deviceId : Uuid) (now : Timestamp) : List Uuid → Service Unit
  | [] => .ret ()
  | id :: ids => do
    let _ ← statement (.revokeCredential id deviceId now)
    revokeEach deviceId now ids

/-- The credentials of the device that are not revoked are revoked. -/
def revokeActiveCredentials (deviceId : Uuid) (now : Timestamp) : Service Unit := do
  let ids ← statement (.activeCredentials deviceId)
  revokeEach deviceId now ids

/-- A device gets a new credential, and the old one is revoked in the same
    transaction. The unique index keeps another activation from doing the same in
    between. -/
def issueCredential (crypto : Crypto) (deviceId : Uuid) (now : Timestamp) :
    Service IssuedDeviceCredential := do
  revokeActiveCredentials deviceId now
  let deviceSecret ← generateSecret
  let saved ← statement (.insertCredential
    { deviceId, secretHash := hashSecret crypto deviceSecret, lastUsedAt := none
      revokedAt := none })
  match saved with
  | .ok credential => return { credentialId := credential.id, deviceSecret }
  -- Nobody catches it, so that the framework answers for it.
  | .error _ => .throw (.internalServerError "Internal server error")

end DeviceCredentialsService

/-! ## The end of a connection -/

namespace DevicesGateway

/-- The gateway is told that a connection is over, and takes its socket out of the
    registered ones. -/
def handleDisconnect (client : CallId) : Service Unit := do
  let context ← ask (.socketData client)
  match context with
  | none => return ()
  | some context => do
    let _ ← ask (.unregister context.deviceId client)
    return ()

end DevicesGateway

/-- `socket.disconnect(true)`. The event it causes may reach the gateway
    before the method goes on. -/
def disconnectSocket (socket : CallId) : Service Unit := do
  let fires : Bool ← ask (.disconnect socket)
  if fires = true then DevicesGateway.handleDisconnect socket
  else return ()

namespace DevicePresenceService

/-- Close these sockets, one after the other. -/
def disconnectEach : List CallId → Service Unit
  | [] => .ret ()
  | socket :: sockets => do
    disconnectSocket socket
    disconnectEach sockets

/-- The sockets are not registered any more when they are closed. -/
def disconnectDevice (deviceId : Uuid) : Service Nat := do
  let sockets ← ask (.takeConnections deviceId)
  disconnectEach sockets
  return sockets.length

end DevicePresenceService

/-! ## Administration -/

/-- A device as the repository preloads it. Its `isActive` may be null until
    the database refuses to save it. -/
structure PreloadedDevice where
  id : Uuid
  publicId : String
  name : Option String
  manufacturer : Option String
  model : Option String
  androidVersion : Option String
  appVersion : Option String
  isActive : Option Bool
  deriving DecidableEq, Repr

/-- The row with the columns of the patch laid over it. -/
def DevicePatch.overlay (p : DevicePatch) (d : Device) : PreloadedDevice :=
  { id := d.id, publicId := d.publicId, name := p.name.getD d.name
    manufacturer := p.manufacturer.getD d.manufacturer, model := p.model.getD d.model
    androidVersion := p.androidVersion.getD d.androidVersion
    appVersion := p.appVersion.getD d.appVersion, isActive := p.isActive.getD (some d.isActive) }

/-- A value that a column of the row does not have. -/
def changed {α : Type} [DecidableEq α] (value column : α) : Option α :=
  if value = column then none else some value

/-- The columns in which the row differs. -/
def PreloadedDevice.diff (p : PreloadedDevice) (row : Device) : DevicePatch :=
  { name := changed p.name row.name, manufacturer := changed p.manufacturer row.manufacturer
    model := changed p.model row.model
    androidVersion := changed p.androidVersion row.androidVersion
    appVersion := changed p.appVersion row.appVersion
    isActive := changed p.isActive (some row.isActive) }

/-- A device as the API shows it. -/
structure DeviceResponseDto where
  id : Uuid
  publicId : String
  name : Option String
  manufacturer : Option String
  model : Option String
  androidVersion : Option String
  appVersion : Option String
  isActive : Option Bool
  isOnline : Bool
  deriving DecidableEq, Repr

/-- The device with its presence. -/
def DeviceResponseDto.fromEntity (device : PreloadedDevice) (isOnline : Bool) :
    DeviceResponseDto :=
  { id := device.id, publicId := device.publicId, name := device.name
    manufacturer := device.manufacturer, model := device.model
    androidVersion := device.androidVersion, appVersion := device.appVersion
    isActive := device.isActive, isOnline }

namespace DevicesService

/-- An error of the database as the error the caller is given. -/
def handleDBError (error : PostgresError) : HttpException :=
  if error.code = uniqueViolation then .badRequest error.detail
  else .internalServerError "Please check server logs"

/-- The device, or the error that there is none. -/
def findEntity (id : Uuid) : Service Device := do
  let device ← statement (.findDevice id)
  orFail device (.notFound s!"Device with id {id} not found")

/-- The row, if there is one, with the columns of the body laid over it. -/
def preload (id : Uuid) (dto : DevicePatch) : Service (Option PreloadedDevice) := do
  let device ← statement (.findDevice id)
  return device.map dto.overlay

/-- What the repository saves: the columns in which the row, read once more,
    differs from the entity. -/
def saveChanges (device : PreloadedDevice) (changes : DevicePatch) : Service PreloadedDevice :=
  if changes.isEmpty then .ret device
  else transaction do
    let saved ← statement (.updateDevice device.id changes)
    match saved with
    | .ok _ => return device
    | .error error => .throw (handleDBError error)

/-- The row is read once more, and the columns in which it differs from the entity
    are written. A column that somebody else has changed since the entity was
    preloaded differs as well, and is written back. -/
def save (device : PreloadedDevice) : Service PreloadedDevice := do
  let row ← statement (.findDevice device.id)
  match row with
  -- Devices are never deleted, so the row is still there.
  | none => return device
  | some row => saveChanges device (device.diff row)

/-- The response shows whether the device is connected when it is built. -/
def toResponse (device : PreloadedDevice) : Service DeviceResponseDto := do
  let isOnline ← ask (.isOnline device.id)
  return DeviceResponseDto.fromEntity device isOnline

/-- An administrator changes a device. If it is not active afterwards, its
    connections are closed. -/
def update (id : Uuid) (updateDeviceDto : DevicePatch) : Service DeviceResponseDto := do
  let device ← preload id updateDeviceDto
  let device ← orFail device (.notFound s!"Device with id {id} not found")
  let updated ← save device
  if updated.isActive = some true then toResponse updated
  else do
    let _ ← DevicePresenceService.disconnectDevice id
    toResponse updated

end DevicesService

/-! ## Enrollment -/

/-- A new code, the only time that it is shown. -/
structure EnrollmentCodeResponse where
  deviceId : Uuid
  publicId : String
  enrollmentCode : String
  expiresAt : Timestamp
  deriving DecidableEq, Repr

/-- What an activated device is given, the secret among it. -/
structure DeviceActivationResponse where
  deviceId : Uuid
  publicId : String
  name : Option String
  deviceSecret : String
  deriving DecidableEq, Repr

/-- What a device sends to be activated: the code, and what it says of itself. -/
structure ActivateDeviceDto where
  publicId : String
  code : String
  manufacturer : Option (Option String) := none
  model : Option (Option String) := none
  androidVersion : Option (Option String) := none
  appVersion : Option (Option String) := none
  deriving DecidableEq, Repr

namespace DeviceEnrollmentService

/-- How long a code can be used. -/
def codeTtlMinutes : Nat := 30

/-- How many wrong codes are let pass. -/
def maxFailedAttempts : Nat := 5

/-- A code of six digits. -/
def padCode (n : Nat) : String := "".pushn '0' (6 - (toString n).length) ++ toString n

/-- A random code. -/
def generateCode : Service String := do
  let n ← ask (.randomInt 0 1000000)
  return padCode n

/-- The rows of the update, one after the other. -/
def revokeEach (deviceId : Uuid) (now : Timestamp) : List Uuid → Service Unit
  | [] => .ret ()
  | id :: ids => do
    let _ ← statement (.revokeEnrollment id deviceId now)
    revokeEach deviceId now ids

/-- The codes of the device that are neither used nor revoked are revoked. -/
def revokePendingEnrollments (deviceId : Uuid) (now : Timestamp) : Service Unit := do
  let ids ← statement (.unsettledEnrollments deviceId)
  revokeEach deviceId now ids

/-- An administrator has a code made for a device. The codes before it are revoked
    in the transaction that saves the new one, but nothing keeps another such
    transaction from running at the same time. -/
def createEnrollmentCode (deviceId : Uuid) : Service EnrollmentCodeResponse := do
  let device ← DevicesService.findEntity deviceId
  if device.isActive = false then
    .throw (.badRequest s!"Device with id {deviceId} is not active and cannot be enrolled")
  else do
    let code ← generateCode
    let now ← newDate
    let expiresAt := now + codeTtlMinutes * 60000
    let codeHash ← statement (.bcryptHash code)
    let _ ← transaction do
      revokePendingEnrollments device.id now
      statement (.insertEnrollment
        { deviceId := device.id, codeHash, expiresAt, usedAt := none, revokedAt := none })
    return { deviceId := device.id, publicId := device.publicId, enrollmentCode := code, expiresAt }

/-- The rows of the query, locked one after the other. A row that no longer
    meets the condition when its lock is free is left out. -/
def lockEach (deviceId : Uuid) (now : Timestamp) : List Uuid → Service (List DeviceEnrollment)
  | [] => .ret []
  | id :: ids => do
    let found ← statement (.lockEnrollment id deviceId now)
    let rest ← lockEach deviceId now ids
    return found.toList ++ rest

/-- The codes of the device that can still be used, locked, the newest first. -/
def findPendingEnrollments (deviceId : Uuid) (now : Timestamp) :
    Service (List DeviceEnrollment) := do
  let ids ← statement (.pendingEnrollments deviceId now)
  lockEach deviceId now ids

/-- The first candidate whose code it is. -/
def findMatching (code : String) : List DeviceEnrollment → Service (Option DeviceEnrollment)
  | [] => .ret none
  | candidate :: rest => do
    let matched : Bool ← statement (.bcryptCompare code candidate.codeHash)
    if matched = true then return some candidate
    else findMatching code rest

/-- A wrong code counts against all codes that it was compared with. With the
    fifth one a code is revoked. -/
def registerFailedAttempts (now : Timestamp) : List DeviceEnrollment → Service Unit
  | [] => .ret ()
  | enrollment :: rest => do
    let failedAttempts := enrollment.failedAttempts + 1
    let exhausted := decide (maxFailedAttempts ≤ failedAttempts)
    let _ ← statement (.updateEnrollment enrollment.id failedAttempts
      (if exhausted then some now else none))
    registerFailedAttempts now rest

/-- A comparison whose answer nobody looks at. -/
def burnVerificationTime (code : String) : Service Unit := do
  let decoyHash ← statement (.bcryptHash "000000")
  let _ ← statement (.bcryptCompare code decoyHash)
  return ()

/-- The columns that a device may say of itself. -/
def buildTechnicalInfo (dto : ActivateDeviceDto) : DevicePatch :=
  { manufacturer := dto.manufacturer, model := dto.model, androidVersion := dto.androidVersion
    appVersion := dto.appVersion }

/-- They are written if there are any. -/
def updateTechnicalInfo (deviceId : Uuid) (technicalInfo : DevicePatch) : Service Unit :=
  if technicalInfo.isEmpty then .ret ()
  else do
    let saved ← statement (.updateDevice deviceId technicalInfo)
    match saved with
    | .ok _ => return ()
    | .error _ => .throw (.internalServerError "Internal server error")

/-- The activation by the enrollment whose code was given. -/
def consume (crypto : Crypto) (dto : ActivateDeviceDto) (device : Device) (now : Timestamp)
    (enrollment : DeviceEnrollment) : Service (Option DeviceActivationResponse) := do
  let consumed : Bool ← statement (.consumeEnrollment enrollment.id now)
  -- Somebody else has used the code. This cannot happen while the row is locked.
  if consumed = false then return none
  else do
    updateTechnicalInfo device.id (buildTechnicalInfo dto)
    let issued ← DeviceCredentialsService.issueCredential crypto device.id now
    return some { deviceId := device.id, publicId := device.publicId, name := device.name
                  deviceSecret := issued.deviceSecret }

/-- The part of an activation that has the pending enrollments in hand. -/
def tryCode (crypto : Crypto) (dto : ActivateDeviceDto) (device : Device) (now : Timestamp)
    (pending : List DeviceEnrollment) : Service (Option DeviceActivationResponse) :=
  match pending with
  | [] => do
    burnVerificationTime dto.code
    return none
  | _ => do
    let enrollment ← findMatching dto.code pending
    match enrollment with
    | none => do
      registerFailedAttempts now pending
      return none
    | some enrollment => consume crypto dto device now enrollment

/-- The transaction of an activation. It returns nothing where the activation
    fails, so that it commits the failed attempt. -/
def runActivation (crypto : Crypto) (dto : ActivateDeviceDto) :
    Service (Option DeviceActivationResponse) := do
  let now ← newDate
  let device ← statement (.findDeviceByPublicId dto.publicId)
  match device.filter Device.isActive with
  | none => do
    burnVerificationTime dto.code
    return none
  | some device => do
    let pending ← findPendingEnrollments device.id now
    tryCode crypto dto device now pending

/-- A device trades a code for a credential, and its old connections are closed.
    Every failure is told with the same words. -/
def activate (crypto : Crypto) (dto : ActivateDeviceDto) : Service DeviceActivationResponse := do
  let activation ← transaction (runActivation crypto dto)
  let activation ← orFail activation (.unauthorized "Invalid activation")
  let _ ← DevicePresenceService.disconnectDevice activation.deviceId
  return activation

end DeviceEnrollmentService

/-! ## Authentication -/

/-- The device of a token that is in order. -/
structure AuthenticatedDevice where
  device : Device
  credentialId : Uuid
  deriving DecidableEq, Repr

/-- What tells the tokens of the devices from those of the users. -/
def deviceTokenType : String := "device"

/-- What a device sends to log in. -/
structure DeviceLoginDto where
  deviceId : Uuid
  deviceSecret : String
  deriving DecidableEq, Repr

/-- The device with its token. -/
structure DeviceLoginResponse where
  id : Uuid
  publicId : String
  name : Option String
  isActive : Bool
  token : String
  deriving DecidableEq, Repr

namespace DeviceAuthService

/-- A hash to compare with when there is no other. -/
def decoyHash (crypto : Crypto) : String := toHex (crypto.sha256 "decoy")

/-- A comparison whose answer nobody looks at. -/
def burnVerificationTime (crypto : Crypto) (deviceSecret : String) : Service Unit :=
  let _matches := DeviceCredentialsService.matchesSecret crypto deviceSecret (decoyHash crypto)
  .ret ()

/-- The one error for every login that fails. -/
def invalidCredentials : HttpException := .unauthorized "Invalid device credentials"

/-- A token names the device and the credential it was given for. -/
def signDeviceToken (deviceId credentialId : Uuid) : Service String :=
  ask (.signToken { sub := deviceId, tokenType := deviceTokenType, credentialId })

/-- The device and its credential are known. -/
def loginWith (crypto : Crypto) (dto : DeviceLoginDto) (device : Device)
    (credential : DeviceCredential) : Service DeviceLoginResponse :=
  if DeviceCredentialsService.matchesSecret crypto dto.deviceSecret credential.secretHash = false
  then .throw invalidCredentials
  else do
    let now ← newDate
    let _ ← statement (.touchCredential credential.id now)
    let token ← signDeviceToken device.id credential.id
    return { id := device.id, publicId := device.publicId, name := device.name
             isActive := device.isActive, token }

/-- A device trades its secret for a token. The two reads are statements of their
    own, so the device and its credential may belong to different moments. -/
def login (crypto : Crypto) (dto : DeviceLoginDto) : Service DeviceLoginResponse := do
  let device ← statement (.findDevice dto.deviceId)
  match device.filter Device.isActive with
  | none => do
    burnVerificationTime crypto dto.deviceSecret
    .throw invalidCredentials
  | some device => do
    let credential ← statement (.findActiveCredential device.id)
    match credential with
    | none => do
      burnVerificationTime crypto dto.deviceSecret
      .throw invalidCredentials
    | some credential => loginWith crypto dto device credential

/-- What has to be true of the device of a token: it is active, and its credential
    is the one that the token names. -/
def authorizePayload (payload : DeviceJwtPayload) : Service AuthenticatedDevice := do
  if payload.tokenType ≠ deviceTokenType then .throw (.unauthorized "Token not valid")
  else do
    let device ← statement (.findDevice payload.sub)
    let device ← orFail device (.unauthorized "Token not valid")
    if device.isActive = false then
      .throw (.unauthorized "Device is inactive, talk with an admin")
    else do
      let credential ← statement (.findActiveCredential device.id)
      match credential.filter (fun k => decide (k.id = payload.credentialId)) with
      | none => .throw (.unauthorized "Token not valid")
      | some credential => return { device, credentialId := credential.id }

/-- The device of a token that was verified. -/
def validateToken (payload : DeviceJwtPayload) : Service Device := do
  let authenticated ← authorizePayload payload
  return authenticated.device

/-- The device of a token that comes with a connection. -/
def authenticateToken (token : String) : Service AuthenticatedDevice := do
  let payload ← statement (.verifyToken token)
  let payload ← orFail payload (.unauthorized "Token not valid")
  authorizePayload payload

end DeviceAuthService

namespace DeviceJwtStrategy

/-- Passport hands over what the token says. -/
def validate (payload : DeviceJwtPayload) : Service Device :=
  DeviceAuthService.validateToken payload

/-- A request with this bearer token: the library verifies it, and hands what
    it says to `validate`. -/
def authenticate (token : String) : Service Device := do
  let payload ← statement (.verifyToken token)
  let payload ← orFail payload (.unauthorized "Unauthorized")
  validate payload

end DeviceJwtStrategy

/-! ## Connections -/

namespace DevicesGateway

/-- What a client is told that is turned away. -/
def unauthorizedReason : String := "Unauthorized"

/-- `token` is what the client sent as `auth.token`, if it was a string. -/
def extractToken (token : Option String) : Option String :=
  token.filter (fun t => decide (0 < t.length))

/-- The middleware stores on the socket whom it belongs to. -/
def authenticate (token : Option String) : Service Unit := do
  let token ← orFail (extractToken token) (.unauthorized unauthorizedReason)
  let authenticated ← DeviceAuthService.authenticateToken token
  ask (.setSocketData
    { deviceId := authenticated.device.id, credentialId := authenticated.credentialId
      publicId := authenticated.device.publicId })

/-- The gateway registers the socket after it has joined the room of its device,
    and then looks whether the connection has ended in the meantime. -/
def handleConnection (client : CallId) : Service Unit := do
  let context ← ask (.socketData client)
  match context with
  | none => disconnectSocket client
  | some context => do
    -- The join of the device's room.
    Prog.pause
    ask (.register context.deviceId)
    let disconnected : Bool ← ask .isDisconnected
    if disconnected = true then do
      let _ ← ask (.unregister context.deviceId client)
      return ()
    else ask (.emitConnected context.deviceId context.publicId)

/-- The middleware of the namespace, and the connection it lets in. -/
def connect (client : CallId) (token : Option String) : Service Unit := do
  let accepted ← (do
    authenticate token
    return true).onError (fun _ => .ret false)
  -- `next` goes on in a later tick.
  Prog.pause
  if accepted = true then do
    let opened : Bool ← ask .establish
    if opened = true then handleConnection client
    else return ()
  else return ()

/-- The connection is over, and the gateway is told. -/
def onDisconnect (client : CallId) : Service Unit := do
  let fires : Bool ← ask (.transportClosed client)
  if fires = true then handleDisconnect client
  else return ()

end DevicesGateway

/-! ## The system -/

/-- What can be asked of the services. -/
inductive Call where
  | createEnrollmentCode (deviceId : Uuid)
  | activate (dto : ActivateDeviceDto)
  | update (id : Uuid) (dto : DevicePatch)
  | login (dto : DeviceLoginDto)
  | authorize (token : String)
  | connect (token : Option String)
  | disconnect (client : CallId)
  deriving DecidableEq, Repr

/-- What is answered. -/
inductive Response where
  | enrollmentCode (dto : EnrollmentCodeResponse)
  | activation (dto : DeviceActivationResponse)
  | device (dto : DeviceResponseDto)
  | token (dto : DeviceLoginResponse)
  | authorized (device : Device)
  | done
  deriving DecidableEq, Repr

/-- The method for the call. The socket of a connection is known by the call
    that opens it. -/
def handle (crypto : Crypto) (c : CallId) : Call → Service Response
  | .createEnrollmentCode deviceId => Response.enrollmentCode <$>
      DeviceEnrollmentService.createEnrollmentCode deviceId
  | .activate dto => Response.activation <$> DeviceEnrollmentService.activate crypto dto
  | .update id dto => Response.device <$> DevicesService.update id dto
  | .login dto => Response.token <$> DeviceAuthService.login crypto dto
  | .authorize token => Response.authorized <$> DeviceJwtStrategy.authenticate token
  | .connect token => (fun _ => Response.done) <$> DevicesGateway.connect c token
  | .disconnect client => (fun _ => Response.done) <$> DevicesGateway.onDisconnect client

/-- A system of calls. -/
abbrev Calls := System Op Resp HttpException Response World CallId

/-- No call has been made, and there are only the given devices. -/
def boot (crypto : Crypto) (calls : CallId → Call) (fleet : List Device) : Calls :=
  System.start (World.init fleet) (fun c => handle crypto c (calls c))

/-- A system that some run leads to. -/
def Reachable (crypto : Crypto) (calls : CallId → Call) (fleet : List Device) (sys : Calls) :
    Prop :=
  Run (exec crypto) anyTurn (boot crypto calls fleet) sys

end RemoteControl.Devices

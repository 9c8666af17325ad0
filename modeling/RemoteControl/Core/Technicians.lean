import RemoteControl.Core.TechnicianBackend
import RemoteControl.Encoding.Json

/-!
# Technicians

Who may act as whom. A user logs in with a password and is given a token. With
the token an HTTP request gets past the guards of a route, if the user still
exists, is active, and has one of the roles of the route. With the same token
the application of a technician opens a socket, which the server puts into the
room of that technician and into the room of all of them. The other services
send their events to these rooms.

Both ways lead through `validateJwtPayload`, which reads the user again. What
was read is a moment old when something is done with it: a request may be let
through for a user who is made inactive before the handler runs, and a socket
that was let in stays.

The console commands write the same table while the service is running.

Passport is a library. What it takes out of the header of a request is the
`bearer` of a request, and what it does with a token it cannot verify is to
answer that the request is unauthorized.

Every handler behind a route runs after the guards, in the same call, and the
entry `authorized` marks the moment at which they have let the request
through. What it was let through on is the user as the guard has read it.

## Main definitions

* `AuthService`, `JwtStrategy`, `UserRoleGuard`: Accounts, tokens and guards.
* `TechniciansGateway`, `TechnicianRealtimeService`: The sockets, and the
  events for them.
* `bootstrapAdmin`, `resetAdminPassword`: The console commands.
* `Operation`, `handle`: The requests, the sockets, and what else happens.
* `boot`, `Reachable`: The interleaved system, and where its runs lead.
* `auth`: A route that is guarded.
-/

namespace RemoteControl.Technicians

open Concurrency Encoding Accounts

/-! ## Accounts -/

namespace AuthService

/-- The request, or the handshake, is turned away with these words. -/
def unauthorized (message : String) : Thrown := .http (.unauthorized message)

/-- An administrator creates an account. The password is hashed before the row is
    saved, and the token is signed for the row that was saved. -/
def createUser (dto : CreateUserDto) : Service UserResponse := do
  let password : String ← ask (.hashSync dto.password)
  let saved : Except DriverError Accounts.User ← statement (.save
    { email := dto.email, password, fullName := dto.fullName, isActive := true
      -- Without roles the column has its default.
      roles := (dto.roles.map List.eraseDups).getD [.user] })
  match saved with
  | .error error => .throw (.http (Accounts.AuthService.handleDBError error))
  | .ok user => do
    let token : String ← ask (.sign user.id)
    return { id := user.id, email := user.email, fullName := user.fullName
             isActive := user.isActive, roles := user.roles, createdAt := user.createdAt
             updatedAt := user.updatedAt, token }

/-- A login. The address is looked up as it was typed, and an inactive account is
    told apart from a wrong password. -/
def loginUser (host : Host) (dto : LoginUserDto) : Service LoginResponse := do
  let user : Option Accounts.User ← statement (.findByEmail dto.email)
  match user with
  | none => .throw (unauthorized "Credentials are not valid")
  | some user => do
    throwIf (!host.compareSync dto.password user.password)
      (unauthorized "Credentials are not valid")
    throwIf (!user.isActive) (unauthorized "User is inactive, talk with an admin")
    let token : String ← ask (.sign user.id)
    return { id := user.id, email := user.email, fullName := user.fullName, roles := user.roles
             isActive := user.isActive, token }

/-- A user asks for a new token, and is given it for the row that the guard has
    read. -/
def checkAuthStatus (user : SelectedUser) : Service UserResponse := do
  let token : String ← ask (.sign user.id)
  return { id := user.id, email := user.email, fullName := user.fullName
           isActive := user.isActive, roles := user.roles, createdAt := user.createdAt
           updatedAt := user.updatedAt, token }

/-- What has to be true of the user of a token that was verified. -/
def validateJwtPayload (id : Uuid) : Service SelectedUser := do
  let user : Option SelectedUser ← statement (.findOneBy id)
  match user with
  | none => .throw (unauthorized "Token not valid")
  | some user => do
    throwIf (!user.isActive) (unauthorized "User is inactive, talk with an admin ")
    return user

/-- The user of a token that comes with a handshake. -/
def authenticateToken (token : String) : Service SelectedUser := do
  let payload : Option Uuid ← statement (.verify token)
  match payload with
  | none => .throw (unauthorized "Token not valid")
  | some id => validateJwtPayload id

end AuthService

/-! ## Guards -/

namespace JwtStrategy

/-- The guard of Passport with this strategy: a verified token, and what
    `validate` says of it. -/
def authenticate (bearer : Option String) : Service SelectedUser :=
  match bearer with
  | none => .throw (AuthService.unauthorized "Unauthorized")
  | some token => do
    let payload : Option Uuid ← statement (.verify token)
    match payload with
    | none => .throw (AuthService.unauthorized "Unauthorized")
    | some id => AuthService.validateJwtPayload id

end JwtStrategy

namespace UserRoleGuard

/-- A role as the messages spell it. -/
def roleName : ValidRoles → String
  | .admin => "admin"
  | .tecnico => "tecnico"
  | .sales => "sales"
  | .user => "user"

/-- No roles mean that a token is enough. -/
def allows (validRoles : List ValidRoles) (user : SelectedUser) : Bool :=
  validRoles.isEmpty || user.roles.any (fun role => decide (role ∈ validRoles))

/-- The guard of the roles. The message names the ones that would do. -/
def canActivate (validRoles : List ValidRoles) (user : SelectedUser) : Service Unit :=
  throwIf (!allows validRoles user) (.http (.forbidden ("User " ++ user.fullName ++
    " needs one of these roles: [" ++ ", ".intercalate (validRoles.map roleName) ++ "]")))

end UserRoleGuard

/-- A route with `@Auth(...roles)`, and its handler. -/
def auth {α : Type} (roles : List ValidRoles) (bearer : Option String)
    (handler : SelectedUser → Service α) : Service α := do
  let user ← JwtStrategy.authenticate bearer
  UserRoleGuard.canActivate roles user
  ask (.authorized user)
  handler user

/-! ## Sockets -/

/-- The room of one technician. -/
def technicianRoom (technicianId : Uuid) : String := "technician:" ++ toString technicianId

/-- The room that all technicians are in. -/
def allTechniciansRoom : String := "technicians:all"

namespace TechnicianRealtimeService

/-- The namespace is handed to the service, once it is set up. -/
def bind : Service Unit := ask .bind

/-- The event goes to the transport, if there is one. -/
def emitTo (room : String) (message : Message) : Service Bool := do
  let target : Bool ← ask .isBound
  if target = true then do
    ask (.emit room message)
    return true
  else return false

/-- To the sockets of one technician. -/
def emitToTechnician (technicianId : Uuid) (message : Message) : Service Bool :=
  emitTo (technicianRoom technicianId) message

/-- To the sockets of all of them. -/
def emitToAllTechnicians (message : Message) : Service Bool := emitTo allTechniciansRoom message

end TechnicianRealtimeService

namespace TechniciansGateway

/-- The roles that may have a socket here. -/
def technicianSocketRoles : List ValidRoles := [.admin, .tecnico]

/-- What a client is told that is turned away. -/
def unauthorizedReason : Thrown := .error "Unauthorized"

/-- The token of the handshake, if it is a string that is not empty. -/
def extractToken (auth : List (String × Json)) : Option String :=
  (field auth "token").asString.filter (fun token => decide (token ≠ ""))

/-- One of the user's roles is among them. -/
def isTechnician (user : SelectedUser) : Bool :=
  user.roles.any (fun role => decide (role ∈ technicianSocketRoles))

/-- The middleware stores on the socket whom it belongs to. The roles are looked
    at here and never again. -/
def authenticate (socket : SocketId) (auth : List (String × Json)) : Service Unit :=
  match extractToken auth with
  | none => .throw unauthorizedReason
  | some token => do
    let user ← AuthService.authenticateToken token
    throwIf (!isTechnician user) unauthorizedReason
    ask (.setTechnician socket { userId := user.id, roles := user.roles })

/-- A socket enters the room of its technician, and a wait later that of all of
    them. -/
def handleConnection (client : SocketId) : Service Unit := do
  let context : Option TechnicianSocketContext ← ask (.technician client)
  match context with
  | none => ask (.disconnect client)
  | some context => do
    ask (.joinRoom client (technicianRoom context.userId))
    Prog.pause
    ask (.joinRoom client allTechniciansRoom)
    Prog.pause

/-- A socket comes in, goes through the middleware, and is connected or
    turned away, for whatever reason. -/
def connection (socket : SocketId) (auth : List (String × Json)) : Service Unit := do
  ask (.open socket)
  let accepted : Bool ← Prog.onError ((fun _ => true) <$> authenticate socket auth)
    (fun _ => .ret false)
  Prog.pause
  if accepted = true then do
    let present : Bool ← ask (.next socket)
    if present = true then handleConnection socket else return ()
  else ask (.refuse socket)

end TechniciansGateway

/-! ## The console -/

/-- The first administrator, if there is none. -/
def bootstrapAdmin (host : Host) (credentials : BootstrapAdminCredentials) :
    Service BootstrapAdminResult := do
  let email := BootstrapAdmin.normalizeEmail host credentials.email
  let admins : Nat ← statement .countAdmins
  if admins > 0 then return .adminAlreadyExists
  else do
    let existingUser : Option Accounts.User ← statement (.findByEmail email)
    if existingUser.isSome then return .emailBelongsToNonAdmin email
    else do
      let password : String ← ask (.hashSync credentials.password)
      let saved : Except DriverError Accounts.User ← statement (.save
        { email, password, fullName := credentials.fullName, isActive := true, roles := [.admin] })
      match saved with
      | .error error => .throw (.driver error)
      | .ok _ => return .created email

/-- A new password for an administrator, and nothing else. -/
def resetAdminPassword (host : Host) (credentials : ResetAdminPasswordCredentials) :
    Service ResetAdminPasswordResult := do
  let email := ResetAdminPassword.normalizeEmail host credentials.email
  let user : Option Accounts.User ← statement (.findByEmail email)
  match user with
  | none => return .userNotFound email
  | some user =>
    if user.isAdmin = false then return .userIsNotAdmin email
    else do
      let password : String ← ask (.hashSync credentials.password)
      statement (.setPassword user.id password)
      return .updated user.email user.isActive

/-! ## The system -/

/-- The requests, the sockets, the events, the console, and what administrators
    do in the database. `request` is any other route with `@Auth`. -/
inductive Operation where
  | register (bearer : Option String) (dto : CreateUserDto)
  | login (dto : LoginUserDto)
  | checkStatus (bearer : Option String)
  | request (roles : List ValidRoles) (bearer : Option String)
  | connect (socket : SocketId) (auth : List (String × Json))
  | disconnect (socket : SocketId)
  | afterInit
  | emitToTechnician (technicianId : Uuid) (message : Message)
  | emitToAllTechnicians (message : Message)
  | bootstrapAdmin (credentials : BootstrapAdminCredentials)
  | resetAdminPassword (credentials : ResetAdminPasswordCredentials)
  | setActive (id : Uuid) (isActive : Bool)
  | setRoles (id : Uuid) (roles : List ValidRoles)

/-- What a call returns. -/
inductive Reply where
  | user (response : UserResponse)
  | login (response : LoginResponse)
  | emitted (delivered : Bool)
  | bootstrap (result : BootstrapAdminResult)
  | reset (result : ResetAdminPasswordResult)
  | done
  deriving DecidableEq, Repr

/-- What is done with a call. -/
def handle (host : Host) : Operation → Service Reply
  | .register bearer dto =>
    auth [.admin] bearer (fun _ => Reply.user <$> AuthService.createUser dto)
  | .login dto => Reply.login <$> AuthService.loginUser host dto
  | .checkStatus bearer =>
    auth [] bearer (fun user => Reply.user <$> AuthService.checkAuthStatus user)
  | .request roles bearer => auth roles bearer (fun _ => return .done)
  | .connect socket auth => (fun _ => Reply.done) <$> TechniciansGateway.connection socket auth
  | .disconnect socket => (fun _ => Reply.done) <$> ask (.disconnect socket)
  | .afterInit => (fun _ => Reply.done) <$> TechnicianRealtimeService.bind
  | .emitToTechnician technicianId message =>
    Reply.emitted <$> TechnicianRealtimeService.emitToTechnician technicianId message
  | .emitToAllTechnicians message =>
    Reply.emitted <$> TechnicianRealtimeService.emitToAllTechnicians message
  | .bootstrapAdmin credentials =>
    Reply.bootstrap <$> Technicians.bootstrapAdmin host credentials
  | .resetAdminPassword credentials =>
    Reply.reset <$> Technicians.resetAdminPassword host credentials
  | .setActive id isActive => (fun _ => Reply.done) <$> ask (.setActive id isActive)
  | .setRoles id roles => (fun _ => Reply.done) <$> ask (.setRoles id roles)

/-- A system of calls. -/
abbrev Calls := System Op Resp Thrown Reply World CallId

/-- Nothing has happened, and there are no users. -/
def boot (host : Host) (calls : CallId → Operation) : Calls :=
  System.start World.init (fun c => handle host (calls c))

/-- A system that some run leads to. -/
def Reachable (host : Host) (jwt : Jwt) (calls : CallId → Operation) (sys : Calls) : Prop :=
  Run (exec host jwt) anyTurn (boot host calls) sys

end RemoteControl.Technicians

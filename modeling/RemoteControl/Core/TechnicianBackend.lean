import RemoteControl.Concurrency.Interleave
import RemoteControl.Core.Accounts

/-!
# The Backend of the Technicians

What the accounts and the sockets of the technicians rest on: the rows of the
users, the tokens of the users, and the namespace of the technicians with its
sockets and rooms.

A token is verified against a secret and a clock, and what it says is no more
than the identifier of a user. Everything else about the user is read from the
table, by a statement of its own.

A socket comes in with what the client sent in its handshake, and waits for
the middleware of the namespace. The middleware stores an identity on it and
lets it in, or turns it away. A socket that is gone, for whatever reason, has
left all its rooms and enters no room afterwards.

The history in `World.log` is only for the proofs. An entry is an operation
with its answer and its time, and the state is what the operations of the
history have led to (`replay`), from a database without users.

The accounts are those of `Core.Accounts`, with the same table. There a call
is a function of the table; here it is a program, whose statements take turns
with those of others, and the functions say what a statement does.

## Main definitions

* `Jwt`: Signing and verifying.
* `SelectedUser`: A user without the password.
* `TechnicianSocketContext`, `Socket`, `State`: The sockets, the rooms and the
  rows.
* `Op`, `Resp`, `exec`: The operations, their answers and their effects.
* `Entry`, `replay`: The history.
* `Jwt.VerifiesSigned`, `Jwt.AcceptsSigned`: What the library promises about a
  token.
* `Unexpired`: When a token is still accepted.
-/

namespace RemoteControl.Technicians

open Concurrency Accounts

/-! ## Tokens -/

/-- The tokens of the users: the identifier of a user, signed with the secret
    of the service, and what a token is found to say at some time. -/
structure Jwt where
  sign : Uuid → Timestamp → String
  verify : String → Timestamp → Option Uuid

/-- Two hours, in seconds. -/
def jwtExpiresIn : Nat := 7200

/-- A token that was signed at the one time is not two hours old at the other.
    The library counts both in whole seconds. -/
def Unexpired (iat now : Timestamp) : Prop := now / 1000 < iat / 1000 + jwtExpiresIn

instance (iat now : Timestamp) : Decidable (Unexpired iat now) :=
  inferInstanceAs (Decidable (now / 1000 < iat / 1000 + jwtExpiresIn))

/-- A token that was signed is verified for whom it was signed for and for
    nobody else, and not when it has expired. -/
def Jwt.VerifiesSigned (jwt : Jwt) : Prop :=
  ∀ id id' iat now, jwt.verify (jwt.sign id iat) now = some id' → id' = id ∧ Unexpired iat now

/-- A token that was signed is verified until it expires. -/
def Jwt.AcceptsSigned (jwt : Jwt) : Prop :=
  ∀ id iat now, Unexpired iat now → jwt.verify (jwt.sign id iat) now = some id

/-! ## Users -/

/-- The columns of a user that a query selects by itself. -/
structure SelectedUser where
  id : Uuid
  email : String
  fullName : String
  isActive : Bool
  roles : List ValidRoles
  createdAt : Timestamp
  updatedAt : Timestamp
  deriving DecidableEq, Repr

/-- A user that was read, without the password. -/
def SelectedUser.ofRow (u : Accounts.User) : SelectedUser :=
  { id := u.id, email := u.email, fullName := u.fullName, isActive := u.isActive, roles := u.roles
    createdAt := u.createdAt, updatedAt := u.updatedAt }

/-- A new user. The database adds the rest. -/
structure UserDraft where
  email : String
  password : String
  fullName : String
  isActive : Bool
  roles : List ValidRoles
  deriving DecidableEq, Repr

/-- The row the database makes of it. -/
def UserDraft.toRow (d : UserDraft) (id : Uuid) (now : Timestamp) : Accounts.User :=
  { id, email := d.email, password := d.password, fullName := d.fullName, isActive := d.isActive
    roles := d.roles, createdAt := now, updatedAt := now }

/-- The rows with one more. -/
def insertRow (t : UserTable) (u : Accounts.User) : UserTable :=
  match t.insert u with
  | .ok t' => t'
  | .error _ => t

/-- `SELECT ... WHERE id = ...`. -/
def findById (t : UserTable) (id : Uuid) : Option Accounts.User :=
  t.rows.find? (fun u => decide (u.id = id))

/-- Roles are changed by administrators, in the database. -/
def setRoles (t : UserTable) (id : Uuid) (roles : List ValidRoles) : UserTable :=
  t.update id (fun u => { u with roles }) (fun _ => ⟨rfl, rfl⟩)

/-! ## Sockets -/

/-- The name of a socket. -/
abbrev SocketId := Nat

/-- The identity that is stored on a socket. -/
structure TechnicianSocketContext where
  userId : Uuid
  roles : List ValidRoles
  deriving DecidableEq, Repr

/-- Where a socket is on its way: before the middleware, let in, or gone. -/
inductive Phase where
  | connecting
  | connected
  | closed
  deriving DecidableEq, Repr

/-- A socket, with the identity that was stored on it. -/
structure Socket where
  technician : Option TechnicianSocketContext
  phase : Phase
  deriving DecidableEq, Repr

/-- The rows, the sockets, the rooms, and whether there is a namespace. -/
structure State where
  users : UserTable
  sockets : SocketId → Option Socket
  rooms : String → List SocketId
  bound : Bool

namespace State

/-- No user, no socket, and no namespace. -/
def init : State :=
  { users := UserTable.empty, sockets := fun _ => none, rooms := fun _ => [], bound := false }

/-- The other sockets stay. -/
def setSocket (s : State) (id : SocketId) (socket : Socket) : State :=
  { s with sockets := Function.update s.sockets id (some socket) }

/-- The sockets and the rooms stay. -/
def setUsers (s : State) (t : UserTable) : State := { s with users := t }

/-- What is stored on a socket. -/
def technician (s : State) (id : SocketId) : Option TechnicianSocketContext :=
  (s.sockets id).bind Socket.technician

/-- The socket is there, in this phase. -/
def isIn (s : State) (id : SocketId) (phase : Phase) : Bool :=
  (s.sockets id).any (fun socket => decide (socket.phase = phase))

/-- The socket is gone, and in no room. -/
def close (s : State) (id : SocketId) : State :=
  match s.sockets id with
  | none => s
  | some socket => { s.setSocket id { socket with phase := .closed } with
    rooms := fun room => (s.rooms room).filter (fun m => decide (m ≠ id)) }

/-- The socket enters a room, if it is connected. Entering again is nothing. -/
def join (s : State) (id : SocketId) (room : String) : State :=
  if s.isIn id .connected = true ∧ id ∉ s.rooms room then
    { s with rooms := Function.update s.rooms room (s.rooms room ++ [id]) }
  else s

end State

/-! ## Operations -/

/-- What a program asks for. `authorized` stands where the guards have let a
    request through. The last two are what administrators do in the
    database. -/
inductive Op where
  | verify (token : String)
  | sign (id : Uuid)
  | hashSync (password : String)
  | findOneBy (id : Uuid)
  | findByEmail (email : String)
  | countAdmins
  | save (user : UserDraft)
  | setPassword (id : Uuid) (password : String)
  | authorized (user : SelectedUser)
  | open (socket : SocketId)
  | setTechnician (socket : SocketId) (technician : TechnicianSocketContext)
  | technician (socket : SocketId)
  | next (socket : SocketId)
  | refuse (socket : SocketId)
  | joinRoom (socket : SocketId) (room : String)
  | disconnect (socket : SocketId)
  | isBound
  | bind
  | emit (room : String) (message : Message)
  | setActive (id : Uuid) (isActive : Bool)
  | setRoles (id : Uuid) (roles : List ValidRoles)
  deriving DecidableEq, Repr

/-- `next` says whether the client is still there. -/
def Resp : Op → Type
  | .verify _ => Option Uuid
  | .sign _ => String
  | .hashSync _ => String
  | .findOneBy _ => Option SelectedUser
  | .findByEmail _ => Option Accounts.User
  | .countAdmins => Nat
  | .save _ => Except DriverError Accounts.User
  | .technician _ => Option TechnicianSocketContext
  | .next _ => Bool
  | .isBound => Bool
  | _ => Unit

/-- What the surroundings decide during a turn: how far the clock has moved,
    and what the database and bcrypt generate. -/
structure Env where
  tick : Nat
  newId : Uuid
  salt : Nat

section Operations

variable (host : Host) (jwt : Jwt)

/-- The row that a new user is saved as, or the violated constraint. -/
def saved (s : State) (draft : UserDraft) (id : Uuid) (now : Timestamp) :
    Except DriverError Accounts.User :=
  match s.users.save host (draft.toRow id now) with
  | .ok _ => .ok ((draft.toRow id now).checkFieldsBeforeInsert host)
  | .error error => .error error

/-- What an operation is answered with at this time. -/
def answer (env : Env) (now : Timestamp) (s : State) : (o : Op) → Resp o
  | .verify token => jwt.verify token now
  | .sign id => jwt.sign id now
  | .hashSync password => hashPassword host password env.salt
  | .findOneBy id => (findById s.users id).map SelectedUser.ofRow
  | .findByEmail email => s.users.findByEmail email
  | .countAdmins => s.users.countAdmins
  | .save draft => saved host s draft env.newId now
  | .technician socket => s.technician socket
  | .next socket => s.isIn socket .connecting
  | .isBound => s.bound
  | .setPassword _ _ => ()
  | .authorized _ => ()
  | .open _ => ()
  | .setTechnician _ _ => ()
  | .refuse _ => ()
  | .joinRoom _ _ => ()
  | .disconnect _ => ()
  | .bind => ()
  | .emit _ _ => ()
  | .setActive _ _ => ()
  | .setRoles _ _ => ()

/-- What an operation does, given its answer. -/
def effect (s : State) : (o : Op) → Resp o → State
  | .save _, (r : Except DriverError Accounts.User) => match r with
    | .ok user => s.setUsers (insertRow s.users user)
    | .error _ => s
  | .setPassword id password, _ => s.setUsers (s.users.setPassword id password)
  | .setActive id isActive, _ => s.setUsers (s.users.setActive id isActive)
  | .setRoles id roles, _ => s.setUsers (setRoles s.users id roles)
  | .open id, _ => s.setSocket id { technician := none, phase := .connecting }
  | .setTechnician id technician, _ => match s.sockets id with
    | none => s
    | some socket => s.setSocket id { socket with technician := some technician }
  | .next id, _ => match s.sockets id with
    | none => s
    | some socket =>
      if socket.phase = .connecting then s.setSocket id { socket with phase := .connected } else s
  | .refuse id, _ => s.close id
  | .joinRoom id room, _ => s.join id room
  | .disconnect id, _ => s.close id
  | .bind, _ => { s with bound := true }
  | _, _ => s

/-- Whether the operation can happen: a new socket has a new identifier and a
    namespace to be in, and a socket that goes away was there. -/
def enabled (s : State) : Op → Bool
  | .open id => (s.sockets id).isNone && s.bound
  | .disconnect id => s.isIn id .connecting || s.isIn id .connected
  | _ => true

end Operations

/-! ## History -/

/-- An operation with its answer, when it was and in which call. -/
structure Entry where
  call : CallId
  time : Timestamp
  op : Op
  resp : Resp op

/-- The state that the operations of a history lead to. -/
def replay : List Entry → State
  | [] => State.init
  | e :: l => effect (replay l) e.op e.resp

/-- The state, the clock, and how it has come about. -/
structure World where
  state : State
  clock : Timestamp
  log : List Entry

def World.init : World := { state := State.init, clock := 0, log := [] }

/-- What an operation of call `c` answers and does, in a turn taken with
    `env`. -/
def exec (host : Host) (jwt : Jwt) (c : CallId) (env : Env) (o : Op) (w : World) :
    Option (Resp o × World) :=
  if enabled w.state o then
    some (answer host jwt env (w.clock + env.tick) w.state o,
      { state := effect w.state o (answer host jwt env (w.clock + env.tick) w.state o)
        clock := w.clock + env.tick
        log := ⟨c, w.clock + env.tick, o, answer host jwt env (w.clock + env.tick) w.state o⟩ ::
          w.log })
  else none

/-! ## Programs -/

/-- What is thrown: an exception of the API, an error of the driver, or any
    other. -/
inductive Thrown where
  | http (e : HttpException)
  | driver (e : DriverError)
  | error (message : String)
  deriving DecidableEq, Repr

/-- A program of the service, or of a console command. -/
abbrev Service (α : Type) := Prog Op Resp Thrown α

/-- A statement, or anything else that is waited for: the call waits for the
    answer, and then for its turn to go on with it. -/
def statement (o : Op) : Service (Resp o) := .await (.op o (fun r => .await (.ret r)))

/-- What is answered at once, without a wait. -/
def ask (o : Op) : Service (Resp o) := Prog.request o

/-- Throw unless the check fails to find a reason to. -/
def throwIf (reason : Bool) (e : Thrown) : Service Unit :=
  if reason then .throw e else .ret ()

end RemoteControl.Technicians

import RemoteControl.Concurrency.Interleave
import RemoteControl.Core.Entities
import RemoteControl.Encoding.Json
import RemoteControl.Encoding.Letters

/-!
# The Backend of the Signaling

What the signaling asks of its surroundings: the rows of the remote sessions,
which it only reads, and the two namespaces of Socket.IO with their sockets
and rooms.

A socket belongs to one namespace. It carries what the server has stored on it
(`socket.data`): the identity that came with its token, and the session it has
joined. The rooms of the two namespaces are separate, even when they have the
same name. A socket that disconnects leaves all its rooms at once, and enters
no room afterwards, but its data stays.

The identifier of a session is a string here, because it comes from the client
and goes into the name of a room. The database compares identifiers without
regard to case and returns them in lower case.

The history in `World.log` is only for the proofs. An entry is an operation
with its answer, and the state is what the operations of the history have led
to (`replay`).

A commit of a session is an operation of nobody in particular here: any row
may be committed that a session can become (`mayCommit`). So a result about
the signaling holds whatever the lifecycle does, and `Core.Together` connects
the two.

## Main definitions

* `SignalingParticipant`, `SignalingIdentity`: The two ends.
* `RemoteSessionRow`: A session, as far as the signaling reads it.
* `Socket`, `State`: The sockets, the rooms and the rows.
* `Op`, `Resp`, `exec`: The operations, their answers and their effects.
* `Entry`, `replay`: The history.
* `State.findJoinable`: The query for a session that may be joined.
* `mayCommit`: What a session can become.
-/

namespace RemoteControl.Signaling

open Concurrency Encoding

/-! ## Participants and sessions -/

/-- A side, with a namespace of its own. -/
inductive SignalingParticipant where
  | device
  | technician
  deriving DecidableEq, Repr

/-- The other side. -/
def peerOf : SignalingParticipant → SignalingParticipant
  | .device => .technician
  | .technician => .device

/-- The authenticated identity of an end: a device or a user. -/
structure SignalingIdentity where
  participant : SignalingParticipant
  id : Uuid
  deriving DecidableEq, Repr

/-- The columns of a remote session that the signaling selects. -/
structure RemoteSessionRow where
  id : String
  deviceId : Uuid
  technicianId : Uuid
  status : RemoteSessionStatus
  deriving DecidableEq, Repr

/-- The owner of the session on a side. -/
def RemoteSessionRow.owner (s : RemoteSessionRow) : SignalingParticipant → Uuid
  | .device => s.deviceId
  | .technician => s.technicianId

/-- The session can be joined. -/
def RemoteSessionRow.isLive (s : RemoteSessionRow) : Bool :=
  decide (s.status ∈ activeRemoteSessionStatuses)

/-- The spelling of an identifier that the database returns. -/
def canonical (id : String) : String := LowerCase.ascii.toLocaleLowerCase id

/-- The name of the room of a session, in either namespace. -/
def remoteSessionRoom (remoteSessionId : String) : String := "remote-session:" ++ remoteSessionId

/-! ## Acknowledgements -/

/-- Why a message was rejected. -/
inductive SignalingErrorCode where
  | invalidPayload
  | notJoined
  | unauthorized
  | unavailable
  deriving DecidableEq, Repr

instance : ToString SignalingErrorCode where
  toString
    | .invalidPayload => "INVALID_PAYLOAD"
    | .notJoined => "NOT_JOINED"
    | .unauthorized => "UNAUTHORIZED"
    | .unavailable => "UNAVAILABLE"

/-- The answer to a join. -/
inductive JoinRemoteSessionAck where
  | joined (remoteSessionId : String) (peerJoined : Bool)
  | joinRejected (error : SignalingErrorCode)
  deriving DecidableEq, Repr

/-- The answer to a message that was to be relayed. -/
inductive SignalingRelayAck where
  | delivered (remoteSessionId : String)
  | relayRejected (error : SignalingErrorCode)
  deriving DecidableEq, Repr

/-- What a message is answered with. A connection is not answered. -/
inductive Response where
  | join (ack : JoinRemoteSessionAck)
  | relay (ack : SignalingRelayAck)
  | done
  deriving DecidableEq, Repr

/-! ## Events -/

def remoteSessionPeerJoinedEvent : String := "remote-session:peer-joined"

def webrtcOfferEvent : String := "webrtc:offer"

def webrtcAnswerEvent : String := "webrtc:answer"

def webrtcIceCandidateEvent : String := "webrtc:ice-candidate"

/-- An offer or an answer as it is relayed, with the side it comes from. -/
structure WebrtcSdpPayload where
  remoteSessionId : String
  sender : SignalingParticipant
  sdp : String
  deriving DecidableEq, Repr

/-- A candidate as it is relayed, with the side it comes from. -/
structure WebrtcIceCandidatePayload where
  remoteSessionId : String
  sender : SignalingParticipant
  candidate : String
  sdpMid : Option String
  sdpMLineIndex : Option Nat
  deriving DecidableEq, Repr

/-- What an event carries. -/
inductive Payload where
  | peerJoined (remoteSessionId : String)
  | sdp (payload : WebrtcSdpPayload)
  | iceCandidate (payload : WebrtcIceCandidatePayload)
  deriving DecidableEq, Repr

/-- The session that an event is about. -/
def Payload.remoteSessionId : Payload → String
  | .peerJoined id => id
  | .sdp p => p.remoteSessionId
  | .iceCandidate p => p.remoteSessionId

/-- The field `from` of a relayed message. -/
def Payload.sender : Payload → Option SignalingParticipant
  | .peerJoined _ => none
  | .sdp p => some p.sender
  | .iceCandidate p => some p.sender

/-! ## State -/

/-- The name of a socket. -/
abbrev SocketId := Nat

/-- The name of a message, or of whatever else happens. -/
abbrev MessageId := Nat

/-- A socket with what is stored on it. `context` is the device or the user of
    the token, and `remoteSessionId` the session it has joined. -/
structure Socket where
  participant : SignalingParticipant
  context : Option Uuid
  connected : Bool
  remoteSessionId : Option String
  deriving DecidableEq, Repr

/-- The committed rows, the sockets, the rooms of each namespace with their
    members, and which namespaces are there. -/
structure State where
  sessions : String → Option RemoteSessionRow
  sockets : SocketId → Option Socket
  rooms : SignalingParticipant → String → List SocketId
  bound : SignalingParticipant → Bool

namespace State

/-- No session, no socket, and no namespace. -/
def init : State :=
  { sessions := fun _ => none, sockets := fun _ => none, rooms := fun _ _ => []
    bound := fun _ => false }

/-- The other sockets stay. -/
def setSocket (s : State) (id : SocketId) (socket : Socket) : State :=
  { s with sockets := Function.update s.sockets id (some socket) }

/-- The other rooms stay, and so does the room of the same name in the other
    namespace. -/
def setRoom (s : State) (p : SignalingParticipant) (room : String) (members : List SocketId) :
    State :=
  { s with rooms := Function.update s.rooms p (Function.update (s.rooms p) room members) }

/-- The identity of a socket, the namespace being the side. -/
def identityOf (s : State) (id : SocketId) : Option SignalingIdentity :=
  match s.sockets id with
  | none => none
  | some socket => socket.context.map (fun owner => ⟨socket.participant, owner⟩)

/-- The session that is stored on a socket. -/
def remoteSessionId (s : State) (id : SocketId) : Option String :=
  (s.sockets id).bind Socket.remoteSessionId

/-- The socket is there and not gone yet. -/
def isConnected (s : State) (id : SocketId) : Bool := (s.sockets id).any Socket.connected

/-- The live session of this owner, whatever the spelling of its identifier. -/
def findJoinable (s : State) (id : String) (identity : SignalingIdentity) :
    Option RemoteSessionRow :=
  (s.sessions (canonical id)).filter
    (fun row => decide (row.owner identity.participant = identity.id) && row.isLive)

end State

/-- The row may take the place of what there was: a new session is not closed,
    and an old one keeps its owners and is not opened again. -/
def mayCommit (old : Option RemoteSessionRow) (row : RemoteSessionRow) : Bool :=
  decide (canonical row.id = row.id) && match old with
    | none => row.isLive
    | some old => decide (old.deviceId = row.deviceId) &&
      decide (old.technicianId = row.technicianId) && (old.isLive || !row.isLive)

/-! ## Operations -/

/-- What a program asks for. `receive` and `ack` stand where a message comes
    in and where it is answered. The last four are what happens outside of the
    signaling. -/
inductive Op where
  | receive (socket : SocketId)
  | ack (response : Response)
  | identityOf (socket : SocketId)
  | remoteSessionId (socket : SocketId)
  | setRemoteSessionId (socket : SocketId) (remoteSessionId : Option String)
  | joinRoom (socket : SocketId) (room : String)
  | leaveRoom (socket : SocketId) (room : String)
  | isBound (participant : SignalingParticipant)
  | fetchSockets (participant : SignalingParticipant) (room : String)
  | findJoinable (remoteSessionId : String) (identity : SignalingIdentity)
  | emit (participant : SignalingParticipant) (room : String) (event : String) (payload : Payload)
  | connect (socket : SocketId) (participant : SignalingParticipant) (context : Option Uuid)
  | disconnect (socket : SocketId)
  | bind (participant : SignalingParticipant)
  | commit (row : RemoteSessionRow)
  deriving DecidableEq, Repr

/-- `fetchSockets` may fail, and has no answer then. -/
def Resp : Op → Type
  | .identityOf _ => Option SignalingIdentity
  | .remoteSessionId _ => Option String
  | .isBound _ => Bool
  | .fetchSockets _ _ => Option (List SocketId)
  | .findJoinable _ _ => Option RemoteSessionRow
  | _ => Unit

/-- What the surroundings decide during a turn: whether the query of a room
    fails. -/
structure Env where
  fetchFails : Bool

/-- What an operation is answered with. -/
def answer (env : Env) (s : State) : (o : Op) → Resp o
  | .identityOf socket => s.identityOf socket
  | .remoteSessionId socket => s.remoteSessionId socket
  | .isBound p => s.bound p
  | .fetchSockets p room => if env.fetchFails then none else some (s.rooms p room)
  | .findJoinable id identity => s.findJoinable id identity
  | .receive _ => ()
  | .ack _ => ()
  | .setRemoteSessionId _ _ => ()
  | .joinRoom _ _ => ()
  | .leaveRoom _ _ => ()
  | .emit _ _ _ _ => ()
  | .connect _ _ _ => ()
  | .disconnect _ => ()
  | .bind _ => ()
  | .commit _ => ()

/-- The room with one more member. -/
def added (members : List SocketId) (id : SocketId) : List SocketId :=
  if id ∈ members then members else members ++ [id]

/-- The room with one member less. -/
def removed (members : List SocketId) (id : SocketId) : List SocketId :=
  members.filter (fun m => decide (m ≠ id))

/-- What an operation does. A socket that is gone enters no room, but its data can
    be written. -/
def effect (s : State) : Op → State
  | .setRemoteSessionId id remoteSessionId => match s.sockets id with
    | none => s
    | some socket => s.setSocket id { socket with remoteSessionId }
  | .joinRoom id room => match s.sockets id with
    | none => s
    | some socket =>
      if socket.connected then
        s.setRoom socket.participant room (added (s.rooms socket.participant room) id)
      else s
  | .leaveRoom id room => match s.sockets id with
    | none => s
    | some socket =>
      s.setRoom socket.participant room (removed (s.rooms socket.participant room) id)
  | .connect id participant context =>
    s.setSocket id { participant, context, connected := true, remoteSessionId := none }
  | .disconnect id => match s.sockets id with
    | none => s
    | some socket => { s.setSocket id { socket with connected := false } with
      rooms := Function.update s.rooms socket.participant
        (fun room => removed (s.rooms socket.participant room) id) }
  | .bind p => { s with bound := Function.update s.bound p true }
  | .commit row => { s with sessions := Function.update s.sessions row.id (some row) }
  | _ => s

/-- Whether the operation can happen: a message comes from a socket that is
    connected, a new socket has a new identifier and a namespace to be in, and
    rows change as sessions do. -/
def enabled (s : State) : Op → Bool
  | .receive id => s.isConnected id
  | .connect id participant _ => (s.sockets id).isNone && s.bound participant
  | .disconnect id => s.isConnected id
  | .commit row => mayCommit (s.sessions row.id) row
  | _ => true

/-! ## History -/

/-- An operation with its answer, and the message it belongs to. -/
structure Entry where
  message : MessageId
  op : Op
  resp : Resp op

/-- The state that the operations of a history lead to. -/
def replay : List Entry → State
  | [] => State.init
  | e :: l => effect (replay l) e.op

/-- The state and how it has come about. -/
structure World where
  state : State
  log : List Entry

def World.init : World := { state := State.init, log := [] }

/-- What an operation of message `m` answers and does, in a turn taken with
    `env`. -/
def exec (m : MessageId) (env : Env) (o : Op) (w : World) : Option (Resp o × World) :=
  if enabled w.state o then
    some (answer env w.state o,
      { state := effect w.state o, log := ⟨m, o, answer env w.state o⟩ :: w.log })
  else none

/-! ## Programs -/

/-- A program of the signaling. None of them throws. -/
abbrev Service (α : Type) := Prog Op Resp Empty α

/-- A query of the database: the handler waits for it, and then for its turn
    to go on with the answer. -/
def statement (o : Op) : Service (Resp o) := .await (.op o (fun r => .await (.ret r)))

/-- What is answered at once, without a wait. -/
def ask (o : Op) : Service (Resp o) := Prog.request o

end RemoteControl.Signaling

import RemoteControl.Core.SignalingBackend

/-!
# The Signaling

The service that lets the two ends of a remote session find each other, and
the parts of the two gateways that call it. A socket joins a session, which
puts it into the room of the session in its own namespace. From then on its
offers, answers and candidates are relayed to the room of the same name in the
other namespace.

A join looks whether its own side is in the room, enters, looks whether the
other side is there, and announces itself to the other side if it is and the
own side was not there before. A relay looks whether the socket has joined
that session, and asks the database again whether the session is still live.

The checks of the payloads belong to a library. `Validator` stands for what
the library decides about a single string, and for the fields that it does not
copy out of a payload.

An `await` that directly follows another one is not written twice. Nothing
that happens between the two depends on it.

The checks of the source have no order of their own: a payload passes all of
them or is rejected, and the acknowledgement says only that. So each DTO is
read off the copied fields in one go (`ofFields`), and a failed check is
`none`.

## Main definitions

* `JoinRemoteSessionDto`, `WebrtcSdpDto`, `WebrtcIceCandidateDto`: The
  payloads that pass the checks.
* `SignalingRealtimeService`, `SignalingService`: The services.
* `Operation`, `handle`: The messages, and what else happens to the sockets.
* `boot`, `Reachable`: The interleaved system, and where its runs lead.
* `Validator`: What the library decides about a payload.
* `join`, `relay`, `authorizeRelay`: The methods of the service.
-/

namespace RemoteControl.Signaling

open Concurrency Encoding

/-! ## Payloads -/

/-- The names that some payload has a field of. -/
def declaredNames : List String :=
  ["remoteSessionId", "sdp", "candidate", "sdpMid", "sdpMLineIndex"]

/-- What the library says of a string: whether it is a UUID, and the length
    that the bounds are about. Not every field of a payload is copied for the
    checks: a name that every object has anyway, `constructor` or `toString`, is
    skipped, so a field of that name is not refused as one too many. None of the
    declared names is skipped. -/
structure Validator where
  isUUID : String → Bool
  length : String → Nat
  isSkipped : String → Bool
  notSkipped : ∀ name ∈ declaredNames, isSkipped name = false

namespace Validator

variable (v : Validator)

/-- `@IsUUID()`. -/
def uuid (value : Json) : Option String := value.asString.filter v.isUUID

/-- `@IsString()` with bounds on its length. -/
def text (least greatest : Nat) (value : Json) : Option String :=
  value.asString.filter (fun s => decide (least ≤ v.length s ∧ v.length s ≤ greatest))

end Validator

/-- A check that is left out for null. -/
def isOptional {α : Type} (check : Json → Option α) : Json → Option (Option α)
  | .null => some none
  | value => (check value).map some

structure JoinRemoteSessionDto where
  remoteSessionId : String
  deriving DecidableEq, Repr

namespace JoinRemoteSessionDto

/-- The fields that the payload may have. -/
def names : List String := ["remoteSessionId"]

def ofFields (v : Validator) (fields : List (String × Json)) : Option JoinRemoteSessionDto := do
  let remoteSessionId ← v.uuid (field fields "remoteSessionId")
  return { remoteSessionId }

end JoinRemoteSessionDto

/-- The longest description that is relayed. -/
def maxSdpLength : Nat := 32768

/-- An offer or an answer. -/
structure WebrtcSdpDto where
  remoteSessionId : String
  sdp : String
  deriving DecidableEq, Repr

namespace WebrtcSdpDto

def names : List String := ["remoteSessionId", "sdp"]

def ofFields (v : Validator) (fields : List (String × Json)) : Option WebrtcSdpDto := do
  let remoteSessionId ← v.uuid (field fields "remoteSessionId")
  let sdp ← v.text 1 maxSdpLength (field fields "sdp")
  return { remoteSessionId, sdp }

end WebrtcSdpDto

/-- The longest candidate that is relayed. -/
def maxIceCandidateLength : Nat := 1024

def maxSdpMidLength : Nat := 64

def maxSdpMLineIndex : Nat := 255

/-- A candidate. The two optional fields may be null. -/
structure WebrtcIceCandidateDto where
  remoteSessionId : String
  candidate : String
  sdpMid : Option String
  sdpMLineIndex : Option Nat
  deriving DecidableEq, Repr

namespace WebrtcIceCandidateDto

def names : List String := ["remoteSessionId", "candidate", "sdpMid", "sdpMLineIndex"]

def ofFields (v : Validator) (fields : List (String × Json)) : Option WebrtcIceCandidateDto := do
  let remoteSessionId ← v.uuid (field fields "remoteSessionId")
  let candidate ← v.text 0 maxIceCandidateLength (field fields "candidate")
  let sdpMid ← isOptional (v.text 0 maxSdpMidLength) (field fields "sdpMid")
  let sdpMLineIndex ← isOptional (Json.asIntWithin 0 maxSdpMLineIndex)
    (field fields "sdpMLineIndex")
  return { remoteSessionId, candidate, sdpMid, sdpMLineIndex }

end WebrtcIceCandidateDto

/-- The fields of the payload that are copied, if it is an object. -/
def plainToInstance (v : Validator) (payload : Json) : Option (List (String × Json)) :=
  payload.fields.map (List.filter (fun f => !v.isSkipped f.1))

/-- The fields that were copied, if there are no others than these. -/
def whitelisted (v : Validator) (names : List String) (payload : Json) :
    Option (List (String × Json)) :=
  (plainToInstance v payload).filter (fun fields => onlyHas fields names)

/-! ## The namespaces -/

namespace SignalingRealtimeService

/-- At least one socket of this side is in the room of the session. It is not
    when nobody can tell. -/
def hasParticipantInSession (participant : SignalingParticipant) (remoteSessionId : String) :
    Service Bool := do
  let target : Bool ← ask (.isBound participant)
  if target = true then do
    let sockets : Option (List SocketId) ←
      ask (.fetchSockets participant (remoteSessionRoom remoteSessionId))
    Prog.pause
    return sockets.any (fun members => !members.isEmpty)
  else do
    Prog.pause
    return false

/-- The event goes to the room of the session on this side, and reaches whoever is
    in it. Without a namespace it goes nowhere. -/
def emitToParticipantSession (participant : SignalingParticipant) (remoteSessionId event : String)
    (payload : Payload) : Service Bool := do
  let target : Bool ← ask (.isBound participant)
  if target = true then do
    ask (.emit participant (remoteSessionRoom remoteSessionId) event payload)
    return true
  else return false

end SignalingRealtimeService

/-! ## The service -/

namespace SignalingService

open SignalingRealtimeService

variable (v : Validator)

/-- The payload, if it passes the checks. The library is asynchronous, so the
    handler waits for it. -/
def toDto {T : Type} (names : List String) (ofFields : List (String × Json) → Option T)
    (payload : Json) : Service (Option T) := do
  Prog.pause
  return (whitelisted v names payload).bind ofFields

/-- The socket leaves the session that is stored on it. What is stored is cleared
    before the room is left, and another handler may store something again before
    this one goes on. -/
def leaveCurrentSession (socket : SocketId) : Service Unit := do
  let current : Option String ← ask (.remoteSessionId socket)
  match current with
  | none => Prog.pause
  | some current => do
    ask (.setRemoteSessionId socket none)
    ask (.leaveRoom socket (remoteSessionRoom current))
    Prog.pause

/-- The session, if it is live and belongs to this identity. -/
def findJoinableSession (remoteSessionId : String) (identity : SignalingIdentity) :
    Service (Option RemoteSessionRow) :=
  statement (.findJoinable remoteSessionId identity)

/-- The other side is told that this one has come. -/
def announceToPeer (identity : SignalingIdentity) (remoteSessionId : String) : Service Unit := do
  let _ ← emitToParticipantSession (peerOf identity.participant) remoteSessionId
    remoteSessionPeerJoinedEvent (.peerJoined remoteSessionId)
  return ()

/-- From the authorization of a join to its end. -/
def enterSession (socket : SocketId) (identity : SignalingIdentity)
    (remoteSession : RemoteSessionRow) : Service JoinRemoteSessionAck := do
  let ownSideWasPresent ← hasParticipantInSession identity.participant remoteSession.id
  ask (.joinRoom socket (remoteSessionRoom remoteSession.id))
  Prog.pause
  -- Only now, a wait after the socket has entered, is it stored where it is.
  ask (.setRemoteSessionId socket (some remoteSession.id))
  let peerJoined ← hasParticipantInSession (peerOf identity.participant) remoteSession.id
  if (peerJoined && !ownSideWasPresent) = true then
    announceToPeer identity remoteSession.id
  return .joined remoteSession.id peerJoined

/-- A socket joins a session. A malformed payload is rejected before anything has
    happened; whoever is turned away later has left the session it was in. -/
def join (socket : SocketId) (identity : SignalingIdentity) (payload : Json) :
    Service JoinRemoteSessionAck := do
  let dto ← toDto v JoinRemoteSessionDto.names (JoinRemoteSessionDto.ofFields v) payload
  match dto with
  | none => return .joinRejected .invalidPayload
  | some dto => do
    leaveCurrentSession socket
    let remoteSession ← findJoinableSession dto.remoteSessionId identity
    match remoteSession with
    | none => return .joinRejected .unauthorized
    | some remoteSession => enterSession socket identity remoteSession

/-- Whether a message may be relayed: the socket has joined this very session, as
    it was spelled when it joined, and the session is still live. -/
def authorizeRelay (socket : SocketId) (identity : SignalingIdentity) (remoteSessionId : String) :
    Service (Option SignalingErrorCode) := do
  let current : Option String ← ask (.remoteSessionId socket)
  if current ≠ some remoteSessionId then do
    Prog.pause
    return some .notJoined
  else do
    let remoteSession ← findJoinableSession remoteSessionId identity
    return if remoteSession.isSome then none else some .unauthorized

/-- The message goes to the other side, and the acknowledgement says whether there
    is one. -/
def emitToPeer (identity : SignalingIdentity) (remoteSessionId event : String)
    (payload : Payload) : Service SignalingRelayAck := do
  let delivered ← emitToParticipantSession (peerOf identity.participant) remoteSessionId event
    payload
  return if delivered = true then .delivered remoteSessionId else .relayRejected .unavailable

/-- The relay of a checked payload. -/
def relay {T : Type} (names : List String) (ofFields : List (String × Json) → Option T)
    (idOf : T → String) (event : String) (relayed : T → SignalingParticipant → Payload)
    (socket : SocketId) (identity : SignalingIdentity) (payload : Json) :
    Service SignalingRelayAck := do
  let dto ← toDto v names ofFields payload
  match dto with
  | none => return .relayRejected .invalidPayload
  | some dto => do
    let error ← authorizeRelay socket identity (idOf dto)
    match error with
    | some error => return .relayRejected error
    | none => emitToPeer identity (idOf dto) event (relayed dto identity.participant)

/-- Offers and answers differ in the name of the event alone. -/
def relaySdp (event : String) : SocketId → SignalingIdentity → Json → Service SignalingRelayAck :=
  relay v WebrtcSdpDto.names (WebrtcSdpDto.ofFields v) WebrtcSdpDto.remoteSessionId event
    (fun dto sender => .sdp { remoteSessionId := dto.remoteSessionId, sender, sdp := dto.sdp })

/-- `webrtc:offer`. -/
def relayOffer : SocketId → SignalingIdentity → Json → Service SignalingRelayAck :=
  relaySdp v webrtcOfferEvent

/-- `webrtc:answer`. -/
def relayAnswer : SocketId → SignalingIdentity → Json → Service SignalingRelayAck :=
  relaySdp v webrtcAnswerEvent

/-- `webrtc:ice-candidate`. -/
def relayIceCandidate : SocketId → SignalingIdentity → Json → Service SignalingRelayAck :=
  relay v WebrtcIceCandidateDto.names (WebrtcIceCandidateDto.ofFields v)
    WebrtcIceCandidateDto.remoteSessionId webrtcIceCandidateEvent
    (fun dto sender => .iceCandidate
      { remoteSessionId := dto.remoteSessionId, sender, candidate := dto.candidate
        sdpMid := dto.sdpMid, sdpMLineIndex := dto.sdpMLineIndex })

end SignalingService

/-! ## The gateways -/

/-- A message of a socket that has an identity, or a rejection. -/
def withIdentity (socket : SocketId) (rejected : Response)
    (body : SignalingIdentity → Service Response) : Service Response := do
  let identity : Option SignalingIdentity ← ask (.identityOf socket)
  match identity with
  | none => return rejected
  | some identity => body identity

/-- The gateway's handler for a join. -/
def handleJoinRemoteSession (v : Validator) (client : SocketId) (payload : Json) :
    Service Response :=
  withIdentity client (.join (.joinRejected .unauthorized)) (fun identity =>
    Response.join <$> SignalingService.join v client identity payload)

/-- The gateway's handler for any of the messages that are relayed. -/
def handleRelay (relay : SocketId → SignalingIdentity → Json → Service SignalingRelayAck)
    (client : SocketId) (payload : Json) : Service Response :=
  withIdentity client (.relay (.relayRejected .unauthorized)) (fun identity =>
    Response.relay <$> relay client identity payload)

/-- `webrtc:offer` comes in. -/
def handleOffer (v : Validator) : SocketId → Json → Service Response :=
  handleRelay (SignalingService.relayOffer v)

/-- `webrtc:answer` comes in. -/
def handleAnswer (v : Validator) : SocketId → Json → Service Response :=
  handleRelay (SignalingService.relayAnswer v)

/-- `webrtc:ice-candidate` comes in. -/
def handleIceCandidate (v : Validator) : SocketId → Json → Service Response :=
  handleRelay (SignalingService.relayIceCandidate v)

/-- A socket without an identity is sent away. -/
def handleConnection (client : SocketId) (context : Option Uuid) : Service Unit :=
  match context with
  | none => ask (.disconnect client)
  | some _ => return ()

/-! ## The system -/

/-- The messages of the sockets, and what else happens: sockets come and go,
    a namespace is set up, a session is committed. -/
inductive Operation where
  | join (socket : SocketId) (payload : Json)
  | offer (socket : SocketId) (payload : Json)
  | answer (socket : SocketId) (payload : Json)
  | iceCandidate (socket : SocketId) (payload : Json)
  | connect (socket : SocketId) (participant : SignalingParticipant) (context : Option Uuid)
  | disconnect (socket : SocketId)
  | bind (participant : SignalingParticipant)
  | commit (row : RemoteSessionRow)

/-- A message that comes in, is handled, and is answered. -/
def answered (socket : SocketId) (body : Service Response) : Service Response := do
  ask (.receive socket)
  let response ← body
  ask (.ack response)
  return response

/-- What is done with a message, or what else happens. -/
def handle (v : Validator) : Operation → Service Response
  | .join socket payload => answered socket (handleJoinRemoteSession v socket payload)
  | .offer socket payload => answered socket (handleOffer v socket payload)
  | .answer socket payload => answered socket (handleAnswer v socket payload)
  | .iceCandidate socket payload => answered socket (handleIceCandidate v socket payload)
  | .connect socket participant context => do
    ask (.connect socket participant context)
    handleConnection socket context
    return .done
  | .disconnect socket => (fun _ => Response.done) <$> ask (.disconnect socket)
  | .bind participant => (fun _ => Response.done) <$> ask (.bind participant)
  | .commit row => (fun _ => Response.done) <$> ask (.commit row)

/-- A system of messages. -/
abbrev Messages := System Op Resp Empty Response World MessageId

/-- Nothing has come in, and there are no sockets and no sessions. -/
def boot (v : Validator) (messages : MessageId → Operation) : Messages :=
  System.start World.init (fun m => handle v (messages m))

/-- A system that some run leads to. -/
def Reachable (v : Validator) (messages : MessageId → Operation) (sys : Messages) : Prop :=
  Run exec anyTurn (boot v messages) sys

end RemoteControl.Signaling

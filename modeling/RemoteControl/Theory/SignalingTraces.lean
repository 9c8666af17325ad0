import RemoteControl.Theory.Rooms

/-!
# What a Message has Done

The entries of a message in the history, as the trace of its handler. A
handler of the signaling is short, so its trace is written down entry by
entry. The newest entry comes first.

A join has received the payload and the identity (`received`), has left its
old session (`Left`), was admitted by the database (`Admitted`), has looked at
its own side (`Looked`), has entered, and has looked at the other side
(`Settled`). A relay was received, has found the session on its socket, and
was admitted (`Cleared`).

The order of the entries of one trace is also their order in the history
(`marksOf_append`), so this is what the results about interleaved messages
are read off.

A trace is written as a list of entries with the answers that they were given,
and `InOrder` says for each operation what the trace before it is. Two kinds
of lemmas lead to it. The ones that end in `_along` follow a program of the
source and give the trace that it leaves. `orderly` turns them into a
statement about a history: before every entry in it, its message had done
exactly what the program had done by then. The second half is about segments.
Two operations with no wait between them have nothing of another message
between them either, so `InSegment` says of three operations what comes right
before them in the history itself, and the `unbroken_` lemmas follow the
programs a second time, with the waits in view.

## Main definitions

* `own`: The trace of a message.
* `MayEnter`, `MayRecord`, `MayForget`, `MayLeave`, `MayAnnounce`, `MayRelay`,
  `MayAnswer`: What a message has done before it changes what its socket is in,
  emits, or is answered.
* `InOrder`: All of them together.

## Theorems

* `handle_along`: Every handler keeps to it.
* `orderly`: So does every history.
* `contiguous`: What happens between two waits is not interrupted.
* `Admitted.at`: What the database has said, and of whom.
-/

namespace RemoteControl.Signaling

open Concurrency Encoding SignalingRealtimeService SignalingService

/-- The entries of a message. -/
def own (m : MessageId) (l : List Entry) : List Entry := marksOf Entry.message m l

/-- The entry of an operation with its answer. -/
def entry (m : MessageId) (o : Op) (r : Resp o) : Entry := ⟨m, o, r⟩

/-- An entry determines its answer. -/
theorem entry_inj {m : MessageId} {o : Op} {r r' : Resp o} (h : entry m o r = entry m o r') :
    r = r' := by
  cases h
  rfl

/-- The entry an operation leaves. -/
def Leaves (m : MessageId) (o : Op) (r : Resp o) (e : Entry) : Prop := e = entry m o r

/-! ## The stages of a handler -/

section Stages

variable (m : MessageId) (socket : SocketId) (identity : SignalingIdentity)

/-- The message has come in, from a socket with an identity. -/
def received : List Entry :=
  [entry m (.identityOf socket) (some identity), entry m (.receive socket) ()]

/-- The socket has left the session it was in, if any. -/
inductive Left : List Entry → Prop where
  | nowhere : Left [entry m (.remoteSessionId socket) none]
  | session (id : String) : Left
      [entry m (.leaveRoom socket (remoteSessionRoom id)) (),
        entry m (.setRemoteSessionId socket none) (), entry m (.remoteSessionId socket) (some id)]

/-- The database has found the session of a join. -/
def Admitted (id : String) (row : RemoteSessionRow) (tr : List Entry) : Prop :=
  ∃ left, Left m socket left ∧
    tr = entry m (.findJoinable id identity) (some row) :: (left ++ received m socket identity)

/-- The room of a side was looked at. -/
inductive Looked (p : SignalingParticipant) (id : String) : Bool → List Entry → Prop where
  | unbound : Looked p id false [entry m (.isBound p) false]
  | fetched (found : Option (List SocketId)) :
      Looked p id (found.any (fun members => !members.isEmpty))
        [entry m (.fetchSockets p (remoteSessionRoom id)) found, entry m (.isBound p) true]

/-- The other side was told, or could not be reached. -/
inductive Announced (p : SignalingParticipant) (id : String) : List Entry → Prop where
  | unbound : Announced p id [entry m (.isBound p) false]
  | told : Announced p id
      [entry m (.emit p (remoteSessionRoom id) remoteSessionPeerJoinedEvent (.peerJoined id)) (),
        entry m (.isBound p) true]

/-- The join was admitted and has looked at its own side. -/
def Ready (id : String) (row : RemoteSessionRow) (present : Bool) (tr : List Entry) : Prop :=
  ∃ looked before, Looked m identity.participant row.id present looked ∧
    Admitted m socket identity id row before ∧ tr = looked ++ before

/-- The join has entered, and has looked at the other side. -/
def Settled (id : String) (row : RemoteSessionRow) (present peer : Bool) (tr : List Entry) : Prop :=
  ∃ looked before, Looked m (peerOf identity.participant) row.id peer looked ∧
    Ready m socket identity id row present before ∧
    tr = looked ++ [entry m (.setRemoteSessionId socket (some row.id)) (),
      entry m (.joinRoom socket (remoteSessionRoom row.id)) ()] ++ before

/-- The join has done all it had to do. -/
def Finished (id : String) (row : RemoteSessionRow) (peer : Bool) (tr : List Entry) : Prop :=
  ∃ present announced before, Settled m socket identity id row present peer before ∧
    (if (peer && !present) = true then Announced m (peerOf identity.participant) row.id announced
      else announced = []) ∧
    tr = announced ++ before

/-- A relay has found this session on its socket and live in the database, and
    the other namespace is there. -/
def Cleared (id : String) (row : RemoteSessionRow) (tr : List Entry) : Prop :=
  tr = entry m (.isBound (peerOf identity.participant)) true ::
    entry m (.findJoinable id identity) (some row) ::
    entry m (.remoteSessionId socket) (some id) :: received m socket identity

end Stages

/-- The operation enters no room, emits nothing and is no answer. -/
def Op.isQuiet : Op → Bool
  | .joinRoom _ _ => false
  | .emit _ _ _ _ => false
  | .ack _ => false
  | _ => true

/-- A trace that has neither entered, emitted nor answered. -/
def Silent (tr : List Entry) : Prop := ∀ e ∈ tr, e.op.isQuiet = true

/-! ## What the operations of a message take -/

/-- The session identifier of a payload that passes the checks of a join. -/
def joinId (v : Validator) (payload : Json) : Option String :=
  ((whitelisted v JoinRemoteSessionDto.names payload).bind (JoinRemoteSessionDto.ofFields v)).map
    JoinRemoteSessionDto.remoteSessionId

/-- What is relayed of a message, if its payload passes the checks: the event,
    and the payload that the sender's side is written into. -/
def relayOf (v : Validator) : Operation →
    Option (SocketId × String × (SignalingParticipant → Payload))
  | .offer socket payload =>
    ((whitelisted v WebrtcSdpDto.names payload).bind (WebrtcSdpDto.ofFields v)).map (fun dto =>
      (socket, webrtcOfferEvent, fun sender => .sdp ⟨dto.remoteSessionId, sender, dto.sdp⟩))
  | .answer socket payload =>
    ((whitelisted v WebrtcSdpDto.names payload).bind (WebrtcSdpDto.ofFields v)).map (fun dto =>
      (socket, webrtcAnswerEvent, fun sender => .sdp ⟨dto.remoteSessionId, sender, dto.sdp⟩))
  | .iceCandidate socket payload =>
    ((whitelisted v WebrtcIceCandidateDto.names payload).bind
      (WebrtcIceCandidateDto.ofFields v)).map (fun dto =>
      (socket, webrtcIceCandidateEvent, fun sender => .iceCandidate
        ⟨dto.remoteSessionId, sender, dto.candidate, dto.sdpMid, dto.sdpMLineIndex⟩))
  | _ => none

/-- The session that a message to be relayed names, if its payload passes the
    checks. -/
def relayId (v : Validator) : Operation → Option String
  | .offer _ payload => ((whitelisted v WebrtcSdpDto.names payload).bind
      (WebrtcSdpDto.ofFields v)).map WebrtcSdpDto.remoteSessionId
  | .answer _ payload => ((whitelisted v WebrtcSdpDto.names payload).bind
      (WebrtcSdpDto.ofFields v)).map WebrtcSdpDto.remoteSessionId
  | .iceCandidate _ payload => ((whitelisted v WebrtcIceCandidateDto.names payload).bind
      (WebrtcIceCandidateDto.ofFields v)).map WebrtcIceCandidateDto.remoteSessionId
  | _ => none

/-- A message that is relayed names the session of what is relayed. -/
theorem relayOf_eq_some {v : Validator} {op : Operation} {socket : SocketId} {event : String}
    {relayed : SignalingParticipant → Payload} (h : relayOf v op = some (socket, event, relayed))
    (p : SignalingParticipant) : relayId v op = some (relayed p).remoteSessionId := by
  cases op
  case offer | answer | iceCandidate =>
    simp only [relayOf, Option.map_eq_some_iff, Prod.mk.injEq] at h
    rcases h with ⟨dto, hdto, rfl, rfl, rfl⟩
    rw [relayId, hdto, Option.map_some]
    rfl
  all_goals cases h

/-- A message that is not relayed names none. -/
theorem relayId_eq_none {v : Validator} {op : Operation} (h : relayOf v op = none) :
    relayId v op = none := by
  cases op
  case offer | answer | iceCandidate =>
    simp only [relayOf, Option.map_eq_none_iff] at h
    rw [relayId, h, Option.map_none]
  all_goals rfl

/-- The operation is a message of a socket. -/
def Operation.isMessage : Operation → Bool
  | .join _ _ => true
  | .offer _ _ => true
  | .answer _ _ => true
  | .iceCandidate _ _ => true
  | _ => false

section InOrder

variable (v : Validator) (op : Operation) (m : MessageId) (tr : List Entry)

/-- A join that was admitted and has looked at its own side. -/
def MayEnter (socket : SocketId) (room : String) : Prop :=
  ∃ payload id identity row present, op = .join socket payload ∧ joinId v payload = some id ∧
    Ready m socket identity id row present tr ∧ room = remoteSessionRoom row.id

/-- A join that has entered, and writes down where. -/
def MayRecord (socket : SocketId) (id : String) : Prop :=
  ∃ payload x identity row present before, op = .join socket payload ∧ joinId v payload = some x ∧
    Ready m socket identity x row present before ∧ id = row.id ∧
    tr = entry m (.joinRoom socket (remoteSessionRoom row.id)) () :: before

/-- A join of a socket that is in a session, which it forgets. -/
def MayForget (socket : SocketId) : Prop :=
  ∃ payload x identity id, op = .join socket payload ∧ joinId v payload = some x ∧
    tr = entry m (.remoteSessionId socket) (some id) :: received m socket identity

/-- A join that has forgotten its session, and leaves the room of it. -/
def MayLeave (socket : SocketId) (room : String) : Prop :=
  ∃ payload x identity id, op = .join socket payload ∧ joinId v payload = some x ∧
    room = remoteSessionRoom id ∧
    tr = entry m (.setRemoteSessionId socket none) () ::
      entry m (.remoteSessionId socket) (some id) :: received m socket identity

/-- A join that announces itself. -/
def MayAnnounce (p : SignalingParticipant) (room event : String) (payload : Payload) : Prop :=
  ∃ socket json id identity row before, op = .join socket json ∧ joinId v json = some id ∧
    Settled m socket identity id row false true before ∧
    tr = entry m (.isBound (peerOf identity.participant)) true :: before ∧
    p = peerOf identity.participant ∧ room = remoteSessionRoom row.id ∧
    event = remoteSessionPeerJoinedEvent ∧ payload = .peerJoined row.id

/-- A message that is relayed. -/
def MayRelay (p : SignalingParticipant) (room event : String) (payload : Payload) : Prop :=
  ∃ socket relayed identity row, relayOf v op = some (socket, event, relayed) ∧
    Cleared m socket identity payload.remoteSessionId row tr ∧
    p = peerOf identity.participant ∧ room = remoteSessionRoom payload.remoteSessionId ∧
    payload = relayed identity.participant

/-- A join that was rejected: its socket has no identity, its payload has
    failed the checks, or the database has not found the session. -/
inductive Rejected (socket : SocketId) (payload : Json) : List Entry → Prop where
  | identity : Rejected socket payload
      [entry m (.identityOf socket) none, entry m (.receive socket) ()]
  | payload (identity : SignalingIdentity) (h : joinId v payload = none) :
      Rejected socket payload (received m socket identity)
  | session (identity : SignalingIdentity) (x : String) (left : List Entry)
      (h : joinId v payload = some x) (hleft : Left m socket left) : Rejected socket payload
      (entry m (.findJoinable x identity) none :: (left ++ received m socket identity))

/-- A relay that has emitted what it had to. -/
def Delivered (id : String) : Prop :=
  ∃ socket event relayed identity row before, relayOf v op = some (socket, event, relayed) ∧
    (relayed identity.participant).remoteSessionId = id ∧
    Cleared m socket identity id row before ∧
    tr = entry m (.emit (peerOf identity.participant) (remoteSessionRoom id) event
      (relayed identity.participant)) () :: before

/-- A relay that was rejected, and why. -/
inductive Refused (socket : SocketId) : SignalingErrorCode → List Entry → Prop where
  | identity : Refused socket .unauthorized
      [entry m (.identityOf socket) none, entry m (.receive socket) ()]
  | payload (identity : SignalingIdentity) (h : relayOf v op = none) :
      Refused socket .invalidPayload (received m socket identity)
  | notJoined (identity : SignalingIdentity) (id : String) (current : Option String)
      (h : relayId v op = some id) (hcurrent : current ≠ some id) : Refused socket .notJoined
      (entry m (.remoteSessionId socket) current :: received m socket identity)
  | session (identity : SignalingIdentity) (id : String) (h : relayId v op = some id) :
      Refused socket .unauthorized (entry m (.findJoinable id identity) none ::
        entry m (.remoteSessionId socket) (some id) :: received m socket identity)
  | unbound (identity : SignalingIdentity) (id : String) (row : RemoteSessionRow)
      (h : relayId v op = some id) : Refused socket .unavailable
      (entry m (.isBound (peerOf identity.participant)) false ::
        entry m (.findJoinable id identity) (some row) ::
        entry m (.remoteSessionId socket) (some id) :: received m socket identity)

/-- A message of this socket that was to be relayed is answered. -/
def MayAcknowledge (socket : SocketId) (response : Response) : Prop :=
  (∃ id, response = .relay (.delivered id) ∧ Delivered v op m tr id) ∨
  (∃ error, response = .relay (.relayRejected error) ∧ Refused v op m socket error tr)

/-- A message that is answered as what it has done. -/
def MayAnswer (response : Response) : Prop :=
  match op with
  | .join socket payload =>
    (∃ id identity row peer, joinId v payload = some id ∧
      Finished m socket identity id row peer tr ∧ response = .join (.joined row.id peer)) ∨
    (∃ error, response = .join (.joinRejected error)) ∧ Rejected v m socket payload tr
  | .offer socket _ => MayAcknowledge v op m tr socket response
  | .answer socket _ => MayAcknowledge v op m tr socket response
  | .iceCandidate socket _ => MayAcknowledge v op m tr socket response
  | _ => False

def InOrder : Op → Prop
  | .receive _ => tr = []
  | .setRemoteSessionId socket none => MayForget v op m tr socket
  | .setRemoteSessionId socket (some id) => MayRecord v op m tr socket id
  | .joinRoom socket room => MayEnter v op m tr socket room
  | .leaveRoom socket room => MayLeave v op m tr socket room
  | .emit p room event payload =>
    MayAnnounce v op m tr p room event payload ∨ MayRelay v op m tr p room event payload
  | .ack response => MayAnswer v op m tr response
  -- The rest of the changes is not made by a message.
  | .connect _ _ _ => op.isMessage = false
  | .disconnect _ => op.isMessage = false
  | .bind _ => op.isMessage = false
  | .commit _ => op.isMessage = false
  | _ => True

end InOrder

/-! ## The handlers -/

variable {v : Validator} {op : Operation} {m : MessageId} {tr : List Entry}

/-- Where the program goes from here, every operation is in order, and it ends
    in `Q`. -/
def Keeps {α : Type} (v : Validator) (op : Operation) (m : MessageId) (Q : List Entry → α → Prop)
    (p : Service α) (tr : List Entry) : Prop :=
  p.Along (Leaves m) (InOrder v op m) Q (fun _ _ => True) tr

/-- An operation that is always in order. -/
theorem Keeps.ask {α : Type} {o : Op} {k : Resp o → Service α} {Q : List Entry → α → Prop}
    (ho : InOrder v op m tr o) (hk : ∀ r, Keeps v op m Q (k r) (entry m o r :: tr)) :
    Keeps v op m Q (.op o k) tr := by
  refine ⟨ho, fun r e he => ?_⟩
  rw [he]
  exact hk r

/-- Sequencing: the second program starts from the trace of the first. -/
theorem Keeps.bind {α β : Type} {p : Service α} {f : α → Service β} {Q : List Entry → α → Prop}
    {Q' : List Entry → β → Prop} (h : Keeps v op m Q p tr)
    (hf : ∀ tr a, Q tr a → Keeps v op m Q' (f a) tr) : Keeps v op m Q' (p.bind f) tr :=
  Prog.Along.bind h hf

/-- A weaker statement about the end. -/
theorem Keeps.conseq {α : Type} {p : Service α} {Q Q' : List Entry → α → Prop}
    (h : Keeps v op m Q p tr) (hQ : ∀ tr a, Q tr a → Q' tr a) : Keeps v op m Q' p tr :=
  Prog.Along.conseq h hQ (fun _ _ _ => trivial)

/-- A look leaves one entry or two. -/
theorem looked_along {p : SignalingParticipant} {id : String} :
    Keeps v op m (fun tr' present => ∃ looked, Looked m p id present looked ∧ tr' = looked ++ tr)
      (hasParticipantInSession p id) tr := by
  refine .ask trivial (fun (target : Bool) => ?_)
  cases target with
  | false => exact ⟨_, .unbound, rfl⟩
  | true => exact .ask trivial (fun found => ⟨_, .fetched found, rfl⟩)

/-- To leave: nothing, if the socket is nowhere, and otherwise the session is
    forgotten and its room is left, in this order. -/
theorem left_along {socket : SocketId} {identity : SignalingIdentity} {payload : Json} {x : String}
    (hop : op = .join socket payload) (hx : joinId v payload = some x) :
    Keeps v op m
      (fun tr' _ => ∃ left, Left m socket left ∧ tr' = left ++ received m socket identity)
      (leaveCurrentSession socket) (received m socket identity) := by
  refine .ask trivial (fun (current : Option String) => ?_)
  cases current with
  | none => exact ⟨_, .nowhere, rfl⟩
  | some id =>
      refine .ask ⟨payload, x, identity, id, hop, hx, rfl⟩ (fun (_ : Unit) => ?_)
      exact .ask ⟨payload, x, identity, id, hop, hx, rfl, rfl⟩ (fun _ => ⟨_, .session id, rfl⟩)

/-- An announcement asks for the namespace, and emits if it is there. -/
theorem announced_along {identity : SignalingIdentity} {id : String}
    (h : InOrder v op m (entry m (.isBound (peerOf identity.participant)) true :: tr)
      (.emit (peerOf identity.participant) (remoteSessionRoom id) remoteSessionPeerJoinedEvent
        (.peerJoined id))) :
    Keeps v op m
      (fun tr' _ => ∃ announced, Announced m (peerOf identity.participant) id announced ∧
        tr' = announced ++ tr)
      (announceToPeer identity id) tr := by
  refine .ask trivial (fun (target : Bool) => ?_)
  cases target with
  | false => exact ⟨_, .unbound, rfl⟩
  | true => exact .ask h (fun _ => ⟨_, .told, rfl⟩)

/-- To enter: both operations that change where the socket is come after the look
    at the own side, and the announcement after the look at the other. -/
theorem enterSession_along {socket : SocketId} {identity : SignalingIdentity}
    {row : RemoteSessionRow} {payload : Json} {id : String} (hop : op = .join socket payload)
    (hid : joinId v payload = some id) (h : Admitted m socket identity id row tr) :
    Keeps v op m
      (fun tr' ack => ∃ peer, Finished m socket identity id row peer tr' ∧
        ack = .joined row.id peer)
      (enterSession socket identity row) tr := by
  refine looked_along.bind (fun tr₁ present h₁ => ?_)
  rcases h₁ with ⟨looked, hlooked, rfl⟩
  have hready : Ready m socket identity id row present (looked ++ tr) :=
    ⟨looked, tr, hlooked, h, rfl⟩
  -- The room, and then the session on the socket, with a wait between them.
  refine .ask ⟨payload, id, identity, row, present, hop, hid, hready, rfl⟩ (fun (_ : Unit) => ?_)
  refine .ask ⟨payload, id, identity, row, present, _, hop, hid, hready, rfl, rfl⟩
    (fun (_ : Unit) => ?_)
  refine looked_along.bind (fun tr₂ peer h₂ => ?_)
  rcases h₂ with ⟨looked', hlooked', htr₂⟩
  have hsettled : Settled m socket identity id row present peer tr₂ :=
    ⟨looked', looked ++ tr, hlooked', hready, by rw [htr₂, List.append_assoc]; rfl⟩
  split
  · -- Both looks say that the join is to be announced.
    rename_i hboth
    simp only [Bool.and_eq_true, Bool.not_eq_true'] at hboth
    rcases hboth with ⟨rfl, rfl⟩
    refine (announced_along (.inl ⟨socket, payload, id, identity, row, tr₂, hop, hid, hsettled,
      rfl, rfl, rfl, rfl, rfl⟩)).bind (fun tr₃ _ h₃ => ?_)
    rcases h₃ with ⟨announced, hannounced, htr₃⟩
    exact ⟨true, ⟨false, announced, tr₂, hsettled, hannounced, htr₃⟩, rfl⟩
  · rename_i hnot
    exact ⟨peer, ⟨present, [], tr₂, hsettled, by rw [if_neg hnot], rfl⟩, rfl⟩

/-- Nothing was done yet. -/
theorem silent_nil : Silent [] := fun e he => by simp only [List.not_mem_nil] at he

/-- One more quiet entry. -/
theorem Silent.cons {e : Entry} (he : e.op.isQuiet = true) (h : Silent tr) : Silent (e :: tr) := by
  intro e' he'
  rcases List.mem_cons.mp he' with rfl | he'
  · exact he
  · exact h e' he'

/-- To leave is silent. -/
theorem Left.silent {socket : SocketId} {left : List Entry} (h : Left m socket left)
    (htr : Silent tr) : Silent (left ++ tr) := by
  cases h with
  | nowhere => exact .cons rfl htr
  | session id => exact .cons rfl (.cons rfl (.cons rfl htr))

/-- To come in is silent. -/
theorem received_silent {socket : SocketId} {identity : SignalingIdentity} :
    Silent (received m socket identity) :=
  .cons rfl (.cons rfl silent_nil)

/-- A rejected join has neither entered anything nor emitted. -/
theorem Rejected.silent {socket : SocketId} {payload : Json} (h : Rejected v m socket payload tr) :
    Silent tr := by
  cases h with
  | identity => exact .cons rfl (.cons rfl silent_nil)
  | payload identity h => exact received_silent
  | session identity x left h hleft => exact .cons rfl (hleft.silent received_silent)

/-- A look writes nothing on a socket. -/
theorem Looked.unwritten {socket : SocketId} {p : SignalingParticipant} {id : String}
    {present : Bool}
    {looked : List Entry} {d : Entry} {x : Option String} (h : Looked m p id present looked)
    (hd : d ∈ looked) : d.op ≠ .setRemoteSessionId socket x := by
  cases h with
  | unbound =>
      rw [List.mem_singleton] at hd
      rw [hd]
      exact Op.noConfusion
  | fetched found =>
      simp only [List.mem_cons, List.not_mem_nil, or_false] at hd
      rcases hd with rfl | rfl
      · exact Op.noConfusion
      · exact Op.noConfusion

/-- Nor does an announcement. -/
theorem Announced.unwritten {socket : SocketId} {p : SignalingParticipant} {id : String}
    {announced : List Entry} {d : Entry} {x : Option String} (h : Announced m p id announced)
    (hd : d ∈ announced) : d.op ≠ .setRemoteSessionId socket x := by
  cases h with
  | unbound =>
      rw [List.mem_singleton] at hd
      rw [hd]
      exact Op.noConfusion
  | told =>
      simp only [List.mem_cons, List.not_mem_nil, or_false] at hd
      rcases hd with rfl | rfl
      · exact Op.noConfusion
      · exact Op.noConfusion

/-- A join is acknowledged as what it has come to: rejected by its payload or by
    the database, or finished. -/
theorem join_along {socket : SocketId} {identity : SignalingIdentity} {payload : Json}
    (hop : op = .join socket payload) :
    Keeps v op m (fun tr ack => InOrder v op m tr (.ack (.join ack)))
      (SignalingService.join v socket identity payload) (received m socket identity) := by
  rw [hop]
  cases hdto : (whitelisted v JoinRemoteSessionDto.names payload).bind
    (JoinRemoteSessionDto.ofFields v) with
  | none =>
      -- The checks have failed, so there is no session to name.
      have hid : joinId v payload = none := by
        rw [joinId, hdto, Option.map_none]
      simp only [SignalingService.join, toDto, hdto]
      exact .inr ⟨⟨_, rfl⟩, .payload identity hid⟩
  | some dto =>
      have hid : joinId v payload = some dto.remoteSessionId := by
        rw [joinId, hdto, Option.map_some]
      simp only [SignalingService.join, toDto, hdto]
      -- The old session is left before the database is asked for the new one.
      refine (left_along rfl hid).bind (fun tr₁ _ h₁ => ?_)
      rcases h₁ with ⟨left, hleft, rfl⟩
      refine .ask trivial (fun (found : Option RemoteSessionRow) => ?_)
      cases found with
      | none => exact .inr ⟨⟨_, rfl⟩, .session identity _ left hid hleft⟩
      | some row =>
          refine (enterSession_along rfl hid ⟨left, hleft, rfl⟩).conseq (fun tr₂ ack h₂ => ?_)
          rcases h₂ with ⟨peer, hfinished, rfl⟩
          exact .inl ⟨dto.remoteSessionId, identity, row, peer, hid, hfinished, rfl⟩

/-- What an authorization has done: it has found the session on the socket and
    in the database, or it has found out why not. -/
theorem authorizeRelay_along {socket : SocketId} {identity : SignalingIdentity} {id : String}
    (hid : relayId v op = some id) :
    Keeps v op m (fun tr error =>
        (error = none ∧ ∃ row, tr = entry m (.findJoinable id identity) (some row) ::
          entry m (.remoteSessionId socket) (some id) :: received m socket identity) ∨
        ∃ code, error = some code ∧ Refused v op m socket code tr)
      (authorizeRelay socket identity id) (received m socket identity) := by
  refine .ask trivial (fun (current : Option String) => ?_)
  change Keeps v op m _ (if current ≠ some id then _ else _) _
  -- The session on the socket is another one, or there is none.
  by_cases hcurrent : current = some id
  · rw [if_neg (not_not.mpr hcurrent), hcurrent]
    refine .ask trivial (fun (found : Option RemoteSessionRow) => ?_)
    cases found with
    | none => exact .inr ⟨_, rfl, .session identity id hid⟩
    | some row => exact .inl ⟨rfl, row, rfl⟩
  · -- The session on the socket is not the one that was named.
    rw [if_pos hcurrent]
    exact .inr ⟨_, rfl, .notJoined identity id current hid hcurrent⟩

/-- A relay, whatever it relays. The three messages share this program, and differ
    in the checks and in what is relayed. -/
theorem relay_along {T : Type} {names : List String} {ofFields : List (String × Json) → Option T}
    {idOf : T → String} {event : String} {relayed : T → SignalingParticipant → Payload}
    {socket : SocketId} {identity : SignalingIdentity} {payload : Json}
    (hid : ∀ dto p, (relayed dto p).remoteSessionId = idOf dto)
    (hrelay : relayOf v op = ((whitelisted v names payload).bind ofFields).map
      (fun dto => (socket, event, relayed dto)))
    (hrelayId : relayId v op = ((whitelisted v names payload).bind ofFields).map idOf) :
    Keeps v op m (fun tr ack => MayAcknowledge v op m tr socket (.relay ack))
      (relay v names ofFields idOf event relayed socket identity payload)
      (received m socket identity) := by
  cases hdto : (whitelisted v names payload).bind ofFields with
  | none =>
      rw [hdto, Option.map_none] at hrelay
      simp only [relay, toDto, hdto]
      exact .inr ⟨_, rfl, .payload identity hrelay⟩
  | some dto =>
      rw [hdto, Option.map_some] at hrelay hrelayId
      simp only [relay, toDto, hdto]
      refine (authorizeRelay_along hrelayId).bind (fun tr₁ error h₁ => ?_)
      rcases h₁ with ⟨rfl, row, rfl⟩ | ⟨code, rfl, hrefused⟩
      · refine .ask trivial (fun (target : Bool) => ?_)
        cases target with
        | false => exact .inr ⟨_, rfl, .unbound identity _ row hrelayId⟩
        | true =>
            have hcleared : Cleared m socket identity (idOf dto) row _ := rfl
            refine .ask (.inr ⟨socket, relayed dto, identity, row, hrelay, ?_, rfl, ?_, rfl⟩)
              (fun (_ : Unit) => ?_)
            · rw [hid]
              exact hcleared
            · rw [hid]
            · exact .inl ⟨_, rfl, socket, event, relayed dto, identity, row, _, hrelay,
                hid dto _, hcleared, rfl⟩
      · exact .inr ⟨code, rfl, hrefused⟩

/-- The identity of the socket is read first, and a message without one is
    rejected. -/
theorem withIdentity_along {socket : SocketId} {rejected : Response}
    {Q : List Entry → Response → Prop} {body : SignalingIdentity → Service Response}
    (hrejected : Q [entry m (.identityOf socket) none, entry m (.receive socket) ()] rejected)
    (hbody : ∀ identity, Keeps v op m Q (body identity) (received m socket identity)) :
    Keeps v op m Q (withIdentity socket rejected body) [entry m (.receive socket) ()] := by
  refine .ask trivial (fun (identity : Option SignalingIdentity) => ?_)
  cases identity with
  | none => exact hrejected
  | some identity => exact hbody identity

/-- A message that is answered in order. -/
theorem answered_along {socket : SocketId} {body : Service Response}
    (h : Keeps v op m (fun tr response => InOrder v op m tr (.ack response)) body
      [entry m (.receive socket) ()]) :
    Keeps v op m (fun _ _ => True) (answered socket body) [] := by
  refine .ask rfl (fun (_ : Unit) => ?_)
  refine h.bind (fun tr response hack => ?_)
  exact .ask hack (fun _ => trivial)

/-- A relay is acknowledged as what it has come to. -/
theorem handleRelay_along {socket : SocketId} {payload : Json}
    {relay : SocketId → SignalingIdentity → Json → Service SignalingRelayAck}
    (hop : ∀ tr response, InOrder v op m tr (.ack response) ↔
      MayAcknowledge v op m tr socket response)
    (h : ∀ identity, Keeps v op m (fun tr ack => MayAcknowledge v op m tr socket (.relay ack))
      (relay socket identity payload) (received m socket identity)) :
    Keeps v op m (fun _ _ => True) (answered socket (handleRelay relay socket payload)) [] := by
  refine answered_along (withIdentity_along ?_ (fun identity => ?_))
  · exact (hop _ _).mpr (.inr ⟨_, rfl, .identity⟩)
  · exact (h identity).bind (fun tr ack hack => (hop _ _).mpr hack)

/-- Every handler keeps to the order. The other four are one operation each, or
    two for a socket that is disconnected at once. -/
theorem handle_along : Keeps v op m (fun _ _ => True) (handle v op) [] := by
  cases op with
  | join socket payload =>
      refine answered_along (withIdentity_along ?_ (fun identity => ?_))
      · exact .inr ⟨⟨_, rfl⟩, .identity⟩
      · exact (join_along rfl).bind (fun _ _ hack => hack)
  | offer socket payload =>
      refine handleRelay_along (fun _ _ => Iff.rfl) (fun identity => ?_)
      unfold relayOffer relaySdp
      exact relay_along (fun _ _ => rfl) rfl rfl
  | answer socket payload =>
      refine handleRelay_along (fun _ _ => Iff.rfl) (fun identity => ?_)
      unfold relayAnswer relaySdp
      exact relay_along (fun _ _ => rfl) rfl rfl
  | iceCandidate socket payload =>
      refine handleRelay_along (fun _ _ => Iff.rfl) (fun identity => ?_)
      unfold relayIceCandidate
      exact relay_along (fun _ _ => rfl) rfl rfl
  | connect socket participant context =>
      refine .ask rfl (fun _ => ?_)
      cases context with
      | none => exact .ask rfl (fun _ => trivial)
      | some owner => trivial
  | disconnect socket => exact .ask rfl (fun _ => trivial)
  | bind participant => exact .ask rfl (fun _ => trivial)
  | commit row => exact .ask rfl (fun _ => trivial)

/-! ## Histories -/

/-- Every operation of a history was in order. -/
def Orderly (v : Validator) (messages : MessageId → Operation) (l : List Entry) : Prop :=
  ∀ e l', e :: l' <:+ l → InOrder v (messages e.message) e.message (own e.message l') e.op

/-- The history keeps the traces: an operation adds one entry to that of its own
    message, and nothing to another. -/
theorem marked : Marked exec (fun _ => True) Leaves (fun m (w : World) => own m w.log) where
  inv := fun _ _ _ _ _ _ _ _ => trivial
  own := by
    intro m env o w r w' hx _
    simp only [exec] at hx
    split at hx
    · cases hx
      exact ⟨_, rfl, marksOf_own rfl⟩
    · cases hx
  others := by
    intro m u env o w r w' hx hu
    simp only [exec] at hx
    split at hx
    · cases hx
      exact marksOf_other (fun h => hu h.symm)
    · cases hx

/-- Every history is in order: an entry was preceded, within its message, by what
    its program had done. -/
theorem orderly {ok : Messages → MessageId → Env → Prop} {messages : MessageId → Operation}
    {sys : Messages} (h : Run exec ok (boot v messages) sys) :
    Orderly v messages sys.shared.log := by
  -- The handlers keep to the order from the empty trace on.
  have htraced : Traced (fun _ => True) Leaves (fun m (w : World) => own m w.log)
      (fun m => InOrder v (messages m) m) (fun _ _ _ => True) (fun _ _ _ => True) sys :=
    (Traced.start trivial (fun _ => rfl) (fun _ => handle_along)).run marked h
  intro e l' he
  rcases htraced.trail e.message e (own e.message l') (marksOf_before he rfl) with ⟨o, r, heq, hok⟩
  rw [show e.op = o from congrArg Entry.op heq]
  exact hok

/-- A message does nothing before it comes in. Its receipt is its first entry, so
    what else it does is newer. -/
theorem after_receive {messages : MessageId → Operation} {l ld lr : List Entry} {d : Entry}
    {socket : SocketId} (ho : Orderly v messages l) (hlr : entry m (.receive socket) () :: lr <:+ l)
    (hd : d :: ld <:+ l) (hm : d.message = m) (hop : ∀ s, d.op ≠ .receive s) :
    entry m (.receive socket) () :: lr <:+ ld := by
  have hfirst : own m lr = [] := ho _ lr hlr
  rcases suffix_trichotomy hlr hd with hs | hs | heq
  · exact hs
  · have hmem : d ∈ own m lr := mem_marksOf.mpr ⟨mem_of_suffix hs, hm⟩
    rw [hfirst] at hmem
    cases hmem
  · rw [List.cons.injEq] at heq
    rw [← heq.1] at hop
    exact absurd rfl (hop socket)

/-! ## Segments -/

/-- A socket forgets the session it was just found to have, and leaves the room
    of it at once. A relay is answered right after its emission. -/
def InSegment (m : MessageId) (seg : List Entry) : Op → Prop
  | .setRemoteSessionId socket none =>
    ∃ id older, seg = entry m (.remoteSessionId socket) (some id) :: older
  | .leaveRoom socket _ => ∃ older, seg = entry m (.setRemoteSessionId socket none) () :: older
  | .ack (.relay (.delivered id)) => ∃ p event payload older,
    seg = entry m (.emit p (remoteSessionRoom id) event payload) () :: older
  | _ => True

/-- The segments of the program keep to it, wherever it begins, and it returns
    in the middle of such a segment. -/
def Ending {α : Type} (m : MessageId) (Q : List Entry → α → Prop) (p : Service α) : Prop :=
  ∀ seg, p.Within (Leaves m) (InSegment m) Q seg

/-- Whatever it returns. -/
def Unbroken {α : Type} (m : MessageId) (p : Service α) : Prop := Ending m (fun _ _ => True) p

/-- Sequencing: the second program goes on in the segment in which the first has
    ended. -/
theorem Ending.bind {α β : Type} {Q : List Entry → α → Prop} {Q' : List Entry → β → Prop}
    {p : Service α} {f : α → Service β} (h : Ending m Q p)
    (hf : ∀ seg a, Q seg a → (f a).Within (Leaves m) (InSegment m) Q' seg) :
    Ending m Q' (p.bind f) :=
  fun seg => (h seg).bind hf

/-- Sequencing, where nothing is asked of the segment. -/
theorem Unbroken.bind {α β : Type} {Q : List Entry → β → Prop} {p : Service α}
    {f : α → Service β} (h : Unbroken m p) (hf : ∀ a, Ending m Q (f a)) : Ending m Q (p.bind f) :=
  Ending.bind h (fun seg a _ => hf a seg)

/-- An operation that may stand anywhere. -/
theorem Ending.ask {α : Type} {Q : List Entry → α → Prop} {o : Op} {k : Resp o → Service α}
    (ho : ∀ seg, InSegment m seg o) (hk : ∀ r, Ending m Q (k r)) : Ending m Q (.op o k) :=
  fun seg => ⟨ho seg, fun r e _ => hk r (e :: seg)⟩

/-- A result that any segment may end with. -/
theorem Ending.ret {α : Type} {Q : List Entry → α → Prop} {a : α} (h : ∀ seg, Q seg a) :
    Ending m Q (.ret a) := h

/-- To return breaks nothing. -/
theorem Unbroken.ret {α : Type} (a : α) : Unbroken m (.ret a) := fun _ => trivial

/-- A wait begins a new segment. -/
theorem Ending.await {α : Type} {Q : List Entry → α → Prop} {p : Service α} (h : Ending m Q p) :
    Ending m Q (.await p) := fun _ => h []

/-- A look breaks nothing. -/
theorem unbroken_look {p : SignalingParticipant} {id : String} :
    Unbroken m (hasParticipantInSession p id) := by
  refine .ask (fun _ => trivial) (fun (target : Bool) => ?_)
  cases target with
  | false => exact .await (Unbroken.ret _)
  | true => exact .ask (fun _ => trivial) (fun _ => .await (Unbroken.ret _))

/-- What was emitted successfully was emitted last. -/
theorem ending_emission {p : SignalingParticipant} {id event : String} {payload : Payload} :
    Ending m (fun seg delivered => delivered = true → ∃ older,
        seg = entry m (.emit p (remoteSessionRoom id) event payload) () :: older)
      (emitToParticipantSession p id event payload) := by
  refine .ask (fun _ => trivial) (fun (target : Bool) => ?_)
  cases target with
  | false => exact fun _ hfalse => absurd hfalse Bool.false_ne_true
  | true =>
      intro seg
      refine ⟨trivial, fun (_ : Unit) e he _ => ?_⟩
      rw [he]
      exact ⟨seg, rfl⟩

/-- To leave: the session is forgotten right after it was read, and the room is
    left right after that. -/
theorem unbroken_leave {socket : SocketId} : Unbroken m (leaveCurrentSession socket) := by
  intro seg
  refine ⟨trivial, fun (current : Option String) e he => ?_⟩
  subst he
  cases current with
  | none => trivial
  | some id =>
      refine ⟨⟨id, seg, rfl⟩, fun (_ : Unit) e he => ?_⟩
      subst he
      exact ⟨⟨_, rfl⟩, fun _ _ _ => trivial⟩

/-- A query is between two waits. -/
theorem unbroken_find {id : String} {identity : SignalingIdentity} :
    Unbroken m (findJoinableSession id identity) :=
  .await (.ask (fun _ => trivial) (fun _ => .await (Unbroken.ret _)))

/-- To enter breaks nothing, since none of its operations has to follow another at
    once. -/
theorem unbroken_enter {socket : SocketId} {identity : SignalingIdentity}
    {row : RemoteSessionRow} : Unbroken m (enterSession socket identity row) := by
  refine unbroken_look.bind (fun present => ?_)
  refine .ask (fun _ => trivial) (fun _ => .await ?_)
  refine .ask (fun _ => trivial) (fun _ => ?_)
  refine unbroken_look.bind (fun peer => ?_)
  split
  · have hannounced : Unbroken m (announceToPeer identity row.id) :=
      ending_emission.bind (fun _ _ _ => trivial)
    exact hannounced.bind (fun _ => Unbroken.ret _)
  · exact Unbroken.ret _

/-- Nor does a join, of which only the leaving is bound. -/
theorem unbroken_join {socket : SocketId} {identity : SignalingIdentity} {payload : Json} :
    Unbroken m (SignalingService.join v socket identity payload) := by
  refine .await ?_
  cases (whitelisted v JoinRemoteSessionDto.names payload).bind
    (JoinRemoteSessionDto.ofFields v) with
  | none => exact Unbroken.ret _
  | some dto =>
      refine unbroken_leave.bind (fun _ => ?_)
      refine unbroken_find.bind (fun found => ?_)
      cases found with
      | none => exact Unbroken.ret _
      | some row => exact unbroken_enter

/-- Nor does an authorization. -/
theorem unbroken_authorize {socket : SocketId} {identity : SignalingIdentity} {id : String} :
    Unbroken m (authorizeRelay socket identity id) := by
  refine .ask (fun _ => trivial) (fun (current : Option String) => ?_)
  change Unbroken m (if current ≠ some id then _ else _)
  split
  · exact .await (Unbroken.ret _)
  · exact unbroken_find.bind (fun _ => Unbroken.ret _)

/-- The answer of a relay may follow its last segment. -/
theorem ending_relay {T : Type} {names : List String}
    {ofFields : List (String × Json) → Option T} {idOf : T → String} {event : String}
    {relayed : T → SignalingParticipant → Payload} {socket : SocketId}
    {identity : SignalingIdentity} {payload : Json} :
    Ending m (fun seg ack => InSegment m seg (.ack (.relay ack)))
      (relay v names ofFields idOf event relayed socket identity payload) := by
  refine .await ?_
  cases (whitelisted v names payload).bind ofFields with
  | none => exact .ret (fun _ => trivial)
  | some dto =>
      refine unbroken_authorize.bind (fun error => ?_)
      cases error with
      | some error => exact .ret (fun _ => trivial)
      | none =>
          -- The emission is the last operation of the relay, and the acknowledgement
          -- follows in the same segment.
          refine ending_emission.bind (fun seg delivered hlast => ?_)
          cases delivered with
          | false => trivial
          | true =>
              rcases hlast rfl with ⟨older, rfl⟩
              exact ⟨_, _, _, older, rfl⟩

/-- A message is answered right after the last segment of its handler. -/
theorem unbroken_answered {socket : SocketId} {rejected : Response}
    {body : SignalingIdentity → Service Response}
    (hrejected : ∀ seg, InSegment m seg (.ack rejected))
    (h : ∀ identity, Ending m (fun seg response => InSegment m seg (.ack response))
      (body identity)) :
    Unbroken m (answered socket (withIdentity socket rejected body)) := by
  refine .ask (fun _ => trivial) (fun _ => ?_)
  have hbody : Ending m (fun seg response => InSegment m seg (.ack response))
      (withIdentity socket rejected body) := by
    refine .ask (fun _ => trivial) (fun (identity : Option SignalingIdentity) => ?_)
    cases identity with
    | none => exact .ret hrejected
    | some identity => exact h identity
  exact hbody.bind (fun seg response hseg => ⟨hseg, fun _ _ _ => trivial⟩)

/-- The handlers of the three messages. -/
theorem unbroken_handleRelay {relay : SocketId → SignalingIdentity → Json →
    Service SignalingRelayAck} {socket : SocketId} {payload : Json}
    (h : ∀ identity, Ending m (fun seg ack => InSegment m seg (.ack (.relay ack)))
      (relay socket identity payload)) :
    Unbroken m (answered socket (handleRelay relay socket payload)) :=
  unbroken_answered (fun _ => trivial)
    (fun identity => (h identity).bind (fun _ _ hseg => hseg))

/-- Every handler. -/
theorem unbroken_handle : Unbroken m (handle v op) := by
  cases op with
  | join socket payload =>
      exact unbroken_answered (fun _ => trivial)
        (fun _ => unbroken_join.bind (fun _ => .ret (fun _ => trivial)))
  | offer socket payload =>
      refine unbroken_handleRelay (fun identity => ?_)
      unfold relayOffer relaySdp
      exact ending_relay
  | answer socket payload =>
      refine unbroken_handleRelay (fun identity => ?_)
      unfold relayAnswer relaySdp
      exact ending_relay
  | iceCandidate socket payload =>
      refine unbroken_handleRelay (fun identity => ?_)
      unfold relayIceCandidate
      exact ending_relay
  | connect socket participant context =>
      refine .ask (fun _ => trivial) (fun _ => ?_)
      cases context with
      | none => exact .ask (fun _ => trivial) (fun _ => Unbroken.ret _)
      | some owner => exact Unbroken.ret _
  | disconnect socket => exact .ask (fun _ => trivial) (fun _ => Unbroken.ret _)
  | bind participant => exact .ask (fun _ => trivial) (fun _ => Unbroken.ret _)
  | commit row => exact .ask (fun _ => trivial) (fun _ => Unbroken.ret _)

/-- What a segment holds is not interrupted in the history of any run. -/
theorem contiguous {ok : Messages → MessageId → Env → Prop} {messages : MessageId → Operation}
    {sys : Messages} (h : Run exec ok (boot v messages) sys) :
    Contiguous Leaves InSegment sys.shared.log := by
  refine contiguous_of_run (fun m env o w r w' hx => ?_) h rfl (fun m => unbroken_handle [])
  simp only [exec] at hx
  split at hx
  · cases hx
    exact ⟨_, rfl, rfl⟩
  · cases hx

/-- What the entries of the segment before an operation are. -/
theorem Contiguous.inSegment {e : Entry} {l l' : List Entry}
    (h : Contiguous Leaves InSegment l) (he : e :: l' <:+ l) :
    ∃ seg older, l' = seg ++ older ∧ InSegment e.message seg e.op := by
  rcases h e l' he with ⟨m, o, r, seg, older, rfl, rfl, hin⟩
  exact ⟨seg, older, rfl, hin⟩

/-! ## What the answers say -/

variable {P : Env → Prop} {l l' : List Entry}

/-- The answer of an entry was read off the state before it. -/
theorem Answered.answer_eq {o : Op} {r : Resp o} (h : Answered P l) (he : entry m o r :: l' <:+ l) :
    ∃ env, P env ∧ r = answer env (replay l') o := (h _ _ he).2

/-- What a query for a session says of the row that it has found: its owner, and
    that it is live. -/
theorem findJoinable_eq_some {s : State} {id : String} {identity : SignalingIdentity}
    {row : RemoteSessionRow} (h : s.findJoinable id identity = some row) :
    s.sessions (canonical id) = some row ∧ row.owner identity.participant = identity.id ∧
      row.isLive = true := by
  simp only [State.findJoinable, Option.filter_eq_some_iff, Bool.and_eq_true,
    decide_eq_true_eq] at h
  exact h

/-- What an identity says of its socket. -/
theorem identityOf_eq_some {s : State} {socket : SocketId} {identity : SignalingIdentity}
    (h : s.identityOf socket = some identity) : ∃ a, s.sockets socket = some a ∧
      a.participant = identity.participant ∧ a.context = some identity.id := by
  simp only [State.identityOf] at h
  split at h
  · cases h
  · rename_i a ha
    rw [Option.map_eq_some_iff] at h
    rcases h with ⟨owner, howner, rfl⟩
    exact ⟨a, ha, rfl, howner⟩

/-- Where a message with an identity came in. The identity was read after the
    receipt, and the socket has it still. -/
theorem received_at {socket : SocketId} {identity : SignalingIdentity} (ha : Answered P l)
    (h : own m l = received m socket identity) :
    ∃ li a, entry m (.identityOf socket) (some identity) :: li <:+ l ∧
      entry m (.receive socket) () ∈ li ∧ (replay l).sockets socket = some a ∧
      a.participant = identity.participant ∧ a.context = some identity.id := by
  rcases marksOf_cons h with ⟨li, hli, hrest, _⟩
  rcases ha.answer_eq hli with ⟨env, _, hidentity⟩
  rcases identityOf_eq_some hidentity.symm with ⟨a, hs, hp, hc⟩
  -- From then on the socket keeps its namespace and its identity.
  rcases (ha.later ((List.suffix_cons _ li).trans hli)).sockets socket a hs with ⟨b, hb, hbp, hbc⟩
  refine ⟨li, b, hli, ?_, hb, hbp.trans hp, hbc.trans hc⟩
  refine (mem_marksOf.mp (?_ : _ ∈ own m li)).1
  rw [own, hrest]
  exact List.mem_singleton_self _

/-- Where the database has admitted a join. The query came after the receipt; what
    it found was in the state it was made in, and need not be there any more. -/
theorem Admitted.at {socket : SocketId} {identity : SignalingIdentity} {id : String}
    {row : RemoteSessionRow} (h : Admitted m socket identity id row (own m l)) (ha : Answered P l) :
    ∃ lr a, entry m (.findJoinable id identity) (some row) :: lr <:+ l ∧
      (replay lr).findJoinable id identity = some row ∧ entry m (.receive socket) () ∈ lr ∧
      (replay l).sockets socket = some a ∧ a.participant = identity.participant ∧
      a.context = some identity.id := by
  rcases h with ⟨left, hleft, htr⟩
  rcases marksOf_cons htr with ⟨lr, hlr, hrest, _⟩
  have hlater : lr <:+ l := (List.suffix_cons _ lr).trans hlr
  rcases ha.answer_eq hlr with ⟨_, _, hrow⟩
  -- Before the query the message had left its session, and before that it came in.
  rcases marksOf_append hrest with ⟨lo, hlo, hreceived⟩
  rcases received_at (ha.suffix (hlo.trans hlater)) hreceived with ⟨li, a, hli, hcame, hs, hp, hc⟩
  rcases (ha.later (hlo.trans hlater)).sockets socket a hs with ⟨b, hb, hbp, hbc⟩
  have hin : li <:+ lr := ((List.suffix_cons _ li).trans hli).trans hlo
  exact ⟨lr, b, hlr, hrow.symm, hin.subset hcame, hb, hbp.trans hp, hbc.trans hc⟩

/-- The session of a join is the one the database has under its identifier. -/
theorem row_id {s : State} {id : String} {identity : SignalingIdentity} {row : RemoteSessionRow}
    (hw : WellFormed s) (h : s.findJoinable id identity = some row) : row.id = canonical id :=
  hw.rows _ _ (findJoinable_eq_some h).1

/-- Every session has a room of its own. -/
theorem remoteSessionRoom_inj {id id' : String} (h : remoteSessionRoom id = remoteSessionRoom id') :
    id = id' := by
  simp only [remoteSessionRoom] at h
  exact (String.append_right_inj _).mp h

end RemoteControl.Signaling

import RemoteControl.Theory.SignalingAlone

/-!
# What a Socket Can Tell

A socket speaks for a device or a technician, and that is all it can ask
about. Two states are the same to it (`SameTo`) when they have the same socket,
the same sessions of its owner, and the same sockets in the rooms of these
sessions. Its messages then have the same answers in both (`same_answer`).

The argument goes operation by operation. What a message of the socket does to
one state it does to the other, and the states stay the same to it.

What a message is answered is already known as a function of the state
(`joinAck`, `relayAck`). So it would be enough to show that these functions
look at nothing else but what is the same. As a join changes the state before
it answers, it has to be shown as well that the states stay the same on the
way: first the session is forgotten and its room left, then a room is entered
and the session stored.

## Main definitions

* `State.ownSessions`: The sessions of the owner of a socket.
* `SameTo`: Two states that a socket cannot tell apart.
* `Operation.client`: The socket that a message comes from.

## Theorems

* `SameTo.setRemoteSessionId`, `SameTo.joinRoom`, `SameTo.leaveRoom`: What the
  socket does.
* `same_answer`: Messages have the same answers.
* `handle_foreign`: A message about a session of someone else.
* `findJoinable_eq`, `own_of_found`: Only sessions of the owner are found.
* `SameTo.joinAck`, `SameTo.relayAck`: The answers look at nothing else.
* `handle_unidentified`, `handle_malformed`: Messages that are refused before
  the session is looked for.
-/

namespace RemoteControl.Signaling

open Concurrency Encoding SignalingRealtimeService SignalingService

/-! ## States that are the same to a socket -/

/-- The sessions of the device or technician that the socket speaks for. -/
def State.ownSessions (s : State) (socket : SocketId) (k : String) : Option RemoteSessionRow :=
  (s.identityOf socket).bind (fun identity => (s.sessions k).filter
    (fun row => decide (row.owner identity.participant = identity.id)))

/-- The room of a session in a namespace, if the namespace is there. -/
structure SameRoom (s s' : State) (p : SignalingParticipant) (id : String) : Prop where
  bound : s.bound p = s'.bound p
  members : ∀ m, m ∈ s.rooms p (remoteSessionRoom id) ↔ m ∈ s'.rooms p (remoteSessionRoom id)

/-- The socket, the sessions of its owner and the rooms of these are the same
    in the two states. -/
structure SameTo (socket : SocketId) (s s' : State) : Prop where
  stored : s.sockets socket = s'.sockets socket
  sessions : s.ownSessions socket = s'.ownSessions socket
  rooms : ∀ k row, s.ownSessions socket k = some row → ∀ p, SameRoom s s' p row.id

variable {v : Validator} {m : MessageId} {env : Env} {socket : SocketId}
  {identity : SignalingIdentity} {s s' t t' : State} {payload : Json}

/-- A state is the same as itself. -/
theorem SameTo.refl (socket : SocketId) (s : State) : SameTo socket s s :=
  ⟨rfl, rfl, fun _ _ _ _ => ⟨rfl, fun _ => Iff.rfl⟩⟩

/-- The socket speaks for the same owner. -/
theorem SameTo.identityOf (h : SameTo socket s s') :
    s.identityOf socket = s'.identityOf socket := by
  simp only [State.identityOf, h.stored]

/-- It is connected in both, or in neither. -/
theorem SameTo.isConnected (h : SameTo socket s s') :
    s.isConnected socket = s'.isConnected socket := by
  simp only [State.isConnected, h.stored]

/-- The same session is stored on it. -/
theorem SameTo.remoteSessionId (h : SameTo socket s s') :
    s.remoteSessionId socket = s'.remoteSessionId socket := by
  simp only [State.remoteSessionId, h.stored]

/-- A session is found among those of the owner. -/
theorem findJoinable_eq (hi : s.identityOf socket = some identity) (x : String) :
    s.findJoinable x identity =
      (s.ownSessions socket (canonical x)).filter RemoteSessionRow.isLive := by
  simp only [State.findJoinable, State.ownSessions, hi, Option.bind_some, Option.filter_filter]

/-- The same session is found for it. -/
theorem SameTo.findJoinable (h : SameTo socket s s') (hi : s.identityOf socket = some identity)
    (x : String) : s.findJoinable x identity = s'.findJoinable x identity := by
  rw [findJoinable_eq hi, findJoinable_eq (h.identityOf ▸ hi), h.sessions]

/-- A session that is found is one of the owner's. -/
theorem own_of_found (hi : s.identityOf socket = some identity) {x : String}
    {row : RemoteSessionRow} (hx : s.findJoinable x identity = some row) :
    s.ownSessions socket (canonical x) = some row := by
  rw [findJoinable_eq hi, Option.filter_eq_some_iff] at hx
  exact hx.1

/-! ## What the socket does -/

/-- Neither who the socket speaks for nor the sessions have changed. -/
structure KeepsOwn (socket : SocketId) (s s' : State) : Prop where
  identity : s'.identityOf socket = s.identityOf socket
  sessions : s'.sessions = s.sessions

/-- Nothing has changed. -/
theorem KeepsOwn.refl (s : State) : KeepsOwn socket s s := ⟨rfl, rfl⟩

/-- One change after another. -/
theorem KeepsOwn.trans (h : KeepsOwn socket s s') (h' : KeepsOwn socket s' t) :
    KeepsOwn socket s t :=
  ⟨h'.identity.trans h.identity, h'.sessions.trans h.sessions⟩

/-- Then it has the same sessions. -/
theorem KeepsOwn.ownSessions (h : KeepsOwn socket s s') :
    s'.ownSessions socket = s.ownSessions socket := by
  funext k
  simp only [State.ownSessions, h.identity, h.sessions]

/-- What is stored on a socket is not who it speaks for. -/
theorem keepsOwn_setRemoteSessionId (id : Option String) :
    KeepsOwn socket s (effect s (.setRemoteSessionId socket id)) := by
  simp only [effect]
  cases hs : s.sockets socket with
  | none => exact .refl s
  | some a =>
      refine ⟨?_, rfl⟩
      simp only [State.identityOf, State.setSocket, Function.update_self, hs]

/-- Nor is the room it is in. -/
theorem keepsOwn_joinRoom (room : String) :
    KeepsOwn socket s (effect s (.joinRoom socket room)) := by
  simp only [effect]
  cases hs : s.sockets socket with
  | none => exact .refl s
  | some a =>
      simp only
      split
      · exact ⟨rfl, rfl⟩
      · exact .refl s

/-- Nor the room it has left. -/
theorem keepsOwn_leaveRoom (room : String) :
    KeepsOwn socket s (effect s (.leaveRoom socket room)) := by
  simp only [effect]
  cases hs : s.sockets socket with
  | none => exact .refl s
  | some a => exact ⟨rfl, rfl⟩

/-- So leaving changes neither. -/
theorem keepsOwn_left : KeepsOwn socket s (leftState s socket) := by
  simp only [leftState]
  cases s.remoteSessionId socket with
  | none => exact .refl s
  | some id => exact (keepsOwn_setRemoteSessionId none).trans (keepsOwn_leaveRoom _)

/-- Nor does entering. -/
theorem keepsOwn_entered (id : String) : KeepsOwn socket s (enteredState s socket id) :=
  (keepsOwn_joinRoom _).trans (keepsOwn_setRemoteSessionId _)

/-- A change of the socket's stored session. -/
theorem SameTo.setRemoteSessionId (h : SameTo socket s s') (id : Option String) :
    SameTo socket (effect s (.setRemoteSessionId socket id))
      (effect s' (.setRemoteSessionId socket id)) := by
  refine ⟨?_, ?_, fun k row hrow p => ?_⟩
  · simp only [effect, ← h.stored]
    cases hs : s.sockets socket with
    | none => rw [hs, ← h.stored, hs]
    | some a => simp only [State.setSocket, Function.update_self]
  · rw [(keepsOwn_setRemoteSessionId id).ownSessions, (keepsOwn_setRemoteSessionId id).ownSessions,
      h.sessions]
  · rw [(keepsOwn_setRemoteSessionId id).ownSessions] at hrow
    rcases h.rooms k row hrow p with ⟨hbound, hmembers⟩
    simp only [effect, ← h.stored]
    cases s.sockets socket with
    | none => exact ⟨hbound, hmembers⟩
    | some a => exact ⟨hbound, hmembers⟩

/-- A change of a room that makes the same difference to both. -/
theorem SameTo.setRoom (h : SameTo socket s s') {p : SignalingParticipant} {room : String}
    (change : List SocketId → List SocketId)
    (hchange : ∀ l l', (∀ m, m ∈ l ↔ m ∈ l') → ∀ m, m ∈ change l ↔ m ∈ change l') :
    SameTo socket (s.setRoom p room (change (s.rooms p room)))
      (s'.setRoom p room (change (s'.rooms p room))) := by
  refine ⟨h.stored, h.sessions, fun k row hrow q => ⟨(h.rooms k row hrow q).bound, fun m => ?_⟩⟩
  have hroom := (h.rooms k row hrow q).members
  simp only [setRoom_rooms]
  -- It is this room that has changed, or it is as before.
  by_cases heq : q = p ∧ remoteSessionRoom row.id = room
  · rw [if_pos heq, if_pos heq]
    rw [heq.1, heq.2] at hroom
    exact hchange _ _ hroom m
  · rw [if_neg heq, if_neg heq]
    exact hroom m

/-- The socket enters a room. -/
theorem SameTo.joinRoom (h : SameTo socket s s') (room : String) :
    SameTo socket (effect s (.joinRoom socket room)) (effect s' (.joinRoom socket room)) := by
  simp only [effect, ← h.stored]
  cases s.sockets socket with
  | none => exact h
  | some a =>
      simp only
      split
      · refine h.setRoom (fun l => added l socket) (fun l l' hl m => ?_)
        rw [mem_added, mem_added, hl]
      · exact h

/-- The socket leaves a room. -/
theorem SameTo.leaveRoom (h : SameTo socket s s') (room : String) :
    SameTo socket (effect s (.leaveRoom socket room)) (effect s' (.leaveRoom socket room)) := by
  simp only [effect, ← h.stored]
  cases s.sockets socket with
  | none => exact h
  | some a =>
      refine h.setRoom (fun l => removed l socket) (fun l l' hl m => ?_)
      rw [mem_removed, mem_removed, hl]

/-- The socket leaves the session that is stored on it, which is the same in both. -/
theorem SameTo.left (h : SameTo socket s s') :
    SameTo socket (leftState s socket) (leftState s' socket) := by
  simp only [leftState, ← h.remoteSessionId]
  cases s.remoteSessionId socket with
  | none => exact h
  | some id => exact (h.setRemoteSessionId none).leaveRoom _

/-- The socket enters a session. -/
theorem SameTo.entered (h : SameTo socket s s') (id : String) :
    SameTo socket (enteredState s socket id) (enteredState s' socket id) :=
  (h.joinRoom _).setRemoteSessionId _

/-! ## What the socket is told -/

/-- A look at the room of a session of the owner. -/
theorem SameTo.look (h : SameTo socket s s') {k : String} {row : RemoteSessionRow}
    (hown : s.ownSessions socket k = some row) (p : SignalingParticipant) :
    look env s p row.id = look env s' p row.id := by
  have hroom := h.rooms k row hown p
  have hempty : (s.rooms p (remoteSessionRoom row.id)).isEmpty =
      (s'.rooms p (remoteSessionRoom row.id)).isEmpty := by
    rw [Bool.eq_iff_iff, List.isEmpty_iff, List.isEmpty_iff, List.eq_nil_iff_forall_not_mem,
      List.eq_nil_iff_forall_not_mem]
    exact forall_congr' (fun m => not_congr (hroom.members m))
  simp only [Signaling.look, hroom.bound, hempty]

/-- A join changes no session. -/
theorem sessions_joinAck {x : String} :
    (joinAck env s socket identity x).2.1.sessions = s.sessions := by
  simp only [joinAck]
  cases (leftState s socket).findJoinable x identity with
  | none => exact keepsOwn_left.sessions
  | some row => exact (keepsOwn_left.trans (keepsOwn_entered row.id)).sessions

/-- A join is answered alike. -/
theorem SameTo.joinAck (h : SameTo socket s s') (hi : s.identityOf socket = some identity)
    (x : String) : (joinAck env s socket identity x).1 = (joinAck env s' socket identity x).1 := by
  have hleft : (leftState s socket).identityOf socket = some identity :=
    keepsOwn_left.identity.trans hi
  simp only [Signaling.joinAck, ← h.left.findJoinable hleft x]
  cases hx : (leftState s socket).findJoinable x identity with
  | none => rfl
  | some row =>
      have hown := own_of_found hleft hx
      -- It is still the owner's after the socket has entered the room.
      have howns : (enteredState (leftState s socket) socket row.id).ownSessions socket
          (canonical x) = some row := by
        rw [(keepsOwn_entered row.id).ownSessions]
        exact hown
      simp only [(h.left.entered row.id).look howns]

/-- A relay is answered alike. -/
theorem SameTo.relayAck (h : SameTo socket s s') (hi : s.identityOf socket = some identity)
    (id event : String) (relayed : Payload) :
    (relayAck s socket identity id event relayed).1 =
      (relayAck s' socket identity id event relayed).1 := by
  simp only [Signaling.relayAck, ← h.remoteSessionId, ← h.findJoinable hi id]
  cases hx : s.findJoinable id identity with
  | none => simp only [Option.isNone_none, if_true, apply_ite Prod.fst]
  | some row =>
      have hroom := h.rooms _ row (own_of_found hi hx) (peerOf identity.participant)
      simp only [Option.isNone_some, Bool.false_eq_true, if_false, hroom.bound, apply_ite Prod.fst]

/-! ## Messages -/

/-- The socket that a message comes from. -/
def Operation.client : Operation → Option SocketId
  | .join socket _ => some socket
  | .offer socket _ => some socket
  | .answer socket _ => some socket
  | .iceCandidate socket _ => some socket
  | _ => none

/-- The session that a message names, if its payload passes the checks. -/
def Operation.namedId (v : Validator) : Operation → Option String
  | .join _ payload => joinId v payload
  | op => relayId v op

/-- The message is answered so when it runs alone, and no session changes. -/
def AnsweredAs (v : Validator) (m : MessageId) (env : Env) (op : Operation) (s : State)
    (response : Response) : Prop :=
  ∃ s' es, Ends m env (handle v op) s response s' es ∧ s'.sessions = s.sessions

variable {op : Operation} {response : Response}

/-- What is answered from a state is answered from every world with that state. -/
theorem AnsweredAs.run (h : AnsweredAs v m env op s response) {w : World} (hw : w.state = s) :
    ∃ w', (handle v op).runAlone (exec m env) w = some (.ok response, w') ∧
      w'.state.sessions = s.sessions := by
  rcases h with ⟨s', es, hends, hsessions⟩
  rcases hends w hw with ⟨w', hrun, hw', _⟩
  exact ⟨w', hrun, by rw [hw', hsessions]⟩

/-- A socket that is not connected sends no message. -/
theorem handle_disconnected (hop : op.client = some socket) {w : World}
    (hc : w.state.isConnected socket = false) :
    (handle v op).runAlone (exec m env) w = none := by
  have hstuck : ∀ k : Resp (.receive socket) → Service Response,
      (Prog.op (.receive socket) k).runAlone (exec m env) w = none := by
    intro k
    simp only [Prog.runAlone, exec, enabled, hc, Bool.false_eq_true, if_false]
  cases op
  case join | offer | answer | iceCandidate =>
    cases hop
    exact hstuck _
  all_goals cases hop

/-- A relay whose payload does not pass is refused. -/
theorem relay_malformed {T : Type} {names : List String}
    {ofFields : List (String × Json) → Option T} {idOf : T → String} {event : String}
    {relayed : T → SignalingParticipant → Payload}
    (hdto : (whitelisted v names payload).bind ofFields = none) :
    Ends m env (relay v names ofFields idOf event relayed socket identity payload) s
      (.relayRejected .invalidPayload) s [] := by
  simp only [relay, toDto, hdto]
  exact .await (.ret _)

/-- What a socket is answered that speaks for no one. -/
def unidentified : Operation → Response
  | .join _ _ => .join (.joinRejected .unauthorized)
  | _ => .relay (.relayRejected .unauthorized)

/-- A socket that speaks for no one is refused. -/
theorem handle_unidentified (hop : op.client = some socket) (hc : s.isConnected socket = true)
    (hi : s.identityOf socket = none) : AnsweredAs v m env op s (unidentified op) := by
  cases op
  case join | offer | answer | iceCandidate =>
    cases hop
    exact ⟨s, [], answered_refused hc hi, rfl⟩
  all_goals cases hop

/-- What a message is answered whose payload does not pass the checks. -/
def malformed : Operation → Response
  | .join _ _ => .join (.joinRejected .invalidPayload)
  | _ => .relay (.relayRejected .invalidPayload)

/-- A payload that does not pass is refused, of whatever kind the message is. -/
theorem handle_malformed (hop : op.client = some socket) (hc : s.isConnected socket = true)
    (hi : s.identityOf socket = some identity) (hx : op.namedId v = none) :
    AnsweredAs v m env op s (malformed op) := by
  refine ⟨s, [], ?_, rfl⟩
  cases op
  case join =>
    cases hop
    exact answered_ends hc hi (join_malformed hx).map
  case offer =>
    cases hop
    simp only [Operation.namedId, relayId, Option.map_eq_none_iff] at hx
    refine answered_ends hc hi (Ends.map ?_)
    unfold relayOffer relaySdp
    exact relay_malformed hx
  case answer =>
    cases hop
    simp only [Operation.namedId, relayId, Option.map_eq_none_iff] at hx
    refine answered_ends hc hi (Ends.map ?_)
    unfold SignalingService.relayAnswer relaySdp
    exact relay_malformed hx
  case iceCandidate =>
    cases hop
    simp only [Operation.namedId, relayId, Option.map_eq_none_iff] at hx
    refine answered_ends hc hi (Ends.map ?_)
    unfold relayIceCandidate
    exact relay_malformed hx
  all_goals cases hop

/-- A relay comes from the socket it names, and has one session in its payload. -/
theorem client_of_relayOf {client : SocketId} {event : String}
    {relayed : SignalingParticipant → Payload} (h : relayOf v op = some (client, event, relayed)) :
    op.client = some client ∧ op.namedId v = relayId v op := by
  cases op
  case offer | answer | iceCandidate =>
    simp only [relayOf, Option.map_eq_some_iff, Prod.mk.injEq] at h
    rcases h with ⟨_, _, rfl, _⟩
    exact ⟨rfl, rfl⟩
  all_goals cases h

/-- A message that passes the checks is a join or a relay. -/
theorem wellFormed_cases (hop : op.client = some socket) {x : String}
    (hx : op.namedId v = some x) :
    (∃ payload, op = .join socket payload ∧ joinId v payload = some x) ∨
      ∃ event relayed, relayOf v op = some (socket, event, relayed) ∧
        ∀ p, (relayed p).remoteSessionId = x := by
  cases hrelay : relayOf v op with
  | none =>
      have hnone := relayId_eq_none hrelay
      cases op
      case join client payload =>
        cases hop
        exact .inl ⟨payload, rfl, hx⟩
      case offer | answer | iceCandidate =>
        exact absurd (hx.symm.trans hnone) (Option.some_ne_none x)
      all_goals cases hop
  | some found =>
      rcases found with ⟨client, event, relayed⟩
      rcases client_of_relayOf hrelay with ⟨hclient, hnamed⟩
      rw [hop, Option.some.injEq] at hclient
      subst hclient
      refine .inr ⟨event, relayed, rfl, fun p => ?_⟩
      rw [hnamed, relayOf_eq_some hrelay p, Option.some.injEq] at hx
      exact hx

-- Whoever relays names the session in what is relayed.
/-- In two states that are the same to a socket its message is answered alike. -/
theorem same_answer (h : SameTo socket s s') (hop : op.client = some socket)
    (hc : s.isConnected socket = true) :
    ∃ response, AnsweredAs v m env op s response ∧ AnsweredAs v m env op s' response := by
  have hc' : s'.isConnected socket = true := h.isConnected.symm.trans hc
  cases hi : s.identityOf socket with
  | none =>
      have hi' : s'.identityOf socket = none := h.identityOf.symm.trans hi
      exact ⟨_, handle_unidentified hop hc hi, handle_unidentified hop hc' hi'⟩
  | some identity =>
      have hi' : s'.identityOf socket = some identity := h.identityOf.symm.trans hi
      cases hx : op.namedId v with
      | none => exact ⟨_, handle_malformed hop hc hi hx, handle_malformed hop hc' hi' hx⟩
      | some x =>
          rcases wellFormed_cases hop hx with ⟨payload, rfl, hjoin⟩ | ⟨event, relayed, hrelay, _⟩
          · have hends' : Ends m env (handle v (.join socket payload)) s' _ _ _ :=
              handle_join_ends hc' hi' hjoin
            rw [← h.joinAck hi x] at hends'
            exact ⟨_, ⟨_, _, handle_join_ends hc hi hjoin, sessions_joinAck⟩,
              ⟨_, _, hends', sessions_joinAck⟩⟩
          · have hends' : Ends m env (handle v op) s' _ _ _ := handle_relay_ends hc' hi' hrelay
            rw [← h.relayAck hi] at hends'
            exact ⟨_, ⟨_, _, handle_relay_ends hc hi hrelay, rfl⟩, ⟨_, _, hends', rfl⟩⟩

/-- What a message is answered about a session that is not the owner's: it
    depends on what the socket has joined, and not on whether there is such a
    session. -/
def refusal (joined : Option String) (x : String) : Operation → Response
  | .join _ _ => .join (.joinRejected .unauthorized)
  | _ => .relay (.relayRejected (if joined = some x then .unauthorized else .notJoined))

/-- A message about a session that is not the owner's. It is not found, whether it
    exists or not, so that only what the socket has joined makes a difference. -/
theorem handle_foreign (hop : op.client = some socket) (hc : s.isConnected socket = true)
    (hi : s.identityOf socket = some identity) {x : String} (hx : op.namedId v = some x)
    (hno : s.ownSessions socket (canonical x) = none) :
    AnsweredAs v m env op s (refusal (s.remoteSessionId socket) x op) := by
  rcases wellFormed_cases hop hx with ⟨payload, rfl, hjoin⟩ | ⟨event, relayed, hrelay, hid⟩
  · have hends : Ends m env (handle v (.join socket payload)) s _ _ _ :=
      handle_join_ends hc hi hjoin
    -- After leaving, the sessions of the owner are still the same.
    have hnone : (leftState s socket).findJoinable x identity = none := by
      rw [findJoinable_eq (keepsOwn_left.identity.trans hi), keepsOwn_left.ownSessions, hno]
      rfl
    have hack : (joinAck env s socket identity x).1 = .joinRejected .unauthorized := by
      simp only [joinAck, hnone]
    rw [hack] at hends
    exact ⟨_, _, hends, sessions_joinAck⟩
  · have hends : Ends m env (handle v op) s _ _ _ := handle_relay_ends hc hi hrelay
    have hnone : s.findJoinable x identity = none := by
      rw [findJoinable_eq hi, hno]
      rfl
    have hack : (relayAck s socket identity x event (relayed identity.participant)).1 =
        .relayRejected (if s.remoteSessionId socket = some x then .unauthorized
          else .notJoined) := by
      simp only [relayAck, hnone, Option.isNone_none, if_true]
      by_cases hjoined : s.remoteSessionId socket = some x
      · rw [if_neg (not_not.mpr hjoined), if_pos hjoined]
      · rw [if_pos hjoined, if_neg hjoined]
    rw [hid, hack] at hends
    cases op
    case offer | answer | iceCandidate => exact ⟨s, _, hends, rfl⟩
    all_goals cases hrelay

end RemoteControl.Signaling

import RemoteControl.Theory.SignalingTraces

/-!
# A Message That Runs Alone

What a message answers, does and emits when no other handler gets a turn. It
then is a function of the state it comes in, and this module says which one.

`Ends` composes like the handlers do: one rule for an operation, one for a
wait and one for a sequence. The history only matters for what was emitted, so
a result is about every world in that state.

An equation for a program says all three things at once, what it returns, what
it leaves and what it emits, and it does so for a state and not for a world,
so that equations compose: the state that the first program leaves is the one
in which the next is looked up. The functions on the right are written in the
order of the source, so each lemma follows its program operation by operation.

## Main definitions

* `Ends`: What a program returns, leaves and emits.
* `look`, `leftState`, `enteredState`: The parts of a join.
* `joinAck`, `relayAck`: The answers to a join and to a relay.

## Theorems

* `Ends.bind`: Sequencing.
* `handle_join_ends`, `handle_join_refused`, `handle_relay_ends`: The handlers.
-/

namespace RemoteControl.Signaling

open Concurrency Encoding SignalingRealtimeService SignalingService

/-- The operation emits to a room. -/
def Op.isEmission : Op → Bool
  | .emit _ _ _ _ => true
  | _ => false

/-- What was emitted, the newest first. -/
def emissions (l : List Entry) : List Op := (l.map Entry.op).filter Op.isEmission

/-- In this state and environment the program returns `a`, leaves the state
    `s'` and emits `es`. -/
def Ends {α : Type} (m : MessageId) (env : Env) (p : Service α) (s : State) (a : α) (s' : State)
    (es : List Op) : Prop :=
  ∀ w, w.state = s → ∃ w', p.runAlone (exec m env) w = some (.ok a, w') ∧ w'.state = s' ∧
    emissions w'.log = es ++ emissions w.log

/-! ## Rules -/

variable {α β : Type} {m : MessageId} {env : Env} {s s' s'' : State} {es es' : List Op}

/-- To return leaves everything as it is. -/
theorem Ends.ret (a : α) : Ends m env (.ret a) s a s [] := fun w hw => ⟨w, rfl, hw, rfl⟩

/-- A wait ends nothing: the handler goes on where it was, with nobody in between. -/
theorem Ends.await {p : Service α} {a : α} (h : Ends m env p s a s' es) :
    Ends m env (.await p) s a s' es := h

/-- Sequencing: the second program begins where the first has ended, and what was
    emitted adds up, the newest first. -/
theorem Ends.bind {p : Service α} {f : α → Service β} {a : α} {b : β} (h : Ends m env p s a s' es)
    (hf : Ends m env (f a) s' b s'' es') : Ends m env (p.bind f) s b s'' (es' ++ es) := by
  intro w hw
  rcases h w hw with ⟨w', hp, hw', hlog⟩
  rcases hf w' hw' with ⟨w'', hfa, hw'', hlog'⟩
  refine ⟨w'', ?_, hw'', ?_⟩
  · rw [Prog.runAlone_bind, hp]
    exact hfa
  · rw [hlog', hlog, List.append_assoc]

/-- Sequencing, when the first program emits nothing. -/
theorem Ends.first {p : Service α} {f : α → Service β} {a : α} {b : β}
    (h : Ends m env p s a s' []) (hf : Ends m env (f a) s' b s'' es) :
    Ends m env (p.bind f) s b s'' es := by
  have hboth := h.bind hf
  rw [List.append_nil] at hboth
  exact hboth

/-- Sequencing, when the second program emits nothing. -/
theorem Ends.last {p : Service α} {f : α → Service β} {a : α} {b : β}
    (h : Ends m env p s a s' es) (hf : Ends m env (f a) s' b s'' []) :
    Ends m env (p.bind f) s b s'' es := h.bind hf

/-- A function of the result. -/
theorem Ends.map {p : Service α} {f : α → β} {a : α} (h : Ends m env p s a s' es) :
    Ends m env (f <$> p) s (f a) s' es :=
  h.last (f := fun a => Prog.ret (f a)) (.ret (f a))

/-- An operation that can happen, and what comes after its answer. -/
theorem Ends.op {o : Op} {k : Resp o → Service α} {a : α} (he : enabled s o = true)
    (hk : Ends m env (k (answer env s o)) (effect s o) a s' es) :
    Ends m env (.op o k) s a s' (es ++ [o].filter Op.isEmission) := by
  rintro w rfl
  -- The world after the operation has its state, and one entry more.
  rcases hk ⟨effect w.state o, ⟨m, o, answer env w.state o⟩ :: w.log⟩ rfl with
    ⟨w', hrun, hw', hlog⟩
  refine ⟨w', ?_, hw', ?_⟩
  · simp only [Prog.runAlone, exec, he, if_true]
    exact hrun
  · rw [hlog, List.append_assoc]
    congr 1
    simp only [emissions, List.map_cons, List.filter_cons, List.filter_nil]
    split
    · rfl
    · rfl

/-- An operation that emits nothing. -/
theorem Ends.quiet {o : Op} {k : Resp o → Service α} {a : α} (he : enabled s o = true)
    (ho : o.isEmission = false) (hk : Ends m env (k (answer env s o)) (effect s o) a s' es) :
    Ends m env (.op o k) s a s' es := by
  have h := Ends.op he hk
  rw [List.filter_cons_of_neg (by rw [ho]; exact Bool.false_ne_true), List.filter_nil,
    List.append_nil] at h
  exact h

/-- A program has one end. Both are what the program computes in that world. -/
theorem Ends.eq {p : Service α} {a b : α} {w w' : World} (h : Ends m env p w.state a s' es)
    (hx : p.runAlone (exec m env) w = some (.ok b, w')) :
    b = a ∧ w'.state = s' ∧ emissions w'.log = es ++ emissions w.log := by
  rcases h w rfl with ⟨w'', hrun, hw'', hlog⟩
  rw [hrun, Option.some.injEq, Prod.mk.injEq, Except.ok.injEq] at hx
  rw [← hx.1, ← hx.2]
  exact ⟨rfl, hw'', hlog⟩

/-! ## The parts of a handler -/

variable {v : Validator} {socket : SocketId} {identity : SignalingIdentity} {payload : Json}

/-- What a look at the room of a session finds. -/
def look (env : Env) (s : State) (p : SignalingParticipant) (id : String) : Bool :=
  s.bound p && !env.fetchFails && !(s.rooms p (remoteSessionRoom id)).isEmpty

/-- A look changes nothing. It sees nobody where the namespace is not there, or
    where the sockets could not be fetched. -/
theorem look_ends {p : SignalingParticipant} {id : String} :
    Ends m env (hasParticipantInSession p id) s (look env s p id) s [] := by
  refine .quiet rfl rfl ?_
  simp only [look]
  change Ends m env (if s.bound p = true then _ else _) s _ s []
  cases s.bound p with
  | false => exact .await (.ret _)
  | true =>
      refine .quiet rfl rfl (.await ?_)
      simp only [answer]
      cases env.fetchFails with
      | true => exact .ret _
      | false => exact .ret _

/-- The socket forgets the session it is in, and leaves its room. -/
def leftState (s : State) (socket : SocketId) : State :=
  match s.remoteSessionId socket with
  | none => s
  | some id => effect (effect s (.setRemoteSessionId socket none))
      (.leaveRoom socket (remoteSessionRoom id))

/-- To leave a session: it is forgotten first, and then its room is left. -/
theorem leave_ends : Ends m env (leaveCurrentSession socket) s () (leftState s socket) [] := by
  refine .quiet rfl rfl ?_
  simp only [leftState, answer, effect]
  cases s.remoteSessionId socket with
  | none => exact .await (.ret _)
  | some id => exact .quiet rfl rfl (.quiet rfl rfl (.await (.ret _)))

/-- A query answers as the state has it. -/
theorem find_ends {id : String} :
    Ends m env (findJoinableSession id identity) s (s.findJoinable id identity) s [] :=
  .await (.quiet rfl rfl (.await (.ret _)))

/-- The socket enters the room of a session, and has it stored. -/
def enteredState (s : State) (socket : SocketId) (id : String) : State :=
  effect (effect s (.joinRoom socket (remoteSessionRoom id)))
    (.setRemoteSessionId socket (some id))

/-- An emission to a namespace that is there. -/
theorem emission_ends {p : SignalingParticipant} {id event : String} {relayed : Payload}
    (h : s.bound p = true) : Ends m env (emitToParticipantSession p id event relayed) s true s
      [.emit p (remoteSessionRoom id) event relayed] := by
  refine .quiet rfl rfl ?_
  change Ends m env (if s.bound p = true then _ else _) s _ s _
  rw [if_pos h]
  have hemit : Ends m env (.op (.emit p (remoteSessionRoom id) event relayed)
      (fun _ => Prog.ret true)) s true s
      ([] ++ [Op.emit p (remoteSessionRoom id) event relayed].filter Op.isEmission) :=
    .op rfl (.ret true)
  exact hemit

/-- What is emitted when a side comes to a session where the other one waits. -/
def announcement (identity : SignalingIdentity) (id : String) (own peer : Bool) : List Op :=
  if (peer && !own) = true then
    [.emit (peerOf identity.participant) (remoteSessionRoom id) remoteSessionPeerJoinedEvent
      (.peerJoined id)]
  else []

/-- A join that was admitted looks at its own side, enters, is stored, and looks
    at the other side. It announces itself only if its own side was not there
    before and the other one is there. -/
theorem enter_ends {row : RemoteSessionRow} {own peer : Bool}
    (hown : own = look env s identity.participant row.id)
    (hpeer : peer = look env (enteredState s socket row.id) (peerOf identity.participant) row.id) :
    Ends m env (enterSession socket identity row) s (.joined row.id peer)
      (enteredState s socket row.id) (announcement identity row.id own peer) := by
  rw [hown]
  -- The look at the own side comes before the socket enters.
  refine look_ends.first (.quiet rfl rfl (.await (.quiet rfl rfl ?_)))
  -- The look at the other side comes after.
  have hlook : Ends m env (hasParticipantInSession (peerOf identity.participant) row.id)
      (enteredState s socket row.id) peer (enteredState s socket row.id) [] := by
    rw [hpeer]
    exact look_ends
  refine hlook.first ?_
  rw [← hown, announcement]
  split
  · rename_i hboth
    -- The namespace of the side that was seen is there.
    have hbound : (enteredState s socket row.id).bound (peerOf identity.participant) = true := by
      simp only [Bool.and_eq_true] at hboth
      rw [hboth.1] at hpeer
      simp only [look, Bool.true_eq, Bool.and_eq_true] at hpeer
      exact hpeer.1.1
    have hannounced : Ends m env (announceToPeer identity row.id) _ () _ _ :=
      (emission_ends hbound).last (.ret ())
    exact hannounced.last (.ret _)
  · exact .ret _

/-! ## A join -/

/-- What a join is answered whose payload names the session `x`, what it leaves
    and what it emits. -/
def joinAck (env : Env) (s : State) (socket : SocketId) (identity : SignalingIdentity)
    (x : String) : JoinRemoteSessionAck × State × List Op :=
  let left := leftState s socket
  match left.findJoinable x identity with
  | none => (.joinRejected .unauthorized, left, [])
  | some row =>
    let entered := enteredState left socket row.id
    let peer := look env entered (peerOf identity.participant) row.id
    (.joined row.id peer, entered,
      announcement identity row.id (look env left identity.participant row.id) peer)

/-- A join with a payload that passes its checks: it leaves, asks the database for
    the session, and enters it or is rejected. -/
theorem join_ends {x : String} (hx : joinId v payload = some x) :
    Ends m env (SignalingService.join v socket identity payload) s
      (joinAck env s socket identity x).1 (joinAck env s socket identity x).2.1
      (joinAck env s socket identity x).2.2 := by
  rcases Option.map_eq_some_iff.mp hx with ⟨dto, hdto, rfl⟩
  simp only [SignalingService.join, toDto, hdto]
  refine Ends.await (leave_ends.first (find_ends.first ?_))
  simp only [joinAck]
  cases (leftState s socket).findJoinable dto.remoteSessionId identity with
  | none => exact .ret _
  | some row => exact enter_ends rfl rfl

/-- A join whose payload fails its checks leaves everything as it is. -/
theorem join_malformed (hx : joinId v payload = none) :
    Ends m env (SignalingService.join v socket identity payload) s (.joinRejected .invalidPayload)
      s [] := by
  have hdto := Option.map_eq_none_iff.mp hx
  simp only [SignalingService.join, toDto, hdto]
  exact .await (.ret _)

/-- A message of a connected socket that has an identity. It is received, its
    identity is read, and its answer is acknowledged; none of these emits. -/
theorem answered_ends {rejected response : Response}
    {body : SignalingIdentity → Service Response} (hc : s.isConnected socket = true)
    (hi : s.identityOf socket = some identity) (h : Ends m env (body identity) s response s' es) :
    Ends m env (answered socket (withIdentity socket rejected body)) s response s' es := by
  refine .quiet hc rfl ?_
  have hbody : Ends m env (withIdentity socket rejected body) s response s' es := by
    refine .quiet rfl rfl ?_
    simp only [answer, hi]
    exact h
  have hboth := hbody.bind (f := fun response => Prog.op (.ack response) (fun _ => .ret response))
    (.quiet rfl rfl (.ret _))
  exact hboth

/-- A message of a connected socket that has none. -/
theorem answered_refused {rejected : Response} {body : SignalingIdentity → Service Response}
    (hc : s.isConnected socket = true) (hi : s.identityOf socket = none) :
    Ends m env (answered socket (withIdentity socket rejected body)) s rejected s [] := by
  refine .quiet hc rfl ?_
  have hbody : Ends m env (withIdentity socket rejected body) s rejected s [] := by
    refine .quiet rfl rfl ?_
    simp only [answer, hi]
    exact .ret _
  have hboth := hbody.bind (f := fun response => Prog.op (.ack response) (fun _ => .ret response))
    (.quiet rfl rfl (.ret _))
  exact hboth

/-- The join, from its receipt to its acknowledgement. -/
theorem handle_join_ends {x : String} (hc : s.isConnected socket = true)
    (hi : s.identityOf socket = some identity) (hx : joinId v payload = some x) :
    Ends m env (handle v (.join socket payload)) s
      (.join (joinAck env s socket identity x).1) (joinAck env s socket identity x).2.1
      (joinAck env s socket identity x).2.2 :=
  answered_ends hc hi (join_ends hx).map

/-- A join without an identity is rejected, and its payload is not looked at. -/
theorem handle_join_refused (hc : s.isConnected socket = true) (hi : s.identityOf socket = none) :
    Ends m env (handle v (.join socket payload)) s (.join (.joinRejected .unauthorized)) s [] :=
  answered_refused hc hi

/-! ## A relay -/

/-- What a relay is answered whose payload names the session `id`, and what it
    emits. It changes nothing. -/
def relayAck (s : State) (socket : SocketId) (identity : SignalingIdentity) (id event : String)
    (relayed : Payload) : SignalingRelayAck × List Op :=
  if s.remoteSessionId socket ≠ some id then (.relayRejected .notJoined, [])
  else if (s.findJoinable id identity).isNone = true then (.relayRejected .unauthorized, [])
  else if s.bound (peerOf identity.participant) = true then
    (.delivered id, [.emit (peerOf identity.participant) (remoteSessionRoom id) event relayed])
  else (.relayRejected .unavailable, [])

/-- A relay with a payload that passes its checks is refused by the session on its
    socket, by the database, or by a namespace that is not there, in this order,
    and otherwise emitted. -/
theorem relay_ends {T : Type} {names : List String} {ofFields : List (String × Json) → Option T}
    {idOf : T → String} {event : String} {relayed : T → SignalingParticipant → Payload} {dto : T}
    (hdto : (whitelisted v names payload).bind ofFields = some dto) :
    Ends m env (relay v names ofFields idOf event relayed socket identity payload) s
      (relayAck s socket identity (idOf dto) event (relayed dto identity.participant)).1 s
      (relayAck s socket identity (idOf dto) event (relayed dto identity.participant)).2 := by
  simp only [relay, toDto, hdto, authorizeRelay]
  refine Ends.await (.quiet rfl rfl ?_)
  simp only [relayAck]
  change Ends m env
    (Prog.bind (if s.remoteSessionId socket ≠ some (idOf dto) then _ else _) _) s _ s _
  -- The session on the socket, as a string.
  split
  · exact .await (.ret _)
  · refine (find_ends.last (f := fun found => Prog.ret
      (if found.isSome = true then none else some SignalingErrorCode.unauthorized))
      -- The session in the database.
      (.ret _)).first ?_
    cases hfound : s.findJoinable (idOf dto) identity with
    | none => exact .ret _
    | some row =>
        simp only [Option.isSome_some, Option.isNone_some, if_true, Bool.false_eq_true, if_false]
        -- The namespace of the other side.
        split
        · rename_i hbound
          exact (emission_ends hbound).last (.ret _)
        · rename_i hbound
          have hdropped : Ends m env (emitToParticipantSession (peerOf identity.participant)
              (idOf dto) event (relayed dto identity.participant)) s false s [] := by
            refine .quiet rfl rfl ?_
            change Ends m env
              (if s.bound (peerOf identity.participant) = true then _ else _) s _ s _
            rw [if_neg hbound]
            exact .ret _
          exact hdropped.last (.ret _)

/-- A relay whose payload passes its checks. The three messages differ in their
    fields and their event. -/
theorem handle_relay_ends {op : Operation} {event : String}
    {relayed : SignalingParticipant → Payload} (hc : s.isConnected socket = true)
    (hi : s.identityOf socket = some identity)
    (hrelay : relayOf v op = some (socket, event, relayed)) :
    Ends m env (handle v op) s
      (.relay (relayAck s socket identity (relayed identity.participant).remoteSessionId event
        (relayed identity.participant)).1) s
      (relayAck s socket identity (relayed identity.participant).remoteSessionId event
        (relayed identity.participant)).2 := by
  cases op
  case offer =>
    simp only [relayOf, Option.map_eq_some_iff, Prod.mk.injEq] at hrelay
    rcases hrelay with ⟨dto, hdto, rfl, rfl, rfl⟩
    refine answered_ends hc hi (Ends.map ?_)
    unfold relayOffer relaySdp
    exact relay_ends hdto
  case answer =>
    simp only [relayOf, Option.map_eq_some_iff, Prod.mk.injEq] at hrelay
    rcases hrelay with ⟨dto, hdto, rfl, rfl, rfl⟩
    refine answered_ends hc hi (Ends.map ?_)
    unfold SignalingService.relayAnswer relaySdp
    exact relay_ends hdto
  case iceCandidate =>
    simp only [relayOf, Option.map_eq_some_iff, Prod.mk.injEq] at hrelay
    rcases hrelay with ⟨dto, hdto, rfl, rfl, rfl⟩
    refine answered_ends hc hi (Ends.map ?_)
    unfold relayIceCandidate
    exact relay_ends hdto
  all_goals cases hrelay

end RemoteControl.Signaling

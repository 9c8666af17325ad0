import RemoteControl.Theory.Readiness

/-!
# Whom the Signaling Reaches

Every room of the signaling belongs to the two owners of one session: whoever
is in it has joined the session, the database has admitted the join, and the
owners of a session never change (`member_owns`). So what is emitted to the
room reaches the owner on that side and nobody else.

What is relayed comes from the other owner. The session a socket has joined
was written down on it after the database had admitted it, under the spelling
of the database, and the relay asks the database again (`relayed_properly`). A
join announces itself only on the way to its acknowledgement, and only in the
session it was admitted to (`announced_properly`).

Two invariants carry this. The rows of the sessions keep their owners, so that
a session that was admitted once is still owned by whom it was admitted to
(`admitted_row`). And the memory of a socket is only ever written by a join,
after its admission (`stored_since`), so that what a relay finds there was
admitted to this socket, under the spelling of the database.

A name of a room determines its session. So it does not matter who else emits
to a room: the members are the same.

## Main definitions

* `ReachesOwner`: Who is in the room of a session on a side.
* `Relayed`, `AnnouncedBy`: What stands behind an emission.

## Theorems

* `member_owns`: Whoever is in the room of a session owns it.
* `stored_since`: The session on a socket was written there by a join.
* `signaling_confidential`: Every emission of a run.
* `admitted_row`: An admitted session is there ever after.
* `stored_effect`, `stored_canonical`: What is stored on a socket, and how it
  is spelled.
* `relayed_properly`, `announced_properly`: What is behind the two kinds of
  emission.
* `answer_of_announced`: How a join that announces itself is answered.
-/

namespace RemoteControl.Signaling

open Concurrency Encoding

variable {v : Validator} {messages : MessageId → Operation} {P : Env → Prop} {l l' : List Entry}

/-- Everybody in the room of the session on this side is the owner on this
    side. -/
def ReachesOwner (s : State) (p : SignalingParticipant) (row : RemoteSessionRow) : Prop :=
  ∀ t ∈ s.rooms p (remoteSessionRoom row.id), ∃ b, s.sockets t = some b ∧ b.participant = p ∧
    b.context = some (row.owner p)

/-- Behind the emission, by message `m` after the history `l`, stands a relay:
    the sender is the other owner of the session, the session was found on its
    socket after the message came in, and was live after that. -/
structure Relayed (v : Validator) (messages : MessageId → Operation) (m : MessageId)
    (l : List Entry) (p : SignalingParticipant) (event : String) (payload : Payload)
    (row : RemoteSessionRow) : Prop where
  session : (replay l).sessions payload.remoteSessionId = some row
  sender : payload.sender = some (peerOf p)
  reads : ∃ socket a relayed row' lm lg lr identity,
    relayOf v (messages m) = some (socket, event, relayed) ∧ payload = relayed (peerOf p) ∧
    (replay l).sockets socket = some a ∧ a.participant = peerOf p ∧
    a.context = some (row.owner (peerOf p)) ∧
    entry m (.findJoinable payload.remoteSessionId identity) (some row') :: lr <:+ l ∧
    (replay lr).sessions payload.remoteSessionId = some row' ∧ row'.isLive = true ∧
    entry m (.remoteSessionId socket) (some payload.remoteSessionId) :: lg <:+ lr ∧
    (replay lg).remoteSessionId socket = some payload.remoteSessionId ∧
    entry m (.receive socket) () :: lm <:+ lg

/-- Behind the emission stands a join of the session, which the database has
    admitted, and which was answered with nothing else than having joined. -/
structure AnnouncedBy (v : Validator) (messages : MessageId → Operation) (log : List Entry)
    (m : MessageId) (l : List Entry) (p : SignalingParticipant) (payload : Payload)
    (row : RemoteSessionRow) : Prop where
  session : (replay l).sessions row.id = some row
  payload : payload = .peerJoined row.id
  join : ∃ socket json x a row' lr identity, messages m = .join socket json ∧
    joinId v json = some x ∧ canonical x = row.id ∧ (replay l).sockets socket = some a ∧
    a.participant = peerOf p ∧ a.context = some (row.owner (peerOf p)) ∧
    entry m (.findJoinable x identity) (some row') :: lr <:+ l ∧
    (replay lr).sessions row.id = some row' ∧ row'.isLive = true
  answer : ∀ r, entry m (.ack r) () ∈ log → r = .join (.joined row.id true)

/-! ## The rooms -/

/-- The spelling of the database is its own. -/
theorem canonical_canonical (id : String) : canonical (canonical id) = canonical id :=
  LowerCase.ascii.keeps _ (LowerCase.ascii.settles id)

/-- A session that the database has admitted is there ever after, under the
    spelling of the database, and belongs to whom it was admitted to. -/
theorem admitted_row {lr : List Entry} {x : String} {identity : SignalingIdentity}
    {row : RemoteSessionRow} (ha : Answered P l) (hlr : lr <:+ l)
    (h : (replay lr).findJoinable x identity = some row) : ∃ row',
      (replay l).sessions row.id = some row' ∧ row'.id = row.id ∧
      row'.owner identity.participant = identity.id ∧ canonical row.id = row.id := by
  have hid := row_id (ha.suffix hlr).wellFormed h
  rcases findJoinable_eq_some h with ⟨hs, howner, _⟩
  rw [← hid] at hs
  rcases (ha.later hlr).sessions row.id row hs with ⟨row', hs', ho, _⟩
  -- The owner of a session never changes, so it is still the one that was admitted.
  refine ⟨row', hs', ha.wellFormed.rows _ _ hs', ?_, ?_⟩
  · rw [ho]
    exact howner
  · rw [hid]
    exact canonical_canonical x

/-- Whoever is in the room of a session owns it on that side. -/
theorem member_owns {row : RemoteSessionRow} {p : SignalingParticipant} (ha : Answered P l)
    (ho : Orderly v messages l) (hs : (replay l).sessions row.id = some row) :
    ReachesOwner (replay l) p row := by
  intro t ht
  rcases entered_since ht with ⟨e, l', he, hop, ⟨a, ha', hp⟩, _⟩
  have hin := ho e l' he
  rw [hop] at hin
  rcases hin with ⟨payload, x, identity, row', present, hjoin, hx, hready, hroom⟩
  have hbefore : l' <:+ l := (List.suffix_cons e l').trans he
  rcases hready.at (ha.suffix hbefore) with ⟨lr, b, hlr, hrow, _, hb, hbp, hbc⟩
  have hlr' : lr <:+ l := ((List.suffix_cons _ lr).trans hlr).trans hbefore
  rcases admitted_row ha hlr' hrow with ⟨row'', hs', _, howner, _⟩
  -- The room names the session that was admitted.
  rw [← remoteSessionRoom_inj hroom, hs, Option.some.injEq] at hs'
  subst hs'
  rw [ha', Option.some.injEq] at hb
  subst hb
  rcases (ha.later hbefore).sockets t a ha' with ⟨c, hc, hcp, hcc⟩
  rw [hp] at hbp
  refine ⟨c, hc, hcp.trans hp, ?_⟩
  rw [hcc, hbc, hbp, howner]

/-! ## The session on a socket -/

/-- What is stored on a socket was there before, or was just written. A room, a
    new connection and a disconnection leave it or forget it. -/
theorem stored_effect {s : State} {o : Op} {socket : SocketId} {id : String}
    (h : (effect s o).remoteSessionId socket = some id) :
    s.remoteSessionId socket = some id ∨ o = .setRemoteSessionId socket (some id) := by
  have hset : ∀ {m : SocketId} {b : Socket}, (s.setSocket m b).remoteSessionId socket = some id →
      s.remoteSessionId socket = some id ∨ m = socket ∧ b.remoteSessionId = some id := by
    intro m b h
    by_cases hm : socket = m
    · subst hm
      simp only [State.remoteSessionId, State.setSocket, Function.update_self,
        Option.bind_some] at h
      exact .inr ⟨rfl, h⟩
    · simp only [State.remoteSessionId, State.setSocket, Function.update_of_ne hm] at h
      exact .inl h
  cases o
  case setRemoteSessionId m remoteSessionId =>
    simp only [Signaling.effect] at h
    split at h
    · exact .inl h
    · rcases hset h with hold | ⟨rfl, hnew⟩
      · exact .inl hold
      · exact .inr (by rw [← hnew])
  case joinRoom m room =>
    simp only [Signaling.effect] at h
    split at h
    · exact .inl h
    · split at h
      · exact .inl h
      · exact .inl h
  case leaveRoom m room =>
    simp only [Signaling.effect] at h
    split at h
    · exact .inl h
    · exact .inl h
  case connect m p context =>
    -- A new socket has nothing stored on it.
    simp only [Signaling.effect] at h
    by_cases hm : socket = m
    · subst hm
      simp only [State.remoteSessionId, State.setSocket, Function.update_self,
        Option.bind_some, reduceCtorEq] at h
    · simp only [State.remoteSessionId, State.setSocket, Function.update_of_ne hm] at h
      exact .inl h
  case disconnect m =>
    simp only [Signaling.effect] at h
    split at h
    · exact .inl h
    · rename_i a hs
      rcases hset h with hold | ⟨rfl, hnew⟩
      · exact .inl hold
      · refine .inl ?_
        rw [State.remoteSessionId, hs, Option.bind_some]
        exact hnew
  all_goals exact .inl h

/-- The session on a socket was written there. -/
theorem stored_since {socket : SocketId} {id : String}
    (h : (replay l).remoteSessionId socket = some id) :
    ∃ e l', e :: l' <:+ l ∧ e.op = .setRemoteSessionId socket (some id) := by
  induction l with
  | nil => cases h
  | cons e l ih =>
      rcases stored_effect h with hold | ho
      · rcases ih hold with ⟨e', l', hs, ho⟩
        exact ⟨e', l', hs.trans (List.suffix_cons e l), ho⟩
      · exact ⟨e, l, List.suffix_rfl, ho⟩

/-- The session on a socket is spelled as the database does. -/
theorem stored_canonical {socket : SocketId} {id : String} (ha : Answered P l)
    (ho : Orderly v messages l) (h : (replay l).remoteSessionId socket = some id) :
    canonical id = id := by
  rcases stored_since h with ⟨e, l', he, hop⟩
  have hin := ho e l' he
  rw [hop] at hin
  rcases hin with ⟨payload, x, identity, row, present, before, _, _, hready, rfl, htr⟩
  rcases marksOf_cons htr with ⟨lj, hlj, rfl, _⟩
  have hbefore : lj <:+ l :=
    ((List.suffix_cons _ lj).trans hlj).trans ((List.suffix_cons e l').trans he)
  -- What a join stores is the id of the row it was shown.
  rcases hready.at (ha.suffix hbefore) with ⟨lr, _, hlr, hrow, _⟩
  rcases admitted_row ha (((List.suffix_cons _ lr).trans hlr).trans hbefore) hrow with
    ⟨_, _, _, _, hcanonical⟩
  exact hcanonical

/-! ## Emissions -/

/-- What is relayed names the side it comes from, and is one of three events. -/
theorem relayOf_sender {op : Operation} {socket : SocketId} {event : String}
    {relayed : SignalingParticipant → Payload} (h : relayOf v op = some (socket, event, relayed)) :
    (∀ p, (relayed p).sender = some p) ∧
      event ∈ [webrtcOfferEvent, webrtcAnswerEvent, webrtcIceCandidateEvent] := by
  cases op
  case offer | answer | iceCandidate =>
    simp only [relayOf, Option.map_eq_some_iff, Prod.mk.injEq] at h
    rcases h with ⟨dto, _, rfl, rfl, rfl⟩
    exact ⟨fun _ => rfl, by decide⟩
  all_goals cases h

/-- A message that is relayed was found to come from the other owner. -/
theorem relayed_properly {m : MessageId} {p : SignalingParticipant} {room event : String}
    {payload : Payload} (ha : Answered P l) (ho : Orderly v messages l)
    (h : MayRelay v (messages m) m (own m l) p room event payload) :
    ∃ row, row.id = payload.remoteSessionId ∧ room = remoteSessionRoom row.id ∧
      Relayed v messages m l p event payload row := by
  rcases h with ⟨socket, relayed, identity, row, hrelay, hcleared, rfl, rfl, hpayload⟩
  rcases marksOf_cons hcleared with ⟨lb, hlb, hmarks, _⟩
  rcases marksOf_cons hmarks with ⟨lr, hlr, hmarks, _⟩
  rcases marksOf_cons hmarks with ⟨lg, hlg, hreceived, _⟩
  have hlb' : lb <:+ l := (List.suffix_cons _ lb).trans hlb
  have hlr' : lr <:+ l := ((List.suffix_cons _ lr).trans hlr).trans hlb'
  have hlg' : lg <:+ l := ((List.suffix_cons _ lg).trans hlg).trans hlr'
  rcases received_at (ha.suffix hlg') hreceived with ⟨li, a, hli, hcame, hs, hp, hc⟩
  rcases exists_suffix hcame with ⟨lm, hlm⟩
  -- The session on the socket has the spelling of the database.
  rcases (ha.suffix (hlr'.trans List.suffix_rfl)).answer_eq hlg with ⟨_, _, hstored⟩
  have hstored' : (replay lg).remoteSessionId socket = some payload.remoteSessionId := hstored.symm
  have hcanonical := stored_canonical (ha.suffix hlg')
    (fun e l' he => ho e l' (he.trans hlg')) hstored'
  rcases (ha.suffix hlb').answer_eq hlr with ⟨_, _, hfound⟩
  have hrow : (replay lr).findJoinable payload.remoteSessionId identity = some row := hfound.symm
  rcases findJoinable_eq_some hrow with ⟨hsession, howner, hlive⟩
  rw [hcanonical] at hsession
  rcases (ha.later hlr').sessions _ row hsession with ⟨row', hsession', howner', _⟩
  rcases (ha.later hlg').sockets socket a hs with ⟨b, hb, hbp, hbc⟩
  have hid := ha.wellFormed.rows _ _ hsession'
  refine ⟨row', hid, by rw [hid], hsession', ?_, socket, b, relayed, row, lm, lg, lr, identity,
    hrelay, ?_, hb, ?_, ?_, hlr.trans hlb', hsession, hlive, hlg, hstored',
    hlm.trans ((List.suffix_cons _ li).trans hli)⟩
  · rw [hpayload, peerOf_peerOf]
    exact (relayOf_sender hrelay).1 _
  · rw [peerOf_peerOf]
    exact hpayload
  · rw [peerOf_peerOf]
    exact hbp.trans hp
  · rw [peerOf_peerOf, hbc, hc, howner', howner]

/-- A join that has settled has not emitted anything and was not answered. -/
theorem Settled.unspoken {m : MessageId} {socket : SocketId} {identity : SignalingIdentity}
    {x : String} {row : RemoteSessionRow} {present peer : Bool} {tr : List Entry} {d : Entry}
    (h : Settled m socket identity x row present peer tr) (hd : d ∈ tr) :
    (∀ p room event payload, d.op ≠ .emit p room event payload) ∧ ∀ r, d.op ≠ .ack r := by
  -- Up to here the join has looked, left, and entered the room.
  have hquiet : d.op.isQuiet = true ∨ d.op = .joinRoom socket (remoteSessionRoom row.id) := by
    rcases h with ⟨looked, before, hlooked, hready, rfl⟩
    simp only [List.mem_append, List.mem_cons, List.not_mem_nil, or_false] at hd
    rcases hd with (hd | rfl | rfl) | hd
    · exact .inl (hlooked.silent silent_nil d (List.mem_append_left [] hd))
    · exact .inl rfl
    · exact .inr rfl
    · exact .inl (hready.silent d hd)
  rcases hquiet with hquiet | hquiet
  · refine ⟨fun p room event payload hop => ?_, fun r hop => ?_⟩
    · rw [hop] at hquiet
      cases hquiet
    · rw [hop] at hquiet
      cases hquiet
  · refine ⟨fun p room event payload hop => ?_, fun r hop => ?_⟩
    · rw [hop] at hquiet
      cases hquiet
    · rw [hop] at hquiet
      cases hquiet

/-- The acknowledgement of a join that has announced itself. -/
theorem answer_of_announced {e : Entry} {socket : SocketId} {json : Json}
    {p : SignalingParticipant} {room event id : String} {r : Response} (ho : Orderly v messages l)
    (he : e :: l' <:+ l) (hop : e.op = .emit p room event (.peerJoined id))
    (hjoin : messages e.message = .join socket json)
    (hbefore : ∀ d ∈ own e.message l', ∀ r, d.op ≠ .ack r)
    (hr : entry e.message (.ack r) () ∈ l) : r = .join (.joined id true) := by
  rcases exists_suffix hr with ⟨la, hla⟩
  have hanswer := ho _ la hla
  simp only [entry, InOrder, MayAnswer, hjoin] at hanswer
  -- The acknowledgement comes after the emission.
  have hmem : e ∈ own e.message la := by
    refine mem_marksOf.mpr ⟨?_, rfl⟩
    rcases suffix_trichotomy he hla with hs | hs | heq
    · exact mem_of_suffix hs
    · exact absurd rfl (hbefore _ (mem_marksOf.mpr ⟨mem_of_suffix hs, rfl⟩) r)
    · rw [List.cons.injEq] at heq
      rw [heq.1] at hop
      cases hop
  rcases hanswer with ⟨x, identity, row, peer, _, hfinished, rfl⟩ | ⟨_, hrejected⟩
  -- A join that was accepted: the emission is among its last entries, and names the
  -- session.
  · rcases hfinished with ⟨present, announced, before, hsettled, hannounced, htr⟩
    rw [htr, List.mem_append] at hmem
    rcases hmem with hmem | hmem
    · split at hannounced
      · rename_i hboth
        simp only [Bool.and_eq_true] at hboth
        rw [hboth.1]
        cases hannounced with
        | unbound =>
            rw [List.mem_singleton] at hmem
            rw [hmem] at hop
            cases hop
        | told =>
            simp only [List.mem_cons, List.not_mem_nil, or_false] at hmem
            rcases hmem with hmem | hmem
            · have hsame := (congrArg Entry.op hmem).symm.trans hop
              simp only [entry, Op.emit.injEq, Payload.peerJoined.injEq] at hsame
              rw [hsame.2.2.2]
            · rw [hmem] at hop
              cases hop
      · rw [hannounced] at hmem
        simp only [List.not_mem_nil] at hmem
    -- Before that it emits nothing.
    · exact absurd hop ((hsettled.unspoken hmem).1 _ _ _ _)
  -- A join that was rejected has emitted nothing at all.
  · have hbad := hrejected.silent e hmem
    rw [hop] at hbad
    cases hbad

/-- A join that announces itself has settled, and has nothing left to do but
    to be acknowledged. -/
theorem announced_properly {e : Entry} {p : SignalingParticipant} {room event : String}
    {payload : Payload} (ha : Answered P l) (ho : Orderly v messages l) (he : e :: l' <:+ l)
    (hop : e.op = .emit p room event payload)
    (h : MayAnnounce v (messages e.message) e.message (own e.message l') p room event payload) :
    ∃ row, room = remoteSessionRoom row.id ∧
      AnnouncedBy v messages l e.message l' p payload row := by
  rcases h with ⟨socket, json, x, identity, row, before, hjoin, hx, hsettled, htr, rfl, rfl, rfl,
    rfl⟩
  have hbefore : l' <:+ l := (List.suffix_cons e l').trans he
  have hsettled' := hsettled
  rcases hsettled with ⟨looked, ready, hlooked, hready, rfl⟩
  rw [← List.singleton_append, ← List.append_assoc] at htr
  rcases marksOf_append htr with ⟨lo, hlo, rfl⟩
  -- What the join was shown, found again in the log at the time it was shown.
  rcases hready.at (ha.suffix (hlo.trans hbefore)) with ⟨lr, a, hlr, hrow, _, hs, hp, hc⟩
  have hlr' : lr <:+ l' := ((List.suffix_cons _ lr).trans hlr).trans hlo
  rcases admitted_row (ha.suffix hbefore) hlr' hrow with ⟨row', hsession, hid, howner, _⟩
  rcases findJoinable_eq_some hrow with ⟨hfound, _, hlive⟩
  have hx' := row_id (ha.suffix (hlr'.trans hbefore)).wellFormed hrow
  rcases ((ha.suffix hbefore).later hlo).sockets socket a hs with ⟨b, hb, hbp, hbc⟩
  refine ⟨row', by rw [hid], ?_, by rw [hid], ⟨socket, json, x, b, row, lr, identity, hjoin, hx,
    by rw [hid, hx'], hb, ?_, ?_, hlr.trans hlo, ?_, hlive⟩, fun r hr => ?_⟩
  · rw [hid]
    exact hsession
  · rw [peerOf_peerOf]
    exact hbp.trans hp
  · rw [peerOf_peerOf, hbc, hc, howner]
  · rw [hid, hx']
    exact hfound
  · rw [hid]
    refine answer_of_announced ho he hop hjoin (fun d hd => ?_) hr
    rw [← List.append_assoc, List.singleton_append] at htr
    rw [htr] at hd
    rcases List.mem_cons.mp hd with rfl | hd
    · exact fun _ hack => by cases hack
    · exact (hsettled'.unspoken hd).2

/-- Whatever is emitted in a run reaches the owner of the session on that side
    and nobody else. What is relayed comes from the other owner, and what
    announces a peer comes from a join of that session. -/
theorem signaling_confidential {sys : Messages} (h : Reachable v messages sys) :
    ∀ e l' p room event payload, e :: l' <:+ sys.shared.log →
      e.op = .emit p room event payload →
      ∃ row, room = remoteSessionRoom row.id ∧ ReachesOwner (replay l') p row ∧
        (event ∈ [webrtcOfferEvent, webrtcAnswerEvent, webrtcIceCandidateEvent] ∧
            row.id = payload.remoteSessionId ∧
            Relayed v messages e.message l' p event payload row ∨
          event = remoteSessionPeerJoinedEvent ∧
            AnnouncedBy v messages sys.shared.log e.message l' p payload row) := by
  intro e l' p room event payload he hop
  have ha := h.recorded.answered
  have ho := orderly h
  have hbefore : l' <:+ sys.shared.log := (List.suffix_cons e l').trans he
  have hordered : Orderly v messages l' := fun d ld hd => ho d ld (hd.trans hbefore)
  have hin := ho e l' he
  rw [hop] at hin
  -- An emission is the announcement of a join or a relayed message.
  rcases hin with hannounce | hrelay
  · rcases announced_properly ha ho he hop hannounce with ⟨row, hroom, hby⟩
    rcases hannounce with ⟨_, _, _, _, _, _, _, _, _, _, _, _, hevent, _⟩
    exact ⟨row, hroom, member_owns (ha.suffix hbefore) hordered hby.session,
      .inr ⟨hevent, hby⟩⟩
  · rcases relayed_properly (ha.suffix hbefore) hordered hrelay with ⟨row, hid, hroom, hby⟩
    rcases hrelay with ⟨_, _, _, _, hrelayed, _⟩
    refine ⟨row, hroom, member_owns (ha.suffix hbefore) hordered ?_,
      .inl ⟨(relayOf_sender hrelayed).2, hid, hby⟩⟩
    rw [hid]
    exact hby.session

/-- An offer in the session of the example. -/
def offerPayload : Json :=
  .object [("remoteSessionId", .string sessionId), ("sdp", .string "v=0")]

/-- The technician sends an offer once the two ends have met. -/
def offering : MessageId → Operation
  | 9 => .offer 20 offerPayload
  | m => reload m

/-- The offer reaches the device. The entry before the last is the emission. -/
theorem signaling_confidential_offer : ∃ sys, Reachable lenient offering sys ∧ ∃ e l',
    e :: l' <:+ sys.shared.log ∧ e.op = .emit .device (remoteSessionRoom sessionId)
      webrtcOfferEvent (.sdp ⟨sessionId, .technician, "v=0"⟩) ∧
    ∃ row, remoteSessionRoom sessionId = remoteSessionRoom row.id ∧
      ReachesOwner (replay l') .device row := by
  have hrun : ((follow exec (boot lenient offering) (meeting ++ taking 9 4)).any (fun sys =>
      (sys.shared.log.drop 1).head?.any (fun e => decide (e.op =
        .emit .device (remoteSessionRoom sessionId) webrtcOfferEvent
          (.sdp ⟨sessionId, .technician, "v=0"⟩))))) = true := by
    decide +kernel
  rw [Option.any_eq_true] at hrun
  rcases hrun with ⟨sys, hsys, hp⟩
  rw [Option.any_eq_true] at hp
  rcases hp with ⟨e, he, hop⟩
  rw [decide_eq_true_eq] at hop
  rcases List.head?_eq_some_iff.mp he with ⟨l', hl'⟩
  have hsuffix : e :: l' <:+ sys.shared.log := hl' ▸ List.drop_suffix 1 _
  have hreach : Reachable lenient offering sys := run_of_follow _ _ sys hsys
  rcases signaling_confidential hreach e l' _ _ _ _ hsuffix hop with ⟨row, hroom, howner, _⟩
  exact ⟨sys, hreach, e, l', hsuffix, hop, row, hroom, howner⟩

end RemoteControl.Signaling

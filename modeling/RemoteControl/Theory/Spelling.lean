import RemoteControl.Theory.RelayOrder
import RemoteControl.Theory.OneSession

/-!
# The Spelling of a Session

The identifier of a session comes from the client, which may write its letters
as it likes: the database takes no notice of it and returns small letters. A
join stores what the database returns, and a relay compares it with what the
client has written, letter by letter. So a client that has joined under an
identifier with a capital letter is told that it has not joined when it goes on
to use the same identifier (`spelling_capital`), and one without is not
(`spelling_relays`).

Both directions go through what the relay finds on its socket. The join has
stored the identifier as the database spells it, and no later operation of the
socket has changed that (`stored_since_join`), so the relay compares the
client's spelling with the database's one. If it is accepted, the two are
equal (`canonical_of_accepted`). If they are equal it is accepted, because
each of the five reasons to refuse it would have found something that is not
there (`accepted_of_canonical`).

## Main definitions

* `JoinedThenSent`: A join and a relay after it under the same spelling.
* `RelaysToPeer`: The relay reaches the room that the peer has entered.

## Theorems

* `canonical_eq_self_iff`: What the spelling of the database is.
* `stored_since_join`: What is stored stays until another join.
* `spelling_relays`: A relay is accepted for a spelling without capitals, and
  for no other.
-/

namespace RemoteControl.Signaling

open Concurrency Encoding SignalingService

variable {v : Validator} {messages : MessageId → Operation} {P : Env → Prop} {l l' : List Entry}
  {socket : SocketId} {sys : Messages} {x : String} {m m' : MessageId} {r : Response}
  {la : List Entry}

/-- A join that names the session `x` is answered, and then a message that is to
    be relayed and names it the same comes in, with both namespaces there. When
    it is answered, the session is still live, and no other join of the socket
    has done anything since the first has stored the session. -/
structure JoinedThenSent (v : Validator) (messages : MessageId → Operation) (l : List Entry)
    (socket : SocketId) (x : String) (m m' : MessageId) (r : Response) (la : List Entry) :
    Prop where
  join : ∃ payload, messages m = .join socket payload ∧ joinId v payload = some x
  relay : IsRelay (messages m') socket ∧ relayId v (messages m') = some x
  joined : ∃ id peer lj lr, entry m (.ack (.join (.joined id peer))) () :: lj <:+ lr ∧
    entry m' (.receive socket) () :: lr <:+ la ∧ ∀ p, (replay lr).bound p = true
  answered : entry m' (.ack r) () :: la <:+ l
  live : ∃ row, (replay la).sessions (canonical x) = some row ∧ row.isLive = true
  undisturbed : ∀ e le payload, e :: le <:+ la → messages e.message = .join socket payload →
    entry m (.setRemoteSessionId socket (some (canonical x))) () ∈ le → e.message = m

/-- The message is accepted, and it is emitted to the room that every join of
    the session enters, however it spells the session. -/
def RelaysToPeer (v : Validator) (messages : MessageId → Operation) (l : List Entry)
    (socket : SocketId) (x : String) (m' : MessageId) (r : Response) : Prop :=
  r = .relay (.delivered x) ∧ ∃ a room event relayed, (replay l).sockets socket = some a ∧
    emissions (own m' l) = [.emit (peerOf a.participant) room event relayed] ∧
    ∀ e le t payload y, e :: le <:+ l → messages e.message = .join t payload →
      joinId v payload = some y → canonical y = canonical x →
      ∀ room', e.op = .joinRoom t room' → room' = room

/-! ## Small letters -/

/-- The database returns a spelling that has no capital letters. -/
theorem canonical_eq_self_iff : canonical x = x ↔ ∀ c ∈ x.toList, c.isUpper = false := by
  constructor
  · intro h c hc
    have hsettled := LowerCase.ascii.settles x
    rw [show LowerCase.ascii.toLocaleLowerCase x = x from h] at hsettled
    exact LowerCase.toLower_eq_self_iff.mp (hsettled c hc)
  · intro h
    exact LowerCase.ascii.keeps x (fun c hc => LowerCase.toLower_eq_self_iff.mpr (h c hc))

/-! ## What is stored -/

/-- A join that has stored its session does not write on its socket again. Before
    it stores a session it has stored none, and forgotten at most the one it was
    in. -/
theorem records_last {e : Entry} {le : List Entry} {t t' : SocketId} {y : Option String}
    {id : String} (ho : Orderly v messages l) (he : e :: le <:+ l)
    (hop : e.op = .setRemoteSessionId t y) :
    entry e.message (.setRemoteSessionId t' (some id)) () ∉ le := by
  intro hin
  have horder := ho e le he
  rw [hop] at horder
  have hmem : entry e.message (.setRemoteSessionId t' (some id)) () ∈ own e.message le :=
    mem_marksOf.mpr ⟨hin, rfl⟩
  -- What it has done before it forgets a session, or before it stores one, is known
  -- entry by entry.
  cases y with
  | none =>
      rcases horder with ⟨_, _, _, _, _, _, htr⟩
      have hquiet : ∀ d ∈ own e.message le, ∀ z, d.op ≠ .setRemoteSessionId t' (some z) := by
        rw [htr]
        intro d hd z
        simp only [received, List.mem_cons, List.not_mem_nil, or_false] at hd
        rcases hd with rfl | rfl | rfl
        all_goals exact Op.noConfusion
      exact hquiet _ hmem id rfl
  | some z =>
      rcases horder with ⟨_, _, identity, row, present, before, _, _, hready, _, htr⟩
      rcases hready with ⟨looked, _, hlooked, ⟨left, hleft, rfl⟩, rfl⟩
      have hquiet : ∀ d ∈ own e.message le, ∀ z, d.op ≠ .setRemoteSessionId t' (some z) := by
        rw [htr]
        intro d hd z
        simp only [received, List.mem_cons, List.mem_append, List.not_mem_nil, or_false] at hd
        rcases hd with rfl | hd | rfl | hd | rfl | rfl
        · exact Op.noConfusion
        · exact hlooked.unwritten hd
        · exact Op.noConfusion
        · -- It has left: there is an entry on the socket, but one that forgets.
          cases hleft with
          | nowhere =>
              rw [List.mem_singleton] at hd
              rw [hd]
              exact Op.noConfusion
          | session c =>
              simp only [List.mem_cons, List.not_mem_nil, or_false] at hd
              rcases hd with rfl | rfl | rfl
              · exact Op.noConfusion
              · simp only [entry, ne_eq, Op.setRemoteSessionId.injEq, reduceCtorEq, and_false,
                  not_false_eq_true]
              · exact Op.noConfusion
        · exact Op.noConfusion
        · exact Op.noConfusion
      exact hquiet _ hmem id rfl

/-- What a join has stored stays there as long as no other join of the socket
    does anything. -/
theorem stored_since_join {id : String} {lf : List Entry} (ha : Answered P l)
    (ho : Orderly v messages l)
    (hf : entry m (.setRemoteSessionId socket (some id)) () :: lf <:+ l)
    (hthere : ∃ b, (replay lf).sockets socket = some b)
    (hundisturbed : ∀ e le payload, e :: le <:+ l → messages e.message = .join socket payload →
      entry m (.setRemoteSessionId socket (some id)) () ∈ le → e.message = m) :
    (replay l).remoteSessionId socket = some id := by
  induction l with
  | nil => cases List.suffix_nil.mp hf
  | cons e l ih =>
      have hbefore : l <:+ e :: l := List.suffix_cons e l
      rcases List.suffix_cons_iff.mp hf with heq | hlater
      · rw [List.cons.injEq] at heq
        rcases hthere with ⟨b, hb⟩
        rw [replay, ← heq.1, ← heq.2]
        exact stored_set hb
      · have hold := ih (ha.suffix hbefore) (fun d ld hd => ho d ld (hd.trans hbefore)) hlater
          (fun d ld payload hd => hundisturbed d ld payload (hd.trans hbefore))
        refine stored_kept (ha e l List.suffix_rfl).1 hold (fun y hop => ?_)
        -- Whoever writes on the socket is a join of it.
        have hjoin : ∃ payload, messages e.message = .join socket payload := by
          have horder := ho e l List.suffix_rfl
          rw [hop] at horder
          cases y with
          | none =>
              rcases horder with ⟨payload, _, _, _, hjoin, _⟩
              exact ⟨payload, hjoin⟩
          | some z =>
              rcases horder with ⟨payload, _, _, _, _, _, hjoin, _⟩
              exact ⟨payload, hjoin⟩
        rcases hjoin with ⟨payload, hjoin⟩
        have hsame := hundisturbed e l payload List.suffix_rfl hjoin (mem_of_suffix hlater)
        have hbad : entry e.message (.setRemoteSessionId socket (some id)) () ∉ l :=
          records_last ho List.suffix_rfl hop
        rw [hsame] at hbad
        exact hbad (mem_of_suffix hlater)

/-- Where a join that has finished has stored its session. What it has stored is
    the spelling of the row that the database returned, which is the one under the
    canonical identifier. -/
theorem Finished.at {identity : SignalingIdentity} {row : RemoteSessionRow} {peer : Bool}
    {lj : List Entry} (h : Finished m socket identity x row peer (own m lj)) (ha : Answered P lj) :
    ∃ lf lr b, entry m (.setRemoteSessionId socket (some (canonical x))) () :: lf <:+ lj ∧
      lr <:+ lf ∧ (replay lr).findJoinable x identity = some row ∧
      (replay lf).sockets socket = some b ∧ b.participant = identity.participant ∧
      b.context = some identity.id := by
  rcases h with ⟨present, announced, _, ⟨looked, before, _, hready, rfl⟩, _, htr⟩
  -- The entry that stored it, after that of the room.
  have htr' : own m lj = (announced ++ looked) ++
      entry m (.setRemoteSessionId socket (some row.id)) () ::
        entry m (.joinRoom socket (remoteSessionRoom row.id)) () :: before := by
    rw [htr]
    simp only [List.append_assoc, List.cons_append, List.nil_append]
  rcases marksOf_at htr' with ⟨lf, hlf, hmarks⟩
  rcases marksOf_cons hmarks with ⟨le, hle, rfl, _⟩
  have hlf' : lf <:+ lj := (List.suffix_cons _ lf).trans hlf
  have hle' : le <:+ lf := (List.suffix_cons _ le).trans hle
  rcases hready.at (ha.suffix (hle'.trans hlf')) with ⟨lr, a, hlr, hrow, _, hs, hp, hc⟩
  have hlr' : lr <:+ lf := ((List.suffix_cons _ lr).trans hlr).trans hle'
  have hid := row_id (ha.suffix (hlr'.trans hlf')).wellFormed hrow
  rw [hid] at hlf
  -- The socket kept its identity until then.
  rcases ((ha.suffix hlf').later hle').sockets socket a hs with ⟨b, hb, hbp, hbc⟩
  exact ⟨lf, lr, b, hlf, hlr', hrow, hb, hbp.trans hp, hbc.trans hc⟩

/-- What a relay finds stored that comes after the join. The answer of the join
    says that it has finished, so what it has stored is known, and from there on
    nothing on the socket has changed. -/
theorem JoinedThenSent.stored (h : JoinedThenSent v messages l socket x m m' r la)
    (ha : Answered P l) (ho : Orderly v messages l) :
    ∃ lr lj identity row lf, entry m' (.receive socket) () :: lr <:+ la ∧
      (∀ p, (replay lr).bound p = true) ∧ lj <:+ lr ∧
      (replay lj).findJoinable x identity = some row ∧ lj <:+ lf ∧ lf <:+ lr ∧
      (∃ b, (replay lf).sockets socket = some b ∧ b.participant = identity.participant ∧
        b.context = some identity.id) ∧
      ∀ lg, lr <:+ lg → lg <:+ la → (replay lg).remoteSessionId socket = some (canonical x) := by
  rcases h.join with ⟨payload, hjoin, hx⟩
  rcases h.joined with ⟨id, peer, lj, lr, hlj, hlr, hbound⟩
  have hla : la <:+ l := (List.suffix_cons _ la).trans h.answered
  have hlr' : lr <:+ la := (List.suffix_cons _ lr).trans hlr
  have hlj' : lj <:+ lr := (List.suffix_cons _ lj).trans hlj
  have hanswer : MayAnswer v (messages m) m (own m lj) (.join (.joined id peer)) :=
    ho _ lj (hlj.trans (hlr'.trans hla))
  rw [hjoin] at hanswer
  rcases hanswer with ⟨y, identity, row, _, hy, hfinished, _⟩ | ⟨⟨error, herror⟩, _⟩
  · -- It was answered as joined, so it has not been rejected.
    rw [hx, Option.some.injEq] at hy
    subst hy
    have hbefore : lj <:+ l := hlj'.trans (hlr'.trans hla)
    rcases hfinished.at (ha.suffix hbefore) with ⟨lf, lq, b, hlf, hlq, hrow, hb, hbp, hbc⟩
    have hlf' : lf <:+ lr := ((List.suffix_cons _ lf).trans hlf).trans hlj'
    refine ⟨lr, lq, identity, row, lf, hlr, hbound, hlq.trans hlf', hrow, hlq, hlf',
      ⟨b, hb, hbp, hbc⟩, fun lg hlg hlg' => ?_⟩
    have hbefore' : lg <:+ l := hlg'.trans hla
    exact stored_since_join (ha.suffix hbefore') (fun d ld hd => ho d ld (hd.trans hbefore'))
      (hlf.trans (hlj'.trans hlg)) ⟨b, hb⟩
      (fun d ld payload hd => h.undisturbed d ld payload (hd.trans hlg'))
  · cases herror

/-! ## The relay -/

/-- A relay that was accepted has found its spelling on the socket. The relay was
    cleared, so it had read its own spelling on the socket; what was stored there
    was that of the database. -/
theorem canonical_of_accepted (h : JoinedThenSent v messages l socket x m m' r la)
    (ha : Answered P l) (ho : Orderly v messages l) (hr : r = .relay (.delivered x)) :
    canonical x = x := by
  subst hr
  have hla : la <:+ l := (List.suffix_cons _ la).trans h.answered
  rcases h.stored ha ho with ⟨lr, _, _, _, _, hlr, _, _, _, _, _, _, hstored⟩
  rcases delivered_at ho h.relay.1 h.answered with ⟨socket', event, relayed, identity, row, before,
    hrelay, _, hcleared, htr⟩
  have hsocket := relay_socket h.relay.1 hrelay
  subst hsocket
  rw [hcleared] at htr
  -- Back through the entries of the relay to where it read the socket.
  rcases marksOf_cons htr with ⟨le, hle, htr, _⟩
  rcases marksOf_cons htr with ⟨lb, hlb, htr, _⟩
  rcases marksOf_cons htr with ⟨lq, hlq, htr, _⟩
  rcases marksOf_cons htr with ⟨lg, hlg', _⟩
  have hlg : entry m' (.remoteSessionId socket') (some x) :: lg <:+ la :=
    hlg'.trans (((List.suffix_cons _ lq).trans hlq).trans
      (((List.suffix_cons _ lb).trans hlb).trans ((List.suffix_cons _ le).trans hle)))
  -- The relay had come in by then, so what was stored by the join is what it read.
  have hafter := after_receive ho (hlr.trans hla) (hlg.trans hla) rfl (fun _ => Op.noConfusion)
  rcases ha.answer_eq (hlg.trans hla) with ⟨_, _, hread⟩
  have hfound : (replay lg).remoteSessionId socket' = some x := hread.symm
  rw [hstored lg ((List.suffix_cons _ lr).trans hafter) ((List.suffix_cons _ lg).trans hlg),
    Option.some.injEq] at hfound
  exact hfound

/-- The identity of a message is that of its socket. The join and the relay come
    from one socket, which keeps its identity. -/
theorem identity_eq {identity identity' : SignalingIdentity} {lf lo : List Entry} {b : Socket}
    (ha : Answered P lo) (hlf : lf <:+ lo) (hb : (replay lf).sockets socket = some b)
    (hbp : b.participant = identity.participant) (hbc : b.context = some identity.id)
    (hreceived : own m' lo = received m' socket identity') : identity' = identity := by
  rcases received_at ha hreceived with ⟨_, a, _, _, hs, hp, hc⟩
  rcases (ha.later hlf).sockets socket b hb with ⟨c, hcs, hcp, hcc⟩
  rw [hs, Option.some.injEq] at hcs
  subst hcs
  rw [hcp, hbp] at hp
  rw [hcc, hbc, Option.some.injEq] at hc
  cases identity
  cases identity'
  simp only at hp hc
  rw [hp, hc]

/-- The session of a join is found as long as it is live. The row that the join
    found keeps its owners, and a row that is live at the end was live before. -/
theorem found_while_live {identity : SignalingIdentity} {row row' : RemoteSessionRow}
    {lq lp : List Entry} (ha : Answered P l) (hlp : lp <:+ l) (hlq : lq <:+ lp)
    (hrow : (replay lq).findJoinable x identity = some row)
    (hs : (replay l).sessions (canonical x) = some row') (hlive : row'.isLive = true) :
    (replay lp).findJoinable x identity ≠ none := by
  rcases findJoinable_eq_some hrow with ⟨hsession, howner, _⟩
  rcases ((ha.suffix hlp).later hlq).sessions _ row hsession with ⟨row₁, hs₁, ho₁, _⟩
  rcases (ha.later hlp).sessions _ row₁ hs₁ with ⟨row₂, hs₂, _, hback⟩
  rw [hs, Option.some.injEq] at hs₂
  subst hs₂
  rw [State.findJoinable, hs₁, Option.filter_some, ho₁, howner, hback hlive]
  simp only [decide_true, Bool.and_self, if_true, ne_eq, reduceCtorEq, not_false_eq_true]

/-- A relay of a spelling that is the one of the database is accepted. -/
theorem accepted_of_canonical (h : JoinedThenSent v messages l socket x m m' r la)
    (ha : Answered P l) (ho : Orderly v messages l) (hx : canonical x = x) :
    r = .relay (.delivered x) := by
  have hla : la <:+ l := (List.suffix_cons _ la).trans h.answered
  rcases h.stored ha ho with
    ⟨lr, lq, identity, row, lf, hlr, hbound, hlq, hrow, _, hlf, ⟨b, hb, hbp, hbc⟩, hstored⟩
  rcases acknowledged_at ho h.relay.1 h.answered with ⟨id, rfl, hdelivered⟩ | ⟨error, rfl, hrefused⟩
  · rcases hdelivered with ⟨_, _, relayed, identity', _, _, hrelay, hid, _⟩
    have hnamed := relayOf_eq_some hrelay identity'.participant
    rw [h.relay.2, hid, Option.some.injEq] at hnamed
    rw [hnamed]
  · -- What every refusal would have found is not there.
    exfalso
    -- Whatever session a refusal is about, it is the one that was named.
    have hnamed : ∀ {id}, relayId v (messages m') = some id → id = x := by
      intro id hid
      rw [h.relay.2, Option.some.injEq] at hid
      exact hid.symm
    -- Where an entry of the relay is: after its receipt, and so after the join.
    have hplace : ∀ {ln : List Entry} {d : Entry} {tr : List Entry}, ln <:+ la →
        own m' ln = d :: tr → (∀ s, d.op ≠ .receive s) →
        ∃ ld, d :: ld <:+ l ∧ ld <:+ la ∧ lr <:+ ld ∧ own m' ld = tr := by
      intro ln d tr hln htr hop
      rcases marksOf_cons htr with ⟨ld, hld, hmarks, hm⟩
      have hafter := after_receive ho (hlr.trans hla) ((hld.trans hln).trans hla) hm hop
      exact ⟨ld, (hld.trans hln).trans hla, ((List.suffix_cons d ld).trans hld).trans hln,
        (List.suffix_cons _ lr).trans hafter, hmarks⟩
    generalize htr : own m' la = tr at hrefused
    cases hrefused with
    | identity =>
        rcases hplace List.suffix_rfl htr (fun _ => Op.noConfusion) with ⟨li, hli, hlast, hafter, _⟩
        rcases ha.answer_eq hli with ⟨_, _, hnone⟩
        rcases ((ha.suffix (hlast.trans hla)).later (hlf.trans hafter)).sockets socket b hb with
          ⟨c, hs, _, hcc⟩
        have hnone' : (replay li).identityOf socket = none := hnone.symm
        rw [State.identityOf, hs] at hnone'
        simp only [hcc, hbc, Option.map_some, reduceCtorEq] at hnone'
    | payload identity' hnone =>
        have hnone' := relayId_eq_none hnone
        rw [h.relay.2] at hnone'
        cases hnone'
    | notJoined identity' id current hid hcurrent =>
        rw [hnamed hid] at hcurrent
        rcases hplace List.suffix_rfl htr (fun _ => Op.noConfusion) with ⟨lg, hlg, hlast, hafter, _⟩
        rcases ha.answer_eq hlg with ⟨_, _, hread⟩
        have hread' : (replay lg).remoteSessionId socket = current := hread.symm
        rw [hstored lg hafter hlast, hx] at hread'
        exact hcurrent hread'.symm
    | session identity' id hid =>
        rw [hnamed hid] at htr
        rcases hplace List.suffix_rfl htr (fun _ => Op.noConfusion) with
          ⟨lp, hlp, hlast, hafter, hmarks⟩
        rcases hplace hlast hmarks (fun _ => Op.noConfusion) with
          ⟨lo, hlo, hlast', hafter', hreceived⟩
        have hsame := identity_eq (ha.suffix (hlast'.trans hla)) (hlf.trans hafter') hb hbp hbc
          hreceived
        rcases ha.answer_eq hlp with ⟨_, _, hnone⟩
        rcases h.live with ⟨row', hs, hlive⟩
        have hnone' : (replay lp).findJoinable x identity = none := by
          rw [← hsame]
          exact hnone.symm
        exact found_while_live (ha.suffix hla) hlast (hlq.trans hafter) hrow hs hlive hnone'
    | unbound identity' id row' hid =>
        rcases hplace List.suffix_rfl htr (fun _ => Op.noConfusion) with ⟨lb, hlb, hlast, hafter, _⟩
        rcases ha.answer_eq hlb with ⟨_, _, hanswer⟩
        have hup := ((ha.suffix (hlast.trans hla)).later hafter).bound
          (peerOf identity'.participant) (hbound _)
        have hdown : (replay lb).bound (peerOf identity'.participant) = false := hanswer.symm
        rw [hup] at hdown
        cases hdown

/-- Every join of a session enters the room that the database's spelling names.
    The room is that of the row, and the row has the canonical identifier. -/
theorem entered_room {e : Entry} {le : List Entry} {t : SocketId} {payload : Json} {y : String}
    {room : String} (ha : Answered P l) (ho : Orderly v messages l) (he : e :: le <:+ l)
    (hjoin : messages e.message = .join t payload) (hy : joinId v payload = some y)
    (hop : e.op = .joinRoom t room) : room = remoteSessionRoom (canonical y) := by
  have hin := ho e le he
  rw [hop] at hin
  rcases hin with ⟨payload', y', _, row, _, hjoin', hy', hready, hroom⟩
  rw [hjoin, Operation.join.injEq] at hjoin'
  rw [← hjoin'.2, hy, Option.some.injEq] at hy'
  subst hy'
  have hle : le <:+ l := (List.suffix_cons e le).trans he
  rcases hready.at (ha.suffix hle) with ⟨lr, _, hlr, hrow, _⟩
  have hlr' : lr <:+ l := ((List.suffix_cons _ lr).trans hlr).trans hle
  rw [hroom, row_id (ha.suffix hlr').wellFormed hrow]

/-- A relay reaches the peer under the spelling of its join, if that has no
    capital letters, and only then. -/
theorem spelling_relays (h : Reachable v messages sys)
    (hs : JoinedThenSent v messages sys.shared.log socket x m m' r la) :
    RelaysToPeer v messages sys.shared.log socket x m' r ↔ ∀ c ∈ x.toList, c.isUpper = false := by
  have ha := h.recorded.answered
  have ho := orderly h
  rw [← canonical_eq_self_iff]
  constructor
  · rintro ⟨hr, _⟩
    exact canonical_of_accepted hs ha ho hr
  · intro hx
    have hr := accepted_of_canonical hs ha ho hx
    have hanswered := hs.answered
    rw [hr] at hanswered
    rcases delivered_once ha ho hs.relay.1 (mem_of_suffix hanswered) with
      ⟨a, event, relayed, hsocket, _, _, hemitted⟩
    refine ⟨hr, a, _, event, relayed, hsocket, hemitted, ?_⟩
    intro e le t payload y he hjoin hy hsame room' hop
    rw [entered_room ha ho he hjoin hy hop, hsame, hx]

/-! ## Two spellings -/

/-- The technician joins and sends an offer, naming the session `x`. -/
def naming (x : String) : MessageId → Operation
  | 7 => .join 20 (.object [("remoteSessionId", .string x)])
  | 8 => .offer 20 (.object [("remoteSessionId", .string x), ("sdp", .string "v=0")])
  | 9 => .disconnect 20
  | m => reload m

/-- The offer was answered with `r`, and came `n` entries before. -/
def sentAfterJoin (n : Nat) (r : Response) (l : List Entry) : Bool :=
  stands l 0 8 (.ack r) && stands (l.drop 1) n 8 (.receive 20) &&
    stands ((l.drop 1).drop (n + 1)) 0 7 (.ack (.join (.joined sessionId true))) &&
    (replay ((l.drop 1).drop (n + 1))).bound .device &&
    (replay ((l.drop 1).drop (n + 1))).bound .technician &&
    decide ((replay (l.drop 1)).sessions sessionId = some ⟨sessionId, 1, 2, .active⟩)

/-- Only one of the messages is a join. -/
theorem joins_once {n : MessageId} {payload : Json} (h : naming x n = .join 20 payload) :
    n = 7 := by
  unfold naming at h
  split at h
  · rfl
  · cases h
  · cases h
  · unfold reload at h
    split at h
    all_goals cases h
    rfl

/-- What the check finds in a history is a join, and after it an offer that was
    answered so. -/
theorem sentAfterJoin_sound {n : Nat} (hjoin : joinId lenient
      (.object [("remoteSessionId", .string x)]) = some x)
    (hrelay : relayId lenient (naming x 8) = some x) (hx : canonical x = sessionId)
    (h : sentAfterJoin n r l = true) :
    JoinedThenSent lenient (naming x) l 20 x 7 8 r (l.drop 1) := by
  simp only [sentAfterJoin, Bool.and_eq_true, decide_eq_true_eq] at h
  rcases h with ⟨⟨⟨⟨⟨hack, hcame⟩, hjoined⟩, hdevice⟩, htechnician⟩, hlive⟩
  rcases stands_sound hack with ⟨_, hack⟩
  rcases stands_sound hcame with ⟨_, hcame⟩
  rcases stands_sound hjoined with ⟨_, hjoined⟩
  refine ⟨⟨_, rfl, hjoin⟩, ⟨⟨_, .inl rfl⟩, hrelay⟩,
    ⟨sessionId, true, _, _, hjoined, hcame, fun p => ?_⟩, hack, ?_,
    fun e le payload _ hjoin _ => joins_once hjoin⟩
  · cases p
    · exact hdevice
    · exact htechnician
  · rw [hx]
    exact ⟨_, hlive, by decide⟩

/-- A session that is written in small letters: the offer is relayed. -/
theorem spelling_relays_small : ∃ sys, Reachable lenient (naming sessionId) sys ∧
    RelaysToPeer lenient (naming sessionId) sys.shared.log 20 sessionId 8
      (.relay (.delivered sessionId)) := by
  have hrun : ((follow exec (boot lenient (naming sessionId)) (meeting ++ taking 8 4)).any
      (fun sys => sentAfterJoin 5 (.relay (.delivered sessionId)) sys.shared.log)) = true := by
    decide +kernel
  rcases reachable_of_taking hrun with ⟨sys, hsys, hp⟩
  have hsmall : canonical sessionId = sessionId := by decide +kernel
  have hsent := sentAfterJoin_sound (x := sessionId) (by decide +kernel)
    (by decide +kernel) hsmall hp
  exact ⟨sys, hsys, (spelling_relays hsys hsent).mpr (canonical_eq_self_iff.mp hsmall)⟩

/-- The identifier of the session in capital letters. -/
def capitalId : String := "3D1B9E64-9A0F-4C88-9D0A-6F2A5C7E8B10"

/-- A client that has joined in capital letters is told it has not joined. -/
theorem spelling_capital : ∃ sys la, Reachable lenient (naming capitalId) sys ∧
    JoinedThenSent lenient (naming capitalId) sys.shared.log 20 capitalId 7 8
      (.relay (.relayRejected .notJoined)) la ∧
    ¬ RelaysToPeer lenient (naming capitalId) sys.shared.log 20 capitalId 8
      (.relay (.relayRejected .notJoined)) := by
  have hrun : ((follow exec (boot lenient (naming capitalId)) (meeting ++ taking 8 3)).any
      (fun sys => sentAfterJoin 2 (.relay (.relayRejected .notJoined)) sys.shared.log)) = true := by
    decide +kernel
  rcases reachable_of_taking hrun with ⟨sys, hsys, hp⟩
  refine ⟨sys, _, hsys, sentAfterJoin_sound (by decide +kernel) (by decide +kernel)
    (by decide +kernel) hp, ?_⟩
  rintro ⟨hdelivered, _⟩
  cases hdelivered

end RemoteControl.Signaling

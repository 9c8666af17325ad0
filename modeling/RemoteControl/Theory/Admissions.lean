import RemoteControl.Theory.OwnSignals
import RemoteControl.Theory.Together

/-!
# Behind Every Message a Session

Whatever the signaling does for a session, it does for a message that the
database has admitted to that session (`admission`). Put together with the
lifecycle, that is a moment at which the session was live, the device had
accepted its request, and the message came from one of the two owners
(`signaling_serves_lifecycle`).

A session that is closed is never admitted again, so what still comes through
after the closure was admitted before it.

`Admission` is about one entry, the query in which the database has found the
session for the message. Everything else that the signaling does for the
session comes later in the same message, and its place in the order of the
message (`Orderly`) says that this query came before. The lifecycle enters
with the row that was found: it is the projection of a committed session,
which was live at that step, and so its request was accepted then.

## Main definitions

* `Op.Serves`: What the signaling does for a session.
* `Admission`: The message was admitted to the session.
* `InService`: The session is live and its request accepted.
* `Turn`, `take`: A schedule of the two parts together.

## Theorems

* `admission`: Whatever serves a session was admitted to it.
* `signaling_serves_lifecycle`: What stands behind it in the lifecycle.
* `closed_session_cut`: Nothing is admitted to a closed session.
* `Ready.admission`, `Settled.admission`, `Cleared.admission`: The stages of a
  message that was admitted.
* `acknowledged_admission`: What is acknowledged was admitted.
* `Step.found`, `Reachable.found`: What the database finds is in service.
-/

namespace RemoteControl

open Concurrency

namespace Signaling

open Encoding

variable {v : Validator} {messages : MessageId → Operation} {P : Env → Prop} {l l' : List Entry}

/-! ## Admissions -/

/-- The operation lets a socket into the room of the session, emits to the
    room, or answers that a join or a relay has succeeded. -/
def Op.Serves (id : String) : Op → Prop
  | .joinRoom _ room => room = remoteSessionRoom id
  | .emit _ room _ _ => room = remoteSessionRoom id
  | .ack (.join (.joined id' _)) => id' = id
  | .ack (.relay (.delivered id')) => id' = id
  | _ => False

/-- The message came from a socket with an identity, and the database has
    found the session live and owned by it. -/
structure Admission (messages : MessageId → Operation) (m : MessageId) (id : String)
    (identity : SignalingIdentity) (socket : SocketId) (l : List Entry) : Prop where
  client : (messages m).client = some socket
  socket : ∃ b, (replay l).sockets socket = some b ∧ b.participant = identity.participant ∧
    b.context = some identity.id
  found : ∃ x row lr, entry m (.findJoinable x identity) (some row) :: lr <:+ l ∧
    row.id = id ∧ canonical x = id

/-- The message was admitted, whatever has happened since. -/
theorem Admission.later {m : MessageId} {id : String} {identity : SignalingIdentity}
    {socket : SocketId} (h : Admission messages m id identity socket l) (ha : Answered P l')
    (hl : l <:+ l') : Admission messages m id identity socket l' := by
  rcases h.socket with ⟨a, hs, hp, hc⟩
  rcases (ha.later hl).sockets socket a hs with ⟨b, hb, hbp, hbc⟩
  rcases h.found with ⟨x, row, lr, hlr, hfound⟩
  exact ⟨h.client, ⟨b, hb, hbp.trans hp, hbc.trans hc⟩, x, row, lr, hlr.trans hl, hfound⟩

/-- A join that may enter the room was admitted. -/
theorem Ready.admission {m : MessageId} {socket : SocketId} {identity : SignalingIdentity}
    {x : String} {row : RemoteSessionRow} {present : Bool} (ha : Answered P l)
    (hclient : (messages m).client = some socket)
    (h : Ready m socket identity x row present (own m l)) :
    Admission messages m row.id identity socket l := by
  rcases h.at ha with ⟨lr, a, hlr, hrow, _, hs, hp, hc⟩
  have hid := row_id (ha.suffix ((List.suffix_cons _ lr).trans hlr)).wellFormed hrow
  exact ⟨hclient, ⟨a, hs, hp, hc⟩, x, row, lr, hlr, rfl, hid.symm⟩

/-- So was one that has entered it. -/
theorem Settled.admission {m : MessageId} {socket : SocketId} {identity : SignalingIdentity}
    {x : String} {row : RemoteSessionRow} {present peer : Bool} (ha : Answered P l)
    (hclient : (messages m).client = some socket)
    (h : Settled m socket identity x row present peer (own m l)) :
    Admission messages m row.id identity socket l := by
  rcases h with ⟨looked, ready, _, hready, htr⟩
  rcases marksOf_append htr with ⟨lo, hlo, rfl⟩
  exact (hready.admission (ha.suffix hlo) hclient).later ha hlo

/-- A relay has the session from its socket, where it is spelled as the
    database does. -/
theorem Cleared.admission {m : MessageId} {socket : SocketId} {identity : SignalingIdentity}
    {id : String} {row : RemoteSessionRow} (ha : Answered P l) (ho : Orderly v messages l)
    (hclient : (messages m).client = some socket)
    (h : Cleared m socket identity id row (own m l)) :
    Admission messages m id identity socket l := by
  rcases marksOf_cons h with ⟨lb, hlb, hmarks, _⟩
  rcases marksOf_cons hmarks with ⟨lr, hlr, hmarks, _⟩
  rcases marksOf_cons hmarks with ⟨lg, hlg, hreceived, _⟩
  have hlr' : lr <:+ l :=
    ((List.suffix_cons _ lr).trans hlr).trans ((List.suffix_cons _ lb).trans hlb)
  have hlg' : lg <:+ l := ((List.suffix_cons _ lg).trans hlg).trans hlr'
  rcases received_at (ha.suffix hlg') hreceived with ⟨_, a, _, _, hs, hp, hc⟩
  rcases (ha.later hlg').sockets socket a hs with ⟨b, hb, hbp, hbc⟩
  rcases (ha.suffix hlr').answer_eq hlg with ⟨_, _, hstored⟩
  have hcanonical := stored_canonical (ha.suffix hlg') (fun e l' he => ho e l' (he.trans hlg'))
    hstored.symm
  rcases (ha.suffix ((List.suffix_cons _ lb).trans hlb)).answer_eq hlr with ⟨_, _, hfound⟩
  have hid := row_id (ha.suffix hlr').wellFormed hfound.symm
  exact ⟨hclient, ⟨b, hb, hbp.trans hp, hbc.trans hc⟩, id, row, lr,
    hlr.trans ((List.suffix_cons _ lb).trans hlb), hid.trans hcanonical, hcanonical⟩

/-- What is acknowledged as joined or delivered was admitted. -/
theorem acknowledged_admission {m : MessageId} {response : Response} {id : String}
    (ha : Answered P l) (ho : Orderly v messages l)
    (h : MayAnswer v (messages m) m (own m l) response)
    (hserves : (Op.ack response).Serves id) :
    ∃ identity socket, Admission messages m id identity socket l := by
  -- The three relays answer alike.
  have hrelayed : ∀ {socket : SocketId}, MayAcknowledge v (messages m) m (own m l) socket
      response → ∃ identity socket, Admission messages m id identity socket l := by
    rintro socket (⟨id', rfl, hdelivered⟩ | ⟨error, rfl, _⟩)
    · rcases hdelivered with ⟨client, event, relayed, identity, row, before, hrelay, _, hcleared,
        htr⟩
      rcases marksOf_cons htr with ⟨lb, hlb, rfl, _⟩
      have hlb' : lb <:+ l := (List.suffix_cons _ lb).trans hlb
      have hid : id' = id := hserves
      rw [hid] at hcleared
      exact ⟨identity, client, (hcleared.admission (ha.suffix hlb')
        (fun e l' he => ho e l' (he.trans hlb')) (client_of_relayOf hrelay).1).later ha hlb'⟩
    · exact hserves.elim
  cases hop : messages m with
  | join socket payload =>
      rw [hop] at h
      -- A join is acknowledged when it has entered the room.
      rcases h with ⟨x, identity, row, peer, _, hfinished, rfl⟩ | ⟨⟨error, rfl⟩, _⟩
      · rcases hfinished with ⟨present, announced, before, hsettled, _, htr⟩
        rcases marksOf_append htr with ⟨lo, hlo, rfl⟩
        have hid : row.id = id := hserves
        rw [← hid]
        exact ⟨identity, socket, (hsettled.admission (ha.suffix hlo) (by rw [hop]; rfl)).later
          ha hlo⟩
      · exact hserves.elim
  | offer socket payload =>
      refine @hrelayed socket ?_
      rw [hop] at h ⊢
      exact h
  | answer socket payload =>
      refine @hrelayed socket ?_
      rw [hop] at h ⊢
      exact h
  | iceCandidate socket payload =>
      refine @hrelayed socket ?_
      rw [hop] at h ⊢
      exact h
  | _ =>
      rw [hop] at h
      exact h.elim

/-- Whatever serves a session was admitted to it. -/
theorem admission (ha : Answered P l) (ho : Orderly v messages l) {e : Entry}
    (he : e :: l' <:+ l) {id : String} (hserves : e.op.Serves id) :
    ∃ identity socket, Admission messages e.message id identity socket l' := by
  have hbefore : l' <:+ l := (List.suffix_cons e l').trans he
  have ha' := ha.suffix hbefore
  have ho' : Orderly v messages l' := fun d ld hd => ho d ld (hd.trans hbefore)
  have hin := ho e l' he
  rcases e with ⟨m, op, resp⟩
  cases op with
  | joinRoom socket room =>
      -- A room is that of one session only.
      rcases hin with ⟨payload, x, identity, row, present, hjoin, _, hready, hroom⟩
      have hid := remoteSessionRoom_inj (hserves.symm.trans hroom)
      rw [hid]
      exact ⟨identity, socket, hready.admission ha' (by rw [hjoin]; rfl)⟩
  | emit p room event payload =>
      -- The announcement of a join, or a message that is relayed.
      rcases hin with ⟨socket, json, x, identity, row, before, hjoin, _, hsettled, htr, _, hroom,
        _⟩ | ⟨socket, relayed, identity, row, hrelay, hcleared, _, hroom, _⟩
      · rcases marksOf_cons htr with ⟨lb, hlb, rfl, _⟩
        have hlb' : lb <:+ l' := (List.suffix_cons _ lb).trans hlb
        rw [remoteSessionRoom_inj (hserves.symm.trans hroom)]
        exact ⟨identity, socket, (hsettled.admission (ha'.suffix hlb')
          (by rw [hjoin]; rfl)).later ha' hlb'⟩
      · rw [remoteSessionRoom_inj (hserves.symm.trans hroom)]
        exact ⟨identity, socket, hcleared.admission ha' ho' (client_of_relayOf hrelay).1⟩
  | ack response => exact acknowledged_admission ha' ho' hin hserves
  | _ => exact hserves.elim

end Signaling

namespace Together

open Signaling (Validator MessageId SignalingIdentity entry remoteSessionRoom)

variable {calls : CallId → Operation} {throws : CallId → Emitter → Bool} {v : Validator}
  {messages : MessageId → Signaling.Operation} {sp : Spelling} {a b : Backend}

/-! ## The moment of the admission -/

/-- The session is live, and the device has accepted the request of it, which
    the technician of the session has taken. -/
structure InService (T : Tables) (k : Uuid) (s : RemoteSession) : Prop where
  session : T.sessions k = some s
  live : s.isLive = true
  accepted : ∃ r, T.requests s.supportRequestId = some r ∧ r.status = .accepted ∧
    r.deviceId = s.deviceId ∧ r.technicianId = some s.technicianId

/-- A session that is live for the signaling is in service in the lifecycle. -/
theorem Linked.inService (h : Linked calls throws v messages sp a) {id : String}
    {row : Signaling.RemoteSessionRow}
    (hrow : a.signaling.shared.state.sessions id = some row) (hlive : row.isLive = true) :
    ∃ k s, sp.spell k = id ∧ sp.row s = row ∧ InService a.lifecycle.shared.tables k s := by
  rcases h.spelled id row hrow with ⟨k, rfl⟩
  rw [h.sessions k, Option.map_eq_some_iff] at hrow
  rcases hrow with ⟨s, hs, rfl⟩
  rcases h.lifecycle.inv.consistent.owned k s hs with ⟨r, hr, hd, ht, hst⟩
  rw [row_isLive] at hlive
  rw [if_pos hlive] at hst
  exact ⟨k, s, rfl, rfl, hs, hlive, r, hr, hst, hd, ht⟩

/-- A step adds to the history of the signaling, or leaves it. -/
theorem Step.log_suffix (h : Linked calls throws v messages sp a)
    (hstep : Step throws messages sp a b) :
    a.signaling.shared.log <:+ b.signaling.shared.log := by
  cases hstep with
  | call c env next hturn hsame => exact List.suffix_rfl
  | commit c env next k s m menv following hturn hrow hnew hm hcommit =>
      rw [(Signaling.turn_commits (h.commits m _ hm) hcommit).2.1]
      exact List.suffix_cons _ _
  | message m menv following hm hturn =>
      exact (Signaling.turn_reads (h.reads m hm) h.signaling.recorded.state hturn).1

/-- What the database finds live in one step was live before it. -/
theorem Step.found (h : Linked calls throws v messages sp a)
    (h' : Linked calls throws v messages sp b) (hstep : Step throws messages sp a b) {m : MessageId}
    {x : String} {identity : SignalingIdentity} {row : Signaling.RemoteSessionRow}
    {l' : List Signaling.Entry}
    (he : entry m (.findJoinable x identity) (some row) :: l' <:+ b.signaling.shared.log)
    (hnew : a.signaling.shared.log <:+ l') :
    a.signaling.shared.state.sessions (Signaling.canonical x) = some row ∧
      row.isLive = true := by
  have hlonger : ¬ entry m (.findJoinable x identity) (some row) :: l' <:+
      a.signaling.shared.log := by
    intro hs
    have hlength := Nat.le_trans hs.length_le hnew.length_le
    exact Nat.not_succ_le_self _ hlength
  -- A step of the lifecycle alone adds nothing, and a commit adds no query.
  cases hstep with
  | call c env next hturn hsame => exact absurd he hlonger
  | commit c env next k s m' menv following hturn hrow hnew' hm hcommit =>
      rw [(Signaling.turn_commits (h.commits m' _ hm) hcommit).2.1] at he
      rcases List.suffix_cons_iff.mp he with heq | hs
      · cases heq
      · exact absurd hs hlonger
  -- A message reads, and so the sessions are the same before and after.
  | message m' menv following hm hturn =>
      have hsame := (Signaling.turn_reads (h.reads m' hm) h.signaling.recorded.state hturn).2.2 l'
        hnew ((List.suffix_cons _ l').trans he)
      rcases h'.signaling.recorded.answered.answer_eq he with ⟨_, _, hfound⟩
      rcases Signaling.findJoinable_eq_some hfound.symm with ⟨hsession, _, hlive⟩
      rw [hsame, ← h.signaling.recorded.state] at hsession
      exact ⟨hsession, hlive⟩

/-- Whenever the database finds a session for a message, it is in service. -/
theorem Reachable.found (h : Reachable calls throws v messages sp a) {m : MessageId} {x : String}
    {identity : SignalingIdentity} {row : Signaling.RemoteSessionRow}
    {l' : List Signaling.Entry}
    (he : entry m (.findJoinable x identity) (some row) :: l' <:+ a.signaling.shared.log) :
    ∃ before k s, Reachable calls throws v messages sp before ∧
      Relation.ReflTransGen (Step throws messages sp) before a ∧
      before.signaling.shared.log <:+ l' ∧ sp.spell k = Signaling.canonical x ∧ sp.row s = row ∧
      InService before.lifecycle.shared.tables k s := by
  rcases h with ⟨devices, users, clock, hsteps⟩
  induction hsteps with
  | refl =>
      rw [boot, Signaling.boot, System.start, Signaling.World.init, List.suffix_nil] at he
      simp only [reduceCtorEq] at he
  | @tail b c hsteps hstep ih =>
      have hb : Reachable calls throws v messages sp b := ⟨devices, users, clock, hsteps⟩
      -- The entry was there before the step, or the step has added it.
      have hcases : entry m (.findJoinable x identity) (some row) :: l' <:+
          b.signaling.shared.log ∨ b.signaling.shared.log <:+ l' := by
        rcases List.suffix_or_suffix_of_suffix he (hstep.log_suffix hb.linked) with hs | hs
        · exact .inl hs
        · rcases List.suffix_cons_iff.mp hs with heq | hnew
          · exact .inl (heq ▸ List.suffix_rfl)
          · exact .inr hnew
      rcases hcases with hold | hnew
      -- It was found in an earlier step.
      · rcases ih hold with ⟨before, k, s, hreach, hpath, hrest⟩
        exact ⟨before, k, s, hreach, hpath.tail hstep, hrest⟩
      · rcases hstep.found hb.linked (hb.linked.step hstep) he hnew with ⟨hsession, hlive⟩
        rcases hb.linked.inService hsession hlive with ⟨k, s, hk, hrow, hservice⟩
        exact ⟨b, k, s, hb, .single hstep, hnew, hk, hrow, hservice⟩

/-! ## What the lifecycle says of the signaling -/

/-- The two parts have the same sessions. Whatever the signaling does for a
    session, it does for a message of one of its two owners, at a time when
    the session was in service or later; and only the owners of a session are
    in its rooms. -/
theorem signaling_serves_lifecycle (h : Reachable calls throws v messages sp a) :
    (∀ k, a.signaling.shared.state.sessions (sp.spell k) =
      (a.lifecycle.shared.tables.sessions k).map sp.row) ∧
    (∀ e l' id, e :: l' <:+ a.signaling.shared.log → e.op.Serves id →
      ∃ before k s socket client, id = sp.spell k ∧
        Reachable calls throws v messages sp before ∧
        Relation.ReflTransGen (Step throws messages sp) before a ∧
        before.signaling.shared.log <:+ l' ∧ InService before.lifecycle.shared.tables k s ∧
        (messages e.message).client = some socket ∧
        (Signaling.replay l').sockets socket = some client ∧
        client.context = some ((sp.row s).owner client.participant)) ∧
    ∀ p room t, t ∈ a.signaling.shared.state.rooms p room → ∃ k s member,
      room = remoteSessionRoom (sp.spell k) ∧ a.lifecycle.shared.tables.sessions k = some s ∧
      a.signaling.shared.state.sockets t = some member ∧ member.participant = p ∧
      member.context = some ((sp.row s).owner p) := by
  have hlinked := h.linked
  have ha := hlinked.signaling.recorded.answered
  have hstate := hlinked.signaling.recorded.state
  have ho := Signaling.orderly hlinked.signaling
  have hserved : ∀ e l' id, e :: l' <:+ a.signaling.shared.log → e.op.Serves id →
      ∃ before k s socket client, id = sp.spell k ∧
        Reachable calls throws v messages sp before ∧
        Relation.ReflTransGen (Step throws messages sp) before a ∧
        before.signaling.shared.log <:+ l' ∧ InService before.lifecycle.shared.tables k s ∧
        (messages e.message).client = some socket ∧
        (Signaling.replay l').sockets socket = some client ∧
        client.context = some ((sp.row s).owner client.participant) := by
    intro e l' id he hserves
    have hl' : l' <:+ a.signaling.shared.log := (List.suffix_cons e l').trans he
    rcases Signaling.admission ha ho he hserves with ⟨identity, socket, hadmission⟩
    rcases hadmission.socket with ⟨client, hclient, hp, hc⟩
    rcases hadmission.found with ⟨x, row, lr, hlr, _, hx⟩
    rcases h.found (hlr.trans hl') with ⟨before, k, s, hreach, hpath, hlog, hk, rfl, hservice⟩
    -- The database compares the owner with the identity of the message.
    rcases ha.answer_eq (hlr.trans hl') with ⟨_, _, hfound⟩
    rcases Signaling.findJoinable_eq_some hfound.symm with ⟨_, howner, _⟩
    exact ⟨before, k, s, socket, client, hx.symm.trans hk.symm, hreach, hpath,
      hlog.trans ((List.suffix_cons _ lr).trans hlr), hservice, hadmission.client, hclient,
      by rw [hc, hp, howner]⟩
  refine ⟨hlinked.sessions, hserved, fun p room t ht => ?_⟩
  rw [hstate] at ht
  -- A socket that is in a room has entered it.
  rcases Signaling.entered_since ht with ⟨e, l', he, hop, _, _⟩
  have hin := ho e l' he
  rw [hop] at hin
  rcases hin with ⟨_, _, _, row, _, _, _, _, rfl⟩
  rcases hserved e l' row.id he (by rw [hop]; rfl) with
    ⟨before, k, s, _, _, hk, hreach, _, hlog, hservice, _⟩
  have hl' : l' <:+ a.signaling.shared.log := (List.suffix_cons e l').trans he
  -- The session was there when the socket entered, so it is there now.
  have hthen : (Signaling.replay before.signaling.shared.log).sessions (sp.spell k) =
      some (sp.row s) := by
    rw [← hreach.linked.signaling.recorded.state, hreach.linked.sessions k, hservice.session]
    rfl
  rcases (ha.later (hlog.trans hl')).sessions _ _ hthen with ⟨row', hrow', _, _⟩
  have hnow := hrow'
  rw [← hstate, hlinked.sessions k, Option.map_eq_some_iff] at hnow
  rcases hnow with ⟨s', hs', rfl⟩
  have hid := hlinked.lifecycle.inv.consistent.sessionId k s' hs'
  have hrow : (Signaling.replay a.signaling.shared.log).sessions (sp.row s').id =
      some (sp.row s') := by
    rw [row_id, hid]
    exact hrow'
  rw [hk, ← hid] at ht
  rcases Signaling.member_owns ha ho hrow t ht with ⟨member, hmember, hp, hc⟩
  exact ⟨k, s', member, by rw [hk], hs', by rw [hstate]; exact hmember, hp, hc⟩

/-- What follows a reachable state is reachable, with a longer history. -/
theorem Reachable.steps (ha : Reachable calls throws v messages sp a)
    (hpath : Relation.ReflTransGen (Step throws messages sp) a b) :
    Reachable calls throws v messages sp b ∧
      a.signaling.shared.log <:+ b.signaling.shared.log := by
  induction hpath with
  | refl => exact ⟨ha, List.suffix_rfl⟩
  | tail _ hstep ih =>
      rcases ih.1 with ⟨devices, users, clock, hsteps⟩
      exact ⟨⟨devices, users, clock, hsteps.tail hstep⟩,
        ih.2.trans (hstep.log_suffix ih.1.linked)⟩

/-- After the closure of a session the signaling does nothing for it any more,
    except for messages that it had been found live for before. -/
theorem closed_session_cut (ha : Reachable calls throws v messages sp a)
    (hpath : Relation.ReflTransGen (Step throws messages sp) a b) {k : Uuid} {s : RemoteSession}
    (hs : a.lifecycle.shared.tables.sessions k = some s) (hclosed : s.status = .closed)
    {e : Signaling.Entry} {l' : List Signaling.Entry} (he : e :: l' <:+ b.signaling.shared.log)
    (hserves : e.op.Serves (sp.spell k)) :
    ∃ x identity row lr, entry e.message (.findJoinable x identity) (some row) :: lr <:+
        a.signaling.shared.log ∧ Signaling.canonical x = sp.spell k := by
  rcases ha.steps hpath with ⟨hb, hlog⟩
  have hanswered := hb.linked.signaling.recorded.answered
  rcases Signaling.admission hanswered (Signaling.orderly hb.linked.signaling) he hserves with
    ⟨identity, socket, hadmission⟩
  rcases hadmission.found with ⟨x, row, lr, hlr, _, hx⟩
  have hlr' : entry e.message (.findJoinable x identity) (some row) :: lr <:+
      b.signaling.shared.log := hlr.trans ((List.suffix_cons e l').trans he)
  refine ⟨x, identity, row, lr, ?_, hx⟩
  -- The query was made before the closure, or after it.
  rcases List.suffix_or_suffix_of_suffix hlr' hlog with hbefore | hafter
  · exact hbefore
  · rcases List.suffix_cons_iff.mp hafter with heq | hafter
    · rw [heq]
    · -- After the closure the database does not find the session any more.
      rcases hanswered.answer_eq hlr' with ⟨_, _, hfound⟩
      rcases Signaling.findJoinable_eq_some hfound.symm with ⟨hsession, _, hlive⟩
      have hthen : (Signaling.replay a.signaling.shared.log).sessions (sp.spell k) =
          some (sp.row s) := by
        rw [← ha.linked.signaling.recorded.state, ha.linked.sessions k, hs]
        rfl
      have hbelow : lr <:+ b.signaling.shared.log := (List.suffix_cons _ lr).trans hlr'
      rcases ((hanswered.suffix hbelow).later hafter).sessions _ _ hthen with
        ⟨row', hrow', _, hback⟩
      rw [← hx, hsession, Option.some.injEq] at hrow'
      subst hrow'
      exact absurd hclosed (isLive_iff.mp (hback hlive))

/-! ## Schedules -/

/-- Who takes the next turn: a call that commits no session, a call that
    commits session `k` with the message for it, or a message. -/
inductive Turn where
  | call (c : CallId) (env : Env)
  | commit (c : CallId) (env : Env) (k : Uuid) (m : MessageId)
  | message (m : MessageId)

/-- The entry is the commit of a session. -/
def commitsSession (e : Entry) : Bool :=
  match e.event with
  | .committed ws => !ws.sessions.isEmpty
  | _ => false

section Schedules

variable (throws : CallId → Emitter → Bool) (messages : MessageId → Signaling.Operation)
  (sp : Spelling)

/-- One turn of a schedule, if it can be taken. A call that commits a session
    takes its turn together with the message that brings the row to the signaling. -/
def take (a : Backend) : Turn → Option Backend
  | .call c env => match a.lifecycle.turn (exec throws) c env with
    | none => none
    | some next =>
      if (next.shared.log.take (next.shared.log.length - a.lifecycle.shared.log.length)).all
          (fun e => !commitsSession e) then some { a with lifecycle := next }
      else none
  | .commit c env k m =>
    match a.lifecycle.turn (exec throws) c env, a.signaling.turn Signaling.exec m ⟨false⟩ with
    | some next, some following => match next.shared.tables.sessions k, messages m with
      | some s, .commit row =>
        if row = sp.row s ∧ a.lifecycle.shared.tables.sessions k ≠ some s then
          some { lifecycle := next, signaling := following }
        else none
      | _, _ => none
    | _, _ => none
  | .message m => match messages m with
    | .commit _ => none
    | _ => (a.signaling.turn Signaling.exec m ⟨false⟩).map (fun signaling => { a with signaling })

/-- A schedule, turn by turn. -/
def followBoth : Backend → List Turn → Option Backend
  | a, [] => some a
  | a, t :: rest => match take throws messages sp a t with
    | none => none
    | some b => followBoth b rest

end Schedules

/-- A turn of the lifecycle adds to its history. -/
theorem turn_log {sys sys' : Calls} {c : CallId} {env : Env}
    (h : RemoteControl.Reachable calls throws sys)
    (hturn : sys.turn (exec throws) c env = some sys') :
    ∃ es, sys'.shared.log = es ++ sys.shared.log := by
  rcases h.sound.turn (fun _ _ => Returned.stable) (fun _ _ => Raised.stable) hturn with
    ⟨_, hsteps⟩
  generalize sys'.shared = w at hsteps
  induction hsteps with
  | refl => exact ⟨[], rfl⟩
  | tail _ hstep ih =>
      rcases ih with ⟨es, hes⟩
      rcases hstep.1.entry with ⟨e, _, _, hlog, _⟩
      exact ⟨e :: es, by rw [hlog, hes, List.cons_append]⟩

/-- Entries that commit no session leave the sessions. -/
theorem replay_sessions {es l : List Entry} (h : ∀ e ∈ es, commitsSession e = false) :
    (replay (es ++ l)).sessions = (replay l).sessions := by
  induction es with
  | nil => rfl
  | cons e es ih =>
      -- The entries of this turn commit no session, so the sessions are the same.
      have ih' := ih (fun e' he' => h e' (List.mem_cons_of_mem e he'))
      have he := h e List.mem_cons_self
      rw [List.cons_append]
      cases hev : e.event with
      | committed ws =>
          simp only [commitsSession, hev, Bool.not_eq_false', List.isEmpty_iff] at he
          simp only [replay, hev, Tables.apply, he]
          exact ih'
      | _ =>
          simp only [replay, hev]
          exact ih'

/-- What a schedule does is a step. -/
theorem step_of_take (h : Linked calls throws v messages sp a) {t : Turn}
    (ht : take throws messages sp a t = some b) : Step throws messages sp a b := by
  cases t with
  | call c env =>
      simp only [take] at ht
      cases hturn : a.lifecycle.turn (exec throws) c env with
      | none =>
          rw [hturn] at ht
          cases ht
      | some next =>
          simp only [hturn] at ht
          split at ht
          · rename_i hquiet
            cases ht
            refine .call c env next hturn ?_
            rcases turn_log h.lifecycle hturn with ⟨es, hes⟩
            rcases h.lifecycle with ⟨devices, users, clock, hrun⟩
            have hnext : RemoteControl.Reachable calls throws next :=
              ⟨devices, users, clock, .step _ _ c env hrun trivial hturn⟩
            have hlength : next.shared.log.length - a.lifecycle.shared.log.length = es.length := by
              rw [hes, List.length_append, Nat.add_sub_cancel]
            rw [hlength, hes, List.take_left, List.all_eq_true] at hquiet
            rw [hnext.inv.tables, h.lifecycle.inv.tables, hes]
            exact replay_sessions (fun e he => (Bool.not_eq_true' _).mp (hquiet e he))
          · cases ht
  | commit c env k m =>
      simp only [take] at ht
      split at ht
      · rename_i next following hturn hcommit
        split at ht
        · rename_i s row hrow hm
          split at ht
          · rename_i hnew
            cases ht
            exact .commit c env next k s m ⟨false⟩ following hturn hrow hnew.2 (hnew.1 ▸ hm) hcommit
          · cases ht
        · cases ht
      · cases ht
  | message m =>
      simp only [take] at ht
      split at ht
      · cases ht
      · rename_i hm
        rw [Option.map_eq_some_iff] at ht
        rcases ht with ⟨following, hturn, rfl⟩
        exact .message m ⟨false⟩ following hm hturn

/-- What a schedule that can be followed does is a path of steps. -/
theorem reachable_of_schedule {ts : List Turn} (ha : Reachable calls throws v messages sp a)
    (h : followBoth throws messages sp a ts = some b) :
    Relation.ReflTransGen (Step throws messages sp) a b := by
  induction ts generalizing a with
  | nil =>
      rw [followBoth, Option.some.injEq] at h
      rw [h]
  | cons t rest ih =>
      simp only [followBoth] at h
      cases ht : take throws messages sp a t with
      | none =>
          rw [ht] at h
          cases h
      | some d =>
          rw [ht] at h
          have hstep := step_of_take ha.linked ht
          exact (ih (ha.steps (.single hstep)).1 h).head hstep

/-! ## A session from its opening to its closure -/

/-- A join of the session. -/
def sessionPayload : Encoding.Json := .object [("remoteSessionId", .string (noughts.spell 20))]

/-- An offer for it. -/
def sessionOffer : Encoding.Json :=
  .object [("remoteSessionId", .string (noughts.spell 20)), ("sdp", .string "v=0")]

/-- The tablet and the technician of the assistance meet, and the technician
    sends an offer. -/
def meetingAbout : MessageId → Signaling.Operation
  | 0 => .bind .device
  | 1 => .bind .technician
  | 2 => .commit ⟨noughts.spell 20, 1, 2, .connecting⟩
  | 3 => .connect 10 .device (some 1)
  | 4 => .connect 20 .technician (some 2)
  | 5 => .join 10 sessionPayload
  | 6 => .join 20 sessionPayload
  | 7 => .offer 20 sessionOffer
  | _ => .commit ⟨noughts.spell 20, 1, 2, .closed⟩

/-- A call takes some turns in a row. -/
def callTurns (c : CallId) (n : Nat) (newId : Uuid) : List Turn :=
  (turns c n newId).map (fun x => .call x.1 x.2)

/-- So does a message. -/
def messageTurns (m : MessageId) (n : Nat) : List Turn := List.replicate n (.message m)

/-- The environment of a turn in which everybody is online. -/
def everybodyOnline : Env := { tick := 1, online := fun _ => true, newId := 0, createdAt := 0 }

/-- The offer is on its way when the technician closes the session. -/
def closing : List Turn :=
  messageTurns 0 1 ++ messageTurns 1 1 ++ callTurns 0 3 10 ++ callTurns 1 7 0 ++ callTurns 2 7 0 ++
    callTurns 3 11 20 ++ [.commit 3 everybodyOnline 20 2] ++ messageTurns 3 1 ++
    messageTurns 4 1 ++ messageTurns 5 8 ++ messageTurns 6 8 ++ messageTurns 7 3 ++
    callTurns 5 9 0 ++ [.commit 5 everybodyOnline 20 8]

/-- The offer as it is emitted to the device. -/
def theOffer : Signaling.Op :=
  .emit .device (remoteSessionRoom (noughts.spell 20)) Signaling.webrtcOfferEvent
    (.sdp ⟨noughts.spell 20, .technician, "v=0"⟩)

/-- It is emitted for the session. -/
theorem theOffer_serves : theOffer.Serves (noughts.spell 20) := rfl

/-- The session is closed, and the offer is still emitted after it. -/
theorem closing_reachable : ∃ a b s e l', Reachable assistance quiet Signaling.lenient meetingAbout
      noughts a ∧
    Relation.ReflTransGen (Step quiet meetingAbout noughts) a b ∧
    a.lifecycle.shared.tables.sessions 20 = some s ∧ s.status = .closed ∧
    e :: l' <:+ b.signaling.shared.log ∧ e.op = theOffer := by
  have hrun : ((followBoth quiet meetingAbout noughts (boot assistance Signaling.lenient
      meetingAbout (fun _ => tablet) (fun _ => agent) 0) closing).any (fun a =>
        (a.lifecycle.shared.tables.sessions 20).any (fun s => decide (s.status = .closed)) &&
        (followBoth quiet meetingAbout noughts a (messageTurns 7 1)).any (fun b =>
          (b.signaling.shared.log.drop 1).head?.any (fun e => decide (e.op = theOffer))))) =
      true := by
    decide +kernel
  rw [Option.any_eq_true] at hrun
  rcases hrun with ⟨a, ha, hp⟩
  rw [Bool.and_eq_true, Option.any_eq_true, Option.any_eq_true] at hp
  rcases hp with ⟨⟨s, hs, hclosed⟩, b, hb, he⟩
  rw [Option.any_eq_true] at he
  rcases he with ⟨e, he, hop⟩
  rw [decide_eq_true_eq] at hclosed hop
  rcases List.head?_eq_some_iff.mp he with ⟨l', hl'⟩
  have hboot : Reachable assistance quiet Signaling.lenient meetingAbout noughts
      (boot assistance Signaling.lenient meetingAbout (fun _ => tablet) (fun _ => agent) 0) :=
    ⟨_, _, _, .refl⟩
  have hreach := (hboot.steps (reachable_of_schedule hboot ha)).1
  exact ⟨a, b, s, e, l', hreach, reachable_of_schedule hreach hb, hs, hclosed,
    hl' ▸ List.drop_suffix 1 _, hop⟩

/-- When the offer was admitted the session was in service. -/
theorem signaling_serves_lifecycle_offer : ∃ before s,
    Reachable assistance quiet Signaling.lenient meetingAbout noughts before ∧
    InService before.lifecycle.shared.tables 20 s := by
  rcases closing_reachable with ⟨a, b, _, e, l', ha, hpath, _, _, he, hop⟩
  rcases (signaling_serves_lifecycle (ha.steps hpath).1).2.1 e l' (noughts.spell 20) he
    (hop ▸ theOffer_serves) with ⟨before, k, s, _, _, hk, hbefore, _, _, hservice, _⟩
  rw [← noughts.injective hk] at hservice
  exact ⟨before, s, hbefore, hservice⟩

/-- The offer that comes through after the closure was admitted before it. -/
theorem closed_session_cut_offer : ∃ (a : Backend) (e : Signaling.Entry), ∃ x identity row lr,
    Reachable assistance quiet Signaling.lenient meetingAbout noughts a ∧
    (∃ s, a.lifecycle.shared.tables.sessions 20 = some s ∧ s.status = .closed) ∧
    e.op = theOffer ∧
    entry e.message (.findJoinable x identity) (some row) :: lr <:+ a.signaling.shared.log := by
  rcases closing_reachable with ⟨a, b, s, e, l', ha, hpath, hs, hclosed, he, hop⟩
  rcases closed_session_cut ha hpath hs hclosed he (hop ▸ theOffer_serves) with
    ⟨x, identity, row, lr, hlr, _⟩
  exact ⟨a, e, x, identity, row, lr, ha, ⟨s, hs, hclosed⟩, hop, hlr⟩

end Together

end RemoteControl

import RemoteControl.Concurrency.Segments
import RemoteControl.Core.Together
import RemoteControl.Theory.Confidentiality
import RemoteControl.Theory.Monotone
import Mathlib.Data.Countable.Basic
import Mathlib.Data.Nat.Pairing
import Mathlib.Data.Set.Finite.Basic
import Mathlib.Logic.Equiv.List

/-!
# What the Signaling Knows of the Lifecycle

The signaling was verified on its own, with commits of sessions that it knows
little about: a session is live when it appears, it keeps its owners, and it
is not opened again. Here that turns out to be what the lifecycle does. One
turn of a call changes at most one session (`turn_sessionStep`), and in a way
that the signaling allows (`mayCommit_row`), so the signaling never stands in
the way of the lifecycle (`Linked.follows`), and the two always have the
same sessions (`Linked.sessions`).

So what each of the two guarantees carries over to the other. Who is let into
a room or relays a message owns a session of the lifecycle, whose request the
device has accepted.

Three facts make the two parts fit. A turn of a call has one commit at most,
and what it commits is explained by one operation of the lifecycle, so it
writes at most one session (`turn_sessionStep`). What it writes is what the
signaling lets pass. And a message of the signaling only ever reads sessions
(`handle_reads`), so between two commits they stay as they are. `Linked` holds
all of it, and is kept by each of the three kinds of steps. For the converse,
that the lifecycle is never held up, there has to be a message left for every
commit. In a finite run only finitely many have been used, so infinitely many
for each row are enough (`exists_accompanied`).

## Main definitions

* `SessionStep`: What a turn of a call does to the sessions.
* `Linked`: The two parts of a backend agree.

## Theorems

* `turn_sessionStep`: A turn of a call.
* `Reachable.linked`: Every reachable backend.
-/

namespace RemoteControl

open Concurrency

/-! ## One turn of the lifecycle -/

/-- A turn leaves the sessions alone, or opens one, or moves one on. -/
inductive SessionStep (before after : Uuid → Option RemoteSession) : Prop where
  | same (h : after = before)
  | opened (k : Uuid) (s : RemoteSession) (h : after = Function.update before k (some s))
      (hid : s.id = k) (hold : before k = none) (hlive : s.isLive = true)
  | moved (k : Uuid) (s old : RemoteSession) (h : after = Function.update before k (some s))
      (hid : s.id = k) (hold : before k = some old) (hdevice : old.deviceId = s.deviceId)
      (htechnician : old.technicianId = s.technicianId) (hlive : old.isLive = true)

variable {calls : CallId → Operation} {throws : CallId → Emitter → Bool} {T : Tables}

/-- What a session's write makes of the sessions. -/
theorem sessionWrites_update (id : Uuid) (row : RemoteSession) :
    (T.apply (sessionWrites T.sessions id row)).sessions =
      Function.update T.sessions id (some row) := by
  funext k
  rw [apply_sessionWrites]
  by_cases hk : id = k
  · rw [if_pos hk, hk, Function.update_self]
  · rw [if_neg hk, Function.update_of_ne (fun h => hk h.symm)]

/-- What a closure makes of the sessions. What it does to the request is in
    another table. -/
theorem closureWrites_update (id : Uuid) (s : RemoteSession) (r : SupportRequest) (t : Timestamp)
    (endedBy : RemoteSessionEndedBy) : (T.apply (closureWrites T id s r t endedBy)).sessions =
      Function.update T.sessions id (some ((closure t endedBy).apply s)) :=
  sessionWrites_update id _

/-- Four of the operations write a session, and each writes one: it is opened
    live, or it was live before. -/
theorem Explains.sessionStep {t : Timestamp} {op : Operation} {ws : Writes}
    (h : Explains T t op ws) (hc : Consistent T) :
    SessionStep T.sessions (T.apply ws).sessions := by
  cases h with
  | opened id user r sid createdAt hr hu hs hfresh hfree =>
      exact .opened sid _ (sessionWrites_update sid _) rfl hfresh rfl
  | activated id user s hs hu hst =>
      have hlive : s.isLive = true := isLive_iff.mpr (by rw [hst]; decide)
      exact .moved id _ s (sessionWrites_update id _) (hc.sessionId id s hs) hs rfl rfl hlive
  | closedByTechnician id user s r hs hu hl hr hst ht =>
      exact .moved id _ s (closureWrites_update id s r t _) (hc.sessionId id s hs) hs rfl rfl hl
  | closedByDevice id device s r hs hd hl hr hst ht =>
      exact .moved id _ s (closureWrites_update id s r t _) (hc.sessionId id s hs) hs rfl rfl hl
  | _ => exact .same rfl

/-- A call commits once, so a turn of it changes at most one session. Along the
    operations of the turn the sessions are what they were until the commit, and
    then what it made of them; a second commit there is none. -/
theorem turn_sessionStep {sys sys' : Calls} {c : CallId} {env : Env}
    (h : RemoteControl.Reachable calls throws sys)
    (hturn : sys.turn (exec throws) c env = some sys') :
    SessionStep sys.shared.tables.sessions sys'.shared.tables.sessions := by
  rcases h.sound.turn (fun _ _ => Returned.stable) (fun _ _ => Raised.stable) hturn with
    ⟨_, hsteps⟩
  -- As far as the turn has come: nothing was written yet, or the call has committed.
  have hmove : ∀ w, Relation.ReflTransGen (fun a b => (lifecycle calls throws).guar c a b ∧
      (lifecycle calls throws).inv a ∧ (lifecycle calls throws).inv b) sys.shared w →
      w.tables.sessions = sys.shared.tables.sessions ∨
        (progress c w.log).committed.isSome = true ∧
          SessionStep sys.shared.tables.sessions w.tables.sessions := by
    intro w hw
    induction hw with
    | refl => exact .inl rfl
    | @tail b d _ hstep ih =>
        rcases hstep with ⟨hg, hi, hi'⟩
        rcases hg.entry with ⟨e, hcall, _, hlog, _⟩
        have hhist := hi'.history
        rw [hlog] at hhist
        have hok := hhist.1.event
        rw [hi'.tables, hlog, progress_own hcall]
        cases hev : e.event with
        | committed ws =>
            simp only [hev, hcall] at hok
            rcases hok with ⟨hnone, _, _, _, t, _, _, _, hx⟩
            -- The commit: the rows were still those of the beginning.
            rcases ih with hsame | ⟨hsome, _⟩
            · rw [← hi.tables] at hx
              have hstep := hx.sessionStep hi.consistent
              rw [hsame, hi.tables] at hstep
              refine .inr ⟨rfl, ?_⟩
              simp only [replay, hev]
              exact hstep
            · rw [hnone, Option.isSome_none] at hsome
              exact absurd hsome Bool.false_ne_true
        -- Everything else leaves the tables alone, and what was committed.
        | ran o =>
            rw [hi.tables] at ih
            simp only [replay, hev]
            cases o <;> exact ih
        | _ =>
            rw [hi.tables] at ih
            simp only [replay, hev]
            exact ih
  rcases hmove _ hsteps with hsame | ⟨_, hstep⟩
  · exact .same hsame
  · exact hstep

/-! ## Messages do not commit -/

namespace Signaling

open Encoding

/-- The operation is not a commit. -/
def Op.IsRead : Op → Prop
  | .commit _ => False
  | _ => True

section Programs

variable (socket : SocketId) (identity : SignalingIdentity)

/-- A look at a room reads. -/
theorem hasParticipantInSession_reads (p : SignalingParticipant) (id : String) :
    (SignalingRealtimeService.hasParticipantInSession p id).Uses Op.IsRead := by
  refine ⟨trivial, fun bound => ?_⟩
  rcases (bound : Bool) with _ | _
  · trivial
  · exact ⟨trivial, fun _ => trivial⟩

/-- An emission changes no session. -/
theorem emitToParticipantSession_reads (p : SignalingParticipant) (id event : String)
    (payload : Payload) :
    (SignalingRealtimeService.emitToParticipantSession p id event payload).Uses Op.IsRead := by
  refine ⟨trivial, fun bound => ?_⟩
  rcases (bound : Bool) with _ | _
  · trivial
  · exact ⟨trivial, fun _ => trivial⟩

/-- To leave a session changes the socket and its room. -/
theorem leaveCurrentSession_reads :
    (SignalingService.leaveCurrentSession socket).Uses Op.IsRead := by
  refine ⟨trivial, fun current => ?_⟩
  rcases (current : Option String) with _ | current
  · trivial
  · exact ⟨trivial, fun _ => ⟨trivial, fun _ => trivial⟩⟩

/-- To enter a session does as well. -/
theorem enterSession_reads (row : RemoteSessionRow) :
    (SignalingService.enterSession socket identity row).Uses Op.IsRead := by
  refine .bind (hasParticipantInSession_reads _ _) (fun present => ?_)
  refine ⟨trivial, fun _ => ⟨trivial, fun _ => ?_⟩⟩
  change ((SignalingRealtimeService.hasParticipantInSession (peerOf identity.participant)
    row.id).bind _).Uses Op.IsRead
  refine .bind (hasParticipantInSession_reads _ _) (fun peer => ?_)
  split
  · exact .bind (.bind (emitToParticipantSession_reads _ _ _ _) (fun _ => trivial))
      (fun _ => trivial)
  · trivial

/-- A join reads the session that it enters. -/
theorem join_reads (v : Validator) (payload : Json) :
    (SignalingService.join v socket identity payload).Uses Op.IsRead := by
  refine .bind (p := SignalingService.toDto _ _ _ payload) trivial (fun dto => ?_)
  rcases dto with _ | dto
  · trivial
  · refine .bind (leaveCurrentSession_reads socket) (fun _ => ⟨trivial, fun found => ?_⟩)
    rcases (found : Option RemoteSessionRow) with _ | row
    · trivial
    · exact enterSession_reads socket identity row

/-- A relay reads the session that it is about. -/
theorem authorizeRelay_reads (id : String) :
    (SignalingService.authorizeRelay socket identity id).Uses Op.IsRead := by
  refine ⟨trivial, fun (current : Option String) => ?_⟩
  change Prog.Uses Op.IsRead (if current ≠ some id then _ else _)
  by_cases hcurrent : current = some id
  · rw [if_neg (not_not.mpr hcurrent)]
    exact ⟨trivial, fun _ => trivial⟩
  · rw [if_pos hcurrent]
    trivial

/-- And nothing else of it. -/
theorem relay_reads {v : Validator} {T : Type} (names : List String)
    (ofFields : List (String × Json) → Option T) (idOf : T → String) (event : String)
    (relayed : T → SignalingParticipant → Payload) (payload : Json) :
    (SignalingService.relay v names ofFields idOf event relayed socket identity payload).Uses
      Op.IsRead := by
  refine .bind trivial (fun dto => ?_)
  rcases dto with _ | dto
  · trivial
  · refine .bind (authorizeRelay_reads socket identity (idOf dto)) (fun error => ?_)
    · rcases error with _ | error
      · exact .bind (emitToParticipantSession_reads _ _ _ _) (fun _ => trivial)
      · trivial

/-- The identity of a socket is read. -/
theorem withIdentity_reads {rejected : Response} {body : SignalingIdentity → Service Response}
    (h : ∀ identity, (body identity).Uses Op.IsRead) :
    (withIdentity socket rejected body).Uses Op.IsRead := by
  refine ⟨trivial, fun (identity : Option SignalingIdentity) => ?_⟩
  cases identity with
  | none => trivial
  | some identity => exact h identity

/-- An acknowledgement changes no session. -/
theorem answered_reads {body : Service Response} (h : body.Uses Op.IsRead) :
    (answered socket body).Uses Op.IsRead := by
  have hrest : (body.bind (fun response => (ask (.ack response)).bind (fun _ =>
      .ret response))).Uses Op.IsRead := h.bind (fun _ => ⟨trivial, fun _ => trivial⟩)
  exact ⟨trivial, fun _ => hrest⟩

/-- Only a commit commits. -/
theorem handle_reads {v : Validator} {op : Operation} (hop : ∀ row, op ≠ .commit row) :
    (handle v op).Uses Op.IsRead := by
  -- The three messages that are relayed.
  have hrelay : ∀ {relay : SocketId → SignalingIdentity → Json → Service SignalingRelayAck}
      (socket : SocketId) (payload : Json),
      (∀ identity, (relay socket identity payload).Uses Op.IsRead) →
      (answered socket (handleRelay relay socket payload)).Uses Op.IsRead :=
    fun socket _ h => answered_reads socket (withIdentity_reads socket (fun identity =>
      .bind (h identity) (fun _ => trivial)))
  cases op with
  | join socket payload =>
      exact answered_reads socket (withIdentity_reads socket (fun identity =>
        .bind (join_reads socket identity v payload) (fun _ => trivial)))
  | offer socket payload =>
      refine hrelay socket payload (fun identity => ?_)
      unfold SignalingService.relayOffer SignalingService.relaySdp
      exact relay_reads socket identity ..
  | answer socket payload =>
      refine hrelay socket payload (fun identity => ?_)
      unfold SignalingService.relayAnswer SignalingService.relaySdp
      exact relay_reads socket identity ..
  | iceCandidate socket payload =>
      refine hrelay socket payload (fun identity => ?_)
      unfold SignalingService.relayIceCandidate
      exact relay_reads socket identity ..
  | connect socket p context =>
      refine ⟨trivial, fun _ => ?_⟩
      cases context with
      | none => exact ⟨trivial, fun _ => trivial⟩
      | some id => trivial
  | disconnect socket => exact ⟨trivial, fun _ => trivial⟩
  | bind p => exact ⟨trivial, fun _ => trivial⟩
  | commit row => exact absurd rfl (hop row)

end Programs

/-! ## Turns of the messages -/

variable {v : Validator} {sys sys' : Messages} {m : MessageId} {env : Env}

/-- Only a commit changes a session. -/
theorem effect_sessions {s : State} {o : Op} (h : o.IsRead) :
    (effect s o).sessions = s.sessions := by
  cases o
  case commit => exact h.elim
  case joinRoom id room =>
    simp only [Signaling.effect]
    split
    · rfl
    · split <;> rfl
  case setRemoteSessionId | leaveRoom | disconnect =>
    simp only [Signaling.effect]
    split <;> rfl
  all_goals rfl

/-- The sessions have been the same since the history `l`. -/
def SessionsSince (l : List Entry) (w : World) : Prop :=
  l <:+ w.log ∧ w.state.sessions = (replay l).sessions ∧
    ∀ l', l <:+ l' → l' <:+ w.log → (replay l').sessions = (replay l).sessions

/-- A message that does not commit finds the sessions as they are throughout its
    turn. The statement goes along the operations of the turn, for every point of
    the history since its beginning. -/
theorem turn_reads (hreads : (sys.threads m).Uses Op.IsRead)
    (hstate : sys.shared.state = replay sys.shared.log)
    (hturn : sys.turn exec m env = some sys') : SessionsSince sys.shared.log sys'.shared := by
  rcases turn_cases hturn with ⟨p, p', w', hp, hseg, rfl⟩
  rw [hp] at hreads
  -- At the beginning they are what they are.
  have hstart : SessionsSince sys.shared.log sys.shared := by
    refine ⟨List.suffix_rfl, by rw [hstate], fun l' hl hl' => ?_⟩
    rw [hl'.eq_of_length (Nat.le_antisymm hl'.length_le hl.length_le)]
  refine Prog.Uses.keeps (p := p) (fun o w r w'' ho hx hw => ?_) hreads hseg hstart
  simp only [exec] at hx
  split at hx
  · cases hx
    have hsame : (effect w.state o).sessions = (replay sys.shared.log).sessions :=
      (effect_sessions ho).trans hw.2.1
    refine ⟨hw.1.trans (List.suffix_cons _ _), hsame, fun l' hl hl' => ?_⟩
    rcases List.suffix_cons_iff.mp hl' with rfl | hl'
    · rw [replay, effect_sessions ho]
      exact hw.2.2 w.log hw.1 List.suffix_rfl
    · exact hw.2.2 l' hl hl'
  · cases hx

/-- A commit is one operation. It is refused, and waits, where the database would
    not let it pass. -/
theorem segment_commit {row : RemoteSessionRow} {w : World} :
    Concurrency.segment (exec m env) (handle v (.commit row)) w =
      if mayCommit (w.state.sessions row.id) row = true then
        some (.ret .done, ⟨effect w.state (.commit row), entry m (.commit row) () :: w.log⟩)
      else none := by
  have hhandle : handle v (.commit row) = .op (.commit row) (fun _ => .ret Response.done) := rfl
  rw [hhandle]
  by_cases hallowed : mayCommit (w.state.sessions row.id) row = true
  · have hexec : exec m env (.commit row) w =
        some ((), ⟨effect w.state (.commit row), entry m (.commit row) () :: w.log⟩) :=
      if_pos hallowed
    simp only [Concurrency.segment, hexec, if_pos hallowed]
  · have hexec : exec m env (.commit row) w = none := if_neg hallowed
    simp only [Concurrency.segment, hexec, if_neg hallowed]

/-- A commit that can take its turn is all that happens in it. -/
theorem turn_commits {row : RemoteSessionRow}
    (hthread : sys.threads m = .await (handle v (.commit row)) ∨
      ∃ r, sys.threads m = .ret r) (hturn : sys.turn exec m env = some sys') :
    sys'.shared.state = effect sys.shared.state (.commit row) ∧
      sys'.shared.log = entry m (.commit row) () :: sys.shared.log ∧
      sys'.threads = Function.update sys.threads m (.ret .done) := by
  rcases turn_cases hturn with ⟨p, p', w', hp, hseg, rfl⟩
  rw [hp] at hthread
  rcases hthread with hthread | ⟨r, hthread⟩
  · rw [Prog.await.injEq] at hthread
    rw [hthread, segment_commit] at hseg
    split at hseg
    · cases hseg
      exact ⟨rfl, rfl, rfl⟩
    · cases hseg
  · cases hthread

/-- A commit that is allowed can take its turn. -/
theorem commit_isSome {row : RemoteSessionRow}
    (hthread : sys.threads m = .await (handle v (.commit row)))
    (hallowed : mayCommit (sys.shared.state.sessions row.id) row = true) (env : Env) :
    (sys.turn exec m env).isSome := by
  simp only [System.turn, hthread, segment_commit, if_pos hallowed]
  rfl

end Signaling

namespace Together

open Signaling (Validator MessageId)

variable {v : Validator} {messages : MessageId → Signaling.Operation} {sp : Spelling}
  {a b : Backend}

/-! ## The two parts agree -/

/-- A session's row has its identifier, as it is spelled. -/
@[simp] theorem row_id (s : RemoteSession) : (sp.row s).id = sp.spell s.id := rfl

/-- It has its device. -/
@[simp] theorem row_deviceId (s : RemoteSession) : (sp.row s).deviceId = s.deviceId := rfl

/-- It has its technician. -/
@[simp] theorem row_technicianId (s : RemoteSession) : (sp.row s).technicianId = s.technicianId :=
  rfl

/-- It is live if the session is. -/
@[simp] theorem row_isLive (s : RemoteSession) : (sp.row s).isLive = s.isLive := rfl

/-- What the lifecycle does to a session the signaling allows. -/
theorem mayCommit_row (sp : Spelling) {before after : Uuid → Option RemoteSession}
    (h : SessionStep before after)
    {k : Uuid} {s : RemoteSession} (hk : after k = some s) (hnew : before k ≠ some s) :
    s.id = k ∧ after = Function.update before k (some s) ∧
      Signaling.mayCommit ((before k).map sp.row) (sp.row s) = true := by
  -- The session that is new is the one that the turn wrote.
  have hwritten : ∀ {k' s'}, after = Function.update before k' (some s') → k' = k ∧ s' = s := by
    rintro k' s' rfl
    by_cases hkk : k = k'
    · subst hkk
      rw [Function.update_self, Option.some.injEq] at hk
      exact ⟨rfl, hk⟩
    · rw [Function.update_of_ne hkk] at hk
      exact absurd hk hnew
  cases h with
  | same h => exact absurd (h ▸ hk) hnew
  | opened k' s' h hid hold hl =>
      rcases hwritten h with ⟨rfl, rfl⟩
      refine ⟨hid, h, ?_⟩
      simp only [hold, Option.map_none, Signaling.mayCommit, row_id, sp.canonical, row_isLive, hl,
        decide_true, Bool.and_self]
  | moved k' s' old h hid hold hdevice htechnician hl =>
      rcases hwritten h with ⟨rfl, rfl⟩
      refine ⟨hid, h, ?_⟩
      simp only [hold, Option.map_some, Signaling.mayCommit, row_id, sp.canonical, row_deviceId,
        row_technicianId, row_isLive, hl, hdevice, htechnician, decide_true, Bool.and_self,
        Bool.true_or]

/-- Both parts are where runs of theirs lead to, and have the same sessions. -/
structure Linked (calls : CallId → Operation) (throws : CallId → Emitter → Bool) (v : Validator)
    (messages : MessageId → Signaling.Operation) (sp : Spelling) (a : Backend) : Prop where
  lifecycle : RemoteControl.Reachable calls throws a.lifecycle
  signaling : Signaling.Reachable v messages a.signaling
  sessions : ∀ k, a.signaling.shared.state.sessions (sp.spell k) =
    (a.lifecycle.shared.tables.sessions k).map sp.row
  spelled : ∀ id row, a.signaling.shared.state.sessions id = some row → ∃ k, sp.spell k = id
  reads : ∀ m, (∀ row, messages m ≠ .commit row) →
    (a.signaling.threads m).Uses Signaling.Op.IsRead
  commits : ∀ m row, messages m = .commit row →
    a.signaling.threads m = .await (Signaling.handle v (.commit row)) ∨
      ∃ r, a.signaling.threads m = .ret r

/-- Nothing has happened, and there are no sessions. -/
theorem Linked.boot (devices : Uuid → Device) (users : Uuid → User) (clock : Timestamp) :
    Linked calls throws v messages sp (boot calls v messages devices users clock) where
  lifecycle := ⟨devices, users, clock, .refl⟩
  signaling := .refl
  sessions := fun _ => rfl
  spelled := fun _ _ h => by cases h
  reads := fun m hm => Signaling.handle_reads hm
  commits := fun m row hm => .inl (congrArg (fun op => Prog.await (Signaling.handle v op)) hm)

/-- Each kind of step keeps the two parts together: a call that writes no session,
    a call with the message that commits what it writes, and any other message. -/
theorem Linked.step (h : Linked calls throws v messages sp a)
    (hstep : Step throws messages sp a b) : Linked calls throws v messages sp b := by
  have hlifecycle : ∀ {c env next}, a.lifecycle.turn (exec throws) c env = some next →
      RemoteControl.Reachable calls throws next := by
    intro c env next hturn
    rcases h.lifecycle with ⟨devices, users, clock, hrun⟩
    exact ⟨devices, users, clock, .step _ _ c env hrun trivial hturn⟩
  cases hstep with
  | call c env next hturn hsame =>
      exact ⟨hlifecycle hturn, h.signaling, fun k => by rw [hsame]; exact h.sessions k, h.spelled,
        h.reads, h.commits⟩
  | commit c env next k s m menv following hturn hrow hnew hm hcommit =>
      rcases mayCommit_row sp (turn_sessionStep h.lifecycle hturn) hrow hnew with
        ⟨rfl, hafter, _⟩
      rcases Signaling.turn_commits (h.commits m _ hm) hcommit with ⟨hstate, _, hthreads⟩
      have hsessions : following.shared.state.sessions =
          Function.update a.signaling.shared.state.sessions (sp.spell s.id) (some (sp.row s)) := by
        rw [hstate]
        rfl
      refine ⟨hlifecycle hturn, .step _ _ m menv h.signaling trivial hcommit, fun k => ?_,
        fun id row hid => ?_, fun m' hm' => ?_, fun m' row hm' => ?_⟩
      · -- The sessions: the one that was committed, and the others.
        rw [hsessions, hafter]
        by_cases hk : k = s.id
        · rw [hk, Function.update_self, Function.update_self, Option.map_some]
        · rw [Function.update_of_ne (fun heq => hk (sp.injective heq)), Function.update_of_ne hk]
          exact h.sessions k
      · rw [hsessions] at hid
        by_cases heq : id = sp.spell s.id
        · exact ⟨s.id, heq.symm⟩
        · rw [Function.update_of_ne heq] at hid
          exact h.spelled id row hid
      · -- The messages that read: this one commits, so it is none of them.
        rw [hthreads, Function.update_of_ne (fun heq => hm' _ (heq ▸ hm))]
        exact h.reads m' hm'
      · rw [hthreads]
        by_cases heq : m' = m
        · rw [heq, Function.update_self]
          exact .inr ⟨_, rfl⟩
        · rw [Function.update_of_ne heq]
          exact h.commits m' row hm'
  | message m menv following hm hturn =>
      -- The message reads, so the sessions are what they were.
      have hsame := (Signaling.turn_reads (h.reads m hm) h.signaling.recorded.state hturn).2.1
      rw [← h.signaling.recorded.state] at hsame
      have hreads := h.reads m hm
      rcases turn_cases hturn with ⟨p, p', w', hp, hseg, rfl⟩
      rw [hp] at hreads
      refine ⟨h.lifecycle, .step _ _ m menv h.signaling trivial hturn, fun k => ?_,
        fun id row hid => ?_, fun m' hm' => ?_, fun m' row hm' => ?_⟩
      · rw [hsame]
        exact h.sessions k
      · rw [hsame] at hid
        exact h.spelled id row hid
      · by_cases heq : m' = m
        · rw [heq]
          simp only [Function.update_self]
          exact Prog.Uses.segment (p := p) hreads hseg
        · simp only [Function.update_of_ne heq]
          exact h.reads m' hm'
      · simp only [Function.update_of_ne (fun heq : m' = m => hm row (heq ▸ hm'))]
        exact h.commits m' row hm'

/-- In every reachable backend, by induction on its steps. -/
theorem Reachable.linked (h : Reachable calls throws v messages sp a) :
    Linked calls throws v messages sp a := by
  rcases h with ⟨devices, users, clock, hsteps⟩
  induction hsteps with
  | refl => exact .boot devices users clock
  | tail _ hstep ih => exact ih.step hstep

/-! ## The lifecycle is not held up -/

/-- The messages that have had a turn. -/
def started (v : Validator) (messages : MessageId → Signaling.Operation)
    (sys : Signaling.Messages) : Set MessageId :=
  {m | sys.threads m ≠ .await (Signaling.handle v (messages m))}

/-- A turn of a call is a step, with a message left for the commit. If the turn
    writes no session it is a step by itself. Otherwise the session that it writes
    is one that the signaling lets pass, so the message for it can take its turn. -/
theorem Linked.follows (h : Linked calls throws v messages sp a) {c : CallId} {env : Env}
    {next : Calls} (hturn : a.lifecycle.turn (exec throws) c env = some next)
    (hleft : ∀ row, ∃ m, messages m = .commit row ∧ m ∉ started v messages a.signaling) :
    ∃ b m, Step throws messages sp a b ∧ b.lifecycle = next ∧
      started v messages b.signaling ⊆ insert m (started v messages a.signaling) := by
  by_cases hsame : next.shared.tables.sessions = a.lifecycle.shared.tables.sessions
  · exact ⟨_, 0, .call c env next hturn hsame, rfl, Set.subset_insert _ _⟩
  · have hstep := turn_sessionStep h.lifecycle hturn
    -- The sessions are not the same, so there is one that was not there before.
    have hwritten : ∃ k s, next.shared.tables.sessions k = some s ∧
        a.lifecycle.shared.tables.sessions k ≠ some s := by
      by_contra hnone
      push Not at hnone
      refine hsame (funext (fun k => ?_))
      -- A session does not go away, so it is what it was.
      cases hk : next.shared.tables.sessions k with
      | some s => exact (hnone k s hk).symm
      | none =>
          cases hstep with
          | same heq => rw [← hk, heq]
          | opened k' s' heq _ hold _ =>
              have hne : k ≠ k' := by
                rintro rfl
                rw [heq, Function.update_self] at hk
                cases hk
              rw [← hk, heq, Function.update_of_ne hne]
          | moved k' s' old heq _ hold _ _ _ =>
              have hne : k ≠ k' := by
                rintro rfl
                rw [heq, Function.update_self] at hk
                cases hk
              rw [← hk, heq, Function.update_of_ne hne]
    rcases hwritten with ⟨k, s, hk, hnew⟩
    rcases mayCommit_row sp hstep hk hnew with ⟨rfl, _, hallowed⟩
    rcases hleft (sp.row s) with ⟨m, hm, hidle⟩
    -- The message has had no turn yet.
    have hthread : a.signaling.threads m = .await (Signaling.handle v (.commit (sp.row s))) := by
      rw [← hm]
      exact not_not.mp hidle
    have hsome := Signaling.commit_isSome hthread
      (by rw [row_id, h.sessions s.id]; exact hallowed) ⟨false⟩
    rcases Option.isSome_iff_exists.mp hsome with ⟨following, hcommit⟩
    refine ⟨⟨next, following⟩, m, .commit c env next s.id s m ⟨false⟩ following hturn hk hnew hm
      hcommit, rfl, fun m' hm' => ?_⟩
    by_cases heq : m' = m
    · exact .inl heq
    · refine .inr ?_
      have hthreads := (Signaling.turn_commits (h.commits m _ hm) hcommit).2.2
      rw [started, Set.mem_ofPred_eq, hthreads, Function.update_of_ne heq] at hm'
      exact hm'

/-- A run of the calls is half of a run of both. -/
theorem exists_accompanied (sp : Spelling)
    (hmany : ∀ row, {m | messages m = .commit row}.Infinite)
    {devices : Uuid → Device} {users : Uuid → User} {clock : Timestamp} {sys : Calls}
    (hrun : Run (exec throws) anyTurn (RemoteControl.boot calls devices users clock) sys) :
    ∃ a, Reachable calls throws v messages sp a ∧ a.lifecycle = sys ∧
      (started v messages a.signaling).Finite := by
  induction hrun with
  | refl =>
      refine ⟨boot calls v messages devices users clock, ⟨devices, users, clock, .refl⟩, rfl, ?_⟩
      have hnone : started v messages (boot calls v messages devices users clock).signaling = ∅ :=
        Set.eq_empty_of_forall_notMem (fun m hm => hm rfl)
      rw [hnone]
      exact Set.finite_empty
  | step c d t env _ _ hturn ih =>
      rcases ih with ⟨a, ha, rfl, hfinite⟩
      -- Only finitely many of the messages for the row have been used up.
      have hleft : ∀ row, ∃ m, messages m = .commit row ∧ m ∉ started v messages a.signaling :=
        fun row => ((hmany row).sdiff hfinite).nonempty
      rcases ha.linked.follows hturn hleft with ⟨b, m, hstep, hb, hsub⟩
      rcases ha with ⟨devices', users', clock', hsteps⟩
      exact ⟨b, ⟨devices', users', clock', hsteps.tail hstep⟩, hb,
        (hfinite.insert m).subset hsub⟩

/-- Whatever the lifecycle does, the signaling goes along with it: every
    reachable state of the calls is half of one of both, in which the signaling
    has the same sessions. -/
theorem lifecycle_accompanied (sp : Spelling)
    (hmany : ∀ row, {m | messages m = .commit row}.Infinite) {sys : Calls}
    (h : RemoteControl.Reachable calls throws sys) :
    ∃ a, Reachable calls throws v messages sp a ∧ a.lifecycle = sys ∧
      ∀ k, a.signaling.shared.state.sessions (sp.spell k) =
        (sys.shared.tables.sessions k).map sp.row := by
  rcases h with ⟨devices, users, clock, hrun⟩
  rcases exists_accompanied (v := v) sp hmany hrun with ⟨a, ha, rfl, _⟩
  exact ⟨a, ha, rfl, ha.linked.sessions⟩

/-- A spelling that counts in noughts, long enough to look like a UUID. -/
def noughts : Spelling where
  spell := fun id => String.ofList (List.replicate (id + 16) '0')
  injective := by
    intro id id' h
    have hlist := congrArg String.toList h
    simp only [String.toList_ofList, List.replicate_inj] at hlist
    exact Nat.add_right_cancel hlist.1
  canonical := by
    intro id
    refine Encoding.LowerCase.ascii.keeps _ (fun c hc => ?_)
    rw [String.toList_ofList] at hc
    rw [List.eq_of_mem_replicate hc]
    rfl

/-- There are countably many texts, since there are countably many characters. -/
theorem string_countable : Countable String := by
  have hchar : Function.Injective Char.toNat := fun c d h => Char.toNat_inj.mp h
  have : Countable Char := hchar.countable
  have hlist : Function.Injective String.toList := fun s t h => String.toList_inj.mp h
  exact hlist.countable

/-- There can be enough messages for every commit. The rows are countable, so the
    messages can be numbered by pairs, the first of which says which row is
    committed. -/
theorem exists_commits : ∃ messages : MessageId → Signaling.Operation,
    ∀ row, {m | messages m = .commit row}.Infinite := by
  have := string_countable
  -- A row is told by its columns, of which there are countably many.
  let columns : Signaling.RemoteSessionRow → String × Uuid × Uuid × Bool × Bool := fun row =>
    (row.id, row.deviceId, row.technicianId, decide (row.status = .connecting),
      decide (row.status = .active))
  have hcolumns : Function.Injective columns := by
    rintro ⟨id, d, t, st⟩ ⟨id', d', t', st'⟩ h
    simp only [columns, Prod.mk.injEq, decide_eq_decide] at h
    rcases h with ⟨rfl, rfl, rfl, hconnecting, hactive⟩
    cases st <;> cases st' <;> first | rfl | simp at hconnecting hactive
  have : Countable Signaling.RemoteSessionRow := hcolumns.countable
  have : Nonempty Signaling.RemoteSessionRow := ⟨⟨"", 0, 0, .connecting⟩⟩
  rcases exists_surjective_nat Signaling.RemoteSessionRow with ⟨rows, hrows⟩
  refine ⟨fun m => .commit (rows m.unpair.1), fun row => ?_⟩
  rcases hrows row with ⟨n, rfl⟩
  -- For each row there is one message for every second number.
  have hpair : Function.Injective (fun k => Nat.pair n k) := fun k k' h => (Nat.pair_eq_pair.mp h).2
  refine (Set.infinite_range_of_injective hpair).mono ?_
  rintro _ ⟨k, rfl⟩
  simp only [Set.mem_ofPred_eq, Nat.unpair_pair]

/-- The signaling comes to know the session that was opened. -/
theorem lifecycle_accompanied_opening : ∃ messages a,
    Reachable assistance quiet Signaling.lenient messages noughts a ∧
      (a.signaling.shared.state.sessions (noughts.spell 20)).isSome = true := by
  have hrun : ((follow (exec quiet) (RemoteControl.boot assistance (fun _ => tablet)
      (fun _ => agent) 0) opening).any
        (fun sys => (sys.shared.tables.sessions 20).isSome)) = true := by
    decide +kernel
  rcases reachable_of_follow hrun with ⟨sys, hsys, hp⟩
  rcases exists_commits with ⟨messages, hmany⟩
  rcases lifecycle_accompanied (v := Signaling.lenient) noughts hmany hsys with
    ⟨a, ha, _, hsessions⟩
  refine ⟨messages, a, ha, ?_⟩
  rw [hsessions 20, Option.isSome_map]
  exact hp

end Together

end RemoteControl

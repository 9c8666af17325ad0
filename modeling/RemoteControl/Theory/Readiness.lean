import RemoteControl.Theory.SignalingTraces

/-!
# Readiness

A socket that is in the room of a session is to know when the other side is
there. It is told by the answer to its own join, or by an event that reaches
the room it is in. This module is about whether it is told again when the
other side was away in between.

A join announces itself unless it has found its own side in the room. What it
has found may be over by the time it enters: the last socket of its side may
have left while the join waited. Then the room of its side becomes occupied
again without an announcement, and the other side is not told
(`readiness_lost`). As long as no join enters like this (`StaysPresent`),
readiness is kept (`readiness_kept`).

Take a socket in the room, and the socket that the other side's room was
occupied by when it was last empty. If the latter was first, the former has
seen it on its second look, and its own answer says so. Otherwise the latter
has found its own side absent, because the room was empty when it entered,
and has seen the former, so it has announced itself.

## Main definitions

* `Tells`, `Informed`: A socket is told, and was told since the other side was
  last away.
* `ReadinessKept`: Everybody in the room of the session is informed.
* `StaysPresent`: No join enters the empty room of the session after it has
  found it occupied, while the other side waits.

## Theorems

* `entered_and_answered`: What a join has done that has entered and returned.
* `readiness_kept`: Readiness is kept as long as the condition is met.
* `readiness_lost`: It is not kept in general.
* `second_look`, `informed_by_answer`, `informed_by_event`: The two ways in
  which a socket is told.
-/

namespace RemoteControl.Signaling

open Concurrency Encoding

/-! ## Being told -/

/-- The message is a join of the session. -/
def Joins (v : Validator) (op : Operation) (id : String) : Prop :=
  ∃ socket payload x, op = .join socket payload ∧ joinId v payload = some x ∧ canonical x = id

/-- The message has come in and was not answered yet. -/
def InFlight (m : MessageId) (l : List Entry) : Prop :=
  (∃ socket, entry m (.receive socket) () ∈ l) ∧ ∀ r, entry m (.ack r) () ∉ l

/-- The entry tells the socket that its peer is in the session: it answers a
    join of the socket, or emits the event to the room the socket is in. -/
def Tells (messages : MessageId → Operation) (id : String) (p : SignalingParticipant)
    (socket : SocketId) (e : Entry) (s : State) : Prop :=
  (∃ payload, messages e.message = .join socket payload ∧
    e.op = .ack (.join (.joined id true))) ∨
  e.op = .emit p (remoteSessionRoom id) remoteSessionPeerJoinedEvent (.peerJoined id) ∧
    socket ∈ s.rooms p (remoteSessionRoom id)

/-- The socket was told of its peer, and the other side was never away since. -/
def Informed (messages : MessageId → Operation) (id : String) (p : SignalingParticipant)
    (socket : SocketId) (l : List Entry) : Prop :=
  ∃ e l', e :: l' <:+ l ∧ Tells messages id p socket e (replay l') ∧
    OccupiedSince (peerOf p) (remoteSessionRoom id) (e :: l') l

/-- Where no join of the session is on its way and both sides are in its room,
    everybody in there is informed. -/
def ReadinessKept (v : Validator) (messages : MessageId → Operation) (w : World) (id : String) :
    Prop :=
  (∀ m, Joins v (messages m) id → ¬ InFlight m w.log) →
    (∀ p, w.state.rooms p (remoteSessionRoom id) ≠ []) →
    ∀ p socket, socket ∈ w.state.rooms p (remoteSessionRoom id) →
      Informed messages id p socket w.log

/-- Whoever enters the room of the session, and has found it occupied when it
    looked at its own side, finds it occupied still, or nobody is waiting on
    the other side. -/
def StaysPresent (id : String) (l : List Entry) : Prop :=
  ∀ e l' f lf socket a, e :: l' <:+ l → e.op = .joinRoom socket (remoteSessionRoom id) →
    (replay l').sockets socket = some a → f :: lf <:+ l' → f.message = e.message →
    f.op = .fetchSockets a.participant (remoteSessionRoom id) →
    (replay lf).rooms a.participant (remoteSessionRoom id) ≠ [] →
    (replay l').rooms a.participant (remoteSessionRoom id) ≠ [] ∨
    (replay l').rooms (peerOf a.participant) (remoteSessionRoom id) = []

/-- Every query of a room succeeds. -/
def Fetches (env : Env) : Prop := env.fetchFails = false

/-! ## What a join has done -/

variable {v : Validator} {messages : MessageId → Operation} {m : MessageId} {l l' : List Entry}

/-- To look at a room tells nobody anything. -/
theorem Looked.silent {p : SignalingParticipant} {id : String} {present : Bool}
    {looked tr : List Entry} (h : Looked m p id present looked) (htr : Silent tr) :
    Silent (looked ++ tr) := by
  cases h with
  | unbound => exact .cons rfl htr
  | fetched found => exact .cons rfl (.cons rfl htr)

/-- Up to its entry a join has told nobody anything. -/
theorem Ready.silent {socket : SocketId} {identity : SignalingIdentity} {id : String}
    {row : RemoteSessionRow} {present : Bool} {tr : List Entry}
    (h : Ready m socket identity id row present tr) : Silent tr := by
  rcases h with ⟨looked, before, hlooked, ⟨left, hleft, rfl⟩, rfl⟩
  exact hlooked.silent (.cons rfl (hleft.silent received_silent))

/-- A message enters a room once. -/
theorem enters_once {e e' : Entry} {l₁ l₂ : List Entry} {socket socket' : SocketId}
    {room room' : String} (ho : Orderly v messages l) (h₁ : e :: l₁ <:+ l) (h₂ : e' :: l₂ <:+ l)
    (he : e.op = .joinRoom socket room) (he' : e'.op = .joinRoom socket' room')
    (hm : e.message = e'.message) : e :: l₁ = e' :: l₂ := by
  refine marksOf_unique (K := fun d => ∃ t r, d.op = .joinRoom t r) ?_ h₁ h₂ ⟨socket, room, he⟩
    ⟨socket', room', he'⟩ hm
  rintro d ld hd ⟨t, r, hop⟩ d' hd' ⟨t', r', hop'⟩
  -- Before it enters a message is silent.
  have hin := ho d ld hd
  rw [hop] at hin
  rcases hin with ⟨_, _, _, _, _, _, _, hready, _⟩
  have hbad := hready.silent d' hd'
  rw [hop'] at hbad
  cases hbad

/-- A history that has the entry is one from after it. -/
theorem after_entry {e : Entry} {lm : List Entry} {socket : SocketId} {room : String}
    (ho : Orderly v messages l) (he : e :: l' <:+ l) (hop : e.op = .joinRoom socket room)
    (hlm : lm <:+ l) (hmem : e ∈ lm) : e :: l' <:+ lm := by
  rcases exists_suffix hmem with ⟨l₂, hl₂⟩
  rw [enters_once ho he (hl₂.trans hlm) hop hop rfl]
  exact hl₂

/-- What a join has done that has entered and was answered: it was ready
    before, has looked at the other side since, and has announced itself if
    the look at its own side had found nobody and that at the other somebody. -/
theorem entered_and_answered {e : Entry} {socket : SocketId} {room : String} {r : Response}
    (ho : Orderly v messages l) (he : e :: l' <:+ l) (hop : e.op = .joinRoom socket room)
    (hack : entry e.message (.ack r) () ∈ l) :
    ∃ payload x identity row present peer la announced looked,
      messages e.message = .join socket payload ∧ joinId v payload = some x ∧
      room = remoteSessionRoom row.id ∧ r = .join (.joined row.id peer) ∧
      Ready e.message socket identity x row present (own e.message l') ∧
      entry e.message (.ack r) () :: la <:+ l ∧
      Looked e.message (peerOf identity.participant) row.id peer looked ∧
      (if (peer && !present) = true then
        Announced e.message (peerOf identity.participant) row.id announced else announced = []) ∧
      own e.message la = announced ++ (looked ++
        entry e.message (.setRemoteSessionId socket (some row.id)) () ::
          e :: own e.message l') := by
  have hin := ho e l' he
  rw [hop] at hin
  rcases hin with ⟨payload, x, identity, row, present, hjoin, hx, hready, hroom⟩
  rcases exists_suffix hack with ⟨la, hla⟩
  have hanswer := ho _ la hla
  simp only [entry, InOrder, MayAnswer, hjoin] at hanswer
  -- The answer comes after the entry.
  have hmem : e ∈ own e.message la := by
    refine mem_marksOf.mpr ⟨?_, rfl⟩
    rcases suffix_trichotomy he hla with hs | hs | heq
    · exact mem_of_suffix hs
    · have hbad := hready.silent _ (mem_marksOf.mpr ⟨mem_of_suffix hs, rfl⟩)
      cases hbad
    · rw [List.cons.injEq] at heq
      rw [heq.1] at hop
      cases hop
  -- The answer is that of a join that has finished, or of one that was rejected.
  rcases hanswer with ⟨x', identity', row', peer, hx', hfinished, hr⟩ | ⟨_, hrejected⟩
  · rcases hfinished with ⟨present', announced, before, ⟨looked, before', hlooked, hready', rfl⟩,
      hannounced, htr⟩
    -- The entry is the one in the trace of the answer.
    have htr' : own e.message la = (announced ++ looked ++
        [entry e.message (.setRemoteSessionId socket (some row'.id)) ()]) ++
        entry e.message (.joinRoom socket (remoteSessionRoom row'.id)) () :: before' := by
      rw [htr]
      simp only [List.append_assoc, List.cons_append, List.nil_append]
    rcases marksOf_at htr' with ⟨lj, hlj, hbefore⟩
    have heq := enters_once ho he (hlj.trans ((List.suffix_cons _ la).trans hla)) hop rfl rfl
    rw [List.cons.injEq] at heq
    rcases heq with ⟨heq, rfl⟩
    have hop' : Op.joinRoom socket (remoteSessionRoom row'.id) = .joinRoom socket room :=
      (congrArg Entry.op heq).symm.trans hop
    rw [Op.joinRoom.injEq] at hop'
    refine ⟨payload, x', identity', row', present', peer, la, announced, looked, hjoin, hx',
      hop'.2.symm, hr, ?_, hla, hlooked, hannounced, ?_⟩
    · rw [own, hbefore]
      exact hready'
    · rw [htr', own, hbefore, ← heq]
      simp only [List.append_assoc, List.cons_append, List.nil_append]
  · have hbad := hrejected.silent e hmem
    rw [hop] at hbad
    cases hbad

/-! ## What a look has seen -/

section Looks

variable {p : SignalingParticipant} {id : String} {present : Bool} {looked older : List Entry}

/-- The namespace of somebody who is in a room is there. -/
theorem WellFormed.bound_of_occupied {s : State} {room : String} (h : WellFormed s)
    (hocc : s.rooms p room ≠ []) : s.bound p = true := by
  rcases List.exists_mem_of_ne_nil _ hocc with ⟨id, hid⟩
  rcases h.members p room id hid with ⟨a, ha, rfl, _⟩
  exact h.bound id a ha

/-- The query of a room answers with its members, unless it fails. -/
theorem fetched_at {room : String} {found : Option (List SocketId)} (ha : Answered P l)
    (he : entry m (.fetchSockets p room) found :: l' <:+ l) :
    ∃ env, P env ∧
      found = if env.fetchFails = true then none else some ((replay l').rooms p room) :=
  ha.answer_eq he

/-- A look at a room that is occupied finds somebody. -/
theorem Looked.sees (h : Looked m p id present looked) (ha : Answered Fetches l)
    (htr : own m l = looked ++ older)
    (hocc : ∀ lm, lm <:+ l → older <:+ own m lm → (replay lm).rooms p (remoteSessionRoom id) ≠ []) :
    present = true := by
  cases h with
  | unbound =>
      rcases marksOf_cons htr with ⟨lm, hlm, hrest, _⟩
      have hbefore : lm <:+ l := (List.suffix_cons _ lm).trans hlm
      rcases ha.answer_eq hlm with ⟨_, _, hbound⟩
      have hroom := hocc lm hbefore (by rw [own, hrest]; exact List.suffix_rfl)
      exact hbound.trans ((ha.suffix hbefore).wellFormed.bound_of_occupied hroom)
  | fetched found =>
      rcases marksOf_cons htr with ⟨lm, hlm, hrest, _⟩
      have hbefore : lm <:+ l := (List.suffix_cons _ lm).trans hlm
      rcases fetched_at ha hlm with ⟨env, henv, rfl⟩
      have hroom := hocc lm hbefore (by rw [own, hrest]; exact List.suffix_cons _ _)
      have hfetches : ¬ env.fetchFails = true := Bool.not_eq_true _ ▸ henv
      rw [if_neg hfetches, Option.any_some, Bool.not_eq_true', List.isEmpty_eq_false_iff]
      exact hroom

/-- A look that finds somebody has looked at a room that is occupied. -/
theorem Looked.seen (h : Looked m p id true looked) (ha : Answered P l)
    (htr : own m l = looked ++ older) :
    ∃ f lf, f :: lf <:+ l ∧ f.message = m ∧ f.op = .fetchSockets p (remoteSessionRoom id) ∧
      (replay lf).rooms p (remoteSessionRoom id) ≠ [] := by
  generalize hpresent : true = present at h
  cases h with
  | unbound => cases hpresent
  | fetched found =>
      rcases marksOf_cons htr with ⟨lf, hlf, _, _⟩
      refine ⟨_, lf, hlf, rfl, rfl, fun hempty => ?_⟩
      rcases fetched_at ha hlf with ⟨env, _, rfl⟩
      rw [hempty] at hpresent
      -- Nobody is in the room, whether the query has failed or not.
      split at hpresent
      · cases hpresent
      · cases hpresent

end Looks

/-! ## Readiness is kept -/

variable {id : String} {e : Entry} {socket : SocketId}

/-- The peer of the peer is the side itself. -/
@[simp] theorem peerOf_peerOf (p : SignalingParticipant) : peerOf (peerOf p) = p := by
  cases p <;> rfl

/-- The two sides are different. -/
theorem peerOf_ne (p : SignalingParticipant) : peerOf p ≠ p := by
  cases p <;> decide

/-- Where a join was admitted that is ready to enter. -/
theorem Ready.at {identity : SignalingIdentity} {x : String} {row : RemoteSessionRow}
    {present : Bool} (h : Ready m socket identity x row present (own m l)) (ha : Answered P l) :
    ∃ lr a, entry m (.findJoinable x identity) (some row) :: lr <:+ l ∧
      (replay lr).findJoinable x identity = some row ∧ entry m (.receive socket) () ∈ lr ∧
      (replay l).sockets socket = some a ∧ a.participant = identity.participant ∧
      a.context = some identity.id := by
  rcases h with ⟨looked, before, _, hadmitted, htr⟩
  rcases marksOf_append htr with ⟨lo, hlo, rfl⟩
  rcases hadmitted.at (ha.suffix hlo) with ⟨lr, a, hlr, hrow, hcame, hs, hp, hc⟩
  -- Its socket is still the same.
  rcases (ha.later hlo).sockets socket a hs with ⟨b, hb, hbp, hbc⟩
  exact ⟨lr, b, hlr.trans hlo, hrow, hcame, hb, hbp.trans hp, hbc.trans hc⟩

/-- Whoever has entered the room of a session was answered, if no join of the
    session is on its way. -/
theorem answered_of_entered (ha : Answered P l) (ho : Orderly v messages l) (he : e :: l' <:+ l)
    (hop : e.op = .joinRoom socket (remoteSessionRoom id))
    (hflight : ∀ m, Joins v (messages m) id → ¬ InFlight m l) :
    ∃ r, entry e.message (.ack r) () ∈ l := by
  have hin := ho e l' he
  rw [hop] at hin
  rcases hin with ⟨payload, x, identity, row, present, hjoin, hx, hready, hroom⟩
  have hbefore : l' <:+ l := (List.suffix_cons e l').trans he
  rcases hready.at (ha.suffix hbefore) with ⟨lr, _, hlr, hrow, hcame, _⟩
  have hlr' : lr <:+ l := ((List.suffix_cons _ lr).trans hlr).trans hbefore
  have hid : canonical x = id := by
    rw [← row_id (ha.suffix hlr').wellFormed hrow]
    exact (remoteSessionRoom_inj hroom).symm
  by_contra hnone
  refine hflight e.message ⟨socket, payload, x, hjoin, hx, hid⟩ ⟨⟨socket, hlr'.subset hcame⟩, ?_⟩
  exact fun r hr => hnone ⟨r, hr⟩

/-- The side of a join is the namespace of its socket. -/
theorem participant_of_ready {identity : SignalingIdentity} {x : String} {row : RemoteSessionRow}
    {present : Bool} {a : Socket} (h : Ready m socket identity x row present (own m l))
    (ha : Answered P l) (hs : (replay l).sockets socket = some a) :
    identity.participant = a.participant := by
  rcases h.at ha with ⟨_, b, _, _, _, hb, hp, _⟩
  rw [hs, Option.some.injEq] at hb
  rw [hb, hp]

/-- What a join has seen on its second look, of a room that was occupied ever
    since it entered. -/
theorem second_look {p : SignalingParticipant} {peer : Bool} {announced looked : List Entry}
    {room : String} {la : List Entry} (ha : Answered Fetches l) (ho : Orderly v messages l)
    (he : e :: l' <:+ l) (hop : e.op = .joinRoom socket room)
    (hlooked : Looked e.message p id peer looked) (hla : la <:+ l)
    (htr : own e.message la = announced ++ (looked ++
      entry e.message (.setRemoteSessionId socket (some id)) () :: e :: own e.message l'))
    (hocc : OccupiedSince p (remoteSessionRoom id) (e :: l') l) : peer = true := by
  -- The second look comes after the entry, and the room was occupied all the time.
  rcases marksOf_append htr with ⟨lq, hlq, hmarks⟩
  refine hlooked.sees (ha.suffix (hlq.trans hla)) hmarks (fun lm hlm holder => ?_)
  have hlm' : lm <:+ l := hlm.trans (hlq.trans hla)
  have hmem : e ∈ own e.message lm :=
    holder.subset (List.mem_cons_of_mem _ List.mem_cons_self)
  exact hocc lm (after_entry ho he hop hlm' (mem_marksOf.mp hmem).1) hlm'

/-- The entry is before the answer. -/
theorem entered_before {room : String} {la announced looked : List Entry} {d : Entry}
    (ho : Orderly v messages l) (he : e :: l' <:+ l) (hop : e.op = .joinRoom socket room)
    (hla : la <:+ l)
    (htr : own e.message la = announced ++ (looked ++ d :: e :: own e.message l')) :
    e :: l' <:+ la := by
  have hmem : e ∈ own e.message la := by
    rw [htr]
    simp only [List.mem_append, List.mem_cons, true_or, or_true]
  exact after_entry ho he hop hla (mem_marksOf.mp hmem).1

/-- Whoever came to a side that was occupied already has seen it. -/
theorem informed_by_answer {p : SignalingParticipant} {r : Response} {lt : List Entry} {a : Socket}
    (ha : Answered Fetches l) (ho : Orderly v messages l) (he : e :: l' <:+ l)
    (hop : e.op = .joinRoom socket (remoteSessionRoom id))
    (hs : (replay l').sockets socket = some a) (hp : a.participant = p)
    (hack : entry e.message (.ack r) () ∈ l) (hlt : lt <:+ l')
    (hocc : OccupiedSince (peerOf p) (remoteSessionRoom id) lt l) :
    Informed messages id p socket l := by
  have hbefore : l' <:+ l := (List.suffix_cons e l').trans he
  rcases entered_and_answered ho he hop hack with ⟨payload, x, identity, row, present, peer, la,
    announced, looked, hjoin, _, hroom, rfl, hready, hla, hlooked, _, htr⟩
  have hid : row.id = id := (remoteSessionRoom_inj hroom).symm
  subst hid
  have hside := participant_of_ready hready (ha.suffix hbefore) hs
  rw [hside, hp] at hlooked
  have hla' : la <:+ l := (List.suffix_cons _ la).trans hla
  -- So it has found the other side, and its answer says so.
  have hpeer := second_look ha ho he hop hlooked hla' htr
    (hocc.mono (hlt.trans (List.suffix_cons e l')))
  subst hpeer
  have hlate : lt <:+ la := (hlt.trans (List.suffix_cons e l')).trans
    (entered_before ho he hop hla' htr)
  exact ⟨_, la, hla, .inl ⟨payload, hjoin, rfl⟩, hocc.mono (hlate.trans (List.suffix_cons _ la))⟩

/-- Whoever was there when the other side came back was told by the first of
    that side to enter. -/
theorem informed_by_event {p : SignalingParticipant} {r : Response} {t : SocketId} {a : Socket}
    (ha : Answered Fetches l) (ho : Orderly v messages l) (hk : StaysPresent id l)
    (he : e :: l' <:+ l) (hop : e.op = .joinRoom t (remoteSessionRoom id))
    (hs : (replay l').sockets t = some a) (hp : a.participant = peerOf p)
    (hack : entry e.message (.ack r) () ∈ l)
    (hempty : (replay l').rooms (peerOf p) (remoteSessionRoom id) = [])
    (hocc : OccupiedSince (peerOf p) (remoteSessionRoom id) (e :: l') l)
    (hin : InRoomSince p (remoteSessionRoom id) socket l' l) :
    Informed messages id p socket l := by
  have hbefore : l' <:+ l := (List.suffix_cons e l').trans he
  rcases entered_and_answered ho he hop hack with ⟨payload, x, identity, row, present, peer, la,
    announced, looked, hjoin, _, hroom, rfl, hready, hla, hlooked, hannounced, htr⟩
  have hid : row.id = id := (remoteSessionRoom_inj hroom).symm
  subst hid
  have hside := participant_of_ready hready (ha.suffix hbefore) hs
  rw [hp] at hside
  rw [hside, peerOf_peerOf] at hlooked hannounced
  have hla' : la <:+ l := (List.suffix_cons _ la).trans hla
  have hwaiting : ∀ lm, l' <:+ lm → lm <:+ l →
      (replay lm).rooms p (remoteSessionRoom row.id) ≠ [] :=
    fun lm hlm hlm' => List.ne_nil_of_mem (hin lm hlm hlm')
  -- It has found nobody of its own side, for the room is empty as it enters.
  have hpresent : present = false := by
    rw [← Bool.not_eq_true]
    rintro rfl
    rcases hready with ⟨looked', before, hlooked', _, htr'⟩
    rcases hlooked'.seen (ha.suffix hbefore) htr' with ⟨f, lf, hlf, hfm, hfop, hfound⟩
    rw [hside, ← hp] at hfop hfound
    rcases hk e l' f lf t a he hop hs hlf hfm hfop hfound with hstill | hnobody
    · rw [hp] at hstill
      exact hstill hempty
    · rw [hp, peerOf_peerOf] at hnobody
      exact hwaiting l' List.suffix_rfl hbefore hnobody
  have hpeer := second_look ha ho he hop hlooked hla' htr
    (fun lm hlm hlm' => hwaiting lm ((List.suffix_cons e l').trans hlm) hlm')
  subst hpresent hpeer
  have hlate := entered_before ho he hop hla' htr
  generalize hannouncedBy : announced = announcement at hannounced
  cases hannounced with
  | unbound =>
      -- The namespace of the one who waits is there.
      rw [hannouncedBy] at htr
      rcases marksOf_cons htr with ⟨lm, hlm, hrest, _⟩
      have hlm' : lm <:+ l := ((List.suffix_cons _ lm).trans hlm).trans hla'
      have hmem : e ∈ own e.message lm := by
        rw [own, hrest]
        simp only [List.append_eq, List.nil_append, List.mem_append, List.mem_cons, true_or,
          or_true]
      have hafter := after_entry ho he hop hlm' (mem_marksOf.mp hmem).1
      rcases (ha.suffix hla').answer_eq hlm with ⟨_, _, hbound⟩
      have hthere := (ha.suffix hlm').wellFormed.bound_of_occupied
        (hwaiting lm ((List.suffix_cons e l').trans hafter) hlm')
      exact absurd (hbound.trans hthere) Bool.false_ne_true
  | told =>
      rw [hannouncedBy] at htr
      rcases marksOf_cons htr with ⟨lg, hlg, hrest, _⟩
      have hlg' : lg <:+ l := ((List.suffix_cons _ lg).trans hlg).trans hla'
      have hmem : e ∈ own e.message lg := by
        rw [own, hrest]
        simp only [List.append_eq, List.cons_append, List.nil_append, List.mem_append,
          List.mem_cons, true_or, or_true]
      have hafter := after_entry ho he hop hlg' (mem_marksOf.mp hmem).1
      exact ⟨_, lg, hlg.trans hla',
        .inr ⟨rfl, hin lg ((List.suffix_cons e l').trans hafter) hlg'⟩,
        hocc.mono (hafter.trans (List.suffix_cons _ lg))⟩

/-- Readiness is kept in a session in every run in which all queries of rooms
    succeed, and no join enters the empty room of the session after it has
    found it occupied, while the other side waits. -/
theorem readiness_kept {sys : Messages} (h : Run exec (TurnsWith Fetches) (boot v messages) sys)
    (hk : StaysPresent id sys.shared.log) : ReadinessKept v messages sys.shared id := by
  have hrecorded := recorded h
  have ha := hrecorded.answered
  have ho := orderly h
  intro hflight hocc p socket hin
  rw [hrecorded.state] at hin
  have hpeers := hocc (peerOf p)
  rw [hrecorded.state] at hpeers
  rcases entered_since hin with ⟨e, l', he, hop, ⟨a, hs, hp⟩, hsince⟩
  rcases occupied_since hpeers with ⟨d, ld, t, hd, hdop, ⟨b, ht, hb⟩, hempty, hpeersSince⟩
  rcases suffix_trichotomy he hd with hs' | hs' | heq
  · rcases answered_of_entered ha ho hd hdop hflight with ⟨r, hack⟩
    exact informed_by_event ha ho hk hd hdop ht hb hack hempty hpeersSince
      (fun lm hlm hlm' => hsince lm (hs'.trans hlm) hlm')
  · rcases answered_of_entered ha ho he hop hflight with ⟨r, hack⟩
    exact informed_by_answer ha ho he hop hs hp hack hs' hpeersSince
  · -- The two sides are different.
    rw [List.cons.injEq] at heq
    rw [heq.1, hdop] at hop
    cases hop
    rw [heq.2, ht, Option.some.injEq] at hs
    rw [← hs, hb] at hp
    exact absurd hp (peerOf_ne p)

/-! ## The condition, evaluated -/

/-- The message has looked at the room when it was occupied. -/
def foundOccupied (m : MessageId) (p : SignalingParticipant) (room : String) : List Entry → Bool
  | [] => false
  | f :: l => (decide (f.message = m) && decide (f.op = .fetchSockets p room) &&
      !((replay l).rooms p room).isEmpty) || foundOccupied m p room l

/-- A look at an occupied room is found in the history. -/
theorem foundOccupied_of {p : SignalingParticipant} {room : String} {f : Entry} {lf : List Entry}
    (h : f :: lf <:+ l) (hm : f.message = m) (hop : f.op = .fetchSockets p room)
    (hocc : (replay lf).rooms p room ≠ []) : foundOccupied m p room l = true := by
  induction l with
  | nil =>
      rw [List.suffix_nil] at h
      cases h
  | cons d l ih =>
      simp only [foundOccupied, Bool.or_eq_true, Bool.and_eq_true, decide_eq_true_eq,
        Bool.not_eq_true', List.isEmpty_eq_false_iff]
      rcases List.suffix_cons_iff.mp h with heq | h
      · rw [List.cons.injEq] at heq
        rw [← heq.1, ← heq.2]
        exact .inl ⟨⟨hm, hop⟩, hocc⟩
      · exact .inr (ih h)

/-- Whether the entry after this history keeps to the condition. -/
def entersPresent (e : Entry) (l : List Entry) : Bool :=
  match e.op with
  | .joinRoom socket room => ((replay l).sockets socket).all (fun a =>
      !foundOccupied e.message a.participant room l ||
        !((replay l).rooms a.participant room).isEmpty ||
        ((replay l).rooms (peerOf a.participant) room).isEmpty)
  | _ => true

/-- The check passes at every entry of the history. -/
def atEach (check : Entry → List Entry → Bool) : List Entry → Bool
  | [] => true
  | e :: l => check e l && atEach check l

/-- What was checked at every entry holds of each. -/
theorem atEach_of_suffix {check : Entry → List Entry → Bool} (h : atEach check l = true)
    (he : e :: l' <:+ l) : check e l' = true := by
  induction l with
  | nil =>
      rw [List.suffix_nil] at he
      cases he
  | cons d l ih =>
      simp only [atEach, Bool.and_eq_true] at h
      rcases List.suffix_cons_iff.mp he with heq | he
      · rw [List.cons.injEq] at heq
        rw [heq.1, heq.2]
        exact h.1
      · exact ih h.2 he

/-- The check is that of the condition, without the part that nobody is waiting. -/
theorem staysPresent_sound (h : atEach entersPresent l = true) : StaysPresent id l := by
  intro e l' f lf socket a he hop hs hf hm hfop hocc
  have henters := atEach_of_suffix h he
  simp only [entersPresent, hop, hs, Option.all_some, foundOccupied_of hf hm hfop hocc,
    Bool.not_true, Bool.false_or, Bool.or_eq_true, Bool.not_eq_true', List.isEmpty_eq_false_iff,
    List.isEmpty_iff] at henters
  exact henters

/-! ## Two runs -/

/-- The names of what every object inherits. -/
def inheritedNames : List String :=
  ["__proto__", "constructor", "hasOwnProperty", "isPrototypeOf", "propertyIsEnumerable",
    "toLocaleString", "toString", "valueOf", "__defineGetter__", "__defineSetter__",
    "__lookupGetter__", "__lookupSetter__"]

/-- A library that takes strings of the length of a UUID. -/
def lenient : Validator where
  isUUID s := decide (s.length = 36)
  length := String.length
  isSkipped name := decide (name ∈ inheritedNames)
  notSkipped := by decide

/-- The session of the examples. -/
def sessionId : String := "3d1b9e64-9a0f-4c88-9d0a-6f2a5c7e8b10"

/-- The payload of its joins. -/
def joinPayload : Json := .object [("remoteSessionId", .string sessionId)]

/-- The device 1 with its socket 10, and the technician 2, who reloads a page:
    the socket 21 comes before the socket 20 is gone. -/
def reload : MessageId → Operation
  | 0 => .bind .device
  | 1 => .bind .technician
  | 2 => .commit ⟨sessionId, 1, 2, .active⟩
  | 3 => .connect 10 .device (some 1)
  | 4 => .connect 20 .technician (some 2)
  | 5 => .connect 21 .technician (some 2)
  | 6 => .join 10 joinPayload
  | 7 => .join 20 joinPayload
  | 8 => .join 21 joinPayload
  | _ => .disconnect 20

/-- A message takes `n` turns in a row, and no query fails. -/
def taking (m : MessageId) (n : Nat) : List (MessageId × Env) :=
  List.replicate n (m, { fetchFails := false })

/-- The two ends meet. -/
def meeting : List (MessageId × Env) :=
  taking 0 1 ++ taking 1 1 ++ taking 2 1 ++ taking 3 1 ++ taking 4 1 ++ taking 5 1 ++
    taking 6 8 ++ taking 7 8

/-- The new socket looks at its side, the old one disconnects, and the new one
    goes on. -/
def reloading : List (MessageId × Env) := meeting ++ taking 8 5 ++ taking 9 1 ++ taking 8 3

/-- A schedule in which no query fails, and that can be followed. -/
theorem run_of_taking {ls : List (MessageId × Env)} {p : Messages → Bool}
    (hls : (ls.all (fun x => !x.2.fetchFails)) = true)
    (h : ((follow exec (boot lenient reload) ls).any p) = true) :
    ∃ sys, Run exec (TurnsWith Fetches) (boot lenient reload) sys ∧ p sys = true := by
  rw [Option.any_eq_true] at h
  rcases h with ⟨sys, hsys, hp⟩
  refine ⟨sys, run_of_schedule ls (fun x hx => ?_) _ sys hsys, hp⟩
  have hx' := (List.all_eq_true.mp hls) x hx
  rw [Bool.not_eq_true'] at hx'
  exact hx'

/-- A schedule that can be followed. -/
theorem reachable_of_taking {messages : MessageId → Operation} {ls : List (MessageId × Env)}
    {p : Messages → Bool} (h : ((follow exec (boot lenient messages) ls).any p) = true) :
    ∃ sys, Reachable lenient messages sys ∧ p sys = true := by
  rw [Option.any_eq_true] at h
  rcases h with ⟨sys, hsys, hp⟩
  exact ⟨sys, run_of_follow ls _ sys hsys, hp⟩

/-- Every message that came in was answered. -/
def allAnswered (l : List Entry) : Bool :=
  l.all (fun e => match e.op with
    | .receive _ => l.any (fun f => decide (f.message = e.message) && match f.op with
      | .ack _ => true
      | _ => false)
    | _ => true)

/-- Then no message is on its way. -/
theorem not_inFlight (h : allAnswered l = true) (m : MessageId) : ¬ InFlight m l := by
  rintro ⟨⟨socket, hcame⟩, hnone⟩
  have hanswered := (List.all_eq_true.mp h) _ hcame
  simp only [entry, List.any_eq_true, Bool.and_eq_true] at hanswered
  rcases hanswered with ⟨f, hf, hm, hack⟩
  rcases f with ⟨m', o, r⟩
  cases o with
  | ack response =>
      have hm' : m' = m := of_decide_eq_true hm
      rw [hm'] at hf
      exact hnone response hf
  | _ => cases hack

/-- The device is told when the technician joins. -/
theorem readiness_kept_meeting : ∃ sys,
    Run exec (TurnsWith Fetches) (boot lenient reload) sys ∧
    Informed reload sessionId .device 10 sys.shared.log := by
  have hrun : ((follow exec (boot lenient reload) meeting).any (fun sys =>
      atEach entersPresent sys.shared.log && allAnswered sys.shared.log &&
      decide (sys.shared.state.rooms .device (remoteSessionRoom sessionId) = [10]) &&
      decide (sys.shared.state.rooms .technician (remoteSessionRoom sessionId) = [20]))) =
      true := by
    decide +kernel
  rcases run_of_taking (by decide) hrun with ⟨sys, hsys, hp⟩
  simp only [Bool.and_eq_true, decide_eq_true_eq] at hp
  rcases hp with ⟨⟨⟨hstays, hanswered⟩, hdevice⟩, htechnician⟩
  refine ⟨sys, hsys, readiness_kept hsys (staysPresent_sound hstays)
    (fun m _ => not_inFlight hanswered m) (fun p => ?_) .device 10 ?_⟩
  · cases p
    · rw [hdevice]
      exact List.cons_ne_nil 10 []
    · rw [htechnician]
      exact List.cons_ne_nil 20 []
  · rw [hdevice]
    exact List.mem_singleton_self 10

/-- An entry of the history is one of the newer ones, or was there before. -/
theorem mem_or_suffix {newer older : List Entry} (h : e :: l' <:+ newer ++ older) :
    e ∈ newer ∨ e :: l' <:+ older := by
  induction newer with
  | nil => exact .inr h
  | cons d newer ih =>
      rcases List.suffix_cons_iff.mp h with heq | h
      · rw [List.cons.injEq] at heq
        exact .inl (heq.1 ▸ List.mem_cons_self)
      · exact (ih h).imp_left (List.mem_cons_of_mem d)

/-- Readiness is lost when the page of the technician is reloaded: nobody tells
    the device that the technician is back. -/
theorem readiness_lost : ∃ sys, Run exec (TurnsWith Fetches) (boot lenient reload) sys ∧
    ¬ ReadinessKept lenient reload sys.shared sessionId := by
  have hrun : ((follow exec (boot lenient reload) reloading).any (fun sys =>
      allAnswered sys.shared.log &&
      decide (sys.shared.state.rooms .device (remoteSessionRoom sessionId) = [10]) &&
      decide (sys.shared.state.rooms .technician (remoteSessionRoom sessionId) = [21]) &&
      (sys.shared.log.take 5).all (fun e => decide (e.message = 8) && decide (e.op ≠
        .emit .device (remoteSessionRoom sessionId) remoteSessionPeerJoinedEvent
          (.peerJoined sessionId))) &&
      decide ((replay (sys.shared.log.drop 5)).rooms .technician
        (remoteSessionRoom sessionId) = []))) = true := by
    decide +kernel
  rcases run_of_taking (by decide) hrun with ⟨sys, hsys, hp⟩
  simp only [Bool.and_eq_true, decide_eq_true_eq] at hp
  rcases hp with ⟨⟨⟨⟨hanswered, hdevice⟩, htechnician⟩, hnewer⟩, hempty⟩
  refine ⟨sys, hsys, fun hkept => ?_⟩
  have hinformed := hkept (fun m _ => not_inFlight hanswered m) (fun p => by
    cases p
    · rw [hdevice]
      exact List.cons_ne_nil 10 []
    · rw [htechnician]
      exact List.cons_ne_nil 21 []) .device 10 (by rw [hdevice]; exact List.mem_singleton_self 10)
  rcases hinformed with ⟨e, l', he, htells, hsince⟩
  have hsplit := List.take_append_drop 5 sys.shared.log
  rw [← hsplit] at he
  rcases mem_or_suffix he with hnew | hold
  · -- Since the technician's room was empty, only the new socket was answered.
    have hquiet := (List.all_eq_true.mp hnewer) e hnew
    simp only [Bool.and_eq_true, decide_eq_true_eq] at hquiet
    rcases htells with ⟨payload, hjoin, _⟩ | ⟨hop, _⟩
    · rw [hquiet.1] at hjoin
      cases hjoin
    · exact hquiet.2 hop
  · exact hsince _ hold (List.drop_suffix 5 _) hempty

end RemoteControl.Signaling

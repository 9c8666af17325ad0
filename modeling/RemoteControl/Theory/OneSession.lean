import RemoteControl.Theory.Confidentiality
import RemoteControl.Theory.SignalingAlone

/-!
# One Session for Each Socket

A socket takes part in one session at a time: the rooms it is in are the room
of the session that is stored on it. A join keeps to this in four steps. It
forgets the stored session and leaves its room, without a wait in between
(`contiguous`), it enters the new room, and it stores the new session.

Two of these steps can go wrong. A join may enter a room while its socket is
in another one, or store a session whose room its socket has left. In a run
without such a step (`KeepsToOne`) the rooms are what is stored, whenever no
join is on its way (`oneSession`). That joins which do not overlap take no such
step is shown in the next module.

A segment of a program runs without the other messages in between, so a join
that has forgotten the stored session has not let go of the processor when it
leaves the room (`leaves_after`). This is what makes the stored session and
the room one thing for the others. Between entering and storing there is no
wait either, but a segment may end with the next statement, and therefore the
second half has to be asked for.

## Main definitions

* `OneSession`: The rooms of a socket are what is stored on it.
* `KeepsToOne`: The run without the two steps.
* `JoinOf`, `Idle`: A join that passes the checks, and none on its way.

## Theorems

* `rooms_subsingleton`, `stored_in_room`: What holds of every state of the run.
* `leaves_after`, `not_forgotten`: Whoever forgets a session leaves its room.
* `stored_of_in_room`: What holds when no join is on its way.
* `oneSession`: The rooms are what is stored.
* `leftState_rooms`: Whoever leaves is in no room.
* `mem_rooms_kept`, `stored_kept`: What keeps a socket in its room, and a
  session stored.
* `forgets_once`, `left_first`: What a join does first.
* `malformed_unchanged`: A malformed payload changes nothing.
* `session_of_member`: Whoever is in a room is in that of a session.
-/

namespace RemoteControl.Signaling

open Concurrency Encoding SignalingService

variable {v : Validator} {messages : MessageId → Operation} {P : Env → Prop} {l l' : List Entry}
  {socket : SocketId} {sys : Messages}

/-- The session rooms of the socket are the one of the session stored on it. -/
def OneSession (s : State) (socket : SocketId) : Prop :=
  ∀ a, s.sockets socket = some a → ∀ id,
    socket ∈ s.rooms a.participant (remoteSessionRoom id) ↔ a.remoteSessionId = some id

/-- As long as the socket is connected, no join enters a room while the socket
    is in another one, and none stores a session whose room it has left. -/
def KeepsToOne (socket : SocketId) (l : List Entry) : Prop :=
  ∀ e l', e :: l' <:+ l → (replay l').isConnected socket = true →
    (∀ room, e.op = .joinRoom socket room →
      ∀ p room', socket ∈ (replay l').rooms p room' → room' = room) ∧
    (∀ id, e.op = .setRemoteSessionId socket (some id) →
      ∃ p, socket ∈ (replay l').rooms p (remoteSessionRoom id))

/-- The message is a join of the socket, and its payload passes the checks. -/
def JoinOf (v : Validator) (op : Operation) (socket : SocketId) : Prop :=
  ∃ payload x, op = .join socket payload ∧ joinId v payload = some x

/-- No such join of the socket is on its way. -/
def Idle (v : Validator) (messages : MessageId → Operation) (socket : SocketId) (l : List Entry) :
    Prop :=
  ∀ m, JoinOf v (messages m) socket → ¬ InFlight m l

/-! ## The rooms of a connected socket -/

/-- A socket that is connected is there, and is open. -/
theorem isConnected_iff {s : State} : s.isConnected socket = true ↔
    ∃ a, s.sockets socket = some a ∧ a.connected = true := by
  rw [State.isConnected, Option.any_eq_true]

/-- A socket that is connected was connected ever since it came. -/
theorem connected_before (ha : Answered P l) (hc : (replay l).isConnected socket = true)
    (hl : l' <:+ l) {a : Socket} (hs : (replay l').sockets socket = some a) :
    a.connected = true := by
  rcases isConnected_iff.mp hc with ⟨b, hb, hbc⟩
  exact (ha.later hl).connected socket a b hs hb hbc

/-- A socket that is connected has not disconnected. -/
theorem not_disconnected (ha : Answered P l) (hc : (replay l).isConnected socket = true) {e : Entry}
    (he : e :: l' <:+ l) : e.op ≠ .disconnect socket := by
  intro hop
  have henabled := (ha e l' he).1
  rw [hop] at henabled
  rcases isConnected_iff.mp henabled with ⟨a, hs, _⟩
  have hafter : (replay (e :: l')).sockets socket = some { a with connected := false } := by
    simp only [replay, hop, effect, hs, State.setSocket, Function.update_self]
  exact absurd (connected_before ha hc he hafter) Bool.false_ne_true

/-- Whoever does not leave the room and does not disconnect stays there. -/
theorem mem_rooms_kept {s : State} {o : Op} {p : SignalingParticipant} {room : String}
    (h : socket ∈ s.rooms p room) (hd : o ≠ .disconnect socket)
    (hl : o ≠ .leaveRoom socket room) : socket ∈ (effect s o).rooms p room := by
  cases o
  case setRemoteSessionId m remoteSessionId =>
    simp only [effect]
    split
    · exact h
    · exact h
  -- It adds a socket.
  case joinRoom m room' =>
    simp only [effect]
    split
    · exact h
    · split
      · rw [setRoom_rooms]
        split
        · rename_i heq
          rw [heq.1, heq.2] at h
          exact mem_added.mpr (.inl h)
        · exact h
      · exact h
  -- It removes a socket: another one, or from another room.
  case leaveRoom m room' =>
    simp only [effect]
    split
    · exact h
    · rw [setRoom_rooms]
      split
      · rename_i heq
        rw [heq.1, heq.2] at h
        refine mem_removed.mpr ⟨h, ?_⟩
        rintro rfl
        rw [heq.2] at hl
        exact hl rfl
      · exact h
  -- It removes another socket from its rooms.
  case disconnect m =>
    simp only [effect]
    split
    · exact h
    · rename_i a ha
      by_cases hp : p = a.participant
      · subst hp
        simp only [Function.update_self]
        refine mem_removed.mpr ⟨h, ?_⟩
        rintro rfl
        exact hd rfl
      · simp only [Function.update_of_ne hp]
        exact h
  all_goals exact h

/-- What is stored on a socket stays there until something else is stored. -/
theorem stored_kept {s : State} {o : Op} {id : String} (he : enabled s o = true)
    (h : s.remoteSessionId socket = some id) (ho : ∀ x, o ≠ .setRemoteSessionId socket x) :
    (effect s o).remoteSessionId socket = some id := by
  rcases Option.bind_eq_some_iff.mp h with ⟨a, hs, hstored⟩
  -- Another socket may be written, or this one with the same session.
  have hset : ∀ {m : SocketId} {b : Socket}, (m = socket → b.remoteSessionId = some id) →
      (s.setSocket m b).remoteSessionId socket = some id := by
    intro m b hb
    by_cases hm : socket = m
    · subst hm
      simp only [State.remoteSessionId, State.setSocket, Function.update_self, Option.bind_some]
      exact hb rfl
    · simp only [State.remoteSessionId, State.setSocket, Function.update_of_ne hm]
      exact h
  cases o
  case setRemoteSessionId m x =>
    simp only [effect]
    split
    · exact h
    · refine hset (fun hm => ?_)
      rw [hm] at ho
      exact absurd rfl (ho x)
  case joinRoom m room =>
    simp only [effect]
    split
    · exact h
    · split
      · exact h
      · exact h
  case leaveRoom m room =>
    simp only [effect]
    split
    · exact h
    · exact h
  -- A socket connects that was not there before, and this one was.
  case connect m p context =>
    simp only [enabled, Bool.and_eq_true, Option.isNone_iff_eq_none] at he
    refine hset (fun hm => ?_)
    rw [hm, hs] at he
    cases he.1
  case disconnect m =>
    simp only [effect]
    split
    · exact h
    · rename_i b hb
      refine hset (fun hm => ?_)
      rw [hm, hs, Option.some.injEq] at hb
      rw [← hb]
      exact hstored
  all_goals exact h

/-- A connected socket is in one room at most. -/
theorem rooms_subsingleton (ha : Answered P l)
    (hk : KeepsToOne socket l) (hl : l' <:+ l) {p p' : SignalingParticipant} {room room' : String}
    (h : socket ∈ (replay l').rooms p room) (h' : socket ∈ (replay l').rooms p' room') :
    room = room' := by
  induction l' with
  | nil => simp only [replay, State.init, List.not_mem_nil] at h
  | cons e l' ih =>
      have hbefore : l' <:+ l := (List.suffix_cons e l').trans hl
      -- Whoever has just entered was in no other room.
      have hentered : ∀ {q : SignalingParticipant} {r : String}, e.op = .joinRoom socket r →
          socket ∈ (replay (e :: l')).rooms q r →
          ∀ p room, socket ∈ (replay l').rooms p room → room = r := by
        intro q r hop hin p room hold
        rcases ((ha.suffix hl).wellFormed).members _ _ _ hin with ⟨b, hb, _⟩
        rcases ((ha.suffix hbefore).wellFormed).members _ _ _ hold with ⟨a, hs, _, hac⟩
        exact (hk e l' hl (isConnected_iff.mpr ⟨a, hs, hac⟩)).1 r hop p room hold
      rcases mem_rooms_effect h with hold | ⟨hop, _⟩
      · rcases mem_rooms_effect h' with hold' | ⟨hop', _⟩
        · exact ih hbefore hold hold'
        · exact hentered hop' h' p room hold
      · rcases mem_rooms_effect h' with hold' | ⟨hop', _⟩
        · exact (hentered hop h p' room' hold').symm
        · rw [hop, Op.joinRoom.injEq] at hop'
          exact hop'.2

/-- What an operation writes on a socket. -/
theorem stored_set {s : State} {x : Option String} {a : Socket} (hs : s.sockets socket = some a) :
    (effect s (.setRemoteSessionId socket x)).remoteSessionId socket = x := by
  simp only [effect, hs, State.remoteSessionId, State.setSocket, Function.update_self,
    Option.bind_some]

/-- A socket that something was stored on was there. -/
theorem there_before_set {s : State} {x : Option String} {a : Socket}
    (h : (effect s (.setRemoteSessionId socket x)).sockets socket = some a) :
    ∃ b, s.sockets socket = some b := by
  cases hs : s.sockets socket with
  | none =>
      simp only [effect, hs] at h
      cases h
  | some b => exact ⟨b, rfl⟩

/-- A connected socket is in the room of what is stored on it. -/
theorem stored_in_room {id : String} (ha : Answered P l) (hb : Contiguous Leaves InSegment l)
    (hc : (replay l).isConnected socket = true) (hk : KeepsToOne socket l) (hl : l' <:+ l)
    (h : (replay l').remoteSessionId socket = some id) :
    ∃ p, socket ∈ (replay l').rooms p (remoteSessionRoom id) := by
  induction l' with
  | nil => cases h
  | cons e l' ih =>
      have hbefore : l' <:+ l := (List.suffix_cons e l').trans hl
      rcases stored_effect h with hold | hop
      · rcases ih hbefore hold with ⟨p, hp⟩
        refine ⟨p, mem_rooms_kept hp (not_disconnected ha hc hl) (fun hop => ?_)⟩
        -- It leaves a room right after it has forgotten the session.
        rcases Contiguous.inSegment hb hl with ⟨seg, older, hseg, hin⟩
        rw [hop] at hin
        rcases hin with ⟨seg', rfl⟩
        rw [List.cons_append] at hseg
        rcases Option.bind_eq_some_iff.mp hold with ⟨a, hs, _⟩
        rw [hseg] at hold hs
        rcases there_before_set hs with ⟨b, hsb⟩
        have hforgotten : none = some id := (stored_set hsb).symm.trans hold
        cases hforgotten
      · rcases Option.bind_eq_some_iff.mp h with ⟨a, hs, _⟩
        rw [replay, hop] at hs
        rcases there_before_set hs with ⟨b, hsb⟩
        have hcon := connected_before ha hc hbefore hsb
        rcases (hk e l' hl (isConnected_iff.mpr ⟨b, hsb, hcon⟩)).2 id hop with ⟨p, hp⟩
        refine ⟨p, mem_rooms_kept hp ?_ ?_⟩
        · rw [hop]
          exact Op.noConfusion
        · rw [hop]
          exact Op.noConfusion

/-! ## Forgetting and leaving -/

/-- A message forgets the session of its socket once. -/
theorem forgets_once {g g' : Entry} {l₁ l₂ : List Entry} {t t' : SocketId}
    (ho : Orderly v messages l) (h₁ : g :: l₁ <:+ l) (h₂ : g' :: l₂ <:+ l)
    (hg : g.op = .setRemoteSessionId t none) (hg' : g'.op = .setRemoteSessionId t' none)
    (hm : g.message = g'.message) : g :: l₁ = g' :: l₂ := by
  refine marksOf_unique (K := fun d => ∃ t, d.op = .setRemoteSessionId t none) ?_ h₁ h₂ ⟨t, hg⟩
    ⟨t', hg'⟩ hm
  rintro d ld hd ⟨t, hop⟩ d' hd' ⟨t', hop'⟩
  -- Before it forgets a message has done three things, and none of them forgets.
  have hin := ho d ld hd
  rw [hop] at hin
  rcases hin with ⟨_, _, _, _, _, _, htr⟩
  have hmem : d' ∈ own d.message ld := hd'
  rw [htr] at hmem
  simp only [received, List.mem_cons, List.not_mem_nil, or_false] at hmem
  rcases hmem with rfl | rfl | rfl
  all_goals cases hop'

/-- What an answered join has done first, if its payload has passed: it has
    left the session it was in. -/
theorem left_first {m : MessageId} {payload : Json} {r : Response} {x : String} {tr : List Entry}
    (h : MayAnswer v (.join socket payload) m tr r) (hx : joinId v payload = some x)
    (hforgets : ∃ d ∈ tr, d.op = .setRemoteSessionId socket none) :
    ∃ newer id identity, tr = newer ++ entry m (.leaveRoom socket (remoteSessionRoom id)) () ::
      entry m (.setRemoteSessionId socket none) () ::
      entry m (.remoteSessionId socket) (some id) :: received m socket identity := by
  rcases hforgets with ⟨d, hd, hop⟩
  -- All that comes later writes something else, or nothing.
  -- An answered join has finished, or it was rejected.
  have hleft : ∃ newer left identity, Left m socket left ∧
      tr = newer ++ (left ++ received m socket identity) ∧
      ∀ d ∈ newer, d.op ≠ .setRemoteSessionId socket none := by
    rcases h with ⟨x', identity, row, peer, _, hfinished, _⟩ | ⟨_, hrejected⟩
    · rcases hfinished with ⟨present, announced, _, ⟨looked, _, hlooked, ⟨looked', _, hlooked',
        ⟨left, hleft, rfl⟩, rfl⟩, rfl⟩, hannounced, rfl⟩
      refine ⟨announced ++ (looked ++ ([entry m (.setRemoteSessionId socket (some row.id)) (),
        entry m (.joinRoom socket (remoteSessionRoom row.id)) ()] ++ (looked' ++
        [entry m (.findJoinable x' identity) (some row)]))), left, identity, hleft, ?_, ?_⟩
      · simp only [List.append_assoc, List.cons_append, List.nil_append]
      · intro d hd
        simp only [List.mem_append, List.mem_cons, List.not_mem_nil, or_false] at hd
        rcases hd with hd | hd | (rfl | rfl) | hd | rfl
        · split at hannounced
          · exact hannounced.unwritten hd
          · rw [hannounced] at hd
            cases hd
        · exact hlooked.unwritten hd
        · simp only [entry, ne_eq, Op.setRemoteSessionId.injEq, reduceCtorEq, and_false,
            not_false_eq_true]
        · exact Op.noConfusion
        · exact hlooked'.unwritten hd
        · exact Op.noConfusion
    · cases hrejected with
      -- Rejected for its identity or its payload it has not come so far.
      | identity =>
          simp only [List.mem_cons, List.not_mem_nil, or_false] at hd
          rcases hd with rfl | rfl
          all_goals cases hop
      | payload identity hnone =>
          rw [hx] at hnone
          cases hnone
      | session identity x' left _ hleft =>
          refine ⟨[entry m (.findJoinable x' identity) none], left, identity, hleft, rfl, ?_⟩
          intro d hd
          rw [List.mem_singleton] at hd
          rw [hd]
          exact Op.noConfusion
  rcases hleft with ⟨newer, left, identity, hleft, rfl, hnewer⟩
  -- So the forgetting is among what it has done first.
  rw [List.mem_append] at hd
  rcases hd with hd | hd
  · exact absurd hop (hnewer d hd)
  · cases hleft with
    | nowhere =>
        simp only [received, List.cons_append, List.nil_append, List.mem_cons, List.not_mem_nil,
          or_false] at hd
        rcases hd with rfl | rfl | rfl
        all_goals cases hop
    | session id => exact ⟨newer, id, identity, rfl⟩

/-- A join that has forgotten a session and was answered has left the room of
    it in between. -/
theorem leaves_after {g : Entry} {lg : List Entry} {r : Response} (ho : Orderly v messages l)
    (hg : g :: lg <:+ l) (hop : g.op = .setRemoteSessionId socket none)
    (hack : entry g.message (.ack r) () ∈ l) :
    ∃ id identity lv, own g.message lg =
        entry g.message (.remoteSessionId socket) (some id) :: received g.message socket identity ∧
      entry g.message (.leaveRoom socket (remoteSessionRoom id)) () :: lv <:+ l ∧
      g :: lg <:+ lv := by
  have hin := ho g lg hg
  rw [hop] at hin
  rcases hin with ⟨payload, x, identity, id, hjoin, hx, htr⟩
  rcases exists_suffix hack with ⟨la, hla⟩
  have hla' : la <:+ l := (List.suffix_cons _ la).trans hla
  -- The answer comes later.
  have hmem : g ∈ own g.message la := by
    refine mem_marksOf.mpr ⟨?_, rfl⟩
    rcases suffix_trichotomy hg hla with hs | hs | heq
    · exact mem_of_suffix hs
    · have hquiet : Silent (own g.message lg) := by
        rw [htr]
        exact .cons rfl received_silent
      have hbad := hquiet _ (mem_marksOf.mpr ⟨mem_of_suffix hs, rfl⟩)
      cases hbad
    · rw [List.cons.injEq] at heq
      rw [heq.1] at hop
      cases hop
  have hanswer := ho _ la hla
  simp only [entry, InOrder, hjoin] at hanswer
  rcases left_first hanswer hx ⟨g, hmem, hop⟩ with ⟨newer, id', identity', hfirst⟩
  rcases marksOf_at hfirst with ⟨lv, hlv, hmarks⟩
  rcases marksOf_cons hmarks with ⟨lg', hlg', hmarks', _⟩
  have hlv' : lv <:+ l := ((List.suffix_cons _ lv).trans hlv).trans hla'
  have heq := forgets_once ho hg (hlg'.trans hlv') hop rfl rfl
  rw [heq]
  rw [List.cons.injEq] at heq
  refine ⟨id', identity', lv, ?_, hlv.trans hla', hlg'⟩
  rw [heq.2]
  exact hmarks'

/-- Whoever has left a room is not in it. -/
theorem not_mem_left {s : State} {room : String} {a : Socket} (hs : s.sockets socket = some a) :
    socket ∉ (effect s (.leaveRoom socket room)).rooms a.participant room := by
  simp only [effect, hs]
  rw [setRoom_rooms, if_pos ⟨rfl, rfl⟩]
  intro h
  exact (mem_removed.mp h).2 rfl

/-! ## One session -/

/-- A join that has received its payload was answered, if no join of its
    socket is on its way. -/
theorem answered_of_received {m : MessageId} (hq : Idle v messages socket l)
    (hjoin : JoinOf v (messages m) socket) (hcame : entry m (.receive socket) () ∈ l) :
    ∃ r, entry m (.ack r) () ∈ l := by
  by_contra hnone
  rw [not_exists] at hnone
  exact hq m hjoin ⟨⟨socket, hcame⟩, hnone⟩

/-- What a socket is found to have stored is what was read last, if it was read
    right before. -/
theorem stored_of_read {m : MessageId} {lg older : List Entry} {id : String} (ha : Answered P l)
    (hg : lg <:+ l) (h : lg = entry m (.remoteSessionId socket) (some id) :: older) :
    (replay lg).remoteSessionId socket = some id := by
  subst h
  rcases ha.answer_eq hg with ⟨_, _, hread⟩
  exact hread.symm

/-- A socket that stays in the room of the session stored on it does not forget
    the session: the join that does would have left the room since. -/
theorem not_forgotten {g : Entry} {lg : List Entry} {p : SignalingParticipant} {id : String}
    (ha : Answered P l) (ho : Orderly v messages l) (hb : Contiguous Leaves InSegment l)
    (hq : Idle v messages socket l) (hg : g :: lg <:+ l)
    (hold : (replay lg).remoteSessionId socket = some id)
    (hsince : InRoomSince p (remoteSessionRoom id) socket lg l) :
    g.op ≠ .setRemoteSessionId socket none := by
  intro hop
  -- Otherwise the entry is that of a join, which was answered by now.
  have hlg : lg <:+ l := (List.suffix_cons g lg).trans hg
  have hin := ho g lg hg
  rw [hop] at hin
  rcases hin with ⟨payload, x, identity, _, hjoin, hx, htr⟩
  have hcame : entry g.message (.receive socket) () ∈ own g.message lg := by
    rw [htr]
    simp only [received, List.mem_cons, true_or, or_true]
  rcases answered_of_received hq ⟨payload, x, hjoin, hx⟩
    (hlg.subset (mem_marksOf.mp hcame).1) with ⟨r, hack⟩
  rcases leaves_after ho hg hop hack with ⟨c, identity', lv, hown, hlv, hlater⟩
  -- The session it has forgotten is the one that was stored.
  have hc : c = id := by
    rcases Contiguous.inSegment hb hg with ⟨seg, older, hseg, hin⟩
    rw [hop] at hin
    rcases hin with ⟨c', seg', rfl⟩
    rw [List.cons_append] at hseg
    have hread := stored_of_read ha hlg hseg
    rw [hold, Option.some.injEq] at hread
    have hmarks : own g.message lg =
        entry g.message (.remoteSessionId socket) (some c') :: own g.message (seg' ++ older) := by
      rw [hseg]
      exact marksOf_own rfl
    rw [hown, List.cons.injEq] at hmarks
    have hsame : some c = some c' := entry_inj hmarks.1
    rw [Option.some.injEq] at hsame
    exact hsame.trans hread.symm
  subst hc
  -- It has left the room after it has forgotten, and so the socket is out of it.
  have hlv' : lv <:+ l := (List.suffix_cons _ lv).trans hlv
  have hlate : lg <:+ lv := (List.suffix_cons g lg).trans hlater
  rcases ((ha.suffix hlv').wellFormed).members _ _ _ (hsince lv hlate hlv') with ⟨a, hs, hp, _⟩
  have hout : socket ∉ (effect (replay lv) (.leaveRoom socket (remoteSessionRoom c))).rooms
      a.participant (remoteSessionRoom c) := not_mem_left hs
  rw [hp] at hout
  exact hout (hsince _ (hlate.trans (List.suffix_cons _ lv)) hlv)

/-- A socket that is in the room of a session has it stored, when no join of it
    is on its way. -/
theorem stored_of_in_room {p : SignalingParticipant} {id : String} (ha : Answered P l)
    (ho : Orderly v messages l) (hb : Contiguous Leaves InSegment l)
    (hk : KeepsToOne socket l) (hq : Idle v messages socket l)
    (h : socket ∈ (replay l).rooms p (remoteSessionRoom id)) :
    (replay l).remoteSessionId socket = some id := by
  -- The socket has entered the room at some time, and has stayed since.
  rcases entered_since h with ⟨e, l', he, hop, ⟨a, hs, hp⟩, hsince⟩
  have hin := ho e l' he
  rw [hop] at hin
  rcases hin with ⟨payload, x, identity, row, present, hjoin, hx, hready, _⟩
  have hbefore : l' <:+ l := (List.suffix_cons e l').trans he
  rcases hready.at (ha.suffix hbefore) with ⟨lr, _, hlr, _, hcame, _⟩
  have hcame' := (((List.suffix_cons _ lr).trans hlr).trans hbefore).subset hcame
  -- The join that has entered was answered by now.
  rcases answered_of_received hq ⟨payload, x, hjoin, hx⟩ hcame' with ⟨r, hack⟩
  rcases entered_and_answered ho he hop hack with ⟨_, _, _, row', _, _, la, announced, looked, _, _,
    hroom, _, _, hla, _, _, htr⟩
  have hid : row'.id = id := (remoteSessionRoom_inj hroom).symm
  subst hid
  -- The join has stored the session after it has entered.
  rcases marksOf_append htr with ⟨lq, hlq, hmarks⟩
  rcases marksOf_at hmarks with ⟨lf, hlf, hbeforeStored⟩
  have hla' : la <:+ l := (List.suffix_cons _ la).trans hla
  have hlf' : entry e.message (.setRemoteSessionId socket (some row'.id)) () :: lf <:+ l :=
    (hlf.trans hlq).trans hla'
  have hmem : e ∈ own e.message lf := by
    rw [own, hbeforeStored]
    exact List.mem_cons_self
  have hafter : e :: l' <:+ lf :=
    after_entry ho he hop ((List.suffix_cons _ lf).trans hlf') (mem_marksOf.mp hmem).1
  generalize hf : entry e.message (.setRemoteSessionId socket (some row'.id)) () = f at hlf'
  have hfop : f.op = .setRemoteSessionId socket (some row'.id) := by
    rw [← hf]
    rfl
  have hthere : ∀ lm, l' <:+ lm → lm <:+ l → ∃ b, (replay lm).sockets socket = some b := by
    intro lm hlm hlm'
    rcases ((ha.suffix hlm').later hlm).sockets socket a hs with ⟨b, hb, _⟩
    exact ⟨b, hb⟩
  have hlast : l' <:+ lf := (List.suffix_cons e l').trans hafter
  -- From then on it stays stored.
  have hstays : ∀ lm, f :: lf <:+ lm → lm <:+ l →
      (replay lm).remoteSessionId socket = some row'.id := by
    intro lm hlm hlm'
    induction lm with
    | nil => cases List.suffix_nil.mp hlm
    | cons g lg ih =>
        have hlg : lg <:+ l := (List.suffix_cons g lg).trans hlm'
        -- The entry that stores it.
        rcases List.suffix_cons_iff.mp hlm with heq | hlater
        · rw [List.cons.injEq] at heq
          rcases hthere lg (heq.2 ▸ hlast) hlg with ⟨b, hsb⟩
          rw [replay, ← heq.1, hfop]
          exact stored_set hsb
        · have hold := ih hlater hlg
          have hinsince : e :: l' <:+ lg := hafter.trans ((List.suffix_cons f lf).trans hlater)
          have hinside := hsince lg hinsince hlg
          rcases hthere lg ((List.suffix_cons e l').trans hinsince) hlg with ⟨b, hsb⟩
          -- Another one stores something else, and then it would be another room.
          by_cases hwrites : ∃ x, g.op = .setRemoteSessionId socket x
          · rcases hwrites with ⟨none | id', hgop⟩
            · refine absurd hgop
                (not_forgotten (p := p) ha ho hb hq hlm' hold (fun lm hlm hlm' => ?_))
              exact hsince lm (hinsince.trans hlm) hlm'
            · rcases ((ha.suffix hlg).wellFormed).members _ _ _ hinside with ⟨c, hsc, _, hcc⟩
              rcases (hk g lg hlm' (isConnected_iff.mpr ⟨c, hsc, hcc⟩)).2 id' hgop with ⟨p', hp'⟩
              have hsame := remoteSessionRoom_inj (rooms_subsingleton ha hk hlg hp' hinside)
              rw [replay, hgop, hsame]
              exact stored_set hsb
          · rw [not_exists] at hwrites
            exact stored_kept (ha g lg hlm').1 hold hwrites
  exact hstays l hlf' List.suffix_rfl

/-- The rooms of a socket are what is stored on it. -/
theorem oneSession (ha : Answered P l) (ho : Orderly v messages l)
    (hb : Contiguous Leaves InSegment l) (hc : (replay l).isConnected socket = true)
    (hk : KeepsToOne socket l) (hq : Idle v messages socket l) :
    OneSession (replay l) socket := by
  intro a hs id
  have hstored : (replay l).remoteSessionId socket = a.remoteSessionId := by
    rw [State.remoteSessionId, hs, Option.bind_some]
  constructor
  · intro hin
    rw [← hstored]
    exact stored_of_in_room ha ho hb hk hq hin
  · intro hid
    -- What is stored names the room, of which the socket is a member on its own side.
    rw [← hstored] at hid
    rcases stored_in_room ha hb hc hk List.suffix_rfl hid with ⟨p, hp⟩
    rcases ha.wellFormed.members _ _ _ hp with ⟨b, hsb, hbp, _⟩
    rw [hs, Option.some.injEq] at hsb
    rw [hsb, hbp]
    exact hp

/-- A join with a malformed payload changes nothing. -/
theorem malformed_unchanged {e : Entry} {payload : Json} (ho : Orderly v messages l)
    (he : e :: l' <:+ l) (hjoin : messages e.message = .join socket payload)
    (hx : joinId v payload = none) : replay (e :: l') = replay l' := by
  have hin := ho e l' he
  rw [hjoin] at hin
  -- Whatever changes the state takes a payload that passes, or no message.
  have hpasses : ∀ {s : SocketId} {json : Json} {x : String},
      Operation.join socket payload = .join s json → joinId v json ≠ some x := by
    intro s json x heq hsome
    rw [Operation.join.injEq] at heq
    rw [← heq.2, hx] at hsome
    cases hsome
  simp only [replay]
  cases hop : e.op
  case setRemoteSessionId m x =>
    rw [hop] at hin
    cases x with
    | none =>
        rcases hin with ⟨_, _, _, _, heq, hsome, _⟩
        exact absurd hsome (hpasses heq)
    | some id =>
        rcases hin with ⟨_, _, _, _, _, _, heq, hsome, _⟩
        exact absurd hsome (hpasses heq)
  case joinRoom m room =>
    rw [hop] at hin
    rcases hin with ⟨_, _, _, _, _, heq, hsome, _⟩
    exact absurd hsome (hpasses heq)
  case leaveRoom m room =>
    rw [hop] at hin
    rcases hin with ⟨_, _, _, _, heq, hsome, _⟩
    exact absurd hsome (hpasses heq)
  case connect | disconnect | bind | commit =>
    rw [hop] at hin
    cases hin
  all_goals rfl

/-- Whoever is in a room is in the room of a session, and has an identity. -/
theorem session_of_member {p : SignalingParticipant} {room : String} (ha : Answered P l)
    (ho : Orderly v messages l) (h : socket ∈ (replay l).rooms p room) :
    ∃ a id identity, (replay l).sockets socket = some a ∧ a.participant = p ∧
      room = remoteSessionRoom id ∧ (replay l).identityOf socket = some identity := by
  rcases entered_since h with ⟨e, l', he, hop, ⟨a, hs, hp⟩, _⟩
  have hin := ho e l' he
  rw [hop] at hin
  rcases hin with ⟨payload, x, identity, row, present, hjoin, hx, hready, hroom⟩
  have hbefore : l' <:+ l := (List.suffix_cons e l').trans he
  rcases hready.at (ha.suffix hbefore) with ⟨lr, b, _, _, _, hb, hbp, hbc⟩
  -- Its side and its identity are as when it entered.
  rcases (ha.later hbefore).sockets socket b hb with ⟨c, hc, hcp, hcc⟩
  rw [hs, Option.some.injEq] at hb
  refine ⟨c, row.id, ⟨c.participant, identity.id⟩, hc, ?_, hroom, ?_⟩
  · rw [hcp, ← hb, hp]
  · simp only [State.identityOf, hc, hcc, hbc, Option.map_some]

/-- What leaving leaves: the socket is in no room. -/
theorem leftState_rooms {p : SignalingParticipant} {room : String} (ha : Answered P l)
    (ho : Orderly v messages l) (hone : OneSession (replay l) socket) :
    socket ∉ (leftState (replay l) socket).rooms p room := by
  intro h
  simp only [leftState] at h
  cases hstored : (replay l).remoteSessionId socket with
  | none =>
      rw [hstored] at h
      rcases session_of_member ha ho h with ⟨a, id, _, hs, rfl, rfl, _⟩
      rw [State.remoteSessionId, hs, Option.bind_some, (hone a hs id).mp h] at hstored
      cases hstored
  | some c =>
      rw [hstored] at h
      have hbefore : socket ∈ (replay l).rooms p room := by
        rcases mem_rooms_effect h with h | ⟨hop, _⟩
        · rcases mem_rooms_effect h with h | ⟨hop, _⟩
          · exact h
          · cases hop
        · cases hop
      rcases session_of_member ha ho hbefore with ⟨a, id, _, hs, rfl, rfl, _⟩
      rw [State.remoteSessionId, hs, Option.bind_some, (hone a hs id).mp hbefore,
        Option.some.injEq] at hstored
      subst hstored
      -- The room it was in is the one it leaves.
      have hforgotten : (effect (replay l) (.setRemoteSessionId socket none)).sockets socket =
          some { a with remoteSessionId := none } := by
        simp only [effect, hs, State.setSocket, Function.update_self]
      exact not_mem_left hforgotten h

end RemoteControl.Signaling

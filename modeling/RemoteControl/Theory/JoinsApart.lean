import RemoteControl.Theory.OneSession

/-!
# Joins that Do Not Overlap

Two joins of one socket may overlap. Both have left the old session before
either enters a new one, and then both enter (`one_session_overlap`). As long
as no two joins of the socket overlap (`JoinsApart`), the socket takes part in
one session at a time (`one_session_per_socket`).

From the moment a join comes in until it is answered, nobody else moves its
socket (`alone_between`). So whatever the socket was in when the join came in
is still stored on it when the join looks (`stays_stored`), the join leaves
it, and enters when the socket is in no room (`nowhere_at_entry`). The room it
has entered is the room its socket is in when it stores the session
(`inside_at_record`). These are the two steps that `KeepsToOne` asks for, and
the first of the two uses what is known of the history before the join, so the
proof is by induction on the history.

Where no two joins overlap, a join that has come in is alone with its socket
until it is answered. The source gives it four steps that matter: it looks
what is stored, it forgets and leaves that, it enters, and it stores what it
has entered. Each pair of neighbours is connected by the same argument: an
entry of another message that moves the socket would be an entry of a join in
flight (`moves_in_flight`), and of two joins in flight the later one would
have come in while the other was on its way.

## Main definitions

* `JoinsApart`: No two joins of the socket overlap.
* `OneSessionPerSocket`: What is to hold of a socket.
* `Quiescent`: No join of the socket is on its way.
* `Op.moves`: The operations that move a socket.
* `oneByOne`, `overlapping`: Two schedules of the same two joins.

## Theorems

* `alone_between`: While a join is on its way, nobody else moves its socket.
* `keepsToOne_of_apart`: Joins that do not overlap keep the socket to one room.
* `one_session_per_socket`: The condition is enough.
* `one_session_overlap`: Two overlapping joins.
* `moves_in_flight`: Who moves a socket is one of its joins, on its way.
* `stays_stored`, `nowhere_at_entry`, `inside_at_record`: The steps of a join.
-/

namespace RemoteControl.Signaling

open Concurrency Encoding SignalingService

variable {v : Validator} {messages : MessageId → Operation} {P : Env → Prop} {l l' : List Entry}
  {socket : SocketId} {sys : Messages} {m : MessageId} {e : Entry}

/-- Whenever a join of the socket comes in whose payload passes the checks, no
    other such join of the socket is on its way. -/
def JoinsApart (v : Validator) (messages : MessageId → Operation) (socket : SocketId)
    (l : List Entry) : Prop :=
  ∀ m l', entry m (.receive socket) () :: l' <:+ l → JoinOf v (messages m) socket →
    Idle v messages socket l'

/-- No join of the socket is on its way. -/
def Quiescent (messages : MessageId → Operation) (socket : SocketId) (l : List Entry) : Prop :=
  ∀ m payload, messages m = .join socket payload → ¬ InFlight m l

/-- Without a join on its way, the socket is where its data says, and a join
    that is refused, if it runs alone, takes it out of all rooms. A malformed
    payload changes nothing. -/
structure OneSessionPerSocket (v : Validator) (messages : MessageId → Operation) (sys : Messages)
    (socket : SocketId) : Prop where
  named : Quiescent messages socket sys.shared.log → OneSession sys.shared.state socket
  malformed : ∀ e l' payload, e :: l' <:+ sys.shared.log →
    messages e.message = .join socket payload → joinId v payload = none →
    replay (e :: l') = replay l'
  refused : Quiescent messages socket sys.shared.log → ∀ m env payload x error w,
    joinId v payload = some x →
    (handle v (.join socket payload)).runAlone (exec m env) sys.shared =
      some (.ok (.join (.joinRejected error)), w) →
    ∀ p room, socket ∉ w.state.rooms p room

/-- If no join is on its way, none has left without entering. -/
theorem Quiescent.idle (h : Quiescent messages socket l) : Idle v messages socket l := by
  rintro m ⟨payload, _, hjoin, _⟩
  exact h m payload hjoin

/-- Joins that are apart were apart before. -/
theorem JoinsApart.suffix (h : JoinsApart v messages socket l) (hs : l' <:+ l) :
    JoinsApart v messages socket l' :=
  fun m l'' hm hjoin => h m l'' (hm.trans hs) hjoin

/-! ## Who moves a socket -/

/-- The operation enters or leaves a room with the socket, or stores on it which
    one that is. -/
def Op.moves (socket : SocketId) : Op → Bool
  | .setRemoteSessionId s _ => decide (s = socket)
  | .joinRoom s _ => decide (s = socket)
  | .leaveRoom s _ => decide (s = socket)
  | _ => false

/-- What a message has received begins with its coming in. -/
theorem received_came {identity : SignalingIdentity} :
    entry m (.receive socket) () ∈ received m socket identity := by
  simp only [received, List.mem_cons, true_or, or_true]

/-- A join that is ready to enter has come in. -/
theorem Ready.came {identity : SignalingIdentity} {x : String} {row : RemoteSessionRow}
    {present : Bool} {tr : List Entry} (h : Ready m socket identity x row present tr) :
    entry m (.receive socket) () ∈ tr := by
  rcases h with ⟨looked, before, _, ⟨left, _, rfl⟩, rfl⟩
  simp only [List.mem_append, List.mem_cons, received_came, or_true]

/-- A silent trace has no answer in it. -/
theorem Silent.unanswered {tr : List Entry} (h : Silent tr) (r : Response) :
    entry m (.ack r) () ∉ tr := by
  intro hack
  have hquiet := h _ hack
  cases hquiet

/-- Whoever moves a socket is a join of it that has come in and was not answered
    yet. -/
theorem moves_in_flight (ho : Orderly v messages l) (he : e :: l' <:+ l)
    (hmoves : e.op.moves socket = true) :
    JoinOf v (messages e.message) socket ∧ entry e.message (.receive socket) () ∈ l' ∧
      InFlight e.message l' := by
  -- What is asked of the history can be asked of the message's own trace.
  have hown : ∀ {payload : Json} {x : String}, messages e.message = .join socket payload →
      joinId v payload = some x → entry e.message (.receive socket) () ∈ own e.message l' →
      (∀ r, entry e.message (.ack r) () ∉ own e.message l') →
      JoinOf v (messages e.message) socket ∧ entry e.message (.receive socket) () ∈ l' ∧
        InFlight e.message l' := by
    intro payload x hjoin hx hcame hnone
    have hcame' := (mem_marksOf.mp hcame).1
    exact ⟨⟨payload, x, hjoin, hx⟩, hcame', ⟨socket, hcame'⟩,
      fun r hr => hnone r (mem_marksOf.mpr ⟨hr, rfl⟩)⟩
  have hin := ho e l' he
  cases hop : e.op
  case setRemoteSessionId s x =>
    rw [hop] at hmoves hin
    have hs : s = socket := of_decide_eq_true hmoves
    subst hs
    -- It forgets the session it has found there.
    cases x with
    | none =>
        rcases hin with ⟨payload, x, identity, id, hjoin, hx, htr⟩
        refine hown hjoin hx ?_ ?_
        · rw [htr]
          exact List.mem_cons_of_mem _ received_came
        · rw [htr]
          exact (Silent.cons rfl received_silent).unanswered
    -- It stores the session it has entered.
    | some id =>
        rcases hin with ⟨payload, x, identity, row, present, before, hjoin, hx, hready, _, htr⟩
        refine hown hjoin hx ?_ (fun r hr => ?_)
        · rw [htr]
          exact List.mem_cons_of_mem _ hready.came
        · -- It has entered, and before that it was silent.
          rw [htr] at hr
          rcases List.mem_cons.mp hr with hr | hr
          · cases hr
          · exact hready.silent.unanswered r hr
  case joinRoom s room =>
    rw [hop] at hmoves hin
    have hs : s = socket := of_decide_eq_true hmoves
    subst hs
    -- It enters a room.
    rcases hin with ⟨payload, x, identity, row, present, hjoin, hx, hready, _⟩
    exact hown hjoin hx hready.came hready.silent.unanswered
  case leaveRoom s room =>
    rw [hop] at hmoves hin
    have hs : s = socket := of_decide_eq_true hmoves
    subst hs
    -- It leaves the room of the session it has found.
    rcases hin with ⟨payload, x, identity, id, hjoin, hx, _, htr⟩
    refine hown hjoin hx ?_ ?_
    · rw [htr]
      exact List.mem_cons_of_mem _ (List.mem_cons_of_mem _ received_came)
    · rw [htr]
      exact (Silent.cons rfl (Silent.cons rfl received_silent)).unanswered
  -- No other operation moves the socket.
  all_goals
    rw [hop] at hmoves
    cases hmoves

/-- From when a join comes in until it is answered, nobody else moves its socket:
    of two joins the later one would have come in while the other was on its
    way. -/
theorem alone_between {g : Entry} {lr lg : List Entry} (ho : Orderly v messages l)
    (hapart : JoinsApart v messages socket l) (hjoin : JoinOf v (messages m) socket)
    (hunanswered : ∀ r, entry m (.ack r) () ∉ l) (hg : g :: lg <:+ l)
    (hlr : entry m (.receive socket) () :: lr <:+ lg) (hmoves : g.op.moves socket = true) :
    g.message = m := by
  rcases moves_in_flight ho hg hmoves with ⟨hother, hcame, _, hnone⟩
  rcases exists_suffix hcame with ⟨lr', hlr'⟩
  have hlg : lg <:+ l := (List.suffix_cons g lg).trans hg
  rcases suffix_trichotomy hlr hlr' with hs | hs | heq
  · -- The other one came in later, and found this one on its way.
    have hlater : lr' <:+ l := ((List.suffix_cons _ lr').trans hlr').trans hlg
    exact absurd ⟨⟨socket, mem_of_suffix hs⟩, fun r hr => hunanswered r (hlater.subset hr)⟩
      (hapart g.message lr' (hlr'.trans hlg) hother m hjoin)
  · -- This one came in later, and found the other one on its way.
    have hlater : lr <:+ lg := (List.suffix_cons _ lr).trans hlr
    exact absurd ⟨⟨socket, mem_of_suffix hs⟩, fun r hr => hnone r (hlater.subset hr)⟩
      (hapart m lr (hlr.trans hlg) hjoin g.message hother)
  · rw [List.cons.injEq] at heq
    exact (congrArg Entry.message heq.1).symm

/-! ## Entering -/

/-- What was stored on the socket when a join came in is still stored when the
    join looks what that is. -/
theorem stays_stored {identity : SignalingIdentity} {lr lg : List Entry} {id : String}
    (ha : Answered P l) (ho : Orderly v messages l) (hapart : JoinsApart v messages socket l)
    (hjoin : JoinOf v (messages m) socket) (hunanswered : ∀ r, entry m (.ack r) () ∉ l)
    (hlg : lg <:+ l) (hown : own m lg = received m socket identity)
    (hlr : entry m (.receive socket) () :: lr <:+ lg)
    (hstored : (replay lr).remoteSessionId socket = some id) :
    (replay lg).remoteSessionId socket = some id := by
  have hkept : ∀ lm, entry m (.receive socket) () :: lr <:+ lm → lm <:+ lg →
      (replay lm).remoteSessionId socket = some id := by
    intro lm hlm hlm'
    induction lm with
    | nil => cases List.suffix_nil.mp hlm
    | cons g lg' ih =>
        have hg : g :: lg' <:+ l := hlm'.trans hlg
        rcases List.suffix_cons_iff.mp hlm with heq | hafter
        · rw [List.cons.injEq] at heq
          rw [← heq.1, ← heq.2]
          exact hstored
        · have hold := ih hafter ((List.suffix_cons g lg').trans hlm')
          refine stored_kept (ha g lg' hg).1 hold (fun x hop => ?_)
          -- It would be the join itself, which has only come in so far.
          have hm : g.message = m := by
            refine alone_between ho hapart hjoin hunanswered hg hafter ?_
            rw [hop]
            exact decide_eq_true rfl
          have hmem : g ∈ own m lg := mem_marksOf.mpr ⟨mem_of_suffix hlm', hm⟩
          rw [hown] at hmem
          simp only [received, List.mem_cons, List.not_mem_nil, or_false] at hmem
          rcases hmem with rfl | rfl
          · cases hop
          · cases hop
  exact hkept lg hlr List.suffix_rfl

/-- A message whose socket was asked for its identity has come in before. -/
theorem after_came {identity : SignalingIdentity} {lr lg : List Entry} (ho : Orderly v messages l)
    (hlr : entry m (.receive socket) () :: lr <:+ l) (hlg : lg <:+ l)
    (hown : own m lg = received m socket identity) : entry m (.receive socket) () :: lr <:+ lg := by
  rcases marksOf_cons hown with ⟨li, hli, _, _⟩
  exact (after_receive ho hlr (hli.trans hlg) rfl (fun _ => Op.noConfusion)).trans
    ((List.suffix_cons _ li).trans hli)

/-- A join that has found a session on its socket has left the room of it. -/
theorem Left.leaves {identity : SignalingIdentity} {left : List Entry} {id : String}
    (h : Left m socket left) (ha : Answered P l)
    (hown : own m l = left ++ received m socket identity)
    (hstored : ∀ lg, lg <:+ l → own m lg = received m socket identity →
      (replay lg).remoteSessionId socket = some id) :
    ∃ lg lv, own m lg = received m socket identity ∧ lg <:+ lv ∧
      entry m (.leaveRoom socket (remoteSessionRoom id)) () :: lv <:+ l := by
  cases h with
  | nowhere =>
      -- The look would have found what was stored.
      rcases marksOf_cons hown with ⟨lg, hlg, hrest, _⟩
      rcases ha.answer_eq hlg with ⟨_, _, hread⟩
      have hnone : none = some id :=
        hread.trans (hstored lg ((List.suffix_cons _ lg).trans hlg) hrest)
      cases hnone
  | session id' =>
      rcases marksOf_cons hown with ⟨lv, hlv, hrest, _⟩
      rcases marksOf_cons hrest with ⟨ls, hls, hrest', _⟩
      rcases marksOf_cons hrest' with ⟨lg, hlg, hreceived, _⟩
      have hlv' : lv <:+ l := (List.suffix_cons _ lv).trans hlv
      have hls' : ls <:+ l := ((List.suffix_cons _ ls).trans hls).trans hlv'
      rcases (ha.suffix hls').answer_eq hlg with ⟨_, _, hread⟩
      have hsame : some id' = some id :=
        hread.trans (hstored lg (((List.suffix_cons _ lg).trans hlg).trans hls') hreceived)
      rw [Option.some.injEq] at hsame
      rw [← hsame]
      exact ⟨lg, lv, hreceived, ((List.suffix_cons _ lg).trans hlg).trans
        ((List.suffix_cons _ ls).trans hls), hlv⟩

/-- A join enters when its socket is in no room. Whatever the socket was in when
    the join came in, the join has left, and nobody has entered another room
    since. -/
theorem nowhere_at_entry {room : String} (ha : Answered P l) (ho : Orderly v messages (e :: l))
    (hb : Contiguous Leaves InSegment l) (hapart : JoinsApart v messages socket l)
    (hk : KeepsToOne socket l) (hc : (replay l).isConnected socket = true)
    (hop : e.op = .joinRoom socket room) (p : SignalingParticipant) (room' : String) :
    socket ∉ (replay l).rooms p room' := by
  intro hin
  have hol : Orderly v messages l := fun e' l' he => ho e' l' (he.trans (List.suffix_cons e l))
  have hmoves : e.op.moves socket = true := by
    rw [hop]
    exact decide_eq_true rfl
  rcases moves_in_flight ho List.suffix_rfl hmoves with ⟨hjoin, hcame, _, hunanswered⟩
  -- The moment at which the join came in.
  rcases exists_suffix hcame with ⟨lr, hlr⟩
  have hmayEnter := ho e l List.suffix_rfl
  rw [hop] at hmayEnter
  rcases hmayEnter with ⟨_, _, identity, row, present, _, _, hready, _⟩
  -- Whoever is in a room has entered it, and has stayed since.
  rcases entered_since hin with ⟨d, ld, hd, hdop, ⟨a, hs, _⟩, hsince⟩
  have hlr' : lr <:+ l := (List.suffix_cons _ lr).trans hlr
  rcases suffix_trichotomy hd hlr with hbefore | hafter | heq
  · -- It was in the room when the join came in, so the session was stored.
    have hthere : (replay lr).isConnected socket = true := by
      rcases ((ha.suffix hlr').later ((List.suffix_cons d ld).trans hbefore)).sockets socket a hs
        with ⟨b, hb', _⟩
      exact isConnected_iff.mpr ⟨b, hb', connected_before ha hc hlr' hb'⟩
    have hinside := hsince lr hbefore hlr'
    rcases session_of_member (ha.suffix hlr') (fun e' l' he => hol e' l' (he.trans hlr')) hinside
      with ⟨_, id, _, _, _, rfl, _⟩
    have hstored : (replay lr).remoteSessionId socket = some id :=
      stored_of_in_room (ha.suffix hlr') (fun e' l' he => hol e' l' (he.trans hlr'))
        (fun e' l' he => hb e' l' (he.trans hlr')) (fun e' l' he => hk e' l' (he.trans hlr'))
        (hapart e.message lr hlr hjoin) hinside
    -- The join has found the session there, and has left its room.
    rcases hready with ⟨looked, before, _, ⟨left, hleft, rfl⟩, htr⟩
    rcases marksOf_append htr with ⟨lo, hlo, hadmitted⟩
    rcases marksOf_cons hadmitted with ⟨lf, hlf, hown, _⟩
    have hlf' : lf <:+ l := ((List.suffix_cons _ lf).trans hlf).trans hlo
    rcases hleft.leaves (ha.suffix hlf') hown (fun lg hlg hreceived =>
      stays_stored ha hol hapart hjoin hunanswered (hlg.trans hlf') hreceived
        (after_came hol hlr (hlg.trans hlf') hreceived) hstored) with ⟨lg, lv, hreceived, hlg, hlv⟩
    have hlv' : lv <:+ l := (List.suffix_cons _ lv).trans (hlv.trans hlf')
    have hdlv : d :: ld <:+ lv :=
      ((hbefore.trans (List.suffix_cons _ lr)).trans
        (after_came hol hlr (hlg.trans hlv') hreceived)).trans hlg
    -- But it has stayed in the room.
    rcases (ha.suffix hlv').wellFormed.members _ _ _ (hsince lv hdlv hlv') with ⟨b, hsb, rfl, _⟩
    exact not_mem_left hsb (hsince _ (hdlv.trans (List.suffix_cons _ lv)) (hlv.trans hlf'))
  · -- Whoever has entered it since is the join itself, which has not entered yet.
    have hm : d.message = e.message := by
      refine alone_between hol hapart hjoin hunanswered hd hafter ?_
      rw [hdop]
      exact decide_eq_true rfl
    have hquiet := hready.silent d (mem_marksOf.mpr ⟨mem_of_suffix hd, hm⟩)
    rw [hdop] at hquiet
    cases hquiet
  · rw [List.cons.injEq] at heq
    rw [heq.1] at hdop
    cases hdop

/-! ## Storing -/

/-- The join that stores a session is in the room of it: it has entered, and
    nobody else has moved its socket since. -/
theorem inside_at_record {id : String} (ha : Answered P l) (ho : Orderly v messages (e :: l))
    (hapart : JoinsApart v messages socket l) (hc : (replay l).isConnected socket = true)
    (hop : e.op = .setRemoteSessionId socket (some id)) :
    ∃ p, socket ∈ (replay l).rooms p (remoteSessionRoom id) := by
  have hol : Orderly v messages l := fun e' l' he => ho e' l' (he.trans (List.suffix_cons e l))
  have hmoves : e.op.moves socket = true := by
    rw [hop]
    exact decide_eq_true rfl
  rcases moves_in_flight ho List.suffix_rfl hmoves with ⟨hjoin, _, _, hunanswered⟩
  have hmayRecord := ho e l List.suffix_rfl
  rw [hop] at hmayRecord
  rcases hmayRecord with ⟨_, _, identity, row, present, before, _, _, hready, rfl, htr⟩
  -- The join has entered just before, in the same segment of its program.
  rcases marksOf_cons htr with ⟨lj, hlj, rfl, _⟩
  have hlj' : lj <:+ l := (List.suffix_cons _ lj).trans hlj
  rcases hready.at (ha.suffix hlj') with ⟨_, a, _, _, _, hs, _, _⟩
  rcases exists_suffix (mem_marksOf.mp hready.came).1 with ⟨lr, hlr⟩
  refine ⟨a.participant, ?_⟩
  -- From then on its socket stays in the room.
  have hkept : ∀ lm, entry e.message (.joinRoom socket (remoteSessionRoom row.id)) () :: lj <:+ lm →
      lm <:+ l → socket ∈ (replay lm).rooms a.participant (remoteSessionRoom row.id) := by
    intro lm hlm hlm'
    induction lm with
    | nil => cases List.suffix_nil.mp hlm
    | cons g lg ih =>
        have hlg : lg <:+ l := (List.suffix_cons g lg).trans hlm'
        rcases List.suffix_cons_iff.mp hlm with heq | hafter
        -- This is the entry.
        · rw [List.cons.injEq] at heq
          rw [← heq.1, ← heq.2]
          simp only [replay, entry, effect, hs, connected_before ha hc hlj' hs, if_true]
          rw [setRoom_rooms, if_pos ⟨rfl, rfl⟩]
          exact mem_added.mpr (.inr rfl)
        · refine mem_rooms_kept (ih hafter hlg) (not_disconnected ha hc hlm') (fun hgop => ?_)
          have hm : g.message = e.message := by
            refine alone_between hol hapart hjoin hunanswered hlm'
              (hlr.trans ((List.suffix_cons _ lj).trans hafter)) ?_
            rw [hgop]
            exact decide_eq_true rfl
          -- The join has left before it has entered.
          have hin := hol g lg hlm'
          rw [hgop] at hin
          rcases hin with ⟨_, _, _, _, _, _, _, htr'⟩
          have hentered : entry e.message (.joinRoom socket (remoteSessionRoom row.id)) () ∈
              own g.message lg := mem_marksOf.mpr ⟨mem_of_suffix hafter, hm.symm⟩
          rw [htr'] at hentered
          have hquiet := (Silent.cons rfl (Silent.cons rfl received_silent)) _ hentered
          cases hquiet
  exact hkept l hlj List.suffix_rfl

/-- Joins that do not overlap keep the socket to one room. -/
theorem keepsToOne_of_apart (ha : Answered P l) (ho : Orderly v messages l)
    (hb : Contiguous Leaves InSegment l) (hapart : JoinsApart v messages socket l) :
    KeepsToOne socket l := by
  induction l with
  | nil =>
      intro e l' he
      cases List.suffix_nil.mp he
  | cons e l ih =>
      have hl : l <:+ e :: l := List.suffix_cons e l
      have hk : KeepsToOne socket l := ih (ha.suffix hl) (fun e' l' he => ho e' l' (he.trans hl))
        (fun e' l' he => hb e' l' (he.trans hl)) (hapart.suffix hl)
      intro e' l' he hc
      rcases List.suffix_cons_iff.mp he with heq | he
      · rw [List.cons.injEq] at heq
        rcases heq with ⟨rfl, rfl⟩
        refine ⟨fun room hop p room' hin => ?_, fun id hop => ?_⟩
        · exact absurd hin (nowhere_at_entry (ha.suffix hl) ho
            (fun e' l' he => hb e' l' (he.trans hl)) (hapart.suffix hl) hk hc hop p room')
        · exact inside_at_record (ha.suffix hl) ho (hapart.suffix hl) hc hop
      · exact hk e' l' he hc

/-! ## One session -/

/-- A socket takes part in one session, in every run in which no two joins of it
    overlap. -/
theorem one_session_per_socket (h : Reachable v messages sys)
    (hc : sys.shared.state.isConnected socket = true)
    (hapart : JoinsApart v messages socket sys.shared.log) :
    OneSessionPerSocket v messages sys socket := by
  have hrecorded := h.recorded
  have ha := hrecorded.answered
  have ho := orderly h
  have hk := keepsToOne_of_apart ha ho (contiguous h) hapart
  have hone : Quiescent messages socket sys.shared.log →
      OneSession (replay sys.shared.log) socket := by
    intro hq
    rw [hrecorded.state] at hc
    exact oneSession ha ho (contiguous h) hc hk hq.idle
  refine ⟨fun hq => ?_, fun e l' payload he hjoin hx => malformed_unchanged ho he hjoin hx, ?_⟩
  · rw [hrecorded.state]
    exact hone hq
  · intro hq m env payload x error w hx hrun p room
    cases hi : sys.shared.state.identityOf socket with
    | none =>
        rcases (handle_join_refused hc hi).eq hrun with ⟨_, hstate, _⟩
        rw [hstate, hrecorded.state]
        intro hin
        rcases session_of_member ha ho hin with ⟨_, _, _, _, _, _, hidentity⟩
        rw [← hrecorded.state, hi] at hidentity
        cases hidentity
    | some identity =>
        rcases (handle_join_ends hc hi hx).eq hrun with ⟨hack, hstate, _⟩
        rw [hstate]
        simp only [joinAck] at hack ⊢
        cases hfound : (leftState sys.shared.state socket).findJoinable x identity with
        | none =>
            simp only
            rw [hrecorded.state]
            exact leftState_rooms ha ho (hone hq)
        | some row =>
            rw [hfound] at hack
            cases hack

/-- Whether the entry after this history begins no message before all others
    were answered. -/
def beginsAlone (e : Entry) (l : List Entry) : Bool :=
  match e.op with
  | .receive _ => allAnswered l
  | _ => true

/-- If no message begins before all others were answered, the joins of every
    socket are apart. -/
theorem beginsAlone_sound (h : atEach beginsAlone l = true) : JoinsApart v messages socket l := by
  intro m l' hm _ m' _
  exact not_inFlight (atEach_of_suffix h hm) m'

/-! ## Two runs -/

/-- The session of the second join. -/
def laterSessionId : String := "b7f0c2aa-51d4-4e0b-8c3e-0d9a4f6b2e17"

/-- The payload of the second join. -/
def laterPayload : Json := .object [("remoteSessionId", .string laterSessionId)]

/-- The technician 2 with the socket 20, whose session with the device 1 is
    closed, and who then is in one with the device 3. -/
def moving : MessageId → Operation
  | 0 => .bind .technician
  | 1 => .commit ⟨sessionId, 1, 2, .active⟩
  | 2 => .connect 20 .technician (some 2)
  | 3 => .join 20 joinPayload
  | 4 => .commit ⟨sessionId, 1, 2, .closed⟩
  | 5 => .commit ⟨laterSessionId, 3, 2, .connecting⟩
  | _ => .join 20 laterPayload

/-- The second join comes after the first was answered. -/
def oneByOne : List (MessageId × Env) :=
  taking 0 1 ++ taking 1 1 ++ taking 2 1 ++ taking 3 8 ++ taking 4 1 ++ taking 5 1 ++ taking 6 8

/-- Both joins find nothing to leave, and then both enter. -/
def overlapping : List (MessageId × Env) :=
  taking 0 1 ++ taking 1 1 ++ taking 2 1 ++ taking 3 4 ++ taking 6 3 ++ taking 4 1 ++ taking 5 1 ++
    taking 6 1 ++ taking 3 4 ++ taking 6 4

/-- The socket moves from the one room to the other. -/
theorem one_session_one_by_one : ∃ sys, Reachable lenient moving sys ∧
    20 ∈ sys.shared.state.rooms .technician (remoteSessionRoom laterSessionId) ∧
    OneSessionPerSocket lenient moving sys 20 := by
  have hrun : ((follow exec (boot lenient moving) oneByOne).any (fun sys =>
      atEach beginsAlone sys.shared.log && sys.shared.state.isConnected 20 &&
      decide (20 ∈ sys.shared.state.rooms .technician (remoteSessionRoom laterSessionId)))) =
      true := by
    decide +kernel
  rcases reachable_of_taking hrun with ⟨sys, hsys, hp⟩
  simp only [Bool.and_eq_true, decide_eq_true_eq] at hp
  exact ⟨sys, hsys, hp.2, one_session_per_socket hsys hp.1.2 (beginsAlone_sound hp.1.1)⟩

/-- Two joins that overlap leave the socket in two rooms. -/
theorem one_session_overlap : ∃ sys, Reachable lenient moving sys ∧
    sys.shared.state.isConnected 20 = true ∧ ¬ OneSessionPerSocket lenient moving sys 20 := by
  have hrun : ((follow exec (boot lenient moving) overlapping).any (fun sys =>
      allAnswered sys.shared.log && sys.shared.state.isConnected 20 &&
      decide (20 ∈ sys.shared.state.rooms .technician (remoteSessionRoom sessionId)) &&
      decide (sys.shared.state.sockets 20 =
        some ⟨.technician, some 2, true, some laterSessionId⟩))) = true := by
    decide +kernel
  rcases reachable_of_taking hrun with ⟨sys, hsys, hp⟩
  simp only [Bool.and_eq_true, decide_eq_true_eq] at hp
  rcases hp with ⟨⟨⟨hanswered, hc⟩, hin⟩, hs⟩
  refine ⟨sys, hsys, hc, fun hone => ?_⟩
  have hstored := (hone.named (fun m _ _ => not_inFlight hanswered m) _ hs sessionId).mp hin
  exact absurd hstored (by decide)

end RemoteControl.Signaling

import RemoteControl.Concurrency.Segments
import RemoteControl.Concurrency.Traces
import RemoteControl.Core.Signaling

/-!
# Sockets and Rooms

What a history of the signaling says of its sockets, rooms and sessions. Every
state is what the operations before it have led to, and every answer was read
off the state it was given in (`Answered`), so the facts below speak of
histories alone and know nothing of the programs.

A socket keeps its namespace and its identity, a session keeps its owners, and
neither a namespace nor a session that is over comes back (`Later`). A member
of a room is a connected socket of that namespace (`WellFormed`), and got
there by an operation of its own, since which it never left (`entered_since`).
A room that has a member was entered by somebody who found it empty, and was
never empty since (`occupied_since`).

Each fact about a state is shown for one operation, case by case, and then for
a history by induction on it: `Later.effect` gives `Answered.later`, and
`WellFormed.effect` gives `Answered.wellFormed`. An operation that the adapter
refuses, because the socket is not known or no longer connected, changes
nothing, which is why most cases begin with the branch that leaves the state
as it is.

## Main definitions

* `Answered`: The answers of a history are those of its states.
* `Later`: What no operation undoes.
* `WellFormed`: What every state of a run satisfies.
* `OccupiedSince`: A room was never empty since a point of the history.

## Theorems

* `Reachable.recorded`: The history of a run is answered.
* `Answered.later`, `Answered.wellFormed`: Its states.
* `entered_since`, `occupied_since`: How sockets get into rooms.
-/

namespace RemoteControl.Signaling

open Concurrency Encoding

/-! ## Answers -/

/-- Every operation could happen in the state it happened in, and was answered
    as that state has it, in a turn taken with an environment that meets the
    condition. -/
def Answered (P : Env → Prop) (l : List Entry) : Prop :=
  ∀ e l', e :: l' <:+ l →
    enabled (replay l') e.op = true ∧ ∃ env, P env ∧ e.resp = answer env (replay l') e.op

/-- The turn is taken with an environment that meets the condition. -/
def TurnsWith (P : Env → Prop) (_ : Messages) (_ : MessageId) (env : Env) : Prop := P env

variable {P : Env → Prop} {v : Validator} {messages : MessageId → Operation} {sys : Messages}

/-- What an earlier point of a history says is answered too. -/
theorem Answered.suffix {l l' : List Entry} (h : Answered P l) (hs : l' <:+ l) : Answered P l' :=
  fun e l'' he => h e l'' (he.trans hs)

/-- The history of a run that has not begun. -/
theorem answered_nil : Answered P [] := by
  intro e l' h
  rw [List.suffix_nil] at h
  cases h

/-- One more operation, if it could happen then and was answered as the state has
    it. -/
theorem Answered.cons {e : Entry} {l : List Entry} (h : Answered P l)
    (he : enabled (replay l) e.op = true)
    (hr : ∃ env, P env ∧ e.resp = answer env (replay l) e.op) :
    Answered P (e :: l) := by
  intro e' l' hs
  rcases List.suffix_cons_iff.mp hs with heq | hs
  · rw [List.cons.injEq] at heq
    rw [heq.1, heq.2]
    exact ⟨he, hr⟩
  · exact h e' l' hs

/-- The state of the world is what its history has led to. -/
structure Recorded (P : Env → Prop) (w : World) : Prop where
  state : w.state = replay w.log
  answered : Answered P w.log

/-- An operation keeps the record: it happens only if it can, and its answer is
    the one of the state before it. -/
theorem Recorded.exec {m : MessageId} {env : Env} {o : Op} {w w' : World} {r : Resp o}
    (h : Recorded P w) (hx : exec m env o w = some (r, w')) (hP : P env) : Recorded P w' := by
  simp only [Signaling.exec] at hx
  by_cases he : enabled w.state o = true
  · rw [if_pos he] at hx
    cases hx
    refine ⟨?_, h.answered.cons ?_ ⟨env, hP, ?_⟩⟩
    · simp only [replay, h.state]
    · rw [← h.state]
      exact he
    · simp only [h.state]
  · rw [if_neg he] at hx
    cases hx

/-- Every run keeps the record, segment by segment: a turn takes its environment,
    and all its operations are answered with that one. -/
theorem recorded (h : Run exec (TurnsWith P) (boot v messages) sys) : Recorded P sys.shared := by
  refine h.invariant (P := fun s => Recorded P s.shared) ⟨rfl, answered_nil⟩ ?_
  intro a b m env ha hP hturn
  rcases turn_cases hturn with ⟨p, p', w', _, hseg, rfl⟩
  exact segment_keeps (fun o w r w'' hx hw => hw.exec hx hP) hseg ha

/-- In a run without a condition, whatever its environments. -/
theorem Reachable.recorded (h : Reachable v messages sys) :
    Recorded (fun _ => True) sys.shared :=
  Signaling.recorded (h.mono (fun _ _ _ _ => trivial))

/-! ## What lasts -/

/-- What is there in one state, and is still there in the other. -/
structure Later (s s' : State) : Prop where
  sockets : ∀ id a, s.sockets id = some a → ∃ b, s'.sockets id = some b ∧
    b.participant = a.participant ∧ b.context = a.context
  sessions : ∀ id row, s.sessions id = some row → ∃ row', s'.sessions id = some row' ∧
    row'.owner = row.owner ∧ (row'.isLive = true → row.isLive = true)
  bound : ∀ p, s.bound p = true → s'.bound p = true
  connected : ∀ id a b, s.sockets id = some a → s'.sockets id = some b → b.connected = true →
    a.connected = true

/-- A state is later than itself. Nothing has ended or come back within it. -/
theorem Later.refl (s : State) : Later s s := by
  refine ⟨fun _ a h => ⟨a, h, rfl, rfl⟩, fun _ row h => ⟨row, h, rfl, fun hl => hl⟩,
    fun _ h => h, fun id a b ha hb hc => ?_⟩
  rw [ha, Option.some.injEq] at hb
  rw [hb]
  exact hc

/-- What is there, and was kept twice, was kept. That a socket does not connect
    again takes the socket in the state between. -/
theorem Later.trans {s t u : State} (h : Later s t) (h' : Later t u) : Later s u := by
  refine ⟨fun id a ha => ?_, fun id row hr => ?_, fun p hp => h'.bound p (h.bound p hp),
    fun id a c ha hc hcc => ?_⟩
  · rcases h.sockets id a ha with ⟨b, hb, hp, hc⟩
    rcases h'.sockets id b hb with ⟨c, hc', hp', hcc⟩
    exact ⟨c, hc', hp'.trans hp, hcc.trans hc⟩
  · rcases h.sessions id row hr with ⟨row₁, h₁, ho, hl⟩
    rcases h'.sessions id row₁ h₁ with ⟨row₂, h₂, ho', hl'⟩
    exact ⟨row₂, h₂, ho'.trans ho, fun hlive => hl (hl' hlive)⟩
  · rcases h.sockets id a ha with ⟨b, hb, _, _⟩
    exact h.connected id a b ha hb (h'.connected id b c hb hc hcc)

/-- The sockets are the same. -/
theorem Later.sameSockets {s s' : State} (h : s'.sockets = s.sockets)
    (hsessions : s'.sessions = s.sessions) (hbound : s'.bound = s.bound) : Later s s' := by
  refine ⟨fun id a ha => ?_, fun id row hr => ?_, fun p hp => ?_, fun id a b ha hb hc => ?_⟩
  · rw [h]
    exact (Later.refl s).sockets id a ha
  · rw [hsessions]
    exact (Later.refl s).sessions id row hr
  · rw [hbound]
    exact hp
  · rw [h] at hb
    exact (Later.refl s).connected id a b ha hb hc

/-- A socket that is replaced by one of the same namespace and identity. -/
theorem Later.setSocket {s : State} {id : SocketId} {a b : Socket} (h : s.sockets id = some a)
    (hp : b.participant = a.participant) (hc : b.context = a.context)
    (hcon : b.connected = true → a.connected = true) : Later s (s.setSocket id b) := by
  refine ⟨fun id' a' ha' => ?_, fun _ row hr => ⟨row, hr, rfl, fun hl => hl⟩, fun _ hb => hb,
    fun id' a' b' ha' hb' hc' => ?_⟩
  · simp only [State.setSocket]
    by_cases hid : id' = id
    · subst hid
      rw [h, Option.some.injEq] at ha'
      rw [Function.update_self]
      exact ⟨b, rfl, by rw [← ha']; exact hp, by rw [← ha']; exact hc⟩
    · rw [Function.update_of_ne hid]
      exact ⟨a', ha', rfl, rfl⟩
  · by_cases hid : id' = id
    · subst hid
      rw [h, Option.some.injEq] at ha'
      simp only [State.setSocket, Function.update_self, Option.some.injEq] at hb'
      rw [← hb'] at hc'
      rw [← ha']
      exact hcon hc'
    · simp only [State.setSocket, Function.update_of_ne hid] at hb'
      exact (Later.refl s).connected id' a' b' ha' hb' hc'

/-- A committed row keeps its owners, and does not come back to life. -/
theorem owner_of_mayCommit {old row : RemoteSessionRow} (h : mayCommit (some old) row = true) :
    row.owner = old.owner ∧ (row.isLive = true → old.isLive = true) := by
  simp only [mayCommit, Bool.and_eq_true, decide_eq_true_eq, Bool.or_eq_true,
    Bool.not_eq_true'] at h
  rcases h with ⟨_, ⟨hd, ht⟩, hl⟩
  refine ⟨?_, fun hlive => ?_⟩
  · funext p
    cases p
    · exact hd.symm
    · exact ht.symm
  · rcases hl with hl | hl
    · exact hl
    · rw [hlive] at hl
      cases hl

/-- One operation undoes nothing of it. A connection takes an identifier that no
    socket had, and a commit is one that the database lets pass; the other
    operations keep what is there. -/
theorem Later.effect {s : State} {o : Op} (h : enabled s o = true) : Later s (effect s o) := by
  cases o
  case setRemoteSessionId id remoteSessionId =>
    simp only [Signaling.effect]
    split
    · exact Later.refl s
    · rename_i socket hs
      exact Later.setSocket hs rfl rfl (fun hc => hc)
  case joinRoom id room =>
    simp only [Signaling.effect]
    split
    · exact Later.refl s
    · split
      · exact Later.sameSockets rfl rfl rfl
      · exact Later.refl s
  case leaveRoom id room =>
    simp only [Signaling.effect]
    split
    · exact Later.refl s
    · exact Later.sameSockets rfl rfl rfl
  case connect id p context =>
    -- A new socket has a new identifier.
    simp only [enabled, Bool.and_eq_true, Option.isNone_iff_eq_none] at h
    have hid : ∀ id' a, s.sockets id' = some a → id' ≠ id := by
      rintro id' a ha rfl
      rw [h.1] at ha
      cases ha
    refine ⟨fun id' a ha => ?_, (Later.refl s).sessions, (Later.refl s).bound,
      fun id' a b ha hb hc => ?_⟩
    · simp only [Signaling.effect, State.setSocket, Function.update_of_ne (hid id' a ha)]
      exact ⟨a, ha, rfl, rfl⟩
    · simp only [Signaling.effect, State.setSocket, Function.update_of_ne (hid id' a ha)] at hb
      exact (Later.refl s).connected id' a b ha hb hc
  case disconnect id =>
    -- The socket leaves its rooms, which are no part of this, and is no longer
    -- connected.
    simp only [Signaling.effect]
    split
    · exact Later.refl s
    · rename_i socket hs
      have hset : Later s (s.setSocket id { socket with connected := false }) :=
        Later.setSocket hs rfl rfl (fun hc => absurd hc Bool.false_ne_true)
      exact hset.trans (Later.sameSockets rfl rfl rfl)
  case bind p =>
    refine ⟨(Later.refl s).sockets, (Later.refl s).sessions, fun q hq => ?_,
      (Later.refl s).connected⟩
    simp only [Signaling.effect]
    by_cases hqp : q = p
    · rw [hqp, Function.update_self]
    · rw [Function.update_of_ne hqp]
      exact hq
  case commit row =>
    refine ⟨(Later.refl s).sockets, fun id old hold => ?_, (Later.refl s).bound,
      (Later.refl s).connected⟩
    simp only [Signaling.effect]
    -- The row that was committed, and the others.
    by_cases hid : id = row.id
    · rw [hid, Function.update_self]
      simp only [enabled, ← hid, hold] at h
      rcases owner_of_mayCommit h with ⟨ho, hl⟩
      exact ⟨row, rfl, ho, hl⟩
    · rw [Function.update_of_ne hid]
      exact ⟨old, hold, rfl, fun hl => hl⟩
  all_goals exact Later.refl s

/-- Each state of a history is later than those before it. -/
theorem Answered.later {l l' : List Entry} (h : Answered P l) (hs : l' <:+ l) :
    Later (replay l') (replay l) := by
  induction l with
  | nil =>
      rw [List.suffix_nil] at hs
      rw [hs]
      exact Later.refl _
  | cons e l ih =>
      rcases List.suffix_cons_iff.mp hs with rfl | hs
      · exact Later.refl _
      · exact (ih (h.suffix (List.suffix_cons e l)) hs).trans
          (Later.effect (h e l List.suffix_rfl).1)

/-! ## Members -/

/-- Who is in a room after somebody entered it. -/
theorem mem_added {members : List SocketId} {id m : SocketId} :
    m ∈ added members id ↔ m ∈ members ∨ m = id := by
  unfold added
  split
  · rename_i h
    constructor
    · exact .inl
    · rintro (hm | rfl)
      · exact hm
      · exact h
  · rw [List.mem_append, List.mem_singleton]

/-- Who is in a room after somebody left it. -/
theorem mem_removed {members : List SocketId} {id m : SocketId} :
    m ∈ removed members id ↔ m ∈ members ∧ m ≠ id := by
  simp only [removed, List.mem_filter, decide_eq_true_eq]

/-- Only this room of this namespace is another. -/
theorem setRoom_rooms {s : State} {p q : SignalingParticipant} {room room' : String}
    {members : List SocketId} : (s.setRoom p room members).rooms q room' =
      if q = p ∧ room' = room then members else s.rooms q room' := by
  simp only [State.setRoom]
  by_cases hq : q = p
  · subst hq
    by_cases hr : room' = room
    · subst hr
      simp only [Function.update_self, true_and, if_true]
    · simp only [Function.update_self, Function.update_of_ne hr, hr, and_false, if_false]
  · simp only [Function.update_of_ne hq, hq, false_and, if_false]

/-- What every state of a run satisfies: a session is where its identifier
    says, a member of a room is a connected socket of that namespace, and a
    socket's namespace is there. -/
structure WellFormed (s : State) : Prop where
  rows : ∀ k row, s.sessions k = some row → row.id = k
  members : ∀ p room id, id ∈ s.rooms p room →
    ∃ a, s.sockets id = some a ∧ a.participant = p ∧ a.connected = true
  bound : ∀ id a, s.sockets id = some a → s.bound a.participant = true

/-- Nobody and nothing is there at boot. -/
theorem init_wellFormed : WellFormed State.init where
  rows := fun k row h => by cases h
  members := fun p room id h => by simp only [State.init, List.not_mem_nil] at h
  bound := fun id a h => by cases h

/-- A socket that changes neither its namespace nor whether it is connected. -/
theorem WellFormed.setSocket {s : State} {id : SocketId} {a b : Socket} (h : WellFormed s)
    (ha : s.sockets id = some a) (hp : b.participant = a.participant)
    (hc : b.connected = a.connected) : WellFormed (s.setSocket id b) := by
  refine ⟨h.rows, fun p room id' hid => ?_, fun id' a' ha' => ?_⟩
  · rcases h.members p room id' hid with ⟨c, hs, hcp, hcc⟩
    by_cases hid' : id' = id
    · subst hid'
      rw [ha, Option.some.injEq] at hs
      subst hs
      exact ⟨b, Function.update_self .., hp.trans hcp, hc.trans hcc⟩
    · exact ⟨c, (Function.update_of_ne hid' ..).trans hs, hcp, hcc⟩
  · by_cases hid' : id' = id
    · subst hid'
      simp only [State.setSocket, Function.update_self, Option.some.injEq] at ha'
      rw [← ha', hp]
      exact h.bound id' a ha
    · simp only [State.setSocket, Function.update_of_ne hid'] at ha'
      exact h.bound id' a' ha'

/-- A room whose members are all connected sockets of the namespace. -/
theorem WellFormed.setRoom {s : State} {p : SignalingParticipant} {room : String}
    {members : List SocketId} (h : WellFormed s) (hm : ∀ id ∈ members,
      ∃ a, s.sockets id = some a ∧ a.participant = p ∧ a.connected = true) :
    WellFormed (s.setRoom p room members) := by
  refine ⟨h.rows, fun q room' id hid => ?_, h.bound⟩
  rw [setRoom_rooms] at hid
  split at hid
  · rename_i heq
    rw [heq.1]
    exact hm id hid
  · exact h.members q room' id hid

/-- An operation keeps all of it. The members are the part that needs an argument:
    whoever enters a room is connected, and whoever disconnects leaves every room
    of its namespace, and was in no other. -/
theorem WellFormed.effect {s : State} {o : Op} (h : WellFormed s) (he : enabled s o = true) :
    WellFormed (effect s o) := by
  cases o
  case setRemoteSessionId id remoteSessionId =>
    simp only [Signaling.effect]
    split
    · exact h
    · rename_i a ha
      exact h.setSocket ha rfl rfl
  case joinRoom id room =>
    simp only [Signaling.effect]
    split
    · exact h
    · rename_i a ha
      split
      · rename_i hc
        -- Those who were in it, and the one that enters, which is connected.
        refine h.setRoom (fun m hm => ?_)
        rcases mem_added.mp hm with hm | rfl
        · exact h.members _ _ _ hm
        · exact ⟨a, ha, rfl, hc⟩
      · exact h
  case leaveRoom id room =>
    simp only [Signaling.effect]
    split
    · exact h
    · exact h.setRoom (fun m hm => h.members _ _ _ (mem_removed.mp hm).1)
  case connect id p context =>
    simp only [enabled, Bool.and_eq_true, Option.isNone_iff_eq_none] at he
    refine ⟨h.rows, fun q room m hm => ?_, fun m a ha => ?_⟩
    · -- Nobody is in a room before being there.
      rcases h.members q room m hm with ⟨a, ha, hq⟩
      have hne : m ≠ id := by
        rintro rfl
        rw [he.1] at ha
        cases ha
      exact ⟨a, (Function.update_of_ne hne ..).trans ha, hq⟩
    · by_cases hm : m = id
      · subst hm
        simp only [Signaling.effect, State.setSocket, Function.update_self,
          Option.some.injEq] at ha
        rw [← ha]
        exact he.2
      · simp only [Signaling.effect, State.setSocket, Function.update_of_ne hm] at ha
        exact h.bound m a ha
  case disconnect id =>
    simp only [Signaling.effect]
    split
    · exact h
    · rename_i a ha
      refine ⟨h.rows, fun p room m hm => ?_, fun m b hb => ?_⟩
      · -- It has left the rooms of its namespace, and was in no others.
        have hold : m ∈ s.rooms p room ∧ m ≠ id := by
          by_cases hp : p = a.participant
          · subst hp
            simp only [Function.update_self] at hm
            exact mem_removed.mp hm
          · simp only [Function.update_of_ne hp] at hm
            refine ⟨hm, ?_⟩
            rintro rfl
            rcases h.members p room m hm with ⟨b, hb, hbp, _⟩
            rw [ha, Option.some.injEq] at hb
            exact hp (by rw [← hbp, hb])
        rcases h.members p room m hold.1 with ⟨b, hb, hbp⟩
        exact ⟨b, (Function.update_of_ne hold.2 ..).trans hb, hbp⟩
      · by_cases hm : m = id
        · subst hm
          simp only [State.setSocket, Function.update_self, Option.some.injEq] at hb
          rw [← hb]
          exact h.bound m a ha
        · simp only [State.setSocket, Function.update_of_ne hm] at hb
          exact h.bound m b hb
  case bind p =>
    refine ⟨h.rows, h.members, fun id a ha => ?_⟩
    have hold := h.bound id a ha
    simp only [Signaling.effect]
    by_cases hp : a.participant = p
    · rw [hp, Function.update_self]
    · rw [Function.update_of_ne hp]
      exact hold
  case commit row =>
    refine ⟨fun k r hr => ?_, h.members, h.bound⟩
    simp only [Signaling.effect] at hr
    by_cases hk : k = row.id
    · rw [hk, Function.update_self, Option.some.injEq] at hr
      rw [← hr, hk]
    · rw [Function.update_of_ne hk] at hr
      exact h.rows k r hr
  all_goals exact h

/-- Every state of a history is well formed. -/
theorem Answered.wellFormed {l : List Entry} (h : Answered P l) : WellFormed (replay l) := by
  induction l with
  | nil => exact init_wellFormed
  | cons e l ih =>
      exact (ih (h.suffix (List.suffix_cons e l))).effect (h e l List.suffix_rfl).1

/-- Whoever is in a room was there before, or has just entered it. No operation
    but `joinRoom` makes a room larger. -/
theorem mem_rooms_effect {s : State} {o : Op} {p : SignalingParticipant} {room : String}
    {id : SocketId} (h : id ∈ (effect s o).rooms p room) :
    id ∈ s.rooms p room ∨ o = .joinRoom id room ∧
      ∃ a, s.sockets id = some a ∧ a.participant = p := by
  cases o
  case setRemoteSessionId m remoteSessionId =>
    simp only [Signaling.effect] at h
    split at h
    · exact .inl h
    · exact .inl h
  case joinRoom m room' =>
    simp only [Signaling.effect] at h
    split at h
    · exact .inl h
    · rename_i a ha
      split at h
      · rw [setRoom_rooms] at h
        split at h
        · rename_i heq
          rw [heq.1, heq.2]
          rcases mem_added.mp h with hold | rfl
          · exact .inl hold
          · exact .inr ⟨rfl, a, ha, rfl⟩
        · exact .inl h
      · exact .inl h
  case leaveRoom m room' =>
    simp only [Signaling.effect] at h
    split at h
    · exact .inl h
    · rw [setRoom_rooms] at h
      split at h
      · rename_i heq
        rw [heq.1, heq.2]
        exact .inl (mem_removed.mp h).1
      · exact .inl h
  case disconnect m =>
    simp only [Signaling.effect] at h
    split at h
    · exact .inl h
    · rename_i a ha
      by_cases hp : p = a.participant
      · subst hp
        simp only [Function.update_self] at h
        exact .inl (mem_removed.mp h).1
      · simp only [Function.update_of_ne hp] at h
        exact .inl h
  all_goals exact .inl h

/-! ## How a room is entered -/

/-- The socket has been in the room since a point of the history. -/
def InRoomSince (p : SignalingParticipant) (room : String) (id : SocketId) (l' l : List Entry) :
    Prop :=
  ∀ l'', l' <:+ l'' → l'' <:+ l → id ∈ (replay l'').rooms p room

/-- The room was never empty since a point of the history. -/
def OccupiedSince (p : SignalingParticipant) (room : String) (l' l : List Entry) : Prop :=
  ∀ l'', l' <:+ l'' → l'' <:+ l → (replay l'').rooms p room ≠ []

/-- What has held since a point of the history holds one operation later. -/
theorem since_cons {K : List Entry → Prop} {e : Entry} {l l' : List Entry}
    (h : ∀ l'', l' <:+ l'' → l'' <:+ l → K l'') (he : K (e :: l)) :
    ∀ l'', l' <:+ l'' → l'' <:+ e :: l → K l'' := by
  intro l'' h' hs
  rcases List.suffix_cons_iff.mp hs with rfl | hs
  · exact he
  · exact h l'' h' hs

/-- What holds now has held since now. -/
theorem since_now {K : List Entry → Prop} {l : List Entry} (h : K l) :
    ∀ l'', l <:+ l'' → l'' <:+ l → K l'' := by
  intro l'' h' hs
  rw [h'.eq_of_length_le hs.length_le] at h
  exact h

/-- Since a later point as well. -/
theorem OccupiedSince.mono {p : SignalingParticipant} {room : String} {l₁ l₂ l : List Entry}
    (h : OccupiedSince p room l₁ l) (hs : l₁ <:+ l₂) : OccupiedSince p room l₂ l :=
  fun l'' h' hl => h l'' (hs.trans h') hl

/-- A socket that is in a room has entered it, and was there ever since. Going
    back from the end, the socket was in the room until the entry at which it came
    in. -/
theorem entered_since {l : List Entry} {p : SignalingParticipant} {room : String} {id : SocketId}
    (h : id ∈ (replay l).rooms p room) :
    ∃ e l', e :: l' <:+ l ∧ e.op = .joinRoom id room ∧
      (∃ a, (replay l').sockets id = some a ∧ a.participant = p) ∧
      InRoomSince p room id (e :: l') l := by
  induction l with
  | nil => simp only [replay, State.init, List.not_mem_nil] at h
  | cons e l ih =>
      rcases mem_rooms_effect h with hold | ⟨ho, ha⟩
      · rcases ih hold with ⟨e', l', hs, ho, ha, hin⟩
        exact ⟨e', l', hs.trans (List.suffix_cons e l), ho, ha, since_cons hin h⟩
      · exact ⟨e, l, List.suffix_rfl, ho, ha, since_now h⟩

/-- A room that is not empty was entered when it was, and never empty since. Going
    back from the end, the room was not empty until the entry before which it was;
    whoever is in it after that entry has entered by it. -/
theorem occupied_since {l : List Entry} {p : SignalingParticipant} {room : String}
    (h : (replay l).rooms p room ≠ []) :
    ∃ e l' id, e :: l' <:+ l ∧ e.op = .joinRoom id room ∧
      (∃ a, (replay l').sockets id = some a ∧ a.participant = p) ∧
      (replay l').rooms p room = [] ∧ OccupiedSince p room (e :: l') l := by
  induction l with
  | nil => exact absurd rfl h
  | cons e l ih =>
      by_cases hempty : (replay l).rooms p room = []
      · rcases List.exists_mem_of_ne_nil _ h with ⟨id, hid⟩
        rcases mem_rooms_effect hid with hold | ⟨ho, ha⟩
        · rw [hempty] at hold
          simp only [List.not_mem_nil] at hold
        · exact ⟨e, l, id, List.suffix_rfl, ho, ha, hempty, since_now h⟩
      · rcases ih hempty with ⟨e', l', id, hs, ho, ha, hbefore, hsince⟩
        exact ⟨e', l', id, hs.trans (List.suffix_cons e l), ho, ha, hbefore, since_cons hsince h⟩

end RemoteControl.Signaling

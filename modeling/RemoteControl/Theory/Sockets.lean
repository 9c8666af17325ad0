import RemoteControl.Concurrency.Segments
import RemoteControl.Theory.DeviceCommits

/-!
# Sockets along a History

A socket is known by the call that opens it. What becomes of it can be read
off the history: it is over once somebody has closed it (`Gone`), and it is
registered from its own entry on until it is taken out again.

These facts do not depend on what the calls are up to. They hold of every
operation (`exec_records`), so they hold along every run.

Three small predicates carry everything. `Records` says of one operation what
it does to the sockets, to the registrations and to the log, all at once, so a
statement about runs never looks at an operation again: it needs only that
each entry moves the sockets as `Socket.Moves` says and the registrations as
`Entry.connections` does. `Gone` and `Registered` then say of a log what the
world holds at its end, and both are settled by induction on the log. Most
operations say nothing about sockets at all. They share `Records.same`, so
that the case of such an operation is the name of its entry and nothing more.

## Main definitions

* `Records`: What an entry says of the sockets.
* `Gone`: The socket has been closed.
* `Registered`: The socket is registered for the device.

## Theorems

* `exec_records`: What an operation does to the sockets.
* `Reachable.gone_iff`: A socket is disconnected once it was closed.
* `registered_since`: A registered socket has registered, and the sockets of
  its device were not taken since.
-/

namespace RemoteControl.Devices

open Concurrency

variable {crypto : Crypto} {calls : CallId → Call} {fleet : List Device} {c : CallId}

/-! ## One operation -/

/-- The socket that the operation closes. -/
def Op.closes : Op → Option CallId
  | .disconnect s => some s
  | .transportClosed s => some s
  | _ => none

/-- The socket that an entry closes. Only an entry that records an operation as it
    ran can close one; the others record what was found. -/
def Event.closes : Event → Option CallId
  | .ran o => o.closes
  | _ => none

/-- The operation neither closes a socket nor changes a registration. -/
def Op.IsQuiet : Op → Prop
  | .disconnect _ => False
  | .transportClosed _ => False
  | .register _ => False
  | .unregister _ _ => False
  | .takeConnections _ => False
  | _ => True

/-- The entry tells neither of a closed socket nor of a registration. The
    remaining entries leave the presence service and every socket's end as they
    were. -/
def Event.IsQuiet : Event → Prop
  | .ran o => o.closes = none
  | .registered _ => False
  | .unregistered _ _ => False
  | .closed _ => False
  | _ => True

/-- A quiet entry closes nothing. -/
theorem Event.IsQuiet.closes {ev : Event} (h : ev.IsQuiet) : ev.closes = none := by
  cases ev <;> first | rfl | exact h

/-- A quiet entry leaves the presence service as it was. -/
theorem Event.IsQuiet.connections {ev : Event} (h : ev.IsQuiet) (connections : Connections) :
    Entry.connections ⟨c, ev⟩ connections = connections := by
  cases ev <;> first | rfl | exact h.elim

/-- A socket across an entry. It is disconnected exactly if the entry closes it or
    it was so before, it stays connected once it is, and its handler for the end
    runs only where it is disconnected. -/
structure Socket.Moves (s : CallId) (ev : Event) (socket socket' : Socket) : Prop where
  disconnected : socket'.disconnected = true ↔ ev.closes = some s ∨ socket.disconnected = true
  connected : socket.connected = true → socket'.connected = true
  handled : socket'.handled = true → socket.handled = true ∨ socket'.disconnected = true

/-- A socket that nobody closes. The entry names no socket, so all that is left to
    see is that the state of this one has not gone backwards. -/
theorem Socket.Moves.open {s : CallId} {ev : Event} {socket socket' : Socket}
    (hev : ev.closes = none) (hdisconnected : socket'.disconnected = socket.disconnected)
    (hconnected : socket.connected = true → socket'.connected = true)
    (hhandled : socket'.handled = socket.handled) : Socket.Moves s ev socket socket' := by
  refine ⟨?_, hconnected, fun h => .inl (hhandled.symm.trans h)⟩
  rw [hev, hdisconnected]
  simp only [reduceCtorEq, false_or]

/-- Closing a socket disconnects that one, and no other. Whether the handler runs
    at once or later makes no difference, since the socket is disconnected from
    now on. -/
theorem closeSocket_moves {w : World} {s s' : CallId} {now : Bool} {ev : Event}
    (hev : ev.closes = some s') :
    (w.sockets s).Moves s ev ((closeSocket w s' now).2.sockets s) := by
  by_cases hs : s = s'
  · -- The socket that is closed: the entry names it.
    subst hs
    simp only [closeSocket, World.setSocket, Function.update_self]
    exact ⟨iff_of_true rfl (.inl hev), fun h => h, fun _ => .inr rfl⟩
  · -- Another one: it is disconnected if it was, and the entry names the closed one.
    simp only [closeSocket, World.setSocket, Function.update_of_ne hs]
    refine ⟨?_, fun h => h, .inl⟩
    rw [hev, Option.some.injEq]
    simp only [@eq_comm _ s' s, hs, false_or]

/-- What an operation does to the sockets and their registrations, and the entry
    that says so. The four fields are what the rest of this module needs of an
    operation: later proofs take them and never look at the operation again. -/
structure Records (c : CallId) (o : Op) (ev : Event) (w w' : World) : Prop where
  log : w'.log = ⟨c, ev⟩ :: w.log
  connections : w'.connections = Entry.connections ⟨c, ev⟩ w.connections
  sockets : ∀ s, (w.sockets s).Moves s ev (w'.sockets s)
  quiet : o.IsQuiet → ev.IsQuiet

/-- An operation that leaves the sockets and the registrations alone, and whose
    entry says nothing about them. This is the case of every query and of every
    write to a table. -/
theorem Records.same {o : Op} {ev : Event} {w w' : World} (hlog : w'.log = ⟨c, ev⟩ :: w.log)
    (hev : ev.IsQuiet) (hsockets : w'.sockets = w.sockets)
    (hconnections : w'.connections = w.connections) : Records c o ev w w' := by
  refine ⟨hlog, by rw [hconnections, hev.connections], fun s => ?_, fun _ => hev⟩
  rw [hsockets]
  exact .open hev.closes rfl (fun hc => hc) rfl

/-- A change of the call's own socket that does not close it. The call knows only
    its own socket, so for every other one there is nothing to show. -/
theorem Records.setSocket {o : Op} {ev : Event} {w : World} {socket : Socket} (hev : ev.IsQuiet)
    (hdisconnected : socket.disconnected = (w.sockets c).disconnected)
    (hconnected : (w.sockets c).connected = true → socket.connected = true)
    (hhandled : socket.handled = (w.sockets c).handled) :
    Records c o ev w ((w.setSocket c socket).record c ev) := by
  refine ⟨rfl, (hev.connections _).symm, fun s => ?_, fun _ => hev⟩
  by_cases hs : s = c
  · subst hs
    simp only [World.record, World.setSocket, Function.update_self]
    exact .open hev.closes hdisconnected hconnected hhandled
  · -- The others are as they were.
    simp only [World.record, World.setSocket, Function.update_of_ne hs]
    exact .open hev.closes rfl (fun hc => hc) rfl

/-! A query leaves an entry about the row it has found, or about itself. -/

/-- A read of a device leaves a quiet entry, whether or not it finds one. -/
theorem shownEvent_quiet {o : Op} (ho : o.closes = none) (found : Option Device) :
    (shownEvent o found).IsQuiet := by
  cases found with
  | none => exact ho
  | some d => trivial

/-- A read of a credential leaves a quiet entry. -/
theorem shownCredentialEvent_quiet {o : Op} (ho : o.closes = none)
    (found : Option DeviceCredential) : (shownCredentialEvent o found).IsQuiet := by
  cases found with
  | none => exact ho
  | some k => trivial

/-- A locked read of an enrollment leaves a quiet entry. -/
theorem foundEvent_quiet {o : Op} (ho : o.closes = none) (found : Option DeviceEnrollment) :
    (foundEvent o found).IsQuiet := by
  cases found with
  | none => exact ho
  | some e => trivial

/-- The verification of a token leaves a quiet entry: a socket is authenticated by
    a later one, once its device and its credential were read. -/
theorem verifiedEvent_quiet {o : Op} (ho : o.closes = none) (found : Option DeviceJwtPayload) :
    (verifiedEvent o found).IsQuiet := by
  cases found with
  | none => exact ho
  | some payload => trivial

section Operations

variable {env : Env} {w w' : World}

/-- The socket is connected from now on, unless it has been closed before. -/
theorem establish_records {r : Bool} (h : exec crypto c env .establish w = some (r, w')) :
    ∃ ev, Records c .establish ev w w' := by
  simp only [exec] at h
  split at h
  · cases h
    exact ⟨.ran .establish, .same rfl rfl rfl rfl⟩
  · cases h
    exact ⟨.ran .establish, .setSocket rfl rfl (fun _ => rfl) rfl⟩

/-- An UPDATE of a device leaves the sockets alone, also one that switches the
    device off: its connections are closed by later operations of the call. -/
theorem updateDevice_records {id : Uuid} {patch : DevicePatch} {r : Except PostgresError Bool}
    (h : exec crypto c env (.updateDevice id patch) w = some (r, w')) :
    ∃ ev, Records c (.updateDevice id patch) ev w w' := by
  rcases exec_updateDevice h with ⟨_, rfl⟩ | ⟨_, _, t, _, _, rfl⟩
  · exact ⟨_, .same rfl rfl rfl rfl⟩
  · exact ⟨_, .same rfl rfl rfl rfl⟩

/-- A locked read of an enrollment leaves the sockets alone. -/
theorem lockEnrollment_records {id deviceId : Uuid} {now : Timestamp} {r : Option DeviceEnrollment}
    (h : exec crypto c env (.lockEnrollment id deviceId now) w = some (r, w')) :
    ∃ ev, Records c (.lockEnrollment id deviceId now) ev w w' := by
  rcases exec_lockEnrollment h with ⟨t, _, rfl⟩
  exact ⟨_, .same rfl (foundEvent_quiet rfl r) rfl rfl⟩

/-- Revoking an enrollment leaves the sockets alone, whether or not there was one
    to revoke. -/
theorem revokeEnrollment_records {id deviceId : Uuid} {now : Timestamp} {r : Bool}
    (h : exec crypto c env (.revokeEnrollment id deviceId now) w = some (r, w')) :
    ∃ ev, Records c (.revokeEnrollment id deviceId now) ev w w' := by
  rcases exec_revokeEnrollment h with ⟨t, _, rfl⟩
  refine ⟨_, .same rfl ?_ rfl rfl⟩
  cases r with
  | false => trivial
  | true => exact (rfl : (Op.revokeEnrollment id deviceId now).closes = none)

/-- An INSERT of a credential leaves the sockets alone, also one that the table
    refuses. -/
theorem insertCredential_records {draft : DeviceCredentialDraft}
    {r : Except PostgresError DeviceCredential}
    (h : exec crypto c env (.insertCredential draft) w = some (r, w')) :
    ∃ ev, Records c (.insertCredential draft) ev w w' := by
  rcases exec_insertCredential h with ⟨_, rfl⟩ | ⟨_, t, _, rfl⟩
  · exact ⟨_, .same rfl rfl rfl rfl⟩
  · exact ⟨_, .same rfl rfl rfl rfl⟩

/-- What an operation does to the sockets: only two close one, and only three
    change who is registered. The cases are grouped by what the operation touches;
    every group but the first three is an instance of `Records.same`. -/
theorem exec_records {o : Op} {r : Resp o} (h : exec crypto c env o w = some (r, w')) :
    ∃ ev, Records c o ev w w' := by
  cases o
  -- The ends of a connection, from either side.
  case disconnect | transportClosed =>
    cases h
    exact ⟨_, rfl, rfl, fun s => closeSocket_moves rfl, fun ho => ho.elim⟩
  -- The registrations.
  case register | unregister | takeConnections =>
    cases h
    exact ⟨_, rfl, rfl, fun s => .open rfl rfl (fun hc => hc) rfl, fun ho => ho.elim⟩
  -- The call's own socket.
  case setSocketData =>
    cases h
    exact ⟨_, .setSocket trivial rfl (fun hc => hc) rfl⟩
  case establish => exact establish_records h
  -- Queries.
  case verifyToken =>
    cases h
    exact ⟨_, .same rfl (verifiedEvent_quiet rfl _) rfl rfl⟩
  case findDevice | findDeviceByPublicId =>
    cases h
    exact ⟨_, .same rfl (shownEvent_quiet rfl _) rfl rfl⟩
  case findActiveCredential =>
    cases h
    exact ⟨_, .same rfl (shownCredentialEvent_quiet rfl _) rfl rfl⟩
  -- Statements that lock or write rows.
  case updateDevice => exact updateDevice_records h
  case lockEnrollment => exact lockEnrollment_records h
  case revokeEnrollment => exact revokeEnrollment_records h
  case insertEnrollment =>
    rcases exec_insertEnrollment h with ⟨_, t, _, rfl⟩
    exact ⟨_, .same rfl rfl rfl rfl⟩
  case insertCredential => exact insertCredential_records h
  case consumeEnrollment | updateEnrollment =>
    rcases runUpdateEnrollment_cases h with ⟨t, _, rfl⟩
    exact ⟨_, .same rfl rfl rfl rfl⟩
  case revokeCredential =>
    rcases runUpdateCredential_cases h with ⟨t, _, rfl⟩
    exact ⟨_, .same rfl rfl rfl rfl⟩
  case touchCredential =>
    rcases exec_touchCredential h with ⟨t, _, rfl⟩
    exact ⟨_, .same rfl trivial rfl rfl⟩
  -- The others are answered at once and change nothing but the tables.
  all_goals
    cases h
    first
    | exact ⟨_, .same rfl rfl rfl rfl⟩
    | exact ⟨_, .same rfl trivial rfl rfl⟩

end Operations

/-! ## Closed sockets -/

/-- The socket has been closed. -/
def Gone (l : List Entry) (s : CallId) : Prop := ∃ e ∈ l, e.event.closes = some s

/-- An entry adds the socket that it closes. -/
theorem gone_cons {e : Entry} {l : List Entry} {s : CallId} :
    Gone (e :: l) s ↔ e.event.closes = some s ∨ Gone l s := by
  simp only [Gone, List.mem_cons, exists_eq_or_imp]

/-- A socket that was closed stays closed. -/
theorem Gone.of_suffix {l l' : List Entry} {s : CallId} (h : Gone l' s) (hl : l' <:+ l) :
    Gone l s := by
  rcases h with ⟨e, he, hs⟩
  exact ⟨e, hl.subset he, hs⟩

/-- A socket is disconnected once somebody has closed it. One operation moves the
    socket as its entry says, and at boot no socket is disconnected and the log is
    empty. -/
theorem Reachable.gone_iff {sys : Calls} (h : Reachable crypto calls fleet sys) (s : CallId) :
    (sys.shared.sockets s).disconnected = true ↔ Gone sys.shared.log s := by
  refine Run.keeps (K := fun w : World =>
    ∀ s, (w.sockets s).disconnected = true ↔ Gone w.log s) ?_ h ?_ s
  · -- One operation: both sides change by the socket that the entry closes.
    intro c env o w r w' hx hw s
    rcases exec_records hx with ⟨ev, hrec⟩
    rw [(hrec.sockets s).disconnected, hw s, hrec.log, gone_cons]
  · intro s
    simp only [boot, System.start, World.init, Socket.fresh, Gone, List.not_mem_nil, false_and,
      exists_false, Bool.false_eq_true]

/-! ## Registered sockets -/

/-- The socket is registered for the device. The presence service keeps a list of
    sockets for a device, and none where there would be an empty one, so the
    device has an entry exactly if some socket is registered for it. -/
def Registered (connections : Connections) (deviceId : Uuid) (s : CallId) : Prop :=
  ∃ sockets, connections deviceId = some sockets ∧ s ∈ sockets

section Presence

variable {connections : Connections} {d d' : Uuid} {s s' : CallId}

/-- Registering adds the one socket to the one device. The list holds no socket
    twice, which does not matter for who is in it. -/
theorem registered_register : Registered (DevicePresenceService.register connections d s) d' s' ↔
    (d' = d ∧ s' = s) ∨ Registered connections d' s' := by
  by_cases hd : d' = d
  · -- The device in question: its list grows by the socket, unless it is there already.
    subst hd
    simp only [Registered, DevicePresenceService.register, true_and]
    cases hsockets : connections d' with
    | none =>
        simp only [Function.update_self, Option.some.injEq, exists_eq_left', List.mem_singleton,
          reduceCtorEq, false_and, exists_false, or_false]
    | some sockets =>
        simp only [Function.update_self, Option.some.injEq, exists_eq_left']
        split
        · rename_i hmem
          exact ⟨.inr, fun h => h.elim (fun hs => hs ▸ hmem) (fun h => h)⟩
        · rw [List.mem_append, List.mem_singleton, or_comm]
  · -- Another device: its list is the same.
    simp only [Registered, DevicePresenceService.register, hd, false_and, false_or]
    cases connections d with
    | none => simp only [Function.update_of_ne hd]
    | some sockets => simp only [Function.update_of_ne hd]

/-- Unregistering removes the one socket from the one device. -/
theorem registered_unregister :
    Registered (DevicePresenceService.unregister connections d s).2 d' s' ↔
      Registered connections d' s' ∧ ¬ (d' = d ∧ s' = s) := by
  simp only [DevicePresenceService.unregister]
  cases hsockets : connections d with
  | none =>
      -- Nobody is registered for that device, so there is nothing to remove.
      refine ⟨fun h => ⟨h, ?_⟩, fun h => h.1⟩
      rintro ⟨rfl, _⟩
      rcases h with ⟨sockets, hsome, _⟩
      have hboth := hsockets.symm.trans hsome
      simp only [reduceCtorEq] at hboth
  | some sockets =>
      -- The list that remains has everybody else. It is stored only if it is not empty,
      -- and an empty one has nobody in it, so the two branches agree on who is
      -- registered.
      have hrest : ∀ x, x ∈ sockets.filter (fun s' => decide (s' ≠ s)) ↔ x ∈ sockets ∧ x ≠ s := by
        intro x
        rw [List.mem_filter, decide_eq_true_eq]
      by_cases hd : d' = d
      · subst hd
        simp only [Registered, true_and, hsockets, Option.some.injEq, exists_eq_left', ne_eq]
        split
        · rename_i hempty
          rw [List.isEmpty_iff] at hempty
          rw [hempty] at hrest
          simp only [Function.update_self, reduceCtorEq, false_and, exists_false, false_iff]
          intro hmem
          exact List.not_mem_nil ((hrest s').mpr hmem)
        · simp only [Function.update_self, Option.some.injEq, exists_eq_left']
          exact hrest s'
      · simp only [Registered, hd, false_and, not_false_eq_true, and_true]
        split
        · simp only [Function.update_of_ne hd]
        · simp only [Function.update_of_ne hd]

/-- Taking the sockets of a device unregisters all of them, and nobody else's. -/
theorem registered_take : Registered (DevicePresenceService.take connections d).2 d' s' ↔
    Registered connections d' s' ∧ d' ≠ d := by
  simp only [DevicePresenceService.take]
  cases hsockets : connections d with
  | none =>
      refine ⟨fun h => ⟨h, ?_⟩, fun h => h.1⟩
      rintro rfl
      rcases h with ⟨sockets, hsome, _⟩
      have hboth := hsockets.symm.trans hsome
      simp only [reduceCtorEq] at hboth
  | some sockets =>
      by_cases hd : d' = d
      · subst hd
        simp only [Registered, Function.update_self, reduceCtorEq, false_and, exists_false, ne_eq,
          not_true_eq_false, and_false]
      · simp only [Registered, Function.update_of_ne hd, ne_eq, hd, not_false_eq_true, and_true]

end Presence

/-- A registered socket has registered, and since then nobody has taken the
    sockets of its device. The induction is on the log: an entry that closes a
    device ends the registrations of that device, and no other entry but
    `unregistered` takes any away. -/
theorem registered_since {l : List Entry} {d : Uuid} {s : CallId}
    (h : Registered (replayConnections l) d s) :
    ∃ l₂ l₁, l = l₂ ++ ⟨s, .registered d⟩ :: l₁ ∧ ∀ e ∈ l₂, e.event ≠ .closed d := by
  induction l with
  | nil =>
      rcases h with ⟨_, hnone, _⟩
      simp only [replayConnections, reduceCtorEq] at hnone
  | cons e l ih =>
      -- The socket was registered before, and the entry does not take it out.
      have hbefore : Registered (replayConnections l) d s → e.event ≠ .closed d →
          ∃ l₂ l₁, e :: l = l₂ ++ ⟨s, .registered d⟩ :: l₁ ∧ ∀ e ∈ l₂, e.event ≠ .closed d := by
        intro hreg hev
        rcases ih hreg with ⟨l₂, l₁, rfl, hsince⟩
        exact ⟨e :: l₂, l₁, rfl, List.forall_mem_cons.mpr ⟨hev, hsince⟩⟩
      rcases e with ⟨c, ev⟩
      cases ev with
      | registered d' =>
          rcases registered_register.mp h with ⟨rfl, rfl⟩ | hreg
          · exact ⟨[], l, rfl, List.forall_mem_nil _⟩
          · exact hbefore hreg (by simp only [ne_eq, reduceCtorEq, not_false_eq_true])
      | unregistered d' s' =>
          exact hbefore (registered_unregister.mp h).1
            (by simp only [ne_eq, reduceCtorEq, not_false_eq_true])
      | closed d' =>
          rcases registered_take.mp h with ⟨hreg, hne⟩
          exact hbefore hreg (fun hc => hne (Event.closed.inj hc).symm)
      | _ => exact hbefore h (by simp only [ne_eq, reduceCtorEq, not_false_eq_true])

/-- Who has registered keeps its identity, which is of that device. The
    registering call had read its identity from the socket, and authenticating
    twice is not possible, so the identity is the one it had then. -/
theorem registered_context {l : List Entry} (h : History crypto calls fleet l) {d : Uuid}
    {s : CallId} (hreg : ⟨s, .registered d⟩ ∈ l) :
    (progress s l).registered = true ∧
      ∃ context, (progress s l).context = some context ∧ context.deviceId = d := by
  induction l with
  | nil => simp only [List.not_mem_nil] at hreg
  | cons e l ih =>
      rcases e with ⟨c, ev⟩
      by_cases hc : c = s
      · subst hc
        rcases List.mem_cons.mp hreg with heq | hreg
        · -- This is the entry of the registration.
          simp only [Entry.mk.injEq, true_and] at heq
          subst heq
          rw [progress_own]
          exact ⟨rfl, h.1.2⟩
        · -- Already registered: a registered socket is not authenticated again.
          rcases ih h.2 hreg with ⟨hregistered, hcontext⟩
          rw [progress_own]
          cases ev with
          | authenticated context =>
              have hnot : (progress c l).registered = false := h.1.2.1
              rw [hregistered] at hnot
              simp only [Bool.true_eq_false] at hnot
          | registered d' => exact ⟨rfl, hcontext⟩
          | _ => exact ⟨hregistered, hcontext⟩
      · rw [progress_other (e := ⟨c, ev⟩) hc]
        rcases List.mem_cons.mp hreg with heq | hreg
        · exact absurd (congrArg Entry.call heq).symm hc
        · exact ih h.2 hreg

/-- A socket keeps the identity it has registered with. The identity is written by
    the connection alone, and before it registers. -/
theorem context_kept {l₂ l : List Entry} {s : CallId} {d : Uuid}
    (h : History crypto calls fleet (l₂ ++ ⟨s, .registered d⟩ :: l)) :
    (progress s (l₂ ++ ⟨s, .registered d⟩ :: l)).context = (progress s l).context := by
  induction l₂ with
  | nil =>
      rw [List.nil_append, progress_own]
      rfl
  | cons e l₂ ih =>
      rcases e with ⟨c, ev⟩
      have hmem : ⟨s, .registered d⟩ ∈ l₂ ++ ⟨s, .registered d⟩ :: l :=
        List.mem_append_right _ List.mem_cons_self
      refine Eq.trans ?_ (ih h.2)
      by_cases hc : c = s
      · subst hc
        refine (congrArg Progress.context (progress_own c ev _)).trans ?_
        cases ev with
        | authenticated context =>
            -- Nobody is authenticated after it has registered.
            have hnot : (progress c (l₂ ++ ⟨c, .registered d⟩ :: l)).registered = false := h.1.2.1
            have hboth := (registered_context h.2 hmem).1.symm.trans hnot
            simp only [Bool.true_eq_false] at hboth
        | _ => rfl
      · exact congrArg Progress.context (progress_other (e := ⟨c, ev⟩) hc)

/-- The identity of a socket is what its connection was shown. Both rows were read
    by the connection itself, before it wrote the identity: the device was active
    when it was read, and the identity names the two rows. -/
theorem authenticated_at {l : List Entry} (h : History crypto calls fleet l) {s : CallId}
    {context : DeviceSocketContext} (hcontext : (progress s l).context = some context) :
    ∃ x k, ⟨s, .shownDevice x⟩ ∈ l ∧ x.isActive = true ∧ x.id = context.deviceId ∧
      ⟨s, .shownCredential k⟩ ∈ l ∧ k.id = context.credentialId := by
  -- The entry that wrote the identity, which is somewhere in the log.
  have hentry : ∃ l₁, ⟨s, .authenticated context⟩ :: l₁ <:+ l := by
    refine entry_of_progress (P := fun p => p.context = some context)
      (Option.some_ne_none context).symm (fun p ev hp => ?_) hcontext
    cases ev with
    | authenticated context' => exact .inr (by rw [Option.some.inj hp])
    | _ => exact .inl hp
  rcases hentry with ⟨l₁, hl₁⟩
  -- What the connection had before: an access that it has decided by the two rows.
  rcases (h.suffix hl₁) with ⟨⟨_, _, x, k, hacc, rfl⟩, hh⟩
  have hx : x ∈ (progress s l₁).devices := by
    rw [hacc.device]
    exact List.mem_singleton.mpr rfl
  have hafter : l₁ <:+ l := (List.suffix_cons _ _).trans hl₁
  -- A row that a call has is a row that was found for it.
  rcases shownDevice_at hh hx with ⟨l₀, hl₀, _⟩
  rcases shownCredential_at hh hacc.credential with ⟨l₀', hl₀', _⟩
  exact ⟨x, k, (hl₀.trans hafter).subset List.mem_cons_self, hacc.active, rfl,
    (hl₀'.trans hafter).subset List.mem_cons_self, rfl⟩

end RemoteControl.Devices

import RemoteControl.Theory.Sockets

/-!
# Presence

Which sockets are registered, between one turn and the next. A socket is
registered if it has registered and is not disconnected, and there is no
device with an empty list of sockets, so that a device is online if it has a
socket.

Inside a turn it is otherwise. A connection registers its socket before it
looks whether the socket is still there, the gateway is told of the end of a
connection when the connection is over, and `disconnectDevice` takes the
sockets of a device out of the register before it closes them. `PresentBut` is
what holds in between: it names the sockets that are still to be dealt with.

The programs are proved by triples that hold between the pauses of a turn
(`Turns.Triple`): at every pause, and at the end, the register is exact. Three
programs change the register, and all others use quiet operations only, for
which one lemma is enough (`Quiet.rests`).

Within a turn the exceptions are kept as a list. Taking the sockets of a
device out of the register puts them on the list, and each is dealt with when
it is disconnected; registering a socket puts it there if it was closed
before.

## Main definitions

* `PresentBut`: The register is exact but for some sockets.
* `presenceTurns`: It is exact between turns.
* `Leaving`: A socket that is closed, and still to be taken out.

## Theorems

* `handleDisconnect_rests`, `disconnectDevice_rests`, `connect_rests`: The
  programs that change the register.
* `presence_exact`: The register in every reachable state.
* `PresentBut.quiet`, `PresentBut.close`, `PresentBut.settle`,
  `PresentBut.unregister`, `PresentBut.take`, `PresentBut.register`: One
  operation each.
* `handleConnection_rests`: A connection that was let in.
-/

namespace RemoteControl.Devices

open Concurrency

/-- A socket is registered for a device if it has registered for it and is not
    disconnected. This may fail for the given sockets. -/
structure PresentBut (S : List CallId) (w : World) : Prop where
  exact : ∀ s, s ∉ S → ∀ d, Registered w.connections d s ↔
    ⟨s, .registered d⟩ ∈ w.log ∧ (w.sockets s).disconnected = false
  sound : ∀ d s, Registered w.connections d s → ⟨s, .registered d⟩ ∈ w.log
  nonempty : ∀ d, w.connections d ≠ some []
  connected : ∀ d s, ⟨s, .registered d⟩ ∈ w.log → (w.sockets s).connected = true
  handled : ∀ s, (w.sockets s).handled = true → (w.sockets s).disconnected = true

/-- None of the sockets is registered. -/
def Unregistered (S : List CallId) (w : World) : Prop :=
  ∀ s ∈ S, ∀ d, ¬ Registered w.connections d s

/-- Between turns the register is exact, and a socket that was let in has been
    let in for good. -/
def presenceTurns : Turns World where
  rest := PresentBut []
  rel := fun w w' => ∀ s, (w.sockets s).connected = true → (w'.sockets s).connected = true
  refl := fun _ _ h => h
  trans := fun _ _ _ h h' s hs => h' s (h s hs)

variable {crypto : Crypto} {calls : CallId → Call} {fleet : List Device} {c : CallId}

/-! ## One operation -/

/-- A socket that was let in stays so, with any operation. -/
theorem exec_connected {env : Env} {o : Op} {w w' : World} {r : Resp o}
    (h : exec crypto c env o w = some (r, w')) : presenceTurns.rel w w' := by
  rcases exec_records h with ⟨ev, hrec⟩
  exact fun s => (hrec.sockets s).connected

/-- A quiet entry registers no socket. -/
theorem Event.IsQuiet.mem_iff {ev : Event} (h : ev.IsQuiet) {s : CallId} {d : Uuid}
    {l : List Entry} : ⟨s, .registered d⟩ ∈ (⟨c, ev⟩ :: l : List Entry) ↔
      ⟨s, .registered d⟩ ∈ l := by
  rw [List.mem_cons]
  refine or_iff_right (fun heq => ?_)
  rw [← (Entry.mk.inj heq).2] at h
  exact h

/-- A quiet operation leaves the register exact. -/
theorem PresentBut.quiet {S : List CallId} {o : Op} {ev : Event} {w w' : World}
    (h : PresentBut S w) (hrec : Records c o ev w w') (ho : o.IsQuiet) : PresentBut S w' := by
  -- A quiet operation notes nothing about registrations, and closes no socket.
  have hev := hrec.quiet ho
  have hconnections : w'.connections = w.connections := by
    rw [hrec.connections, hev.connections]
  have hlog : ∀ s d, ⟨s, .registered d⟩ ∈ w'.log ↔ ⟨s, .registered d⟩ ∈ w.log := by
    intro s d
    rw [hrec.log]
    exact hev.mem_iff
  have hopen : ∀ s, (w'.sockets s).disconnected = (w.sockets s).disconnected := by
    intro s
    rw [Bool.eq_iff_iff, (hrec.sockets s).disconnected, hev.closes]
    simp only [reduceCtorEq, false_or]
  refine ⟨fun s hs d => ?_, fun d s hreg => ?_, fun d => ?_, fun d s hmem => ?_, fun s hs => ?_⟩
  · rw [hconnections, hlog, hopen]
    exact h.exact s hs d
  · rw [hconnections] at hreg
    exact (hlog s d).mpr (h.sound d s hreg)
  · rw [hconnections]
    exact h.nonempty d
  · exact (hrec.sockets s).connected (h.connected d s ((hlog s d).mp hmem))
  · rcases (hrec.sockets s).handled hs with hs | hs
    · rw [hopen]
      exact h.handled s hs
    · exact hs

/-- The socket is closed: it is still to be taken out of the register. -/
theorem PresentBut.close {S : List CallId} {w : World} {s : CallId} {now : Bool} {o : Op}
    (h : PresentBut S w) (ho : o.closes = some s) :
    PresentBut (s :: S) ((closeSocket w s now).2.record c (.ran o)) ∧
      (((closeSocket w s now).2.record c (.ran o)).sockets s).disconnected = true := by
  have hmoves : ∀ x, (w.sockets x).Moves x (.ran o)
      (((closeSocket w s now).2.record c (.ran o)).sockets x) := fun x => closeSocket_moves ho
  have hlog : ∀ x d, ⟨x, .registered d⟩ ∈ ((closeSocket w s now).2.record c (.ran o)).log ↔
      ⟨x, .registered d⟩ ∈ w.log := by
    intro x d
    refine List.mem_cons.trans (or_iff_right (fun heq => ?_))
    simp only [Entry.mk.injEq, reduceCtorEq, and_false] at heq
  refine ⟨⟨fun x hx d => ?_, fun d x hreg => (hlog x d).mpr (h.sound d x hreg), h.nonempty,
    fun d x hmem => (hmoves x).connected (h.connected d x ((hlog x d).mp hmem)), fun x hx => ?_⟩,
    (hmoves s).disconnected.mpr (.inl ho)⟩
  -- Only the one socket is closed, and that one is excepted from here on.
  · rw [List.mem_cons, not_or] at hx
    have hsame : (((closeSocket w s now).2.record c (.ran o)).sockets x).disconnected =
        (w.sockets x).disconnected := by
      rw [Bool.eq_iff_iff, (hmoves x).disconnected]
      refine or_iff_right (fun hc => hx.1 ?_)
      exact (Option.some.inj (ho.symm.trans hc)).symm
    rw [hlog, hsame]
    exact h.exact x hx.2 d
  · rcases (hmoves x).handled hx with hx | hx
    · exact (hmoves x).disconnected.mpr (.inr (h.handled x hx))
    · exact hx

/-- More exceptions are allowed. -/
theorem PresentBut.mono {S S' : List CallId} {w : World} (h : PresentBut S w)
    (hS : ∀ s ∈ S, s ∈ S') : PresentBut S' w :=
  ⟨fun s hs => h.exact s (fun hc => hs (hS s hc)), h.sound, h.nonempty, h.connected, h.handled⟩

/-- A socket that is closed and not registered is dealt with. -/
theorem PresentBut.settle {S : List CallId} {w : World} {s : CallId} (h : PresentBut (s :: S) w)
    (hclosed : (w.sockets s).disconnected = true) (hfree : ∀ d, ¬ Registered w.connections d s) :
    PresentBut S w := by
  refine ⟨fun x hx d => ?_, h.sound, h.nonempty, h.connected, h.handled⟩
  by_cases hs : x = s
  · subst hs
    rw [hclosed]
    exact iff_of_false (hfree d) (fun hc => Bool.true_eq_false.mp hc.2)
  · exact h.exact x (List.not_mem_cons_of_ne_of_not_mem hs hx) d

/-! ## The register -/

section Register

variable {connections : Connections} {d d' : Uuid} {s : CallId}

/-- To register a socket leaves no device with an empty list. -/
theorem register_nonempty (h : connections d' ≠ some []) :
    DevicePresenceService.register connections d s d' ≠ some [] := by
  by_cases hd : d' = d
  · subst hd
    simp only [DevicePresenceService.register]
    cases hsockets : connections d' with
    | none =>
        simp only [Function.update_self, ne_eq, Option.some.injEq, List.cons_ne_self,
          not_false_eq_true]
    | some sockets =>
        simp only [Function.update_self, ne_eq, Option.some.injEq]
        -- A set that was there stays as it is or grows.
        split
        · exact fun hnil => h (by rw [hsockets, hnil])
        · simp only [List.append_eq_nil_iff, List.cons_ne_self, and_false, not_false_eq_true]
  · simp only [DevicePresenceService.register]
    cases connections d with
    | none =>
        simp only [Function.update_of_ne hd]
        exact h
    | some sockets =>
        simp only [Function.update_of_ne hd]
        exact h

/-- Nor does it to take one out. -/
theorem unregister_nonempty (h : connections d' ≠ some []) :
    (DevicePresenceService.unregister connections d s).2 d' ≠ some [] := by
  simp only [DevicePresenceService.unregister]
  cases connections d with
  | none => exact h
  | some sockets =>
      by_cases hd : d' = d
      · subst hd
        simp only
        split
        -- The set is removed with its last socket.
        · simp only [Function.update_self, ne_eq, reduceCtorEq, not_false_eq_true]
        · rename_i hrest
          simp only [Function.update_self, ne_eq, Option.some.injEq]
          exact fun hnil => hrest (List.isEmpty_iff.mpr hnil)
      · simp only
        split
        · simp only [Function.update_of_ne hd]
          exact h
        · simp only [Function.update_of_ne hd]
          exact h

/-- Nor to take all of them. -/
theorem take_nonempty (h : connections d' ≠ some []) :
    (DevicePresenceService.take connections d).2 d' ≠ some [] := by
  simp only [DevicePresenceService.take]
  cases connections d with
  | none => exact h
  | some sockets =>
      by_cases hd : d' = d
      · subst hd
        simp only [Function.update_self, ne_eq, reduceCtorEq, not_false_eq_true]
      · simp only [Function.update_of_ne hd]
        exact h

/-- The sockets that are taken are those of the device. -/
theorem mem_take : s ∈ (DevicePresenceService.take connections d).1 ↔
    Registered connections d s := by
  simp only [DevicePresenceService.take, Registered]
  cases connections d with
  | none => simp only [List.not_mem_nil, reduceCtorEq, false_and, exists_false]
  | some sockets => simp only [Option.some.injEq, exists_eq_left']

/-- The device goes offline with the socket if it was online and is not
    afterwards. -/
theorem unregister_offline :
    (DevicePresenceService.unregister connections d s).1 = true ↔
      DevicePresenceService.isOnline connections d = true ∧
      DevicePresenceService.isOnline (DevicePresenceService.unregister connections d s).2 d =
        false := by
  simp only [DevicePresenceService.unregister, DevicePresenceService.isOnline]
  cases hsockets : connections d with
  | none => simp only [Bool.false_eq_true, Option.isSome_none, false_and]
  | some sockets =>
      simp only [Option.isSome_some, true_and]
      split
      · simp only [Function.update_self, Option.isSome_none]
      · simp only [Function.update_self, Option.isSome_some, Bool.false_eq_true, Bool.true_eq_false]

end Register

/-- A socket is registered for the device of its identity only. -/
theorem PresentBut.device {S : List CallId} {w : World} (h : PresentBut S w)
    (hi : Inv crypto calls fleet w) {d : Uuid} {s : CallId} (hreg : Registered w.connections d s) :
    ∃ context, (w.sockets s).device = some context ∧ context.deviceId = d := by
  rw [hi.contexts s]
  exact (registered_context hi.history (h.sound d s hreg)).2

/-- A closed socket is taken out of the register of its device. -/
theorem PresentBut.unregister {S : List CallId} {w : World} {s : CallId}
    {context : DeviceSocketContext} (h : PresentBut (s :: S) w) (hi : Inv crypto calls fleet w)
    (hclosed : (w.sockets s).disconnected = true)
    (hcontext : (w.sockets s).device = some context) :
    PresentBut S ({ w with
      connections := (DevicePresenceService.unregister w.connections context.deviceId s).2 }.record
        c (.unregistered context.deviceId s)) := by
  have hlog : ∀ x d, ⟨x, .registered d⟩ ∈
      (⟨c, .unregistered context.deviceId s⟩ :: w.log : List Entry) ↔
        ⟨x, .registered d⟩ ∈ w.log := by
    intro x d
    refine List.mem_cons.trans (or_iff_right (fun heq => ?_))
    simp only [Entry.mk.injEq, reduceCtorEq, and_false] at heq
  refine PresentBut.settle (s := s) ⟨fun x hx d => ?_, fun d x hreg => ?_,
    fun d => unregister_nonempty (h.nonempty d),
    fun d x hmem => h.connected d x ((hlog x d).mp hmem), h.handled⟩ hclosed (fun d hreg => ?_)
  · rw [List.mem_cons, not_or] at hx
    refine registered_unregister.trans ((and_iff_left (fun hc => hx.1 hc.2)).trans ?_)
    refine (h.exact x (List.not_mem_cons_of_ne_of_not_mem hx.1 hx.2) d).trans ?_
    exact and_congr_left (fun _ => (hlog x d).symm)
  · exact (hlog x d).mpr (h.sound d x (registered_unregister.mp hreg).1)
  -- The socket is registered for one device at most, the one of its token.
  · rcases registered_unregister.mp hreg with ⟨hbefore, hother⟩
    rcases h.device hi hbefore with ⟨context', hcontext', hd⟩
    rw [hcontext, Option.some.injEq] at hcontext'
    exact hother ⟨by rw [← hd, hcontext'], rfl⟩

/-- The sockets of a device are taken out: they are still to be closed. -/
theorem PresentBut.take {w : World} (h : PresentBut [] w) (hi : Inv crypto calls fleet w)
    (d : Uuid) :
    PresentBut (DevicePresenceService.take w.connections d).1 ({ w with
      connections := (DevicePresenceService.take w.connections d).2 }.record c (.closed d)) ∧
    Unregistered (DevicePresenceService.take w.connections d).1 ({ w with
      connections := (DevicePresenceService.take w.connections d).2 }.record c (.closed d)) := by
  have hlog : ∀ x d', ⟨x, .registered d'⟩ ∈ (⟨c, .closed d⟩ :: w.log : List Entry) ↔
      ⟨x, .registered d'⟩ ∈ w.log := by
    intro x d'
    refine List.mem_cons.trans (or_iff_right (fun heq => ?_))
    simp only [Entry.mk.injEq, reduceCtorEq, and_false] at heq
  refine ⟨⟨fun x hx d' => ?_, fun d' x hreg => ?_, fun d' => take_nonempty (h.nonempty d'),
    fun d' x hmem => h.connected d' x ((hlog x d').mp hmem), h.handled⟩, fun x hx d' hreg => ?_⟩
  · have hnot : Registered w.connections d' x → d' ≠ d := by
      rintro hreg rfl
      exact hx (mem_take.mpr hreg)
    refine registered_take.trans ((and_iff_left_of_imp hnot).trans ?_)
    refine (h.exact x List.not_mem_nil d').trans (and_congr_left (fun _ => (hlog x d').symm))
  · exact (hlog x d').mpr (h.sound d' x (registered_take.mp hreg).1)
  · -- It was registered for this device, so it was not for another.
    rcases registered_take.mp hreg with ⟨hother, hne⟩
    rcases h.device hi (mem_take.mp hx) with ⟨context, hcontext, hd⟩
    rcases h.device hi hother with ⟨context', hcontext', hd'⟩
    rw [hcontext, Option.some.injEq] at hcontext'
    exact hne (by rw [← hd', ← hd, hcontext'])

/-- The socket of the call is registered. If it is closed already, it is still
    to be taken out. -/
theorem PresentBut.register {w : World} (h : PresentBut [] w) {d : Uuid}
    (hconnected : (w.sockets c).connected = true) :
    PresentBut [c] ({ w with
      connections := DevicePresenceService.register w.connections d c }.record c
        (.registered d)) ∧
    ((w.sockets c).disconnected = false → PresentBut [] ({ w with
      connections := DevicePresenceService.register w.connections d c }.record c
        (.registered d))) := by
  have hlog : ∀ x d', ⟨x, .registered d'⟩ ∈ (⟨c, .registered d⟩ :: w.log : List Entry) ↔
      (d' = d ∧ x = c) ∨ ⟨x, .registered d'⟩ ∈ w.log := by
    intro x d'
    simp only [List.mem_cons, Entry.mk.injEq, Event.registered.injEq, and_comm]
  -- Unless it was closed in the meantime, the new socket needs no exception either.
  have hexact : ∀ x, (x = c → (w.sockets c).disconnected = false) → ∀ d',
      Registered (DevicePresenceService.register w.connections d c) d' x ↔
        ⟨x, .registered d'⟩ ∈ (⟨c, .registered d⟩ :: w.log : List Entry) ∧
          (w.sockets x).disconnected = false := by
    intro x hx d'
    rw [registered_register, hlog, h.exact x List.not_mem_nil d', or_and_right]
    refine or_congr_left (iff_self_and.mpr ?_)
    rintro ⟨_, rfl⟩
    exact hx rfl
  have hrest : ∀ d' x, Registered (DevicePresenceService.register w.connections d c) d' x →
      ⟨x, .registered d'⟩ ∈ (⟨c, .registered d⟩ :: w.log : List Entry) := by
    intro d' x hreg
    exact (hlog x d').mpr ((registered_register.mp hreg).imp_right (h.sound d' x))
  have hin : ∀ d' x, ⟨x, .registered d'⟩ ∈ (⟨c, .registered d⟩ :: w.log : List Entry) →
      (w.sockets x).connected = true := by
    intro d' x hmem
    rcases (hlog x d').mp hmem with ⟨_, rfl⟩ | hmem
    · exact hconnected
    · exact h.connected d' x hmem
  refine ⟨⟨fun x hx => hexact x (fun hc => ?_), hrest, fun d' => register_nonempty (h.nonempty d'),
    hin, h.handled⟩, fun hopen => ⟨fun x _ => hexact x (fun _ => hopen), hrest,
    fun d' => register_nonempty (h.nonempty d'), hin, h.handled⟩⟩
  exact absurd (List.mem_singleton.mpr hc) hx

/-! ## The programs that change the register -/

section Programs

variable {E : HttpException → World → Prop}

/-- The socket is closed and still to be taken out, as are the others, which
    are not registered. -/
structure Leaving (s : CallId) (S : List CallId) (w : World) : Prop where
  present : PresentBut (s :: S) w
  closed : (w.sockets s).disconnected = true
  others : Unregistered S w

/-- The gateway is told that a socket has gone, which is then taken out. The
    others that are to be dealt with are left as they are. -/
theorem handleDisconnect_rests (s : CallId) (S : List CallId) :
    Turns.Triple (deviceRules crypto calls fleet) presenceTurns (exec crypto c) (Leaving s S)
      (DevicesGateway.handleDisconnect s) (fun _ w => PresentBut S w ∧ Unregistered S w) E := by
  refine .op (fun context w => context = (w.sockets s).device ∧ Leaving s S w)
    (fun w _ h env r w' hx _ _ => ?_) (fun context => ?_)
  · rcases exec_records hx with ⟨ev, hrec⟩
    have hpresent := h.present.quiet hrec trivial
    cases hx
    exact ⟨rfl, hpresent, h.closed, h.others⟩
  cases context with
  | none =>
      -- A socket without a device was never registered.
      rintro w hi ⟨hcontext, h⟩
      refine ⟨h.present.settle h.closed (fun d hreg => ?_), h.others⟩
      rcases h.present.device hi hreg with ⟨context, hsome, _⟩
      rw [← hcontext] at hsome
      simp only [reduceCtorEq] at hsome
  | some context =>
      -- It is taken out of the register of its device.
      refine .op (fun _ w => PresentBut S w ∧ Unregistered S w) (fun w hi h env r w' hx _ _ => ?_)
        (fun _ _ _ h => h)
      rcases h with ⟨hcontext, h⟩
      cases hx
      exact ⟨h.present.unregister hi h.closed hcontext.symm,
        fun x hx d hreg => h.others x hx d (registered_unregister.mp hreg).1⟩

/-- A socket is disconnected. It has been taken out already. -/
theorem disconnectSocket_rests (s : CallId) (S : List CallId) :
    Turns.Triple (deviceRules crypto calls fleet) presenceTurns (exec crypto c)
      (fun w => PresentBut (s :: S) w ∧ Unregistered (s :: S) w) (disconnectSocket s)
      (fun _ w => PresentBut S w ∧ Unregistered S w) E := by
  refine .op (fun _ w => Leaving s S w ∧ ∀ d, ¬ Registered w.connections d s)
    (fun w _ h env r w' hx _ _ => ?_) (fun fires => ?_)
  · rcases h with ⟨hpresent, hfree⟩
    cases hx
    rcases PresentBut.close (o := .disconnect s) hpresent rfl with
      ⟨hpresent', hclosed⟩
    exact ⟨⟨hpresent'.mono
      (fun x hx => (List.mem_cons.mp hx).elim (fun hc => hc ▸ List.mem_cons_self)
      (fun hc => hc)), hclosed, fun x hx => hfree x (List.mem_cons_of_mem _ hx)⟩,
      hfree s List.mem_cons_self⟩
  · rintro w hi ⟨h, hfree⟩
    -- A socket that was connected leaves through its handler, any other was not registered.
    cases fires with
    | true => exact handleDisconnect_rests s S w hi h
    | false => exact ⟨h.present.settle h.closed hfree, h.others⟩

/-- The sockets are closed one after the other. -/
theorem disconnectEach_rests (S : List CallId) :
    Turns.Triple (deviceRules crypto calls fleet) presenceTurns (exec crypto c)
      (fun w => PresentBut S w ∧ Unregistered S w) (DevicePresenceService.disconnectEach S)
      (fun _ => PresentBut []) E := by
  induction S with
  | nil => exact fun w _ h => h.1
  | cons s S ih => exact (disconnectSocket_rests s S).bind (fun _ => ih)

/-- All sockets of a device are closed. They are taken out first, and then are the
    exceptions until each of them is closed. -/
theorem disconnectDevice_rests (d : Uuid) :
    Turns.Triple (deviceRules crypto calls fleet) presenceTurns (exec crypto c) (PresentBut [])
      (DevicePresenceService.disconnectDevice d) (fun _ => PresentBut []) E := by
  refine .op (fun sockets w => PresentBut sockets w ∧ Unregistered sockets w)
    (fun w hi h env r w' hx _ _ => ?_) (fun sockets => ?_)
  · cases hx
    exact h.take hi d
  · exact (disconnectEach_rests sockets).bind (fun _ _ _ h => h)

/-- The gateway is told that a connection is over. -/
theorem onDisconnect_rests (client : CallId) :
    Turns.Triple (deviceRules crypto calls fleet) presenceTurns (exec crypto c) (PresentBut [])
      (DevicesGateway.onDisconnect client) (fun _ => PresentBut []) E := by
  refine .op (fun fires w => Leaving client [] w ∧
    ((fires : Bool) = false → ∀ d, ¬ Registered w.connections d client))
    (fun w _ h env r w' hx _ _ => ?_) (fun fires => ?_)
  · cases hx
    rcases PresentBut.close (c := c) (o := .transportClosed client) h rfl with
      ⟨hpresent, hclosed⟩
    refine ⟨⟨hpresent, hclosed, fun x hx => absurd hx List.not_mem_nil⟩, fun hfires d hreg => ?_⟩
    -- A registered socket was let in, and the gateway has not been told of its end.
    rcases (h.exact client List.not_mem_nil d).mp hreg with ⟨hmem, hopen⟩
    have hconnected := h.connected d client hmem
    have hhandled : (true && ((w.sockets client).connected && !(w.sockets client).handled)) =
      false := hfires
    rw [hconnected, Bool.true_and, Bool.true_and, Bool.not_eq_eq_eq_not, Bool.not_false]
      at hhandled
    rw [h.handled client hhandled] at hopen
    simp only [Bool.true_eq_false] at hopen
  · rintro w hi ⟨h, hfree⟩
    cases fires with
    | true =>
        exact (handleDisconnect_rests client [] w hi h).conseq (fun _ _ h => h.1) (fun _ _ h => h)
    | false => exact h.present.settle h.closed (hfree rfl)

/-! ## The programs that do not -/

/-- A quiet statement. -/
theorem uses_statement {o : Op} (ho : o.IsQuiet) : (statement o).Uses Op.IsQuiet :=
  ⟨ho, fun _ => trivial⟩

/-- A quiet question to the environment. -/
theorem uses_ask {o : Op} (ho : o.IsQuiet) : (ask o).Uses Op.IsQuiet := ⟨ho, fun _ => trivial⟩

/-- To fail for a missing value is quiet. -/
theorem uses_orFail {α : Type} (found : Option α) (e : HttpException) :
    (orFail found e).Uses Op.IsQuiet := by
  cases found <;> trivial

/-- A transaction is quiet if its body is. -/
theorem uses_transaction {α : Type} {body : Service α} (h : body.Uses Op.IsQuiet) :
    (transaction body).Uses Op.IsQuiet := by
  have hbegin : (statement .begin).Uses Op.IsQuiet := uses_statement trivial
  have hcommit : (statement .commit).Uses Op.IsQuiet := uses_statement trivial
  have hrollback : (statement .rollback).Uses Op.IsQuiet := uses_statement trivial
  refine hbegin.bind (fun _ => .bind (h.onError (fun e => ?_)) (fun _ => ?_))
  · exact hrollback.bind (fun _ => trivial)
  · exact hcommit.bind (fun _ => trivial)

/-- A loop over the rows of a statement. -/
theorem uses_each {α : Type} {each : List α → Service Unit} (hnil : (each []).Uses Op.IsQuiet)
    (hcons : ∀ a as, (each as).Uses Op.IsQuiet → (each (a :: as)).Uses Op.IsQuiet) :
    ∀ as, (each as).Uses Op.IsQuiet := by
  intro as
  induction as with
  | nil => exact hnil
  | cons a as ih => exact hcons a as ih

/-- No code touches the register. -/
theorem createEnrollmentCode_quiet (deviceId : Uuid) :
    (DeviceEnrollmentService.createEnrollmentCode deviceId).Uses Op.IsQuiet := by
  have hrevoke : ∀ id now ids, (DeviceEnrollmentService.revokeEach id now ids).Uses Op.IsQuiet :=
    fun id now => uses_each trivial (fun _ _ h => .bind (uses_statement (by trivial)) (fun _ => h))
  refine .bind (.bind (uses_statement (by trivial)) (fun _ => uses_orFail _ _)) (fun device => ?_)
  split
  · trivial
  · refine .bind (.bind (uses_ask (by trivial)) (fun _ => trivial)) (fun code => ?_)
    refine .bind (uses_ask (by trivial)) (fun now => ?_)
    refine .bind (uses_statement (by trivial)) (fun codeHash => ?_)
    refine .bind (uses_transaction ?_) (fun _ => trivial)
    refine .bind (.bind (uses_statement (by trivial)) (fun _ => hrevoke _ _ _)) (fun _ => ?_)
    exact uses_statement (by trivial)

/-- Nor does a credential. -/
theorem issueCredential_quiet (deviceId : Uuid) (now : Timestamp) :
    (DeviceCredentialsService.issueCredential crypto deviceId now).Uses Op.IsQuiet := by
  have hrevoke : ∀ ids, (DeviceCredentialsService.revokeEach deviceId now ids).Uses Op.IsQuiet :=
    uses_each trivial (fun _ _ h => .bind (uses_statement (by trivial)) (fun _ => h))
  refine .bind (.bind (uses_statement (by trivial)) hrevoke) (fun _ => ?_)
  refine .bind (uses_ask (by trivial)) (fun deviceSecret => ?_)
  refine .bind (uses_statement (by trivial)) (fun saved => ?_)
  cases saved <;> trivial

/-- Nor the information about a device. -/
theorem updateTechnicalInfo_quiet (deviceId : Uuid) (technicalInfo : DevicePatch) :
    (DeviceEnrollmentService.updateTechnicalInfo deviceId technicalInfo).Uses Op.IsQuiet := by
  unfold DeviceEnrollmentService.updateTechnicalInfo
  split
  · trivial
  · refine .bind (uses_statement (by trivial)) (fun saved => ?_)
    cases saved <;> trivial

/-- Nor the use of a code. -/
theorem consume_quiet (dto : ActivateDeviceDto) (device : Device) (now : Timestamp)
    (enrollment : DeviceEnrollment) :
    (DeviceEnrollmentService.consume crypto dto device now enrollment).Uses Op.IsQuiet := by
  refine .bind (uses_statement (by trivial)) (fun consumed => ?_)
  split
  · trivial
  · refine .bind (updateTechnicalInfo_quiet _ _) (fun _ => ?_)
    exact .bind (issueCredential_quiet _ _) (fun _ => trivial)

/-- Nor the search for it. -/
theorem findMatching_quiet (code : String) (pending : List DeviceEnrollment) :
    (DeviceEnrollmentService.findMatching code pending).Uses Op.IsQuiet := by
  induction pending with
  | nil => trivial
  | cons candidate rest ih =>
      refine .bind (uses_statement (by trivial)) (fun matched => ?_)
      split
      · trivial
      · exact ih

/-- Nor the locks. -/
theorem findPendingEnrollments_quiet (deviceId : Uuid) (now : Timestamp) :
    (DeviceEnrollmentService.findPendingEnrollments deviceId now).Uses Op.IsQuiet := by
  refine .bind (uses_statement (by trivial)) (fun ids => ?_)
  induction ids with
  | nil => trivial
  | cons id ids ih =>
      exact .bind (uses_statement (by trivial)) (fun _ => .bind ih (fun _ => trivial))

/-- So the transaction of an activation is quiet. -/
theorem runActivation_quiet (dto : ActivateDeviceDto) :
    (DeviceEnrollmentService.runActivation crypto dto).Uses Op.IsQuiet := by
  -- The branches that fail, before the one that activates.
  have hburn : (DeviceEnrollmentService.burnVerificationTime dto.code).Uses Op.IsQuiet :=
    .bind (uses_statement (by trivial)) (fun _ =>
      .bind (uses_statement (by trivial)) (fun _ => trivial))
  have hfailed : ∀ now pending,
      (DeviceEnrollmentService.registerFailedAttempts now pending).Uses Op.IsQuiet :=
    fun now => uses_each trivial (fun _ _ h => .bind (uses_statement (by trivial)) (fun _ => h))
  refine .bind (uses_ask (by trivial)) (fun now => ?_)
  refine .bind (uses_statement (by trivial)) (fun device => ?_)
  split
  · exact .bind hburn (fun _ => trivial)
  · refine .bind (findPendingEnrollments_quiet _ _) (fun pending => ?_)
    unfold DeviceEnrollmentService.tryCode
    split
    · exact .bind hburn (fun _ => trivial)
    · refine .bind (findMatching_quiet _ _) (fun enrollment => ?_)
      cases enrollment with
      | none => exact .bind (hfailed _ _) (fun _ => trivial)
      | some enrollment => exact consume_quiet _ _ _ _

/-- An update is quiet until it closes the sockets of the device. -/
theorem save_quiet (device : PreloadedDevice) :
    (DevicesService.save device).Uses Op.IsQuiet := by
  refine .bind (uses_statement (by trivial)) (fun row => ?_)
  cases row with
  | none => trivial
  | some row =>
      refine (?_ : (DevicesService.saveChanges device (device.diff row)).Uses Op.IsQuiet)
      unfold DevicesService.saveChanges
      split
      · trivial
      · refine uses_transaction (.bind (uses_statement (by trivial)) (fun saved => ?_))
        cases saved <;> trivial

/-- A login is quiet. -/
theorem login_quiet (dto : DeviceLoginDto) :
    (DeviceAuthService.login crypto dto).Uses Op.IsQuiet := by
  refine .bind (uses_statement (by trivial)) (fun device => ?_)
  split
  · trivial
  · refine .bind (uses_statement (by trivial)) (fun credential => ?_)
    -- Nothing here but statements and questions to the environment.
    cases credential with
    | none => trivial
    | some credential =>
        refine (?_ : (DeviceAuthService.loginWith crypto dto _ credential).Uses Op.IsQuiet)
        unfold DeviceAuthService.loginWith
        split
        · trivial
        · refine .bind (uses_ask (by trivial)) (fun now => ?_)
          refine .bind (uses_statement (by trivial)) (fun _ => ?_)
          exact .bind (uses_ask (by trivial)) (fun _ => trivial)

/-- So are the checks of a token. -/
theorem authorizePayload_quiet (payload : DeviceJwtPayload) :
    (DeviceAuthService.authorizePayload payload).Uses Op.IsQuiet := by
  unfold DeviceAuthService.authorizePayload
  split
  · trivial
  · refine .bind (uses_statement (by trivial)) (fun device => ?_)
    refine .bind (uses_orFail _ _) (fun device => ?_)
    split
    · trivial
    · refine .bind (uses_statement (by trivial)) (fun credential => ?_)
      split <;> trivial

/-- A bearer token in a request. -/
theorem authenticate_quiet (token : String) :
    (DeviceJwtStrategy.authenticate token).Uses Op.IsQuiet := by
  refine .bind (uses_statement (by trivial)) (fun payload => ?_)
  refine .bind (uses_orFail _ _) (fun payload => ?_)
  exact .bind (authorizePayload_quiet _) (fun _ => trivial)

/-- A token in a handshake. -/
theorem handshake_quiet (token : Option String) :
    (DevicesGateway.authenticate token).Uses Op.IsQuiet := by
  refine .bind (uses_orFail _ _) (fun token => ?_)
  refine .bind (.bind (uses_statement (by trivial)) (fun payload => ?_)) (fun _ => ?_)
  · exact .bind (uses_orFail _ _) (fun payload => authorizePayload_quiet payload)
  · exact uses_ask (by trivial)

/-- A program that does not touch the register leaves it exact. -/
theorem Quiet.rests {α : Type} {p : Service α} (h : p.Uses Op.IsQuiet) :
    Turns.Triple (deviceRules crypto calls fleet) presenceTurns (exec crypto c) (PresentBut []) p
      (fun _ => PresentBut []) (fun _ => PresentBut []) := by
  refine (Turns.Triple.uses (K := fun _ => True) h (fun env o w r w' ho _ hx hw => ?_)
    (fun _ _ hK _ => hK)).conseq (fun _ hw => ⟨hw, trivial⟩) (fun _ _ hw => hw.1)
    (fun _ _ hw => hw.1)
  rcases exec_records hx with ⟨ev, hrec⟩
  exact hw.quiet hrec ho

/-! ## The calls -/

/-- A connection that was let in. It registers its socket, and looks then whether
    the socket is still there. -/
theorem handleConnection_rests :
    Turns.Triple (deviceRules crypto calls fleet) presenceTurns (exec crypto c)
      (fun w => PresentBut [] w ∧ (w.sockets c).connected = true)
      (DevicesGateway.handleConnection c) (fun _ => PresentBut []) E := by
  refine .op (fun context w => context = (w.sockets c).device ∧ PresentBut [] w ∧
    (w.sockets c).connected = true) (fun w _ h env r w' hx _ _ => ?_) (fun context => ?_)
  · rcases exec_records hx with ⟨ev, hrec⟩
    have hpresent := h.1.quiet hrec trivial
    cases hx
    exact ⟨rfl, hpresent, h.2⟩
  cases context with
  | none =>
      rintro w hi ⟨hcontext, h, _⟩
      -- A socket without an identity is disconnected, and was not registered.
      refine (disconnectSocket_rests c [] w hi ⟨h.mono (fun s hs => absurd hs List.not_mem_nil),
        fun s hs d hreg => ?_⟩).conseq (fun _ _ h => h.1) (fun _ _ h => h)
      rcases h.device hi hreg with ⟨context, hsome, _⟩
      rw [List.mem_singleton.mp hs, ← hcontext] at hsome
      simp only [reduceCtorEq] at hsome
  | some context =>
      -- The socket may be closed while it waits for the join of its room.
      refine .await (K := fun w => (w.sockets c).connected = true) (fun _ _ h => h.2.1)
        (fun w w' h hrel => hrel c h.2.2) ?_
      -- It is registered, and may be an exception if it has closed in the meantime.
      refine .op (fun _ w => ⟨c, .registered context.deviceId⟩ ∈ w.log ∧ PresentBut [c] w ∧
        ((w.sockets c).disconnected = false → PresentBut [] w)) (fun w _ h env r w' hx _ _ => ?_)
        (fun _ => ?_)
      · cases hx
        exact ⟨List.mem_cons_self, h.1.register h.2⟩
      refine .op (fun disconnected w => ⟨c, .registered context.deviceId⟩ ∈ w.log ∧
        (disconnected : Bool) = (w.sockets c).disconnected ∧ PresentBut [c] w ∧
        ((w.sockets c).disconnected = false → PresentBut [] w)) (fun w _ h env r w' hx _ _ => ?_)
        (fun disconnected => ?_)
      · rcases h with ⟨hreg, h, hopen⟩
        rcases exec_records hx with ⟨ev, hrec⟩
        have hpresent := h.quiet hrec trivial
        have hopen' := fun hc => (hopen hc).quiet hrec trivial
        cases hx
        exact ⟨List.mem_cons_of_mem _ hreg, rfl, hpresent, hopen'⟩
      cases disconnected with
      | true =>
          -- It has closed: it is taken out, and there is no exception left.
          refine .op (fun _ => PresentBut []) (fun w hi h env r w' hx _ _ => ?_)
            (fun _ _ _ h => h)
          rcases h with ⟨hreg, hclosed, h, _⟩
          rcases (registered_context hi.history hreg).2 with ⟨context', hcontext', hd⟩
          rw [← hi.contexts] at hcontext'
          cases hx
          rw [← hd]
          exact h.unregister hi hclosed.symm hcontext'
      | false =>
          -- It has not: then it was none.
          refine .op (fun _ => PresentBut []) (fun w hi h env r w' hx _ _ => ?_)
            (fun _ _ _ h => h)
          rcases exec_records hx with ⟨ev, hrec⟩
          exact (h.2.2.2 h.2.1.symm).quiet hrec trivial

/-- A handshake, and the connection it ends in. -/
theorem connect_rests (token : Option String) :
    Turns.Triple (deviceRules crypto calls fleet) presenceTurns (exec crypto c) (PresentBut [])
      (DevicesGateway.connect c token) (fun _ => PresentBut []) E := by
  have haccept : Turns.Triple (deviceRules crypto calls fleet) presenceTurns (exec crypto c)
      (PresentBut []) ((do
        DevicesGateway.authenticate token
        return true : Service Bool).onError (fun _ => .ret false))
      (fun _ => PresentBut []) E :=
    .onError (Quiet.rests (.bind (handshake_quiet token) (fun _ => trivial))) (fun _ _ _ h => h)
  refine haccept.bind (fun accepted => ?_)
  -- While the handshake is awaited the socket can be closed under it.
  refine .await (K := fun _ => True) (fun _ _ h => h) (fun _ _ _ _ => trivial) ?_
  cases accepted with
  | false => exact fun w _ h => h.1
  | true =>
      refine .op (fun opened w => PresentBut [] w ∧
        ((opened : Bool) = true → (w.sockets c).connected = true))
        (fun w _ h env r w' hx _ _ => ?_) (fun opened => ?_)
      · rcases exec_records hx with ⟨ev, hrec⟩
        refine ⟨h.1.quiet hrec trivial, fun hopened => ?_⟩
        simp only [exec] at hx
        split at hx
        · cases hx
          exact absurd hopened Bool.false_ne_true
        · cases hx
          simp only [World.record, World.setSocket, Function.update_self]
      · cases opened with
        | false => exact fun w _ h => h.1
        | true =>
            exact handleConnection_rests.conseq (fun _ h => ⟨h.1, h.2 rfl⟩) (fun _ _ h => h)
              (fun _ _ h => h)

/-- An activation closes the sockets of the device when it is committed. -/
theorem activate_rests (dto : ActivateDeviceDto) :
    Turns.Triple (deviceRules crypto calls fleet) presenceTurns (exec crypto c) (PresentBut [])
      (DeviceEnrollmentService.activate crypto dto) (fun _ => PresentBut [])
      (fun _ => PresentBut []) := by
  refine (Quiet.rests (uses_transaction (runActivation_quiet dto))).bind (fun activation => ?_)
  refine (Quiet.rests (uses_orFail activation _)).bind (fun activation => ?_)
  exact (disconnectDevice_rests activation.deviceId).bind (fun _ _ _ h => h)

/-- An update closes them unless the device is active. -/
theorem update_rests (id : Uuid) (dto : DevicePatch) :
    Turns.Triple (deviceRules crypto calls fleet) presenceTurns (exec crypto c) (PresentBut [])
      (DevicesService.update id dto) (fun _ => PresentBut []) (fun _ => PresentBut []) := by
  have hpreload : (DevicesService.preload id dto).Uses Op.IsQuiet :=
    .bind (uses_statement (by trivial)) (fun _ => trivial)
  have hresponse : ∀ device, (DevicesService.toResponse device).Uses Op.IsQuiet :=
    fun device => .bind (uses_ask (by trivial)) (fun _ => trivial)
  refine (Quiet.rests hpreload).bind (fun device => ?_)
  refine (Quiet.rests (uses_orFail device _)).bind (fun device => ?_)
  refine (Quiet.rests (save_quiet device)).bind (fun updated => ?_)
  split
  · exact Quiet.rests (hresponse updated)
  · exact (disconnectDevice_rests id).bind (fun _ => Quiet.rests (hresponse updated))

/-- Every call leaves the register exact, however it ends. -/
theorem handle_rests (call : Call) :
    Turns.Triple (deviceRules crypto calls fleet) presenceTurns (exec crypto c) (PresentBut [])
      (handle crypto c call) (fun _ => PresentBut []) (fun _ => PresentBut []) := by
  cases call with
  | createEnrollmentCode deviceId =>
      exact (Quiet.rests (createEnrollmentCode_quiet deviceId)).bind (fun _ _ _ h => h)
  | activate dto => exact (activate_rests dto).bind (fun _ _ _ h => h)
  | update id dto => exact (update_rests id dto).bind (fun _ _ _ h => h)
  | login dto => exact (Quiet.rests (login_quiet dto)).bind (fun _ _ _ h => h)
  | authorize token => exact (Quiet.rests (authenticate_quiet token)).bind (fun _ _ _ h => h)
  | connect token => exact (connect_rests token).bind (fun _ _ _ h => h)
  | disconnect client => exact (onDisconnect_rests client).bind (fun _ _ _ h => h)

end Programs

/-! ## Every reachable system -/

/-- There is no connection to begin with. -/
theorem init_present (fleet : List Device) : PresentBut [] (World.init fleet) where
  exact := fun s _ d => by
    simp only [Registered, World.init, reduceCtorEq, false_and, exists_false, List.not_mem_nil]
  sound := by
    rintro d s ⟨sockets, hsome, _⟩
    simp only [World.init, reduceCtorEq] at hsome
  nonempty := fun d => by simp only [World.init, ne_eq, reduceCtorEq, not_false_eq_true]
  connected := fun d s hmem => absurd hmem List.not_mem_nil
  handled := fun s hs => absurd hs Bool.false_ne_true

/-- Between turns, the register is exact. -/
theorem Reachable.present {sys : Calls} (h : Reachable crypto calls fleet sys) :
    PresentBut [] sys.shared := by
  have hstart : Turns.Settled (deviceRules crypto calls fleet) presenceTurns (exec crypto)
      (boot crypto calls fleet) :=
    .start (init_present fleet) (fun c => handle_rests (calls c))
  have hrel : ∀ c env o w r w', exec crypto c env o w = some (r, w') → presenceTurns.rel w w' :=
    fun _ _ _ _ _ _ hx => exec_connected hx
  exact (hstart.run hrel (fun _ _ => Done.stable) (fun _ _ => Thrown.stable) boot_sound h).rest

/-- The socket has registered for the device, whose sockets nobody has taken
    out since. -/
def RegisteredSince (l : List Entry) (d : Uuid) (s : CallId) : Prop :=
  ∃ l₂ l₁, l = l₂ ++ ⟨s, .registered d⟩ :: l₁ ∧ ∀ e ∈ l₂, e.event ≠ .closed d

/-- Without empty lists, to be online is to have a socket. -/
theorem online_iff {connections : Connections} {d : Uuid} (h : connections d ≠ some []) :
    DevicePresenceService.isOnline connections d = true ↔
      0 < DevicePresenceService.connectionCount connections d := by
  simp only [DevicePresenceService.isOnline, DevicePresenceService.connectionCount]
  cases hsockets : connections d with
  | none => simp only [Option.isSome_none, Bool.false_eq_true, Option.elim_none, lt_self_iff_false]
  | some sockets =>
      simp only [Option.isSome_some, Option.elim_some, true_iff]
      refine List.length_pos_iff.mpr (fun hnil => h ?_)
      rw [hsockets, hnil]

/-- In every reachable state, the sockets registered for a device are those
    that have registered for it and were neither taken out nor disconnected
    since. No device has an empty list, so it is online if it has a socket. No
    socket of whose end the gateway knows is registered. And whatever is
    registered, `unregister` says whether it took the device offline. -/
theorem presence_exact {sys : Calls} (h : Reachable crypto calls fleet sys) :
    (∀ d s, Registered sys.shared.connections d s ↔
      RegisteredSince sys.shared.log d s ∧ (sys.shared.sockets s).disconnected = false) ∧
    (∀ d, sys.shared.connections d ≠ some []) ∧
    (∀ d, DevicePresenceService.isOnline sys.shared.connections d = true ↔
      0 < DevicePresenceService.connectionCount sys.shared.connections d) ∧
    (∀ s, (sys.shared.sockets s).handled = true → ∀ d, ¬ Registered sys.shared.connections d s) ∧
    (∀ connections d s, (DevicePresenceService.unregister connections d s).1 = true ↔
      DevicePresenceService.isOnline connections d = true ∧
      DevicePresenceService.isOnline (DevicePresenceService.unregister connections d s).2 d =
        false) := by
  have hpresent := h.present
  have hexact := fun d s => hpresent.exact s List.not_mem_nil d
  refine ⟨fun d s => ⟨fun hreg => ⟨?_, ((hexact d s).mp hreg).2⟩, ?_⟩, hpresent.nonempty,
    fun d => online_iff (hpresent.nonempty d), fun s hs d hreg => ?_, fun _ _ _ =>
      unregister_offline⟩
  -- What is registered was added and not taken out since, as the log has it.
  · rw [h.inv.connections] at hreg
    exact registered_since hreg
  · rintro ⟨⟨l₂, l₁, hlog, _⟩, hopen⟩
    refine (hexact d s).mpr ⟨?_, hopen⟩
    rw [hlog]
    exact List.mem_append_right _ List.mem_cons_self
  · have hopen := ((hexact d s).mp hreg).2
    rw [hpresent.handled s hs] at hopen
    exact absurd hopen Bool.true_eq_false.mp

/-- A tablet that connects twice, and loses its first connection. -/
def connectedTwice : CallId → Call
  | 0 => .createEnrollmentCode 7
  | 1 => activation "000123"
  | 2 => .connect (some "first")
  | 3 => .connect (some "first")
  | _ => .disconnect 2

/-- The second connection is the one that is registered. -/
theorem presence_exact_tablet : ∃ sys, Reachable plainCrypto connectedTwice [tablet] sys ∧
    sys.shared.connections 7 = some [3] ∧ RegisteredSince sys.shared.log 7 3 ∧
    (sys.shared.sockets 3).disconnected = false ∧ (sys.shared.sockets 2).handled = true ∧
    ¬ Registered sys.shared.connections 7 2 := by
  have hrun : ((follow (exec plainCrypto) (boot plainCrypto connectedTwice [tablet])
      (turns 0 13 123 50 ++ turns 1 19 0 100 ++ turns 2 9 0 0 ++ turns 3 9 0 0 ++
        turns 4 1 0 0)).any (fun sys => decide (sys.shared.connections 7 = some [3]) &&
          (sys.shared.sockets 2).handled)) = true := by
    decide +kernel
  rcases reachable_of_follow hrun with ⟨sys, hsys, hp⟩
  rw [Bool.and_eq_true, decide_eq_true_eq] at hp
  rcases presence_exact hsys with ⟨hexact, _, _, hhandled, _⟩
  rcases (hexact 7 3).mp ⟨[3], hp.1, List.mem_singleton.mpr rfl⟩ with ⟨hsince, hopen⟩
  exact ⟨sys, hsys, hp.1, hsince, hopen, hp.2, hhandled 2 hp.2 7⟩

end RemoteControl.Devices

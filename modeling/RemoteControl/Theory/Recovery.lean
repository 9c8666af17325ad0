import RemoteControl.Theory.Runs

/-!
# Recovery

An application that has lost track of its assistance asks for what is current:
a tablet for its session and its request, a technician for a session. Each of
the three asks one table, by its own key and its own list of states, and takes
the first row it is given.

The indexes leave each of them one row at most, so the order of the rows does
not matter. That the three rows belong together is the agreement of the two
tables, and it holds in every reachable state.

For each read there is one lemma, an equivalence: the response is the one
shown for a row exactly if that row is stored, live and the asker's. It needs
the indexes, since the read takes the first row of its query and nothing else
says which one that is. With the three equivalences the agreement is a matter
of the rows alone: what the one read has returned gives a row, the consistency
of the tables gives its counterpart, and the equivalence of the other read
returns it.

## Main definitions

* `answer`: What a read returns when it is made in a state.
* `World.showSession`, `World.showRequest`: The responses for a row.

## Theorems

* `session_of_device`, `session_of_technician`, `request_of_device`: What each
  read returns.
* `recovery_agrees`: They agree.
* `exec_findLiveSession`, `exec_findActiveRequest`: The reads, as queries over
  the rows.
-/

namespace RemoteControl

open Concurrency

/-- What a read returns, made in this state and in these surroundings. -/
def answer {α : Type} (throws : CallId → Emitter → Bool) (c : CallId) (env : Env)
    (p : Service α) (w : World) : Option α :=
  (p.runAlone (exec throws c env) w).bind (fun result => result.1.toOption)

/-- The live sessions of an owner, in the order the query gives them. -/
def World.liveSessions (w : World) (owner : Owner) (newestFirst : Bool) : List RemoteSession :=
  let found := w.sessions.scan none (fun s => owner.ofSession s && s.isLive)
  if newestFirst then found.mergeSort (fun s s' => decide (s'.createdAt ≤ s.createdAt)) else found

/-- The active requests of a device. -/
def World.activeRequests (w : World) (deviceId : Uuid) : List SupportRequest :=
  w.requests.scan none (fun r => (Owner.device deviceId).ofRequest r && r.isActive)

/-- A session as it is shown. -/
def World.showSession (w : World) (env : Env) (s : RemoteSession) : RemoteSessionResponseDto :=
  RemoteSessionResponseDto.fromEntity (w.loadSession s) (env.online s.deviceId)

/-- A request as its device is shown it. -/
def World.showRequest (w : World) (r : SupportRequest) : SupportRequestResponseDto :=
  SupportRequestResponseDto.forDevice (w.loadRequest r)

/-! ## Queries that find one row -/

/-- The first of the rows is any of them, if there are no two. -/
theorem head?_eq_some_iff {α : Type} {l : List α} (hone : ∀ a ∈ l, ∀ b ∈ l, a = b) {a : α} :
    l.head? = some a ↔ a ∈ l := by
  cases l with
  | nil => simp only [List.head?_nil, reduceCtorEq, List.not_mem_nil]
  | cons b l =>
      rw [List.head?_cons, Option.some.injEq]
      constructor
      · intro hab
        rw [hab]
        exact List.mem_cons_self
      · intro ha
        exact hone b List.mem_cons_self a ha

variable {calls : CallId → Operation} {throws : CallId → Emitter → Bool} {w : World}

/-- The order makes no difference to which rows are found. -/
theorem mem_liveSessions {owner : Owner} {newestFirst : Bool} {s : RemoteSession} :
    s ∈ w.liveSessions owner newestFirst ↔
      ∃ k, w.tables.sessions k = some s ∧ s.isLive = true ∧ owner.ofSession s = true := by
  have hscan : s ∈ w.sessions.scan none (fun s => owner.ofSession s && s.isLive) ↔
      ∃ k, w.tables.sessions k = some s ∧ s.isLive = true ∧ owner.ofSession s = true := by
    simp only [Table.mem_scan, Table.auto_view, Bool.and_eq_true, World.tables,
      and_comm (a := owner.ofSession s = true)]
  rw [← hscan]
  cases newestFirst with
  | false => exact Iff.rfl
  | true => exact (List.mergeSort_perm _ _).mem_iff

/-- The query finds the active requests of the device. -/
theorem mem_activeRequests {deviceId : Uuid} {r : SupportRequest} :
    r ∈ w.activeRequests deviceId ↔
      ∃ k, w.tables.requests k = some r ∧ r.isActive = true ∧ r.deviceId = deviceId := by
  simp only [World.activeRequests, Table.mem_scan, Table.auto_view, Bool.and_eq_true,
    World.tables, Owner.ofRequest, decide_eq_true_eq, and_comm (a := r.deviceId = deviceId)]

/-- A device or a technician has one live session at most. -/
theorem Unique.live_session {T : Tables} (hu : Unique T) {owner : Owner}
    (howner : owner ≠ .anyone) {k k' : Uuid} {s s' : RemoteSession} (hs : T.sessions k = some s)
    (hs' : T.sessions k' = some s') (hlive : s.isLive = true) (hlive' : s'.isLive = true)
    (howned : owner.ofSession s = true) (howned' : owner.ofSession s' = true) : s = s' := by
  have hkey : k = k' := by
    cases owner with
    | anyone => exact absurd rfl howner
    | device d =>
        simp only [Owner.ofSession, decide_eq_true_eq] at howned howned'
        exact hu.liveOfDevice k k' s s' hs hs' hlive hlive' (by rw [howned, howned'])
    | technician t =>
        simp only [Owner.ofSession, decide_eq_true_eq] at howned howned'
        exact hu.liveOfTechnician k k' s s' hs hs' hlive hlive' (by rw [howned, howned'])
  rw [hkey, hs'] at hs
  exact (Option.some.inj hs).symm

/-- Any two rows that the query for a live session finds are the same, which is
    what makes the first one the only one. An owner is needed: a query without one
    would list everybody's. -/
theorem Unique.one_session (hu : Unique w.tables) {owner : Owner} (howner : owner ≠ .anyone)
    {newestFirst : Bool} : ∀ s ∈ w.liveSessions owner newestFirst,
      ∀ s' ∈ w.liveSessions owner newestFirst, s = s' := by
  intro s hs s' hs'
  rcases mem_liveSessions.mp hs with ⟨k, hk, hlive, howned⟩
  rcases mem_liveSessions.mp hs' with ⟨k', hk', hlive', howned'⟩
  exact hu.live_session howner hk hk' hlive hlive' howned howned'

/-- A device has one active request at most. -/
theorem Unique.active_request {T : Tables} (hu : Unique T) {k k' : Uuid} {r r' : SupportRequest}
    (hr : T.requests k = some r) (hr' : T.requests k' = some r') (hactive : r.isActive = true)
    (hactive' : r'.isActive = true) (hd : r.deviceId = r'.deviceId) : r = r' := by
  have hkey := hu.activeRequest k k' r r' hr hr' hactive hactive' hd
  rw [hkey, hr'] at hr
  exact (Option.some.inj hr).symm

/-- Any two rows that the query for an active request finds are the same. -/
theorem Unique.one_request (hu : Unique w.tables) {deviceId : Uuid} :
    ∀ r ∈ w.activeRequests deviceId, ∀ r' ∈ w.activeRequests deviceId, r = r' := by
  intro r hr r' hr'
  rcases mem_activeRequests.mp hr with ⟨k, hk, hactive, howned⟩
  rcases mem_activeRequests.mp hr' with ⟨k', hk', hactive', howned'⟩
  exact hu.active_request hk hk' hactive hactive' (by rw [howned, howned'])

/-! ## The three reads -/

section Reads

variable {c : CallId} {env : Env}

/-- A read that starts with a statement. -/
theorem answer_statement {α : Type} {o : Op} {k : Resp o → Service α} {r : Resp o} {w' : World}
    (h : exec throws c env o w = some (r, w')) :
    answer throws c env ((statement o).bind k) w = answer throws c env (k r) w' := by
  simp only [answer, statement, Prog.await_bind, Prog.op_bind, Prog.ret_bind, Prog.runAlone, h]

/-- The read takes the first live session in its order. -/
theorem exec_findLiveSession {owner : Owner} {newestFirst : Bool} :
    exec throws c env (.findLiveSession owner newestFirst) w =
      some ((w.liveSessions owner newestFirst).head?.map w.loadSession,
        w.record c (.ran (.findLiveSession owner newestFirst))) := rfl

/-- The read takes the first active request. -/
theorem exec_findActiveRequest {deviceId : Uuid} :
    exec throws c env (.findActiveRequest deviceId) w =
      some ((w.activeRequests deviceId).head?.map w.loadRequest,
        w.record c (.ran (.findActiveRequest deviceId))) := rfl

/-- The session that is shown is the one the query looks for. -/
theorem Inv.shown_iff (hi : Inv calls throws w) {owner : Owner} (howner : owner ≠ .anyone)
    {newestFirst : Bool} {dto : RemoteSessionResponseDto} :
    (w.liveSessions owner newestFirst).head?.map (w.showSession env) = some dto ↔
      ∃ k s, w.tables.sessions k = some s ∧ (s.isLive = true ∧ owner.ofSession s = true) ∧
        dto = w.showSession env s := by
  rw [Option.map_eq_some_iff]
  constructor
  · rintro ⟨s, hs, rfl⟩
    rw [head?_eq_some_iff (hi.unique.one_session howner)] at hs
    rcases mem_liveSessions.mp hs with ⟨k, hk, hlive, howned⟩
    exact ⟨k, s, hk, ⟨hlive, howned⟩, rfl⟩
  · rintro ⟨k, s, hk, ⟨hlive, howned⟩, rfl⟩
    refine ⟨s, (head?_eq_some_iff (hi.unique.one_session howner)).mpr ?_, rfl⟩
    exact mem_liveSessions.mpr ⟨k, hk, hlive, howned⟩

/-- What the tablet's read of its session returns: always an answer, and a session
    exactly if it is a live one of the device. -/
theorem session_of_device (hi : Inv calls throws w) (c : CallId) (env : Env) (deviceId : Uuid) :
    ∃ found, answer throws c env (RemoteSessionsService.findCurrentForDevice deviceId) w =
      some found ∧ ∀ dto, found = some dto ↔ ∃ k s, w.tables.sessions k = some s ∧
        (s.isLive = true ∧ s.deviceId = deviceId) ∧ dto = w.showSession env s := by
  have howner : Owner.device deviceId ≠ .anyone := by
    simp only [ne_eq, reduceCtorEq, not_false_eq_true]
  refine ⟨(w.liveSessions (.device deviceId) false).head?.map (w.showSession env), ?_,
    fun dto => ?_⟩
  · refine (answer_statement exec_findLiveSession).trans ?_
    cases (w.liveSessions (.device deviceId) false).head? <;> rfl
  · rw [hi.shown_iff howner]
    simp only [Owner.ofSession, decide_eq_true_eq]

/-- What the technician's read returns, in the same way. The two reads order their
    rows differently, which makes no difference where there is one at most. -/
theorem session_of_technician (hi : Inv calls throws w) (c : CallId) (env : Env)
    (technicianId : Uuid) :
    ∃ found, answer throws c env (RemoteSessionsService.findCurrentForTechnician technicianId) w =
      some found ∧ ∀ dto, found = some dto ↔ ∃ k s, w.tables.sessions k = some s ∧
        (s.isLive = true ∧ s.technicianId = technicianId) ∧ dto = w.showSession env s := by
  have howner : Owner.technician technicianId ≠ .anyone := by
    simp only [ne_eq, reduceCtorEq, not_false_eq_true]
  refine ⟨(w.liveSessions (.technician technicianId) true).head?.map (w.showSession env), ?_,
    fun dto => ?_⟩
  · refine (answer_statement exec_findLiveSession).trans ?_
    cases (w.liveSessions (.technician technicianId) true).head? <;> rfl
  · rw [hi.shown_iff howner]
    simp only [Owner.ofSession, decide_eq_true_eq]

/-- What the tablet's read of its request returns: always an answer, and a request
    exactly if it is an active one of the device. -/
theorem request_of_device (hi : Inv calls throws w) (c : CallId) (env : Env) (deviceId : Uuid) :
    ∃ found, answer throws c env (SupportRequestsService.findCurrentForDevice deviceId) w =
      some found ∧ ∀ dto, found = some dto ↔ ∃ k r, w.tables.requests k = some r ∧
        (r.isActive = true ∧ r.deviceId = deviceId) ∧ dto = w.showRequest r := by
  refine ⟨(w.activeRequests deviceId).head?.map w.showRequest, ?_, fun dto => ?_⟩
  · refine (answer_statement exec_findActiveRequest).trans ?_
    cases (w.activeRequests deviceId).head? <;> rfl
  · rw [Option.map_eq_some_iff]
    constructor
    · rintro ⟨r, hr, rfl⟩
      rw [head?_eq_some_iff hi.unique.one_request] at hr
      rcases mem_activeRequests.mp hr with ⟨k, hk, hactive, howned⟩
      exact ⟨k, r, hk, ⟨hactive, howned⟩, rfl⟩
    · rintro ⟨k, r, hk, ⟨hactive, howned⟩, rfl⟩
      refine ⟨r, (head?_eq_some_iff hi.unique.one_request).mpr ?_, rfl⟩
      exact mem_activeRequests.mpr ⟨k, hk, hactive, howned⟩

/-- A read that finds nothing has nothing to find. -/
theorem absent_of_none {V δ : Type} {T : Uuid → Option V} {L : V → Prop} {shown : V → δ}
    {found : Option δ} (h : ∀ dto, found = some dto ↔ ∃ k v, T k = some v ∧ L v ∧ dto = shown v)
    (hnone : found = none) {k : Uuid} {v : V} (hk : T k = some v) : ¬ L v := by
  intro hv
  have hsome := (h (shown v)).mpr ⟨k, v, hk, hv, rfl⟩
  rw [hnone] at hsome
  simp only [reduceCtorEq] at hsome

end Reads

/-- The reads agree in every reachable state. What the tablet is given as its
    session is what the session's technician is given, and the other way
    round, and the tablet is given the request the session is about. A read
    comes back without a row only if there is none. -/
theorem recovery_agrees {sys : Calls} (h : Reachable calls throws sys) (c : CallId) (env : Env) :
    (∀ d dto, answer throws c env (RemoteSessionsService.findCurrentForDevice d) sys.shared =
        some (some dto) →
      ∃ s, sys.shared.tables.sessions dto.id = some s ∧ s.deviceId = d ∧
        dto = sys.shared.showSession env s ∧
        answer throws c env (RemoteSessionsService.findCurrentForTechnician s.technicianId)
          sys.shared = some (some dto) ∧
        ∃ r, answer throws c env (SupportRequestsService.findCurrentForDevice d) sys.shared =
            some (some r) ∧ r.id = dto.supportRequestId ∧ r.deviceId = d ∧
          r.status = .accepted ∧ r.technicianId = some s.technicianId ∧
          r.technician = some dto.technician) ∧
    (∀ t dto, answer throws c env (RemoteSessionsService.findCurrentForTechnician t) sys.shared =
        some (some dto) →
      ∃ s, sys.shared.tables.sessions dto.id = some s ∧ s.technicianId = t ∧
        dto = sys.shared.showSession env s ∧
        answer throws c env (RemoteSessionsService.findCurrentForDevice s.deviceId) sys.shared =
          some (some dto)) ∧
    (∀ d, (answer throws c env (RemoteSessionsService.findCurrentForDevice d) sys.shared).isSome ∧
      (answer throws c env (RemoteSessionsService.findCurrentForDevice d) sys.shared = some none →
        ∀ k s, sys.shared.tables.sessions k = some s → s.deviceId = d → s.isLive = false)) ∧
    (∀ t, (answer throws c env (RemoteSessionsService.findCurrentForTechnician t)
        sys.shared).isSome ∧
      (answer throws c env (RemoteSessionsService.findCurrentForTechnician t) sys.shared =
          some none →
        ∀ k s, sys.shared.tables.sessions k = some s → s.technicianId = t → s.isLive = false)) ∧
    (∀ d, (answer throws c env (SupportRequestsService.findCurrentForDevice d) sys.shared).isSome ∧
      (answer throws c env (SupportRequestsService.findCurrentForDevice d) sys.shared = some none →
        ∀ k r, sys.shared.tables.requests k = some r → r.deviceId = d → r.isActive = false)) := by
  have hi := h.inv
  have hc := hi.consistent
  refine ⟨fun d dto hans => ?_, fun t dto hans => ?_, fun d => ?_, fun t => ?_, fun d => ?_⟩
  · -- The tablet has its session: the row, and the technician who has it too.
    rcases session_of_device hi c env d with ⟨found, hfound, hiff⟩
    rw [hfound, Option.some.injEq] at hans
    rcases (hiff dto).mp hans with ⟨k, s, hk, ⟨hlive, hd⟩, rfl⟩
    have hid : s.id = k := hc.sessionId k s hk
    refine ⟨s, by rw [← hid] at hk; exact hk, hd, rfl, ?_, ?_⟩
    · rcases session_of_technician hi c env s.technicianId with ⟨found', hfound', hiff'⟩
      rw [hfound', Option.some.injEq]
      exact (hiff' _).mpr ⟨k, s, hk, ⟨hlive, rfl⟩, rfl⟩
    · -- A live session has its request accepted, so it is the active one.
      rcases hc.owned k s hk with ⟨r, hr, hrd, hrt, hst⟩
      rw [if_pos hlive] at hst
      have hactive : r.isActive = true := isActive_iff.mpr (.inr (.inr hst))
      rcases request_of_device hi c env d with ⟨found', hfound', hiff'⟩
      refine ⟨sys.shared.showRequest r, ?_, hc.requestId _ r hr, hrd.trans hd, hst, hrt, ?_⟩
      · rw [hfound', Option.some.injEq]
        exact (hiff' _).mpr ⟨_, r, hr, ⟨hactive, hrd.trans hd⟩, rfl⟩
      · simp only [World.showRequest, World.showSession, World.loadRequest, World.loadSession,
          SupportRequestResponseDto.forDevice, RemoteSessionResponseDto.fromEntity,
          SupportRequestTechnicianDto.fromEntity, hrt, Option.map_some]
  · -- The technician has a session: the row, and the tablet that has it too.
    rcases session_of_technician hi c env t with ⟨found, hfound, hiff⟩
    rw [hfound, Option.some.injEq] at hans
    rcases (hiff dto).mp hans with ⟨k, s, hk, ⟨hlive, ht⟩, rfl⟩
    have hid : s.id = k := hc.sessionId k s hk
    refine ⟨s, by rw [← hid] at hk; exact hk, ht, rfl, ?_⟩
    rcases session_of_device hi c env s.deviceId with ⟨found', hfound', hiff'⟩
    rw [hfound', Option.some.injEq]
    exact (hiff' _).mpr ⟨k, s, hk, ⟨hlive, rfl⟩, rfl⟩
  · -- Each read answers, and where it finds nothing there is nothing of its kind.
    rcases session_of_device hi c env d with ⟨found, hfound, hiff⟩
    rw [hfound, Option.some.injEq]
    exact ⟨rfl, fun hnone k s hk hd => Bool.eq_false_iff.mpr (fun hlive =>
      absent_of_none hiff hnone hk ⟨hlive, hd⟩)⟩
  · rcases session_of_technician hi c env t with ⟨found, hfound, hiff⟩
    rw [hfound, Option.some.injEq]
    exact ⟨rfl, fun hnone k s hk ht => Bool.eq_false_iff.mpr (fun hlive =>
      absent_of_none hiff hnone hk ⟨hlive, ht⟩)⟩
  · rcases request_of_device hi c env d with ⟨found, hfound, hiff⟩
    rw [hfound, Option.some.injEq]
    exact ⟨rfl, fun hnone k r hk hd => Bool.eq_false_iff.mpr (fun hactive =>
      absent_of_none hiff hnone hk ⟨hactive, hd⟩)⟩

/-- Everybody is online, and nothing else happens. -/
def steadily : Env := { tick := 0, online := fun _ => true, newId := 0, createdAt := 0 }

/-- The session just opened is recovered from both ends. -/
theorem recovery_agrees_opening : ∃ sys, Reachable assistance quiet sys ∧ ∃ dto s r,
    answer quiet 9 steadily (RemoteSessionsService.findCurrentForDevice 1) sys.shared =
      some (some dto) ∧
    sys.shared.tables.sessions dto.id = some s ∧
    answer quiet 9 steadily (RemoteSessionsService.findCurrentForTechnician s.technicianId)
      sys.shared = some (some dto) ∧
    answer quiet 9 steadily (SupportRequestsService.findCurrentForDevice 1) sys.shared =
      some (some r) ∧ r.id = dto.supportRequestId := by
  have hrun : ((follow (exec quiet) (boot assistance (fun _ => tablet) (fun _ => agent) 0)
      opening).any (fun sys =>
        (answer quiet 9 steadily (RemoteSessionsService.findCurrentForDevice 1) sys.shared).any
          Option.isSome)) = true := by
    decide +kernel
  rcases reachable_of_follow hrun with ⟨sys, hsys, hp⟩
  rw [Option.any_eq_true] at hp
  rcases hp with ⟨found, hfound, hsome⟩
  rcases Option.isSome_iff_exists.mp hsome with ⟨dto, rfl⟩
  rcases (recovery_agrees hsys 9 steadily).1 1 dto hfound with ⟨s, hs, _, _, ht, r, hr, hid, _⟩
  exact ⟨sys, hsys, dto, s, r, hfound, hs, ht, hr, hid⟩

end RemoteControl

import RemoteControl.Theory.RequestCalls

/-!
# The Calls of the Remote Sessions

The four methods of `RemoteSessionsService`, verified like those of
`Theory.RequestCalls`: from its beginning, a call ends done or thrown.

All four change their rows in a transaction, so each has a description of
what its transaction holds when it may commit (`Opening`, `Activating`,
`Closing`), established by the body of the transaction and used twice, for
the explanation of the commit and for the emissions after it.

An activation says more than that it is done or thrown. It also keeps what it
found when it locked its session (`LockedOpen`, `TurnedAway`), and that is a
statement about one entry of its own, so later commits cannot change it. From
this the classes of its answers are decided by the moment of the lock alone.

The two closures differ in who may call them, who is told and whether an error
of the emission comes through. The transaction is the same (`closeBoth_spec`),
with `Operation.ClosesAs` for the operation, the owner and the end.

## Main definitions

* `Opening`, `Activating`, `Closing`: What a transaction holds when it may
  commit.
* `MayActivate`, `MayClose`: The same with the time of the call in the past.
* `LockedAs`, `LockedOpen`, `TurnedAway`: What a call found when it locked its
  session.
* `ShowsActivated`: An answer with the time of activation.
* `Operation.ClosesAs`: The two closing calls.

## Theorems

* `create_spec`, `activateByTechnician_spec`, `closeByTechnician_spec`,
  `closeByDevice_spec`: The four methods.
* `close_then`: What the two closures share.
* `idle_of_opened`: A technician whose new session is in a transaction has no
  live one.
* `openLocked_spec`, `activateLocked_spec`, `closeBoth_spec`: The bodies of
  the transactions.
* `Activating.committed`: The row of an activation, once it has committed.
* `stamped_of_session`: The stamps of the request of a session are in the
  past.
* `close_then`: A closure and what follows it.
-/

namespace RemoteControl

open Concurrency Machine

variable {calls : CallId → Operation} {throws : CallId → Emitter → Bool} {c : CallId}
  {before : List Entry} {w₁ : World}

/-- The response of a session, which asks whether its device is online. -/
theorem toResponse_shows {l : LoadedRemoteSession} {ws : Writes} {a : Option Bool}
    {sent : List (Emission × Bool)} {K : World → Prop} {E : HttpException → World → Prop}
    (hK : (lifecycle calls throws).Persistent K)
    (hquiet : (calls c).Leaks → throws c .emitToDevice = false)
    (hsent : sent = attempts calls throws c ws)
    (hr : ∀ online w, K w → Answers w.tables (calls c) ws
      (.remoteSession (RemoteSessionResponseDto.fromEntity l online))) :
    (lifecycle calls throws).Triple (exec throws) c
      (fun w => At c (announcing before a ws sent) .free w ∧ K w)
      (RemoteSessionsService.toResponse l)
      (fun dto w => Done calls throws c before (.remoteSession dto) w ∧
        ∃ online, dto = RemoteSessionResponseDto.fromEntity l online) E := by
  refine isOnline_then announcing_open hK (fun b _ _ _ _ => ?_)
  exact .ret (fun w _ hw =>
    ⟨.of_sent (a := a.or (some b)) hquiet hw.1 hsent (hr b w hw.2.2), b, rfl⟩)

/-- The same for the calls of which no more is said. -/
theorem toResponse_then {l : LoadedRemoteSession} {ws : Writes} {a : Option Bool}
    {sent : List (Emission × Bool)} {K : World → Prop}
    (hK : (lifecycle calls throws).Persistent K)
    (hquiet : (calls c).Leaks → throws c .emitToDevice = false)
    (hsent : sent = attempts calls throws c ws)
    (hr : ∀ online w, K w → Answers w.tables (calls c) ws
      (.remoteSession (RemoteSessionResponseDto.fromEntity l online))) :
    (lifecycle calls throws).Triple (exec throws) c
      (fun w => At c (announcing before a ws sent) .free w ∧ K w)
      (RemoteSessionsService.toResponse l)
      (fun dto => Done calls throws c before (.remoteSession dto))
      (Thrown calls throws c before) :=
  (toResponse_shows hK hquiet hsent hr).conseq (fun _ _ h => h) (fun _ _ _ h => h.1)
    (fun _ _ _ h => h)

/-! ## Opening -/

/-- A session that may be opened: its request is in hand and accepted, the
    row is inserted, and the device was online. -/
structure Opening (id : Uuid) (user : User) (session : LoadedRemoteSession) (a : Option Bool)
    (g : Grip) (r : SupportRequest) (row : RemoteSession) : Prop where
  grip : g = .opened id r row
  inserted : ∃ sid createdAt, row = newSession r user.id sid createdAt
  shown : session.toRemoteSession = row
  technician : session.technician = user
  online : a = some true
  status : r.status = .accepted
  owned : r.technicianId = some user.id

/-- The row of a busy technician clashes with a new session, so a technician
    whose new session is in a transaction has no live one. -/
theorem idle_of_opened {p : Progress} {id : Uuid} {r : SupportRequest} {row : RemoteSession}
    {w : World} (hi : Inv calls throws w) (ha : At c p (.opened id r row) w)
    (hl : row.isLive = true) {k : Uuid} {s : RemoteSession} (hs : w.tables.sessions k = some s)
    (hu : s.technicianId = row.technicianId) : s.isLive = false := by
  by_contra hlive
  rw [Bool.not_eq_false] at hlive
  have hheld := ha.sessions.1
  simp only at hheld
  -- The row that was inserted is not committed, the other one is.
  have hne : row.id ≠ k := by
    rintro rfl
    have hnone : w.tables.sessions row.id = none := ha.session rfl
    rw [hs] at hnone
    simp only [reduceCtorEq] at hnone
  -- Two live sessions of one technician would clash in the unique index.
  have hclash := hi.sessionsDistinct _
    (List.mem_cons_of_mem _ (List.mem_cons_of_mem _ List.mem_cons_self)) _ _ hne row
    (Table.mem_versions_written (c := c) (by rw [hheld])) s (Table.mem_versions_committed hs)
  rw [Table.clash_eq_false] at hclash
  rcases hclash with hc | hc
  · simp only [if_pos hl, reduceCtorEq] at hc
  · simp only [if_pos hl, if_pos hlive, hu, ne_eq, not_true_eq_false] at hc

/-- The machine opens the session at this moment. -/
theorem Opening.committable {id : Uuid} {user : User} {session : LoadedRemoteSession}
    {a : Option Bool} {n : Bool} {g : Grip} {r : SupportRequest} {row : RemoteSession} {w : World}
    (h : Opening id user session a g r row) (hop : calls c = .create id user)
    (hi : Inv calls throws w) (ha : At c (working before a n) g w) :
    Committable calls c before a g w := by
  have hgrip := h.grip
  subst hgrip
  rcases h.inserted with ⟨sid, createdAt, rfl⟩
  have hr : w.tables.requests id = some r := ha.request rfl
  have hfresh : w.tables.sessions sid = none := ha.session rfl
  -- The device was online, and the session is for the request in hand.
  refine ⟨fun _ => h.online, fun s hs _ => ?_, w.clock, ha.before_le hi rfl, Nat.le_refl _, ?_⟩
  · simp only [Grip.writes_opened, List.mem_singleton] at hs
    subst hs
    exact ⟨_, rfl, (hi.consistent.requestId id r hr).symm⟩
  -- The transaction writes the new session only; the request was locked.
  · have hwrites : (Grip.opened id r (newSession r user.id sid createdAt)).writes =
        sessionWrites w.tables.sessions sid (newSession r user.id sid createdAt) := by
      simp only [sessionWrites, hfresh]
      rfl
    rw [hop, hwrites]
    exact .opened id user r sid createdAt hr h.owned h.status hfresh
      (fun k s hs hu => idle_of_opened hi ha rfl hs hu)

/-- Saving a session, with its request in hand and no session for it. The index on
    the technician is the only one that can refuse the row, and then the
    technician is busy. -/
theorem save_then {α : Type} {Q : α → World → Prop} {E : HttpException → World → Prop}
    {p : Progress} {K : World → Prop} {id : Uuid} {r : SupportRequest} {user : User}
    {k : RemoteSession → Service α} (hp : p.Open) (hst : r.status = .accepted)
    (hK : (lifecycle calls throws).Persistent K)
    (hbusy : ∀ w₀ w message, Inv calls throws w₀ → w₀.tables.requests id = some r →
      (∃ j s, w₀.tables.sessions j = some s ∧ s.technicianId = user.id ∧ s.isLive = true) →
      At c p (.ofRequest id r true) w → Saw c w₀ w → E (.conflict message) w)
    (hok : ∀ sid createdAt, (lifecycle calls throws).Triple (exec throws) c
      (fun w => At c p (.opened id r (newSession r user.id sid createdAt)) w ∧ K w)
      (k (newSession r user.id sid createdAt)) Q E) :
    (lifecycle calls throws).Triple (exec throws) c
      (fun w => At c p (.ofRequest id r true) w ∧ K w)
      ((RemoteSessionsService.save (sessionDraft r user.id)).bind k) Q E := by
  have hshape : (RemoteSessionsService.save (sessionDraft r user.id)).bind k =
      (statement (.insertSession (sessionDraft r user.id))).bind _ :=
    Prog.bind_assoc (statement (.insertSession (sessionDraft r user.id))) _ k
  rw [hshape]
  refine insertSession_then hp hst hK (fun w₀ hi _ hr hex => ?_) (fun _ sid createdAt _ _ _ => ?_)
  · exact .throw (fun w _ hw => hbusy w₀ w _ hi hr hex hw.1 hw.2.1)
  · exact (hok sid createdAt).weaken (fun _ _ h => ⟨h.1, h.2.2⟩)

/-- The transaction of `create`. The request stays locked from the first statement
    on, so what is found out about it holds until the commit. -/
theorem openLocked_spec {id : Uuid} {user : User} (hop : calls c = .create id user) :
    (lifecycle calls throws).Triple (exec throws) c (Begun c before w₁)
      (RemoteSessionsService.openLocked id user)
      (fun session w => ∃ a n g, At c (working before a n) g w ∧
        ∃ r row, Opening id user session a g r row)
      (fun e w => ∃ a n g, At c (working before a n) g w ∧ RefusedWith calls c e w) := by
  refine lockRequestOrFail_then working_open Saw.persistent
    (fun w₀ w hi₀ _ hno ha hsaw => ?_) (fun w₀ r hi₀ _ hr ho => ?_)
  -- There is no such request of this technician.
  · refine ⟨_, _, _, ha, .of_saw rfl hsaw hi₀ (fun online _ => ?_)⟩
    rw [hop]
    exact refuses_create_missing online (fun r hr => of_decide_eq_false (hno r hr))
  have hu : r.technicianId = some user.id := of_decide_eq_true ho
  refine throwIf_then (fun hne w _ hw => ?_) (fun heq => ?_)
  -- The request is not accepted.
  · refine ⟨_, _, _, hw.1, .of_saw rfl hw.2.1 hi₀ (fun online _ => ?_)⟩
    rw [hop]
    exact refuses_create hr hu (fun hst => absurd hst (of_decide_eq_true hne))
  -- From here on the request is locked and accepted.
  have hst : r.status = .accepted := not_not.mp (of_decide_eq_false heq)
  have hsaw₀ : (lifecycle calls throws).Persistent (Saw c w₀) := Saw.persistent
  have hsaw₁ : (lifecycle calls throws).Persistent (Saw c w₁) := Saw.persistent
  have hK := hsaw₀.and hsaw₁
  refine existsLiveSession_then working_open hK (fun s _ hs hl => ?_) hst
    (fun w₂ hi₂ _ hr₂ hlive => ?_) (fun w₂ _ _ _ => ?_)
  -- A live session for the request would have been found as one of the technician's.
  · rw [hu, Option.some.injEq] at hs
    simp only [LiveSessionOf.found, ← hs, hl, decide_true, Bool.and_true]
  · refine .throw (fun w _ hw => ⟨_, _, _, hw.1, .of_saw rfl hw.2.1 hi₂ (fun online _ => ?_)⟩)
    -- The technician is busy, and was so at the moment of the query.
    rcases hlive with ⟨j, s, hs, hfound⟩
    simp only [LiveSessionOf.found, Bool.and_eq_true, decide_eq_true_eq] at hfound
    rw [hop]
    exact refuses_create hr₂ hu (fun _ _ => ⟨j, s, hs, hfound.1, hfound.2⟩)
  refine isOnline_then working_open (Saw.persistent.and hK) (fun b w₃ hi₃ ha₃ _ => ?_)
  refine throwIf_then (fun hoff w _ hw => ?_) (fun hon => ?_)
  -- The device was offline at the moment it was asked for.
  · have hr₃ : w₃.tables.requests id = some r := ha₃.request rfl
    refine ⟨some b, false, _, hw.1, .of_saw rfl hw.2.1 hi₃ (fun online ho => ?_)⟩
    rw [hw.1.progress] at ho
    rw [hop]
    refine refuses_create hr₃ hu (fun _ hc => ?_)
    rw [ho b rfl] at hc
    simp only [hc, Bool.not_true, Bool.false_eq_true] at hoff
  rw [Bool.not_eq_false'] at hon
  subst hon
  -- The index may still refuse the row: somebody else has been quicker.
  refine save_then working_open hst (Saw.persistent.and (Saw.persistent.and hK))
    (fun w₄ w _ hi₄ hr₄ hbusy ha hsaw => ?_) (fun sid createdAt => ?_)
  -- The technician has a live session, which was committed after the query.
  · refine ⟨some true, false, _, ha, .of_saw rfl hsaw hi₄ (fun online _ => ?_)⟩
    rw [hop]
    exact refuses_create hr₄ hu (fun _ _ => hbusy)
  refine findDevice_then working_open (Saw.persistent.and (Saw.persistent.and hK))
    (fun w₅ _ _ _ => ?_)
  -- The response is made from the row that was inserted.
  exact .ret (fun w _ hw => ⟨some true, false, _, hw.1, r, _, rfl, ⟨sid, createdAt, rfl⟩, rfl, rfl,
    rfl, hst, hu⟩)

/-- `create`. The transaction, its commit, and the event to the device. -/
theorem create_spec {id : Uuid} {user : User} (hop : calls c = .create id user) :
    (lifecycle calls throws).Triple (exec throws) c (Begun c before w₁)
      (RemoteSessionsService.create id user)
      (fun dto => Done calls throws c before (.remoteSession dto))
      (Thrown calls throws c before) := by
  refine transaction_then Saw.persistent
    (fun session a g _ => ∃ r row, Opening id user session a g r row)
    (fun _ _ _ _ _ _ _ _ _ h => h) (fun e _ w => RefusedWith calls c e w)
    (fun _ _ => RefusedWith.persistent) (openLocked_spec hop)
    (fun session a n g w hi ha hr => ?_) (fun e a n w _ ha hr => .inl ⟨a, n, ha, hr⟩)
    (fun session a n g w₀ hi ha hr => ?_)
  · rcases hr with ⟨r, row, ho⟩
    exact ho.committable hop hi ha
  · rcases hr with ⟨r, row, ho⟩
    have hgrip := ho.grip
    subst hgrip
    -- One event, to the device; its errors are not caught.
    have hsends : announcements (calls c) (Grip.opened id r row).writes =
        [⟨.device session.deviceId, .remoteSessionCreated session.id session.supportRequestId
          (SupportRequestTechnicianDto.fromTechnician session.technician)⟩] := by
      rw [hop, ho.technician, ← ho.shown]
      rfl
    have hK : (lifecycle calls throws).Persistent (fun w =>
        Since (w₀.tables.apply (Grip.opened id r row).writes) w ∧
        ∃ r' row', Opening id user session a (Grip.opened id r row) r' row') :=
      Since.persistent.and (fun _ _ _ _ _ _ h => h)
    refine emit_then (e := ⟨.device session.deviceId, .remoteSessionCreated session.id
      session.supportRequestId (SupportRequestTechnicianDto.fromTechnician session.technician)⟩)
      ?_ hK (fun hthrow w _ ha _ => ?_) (fun hquiet => ?_)
    · rw [hsends]
      exact List.mem_cons_self
    -- The emission throws: the call fails, with the session committed.
    · refine .inr ⟨rfl, ?_, hthrow, _, _, _, _, ha, hsends⟩
      rw [hop]
      trivial
    · refine toResponse_then hK (fun _ => hquiet) ?_ (fun online w _ => ?_)
      · rw [attempts, hsends, ← hquiet]
        rfl
      · rw [hop]
        refine ⟨_, List.mem_singleton.mpr rfl, session, online, ?_, ?_, rfl⟩
        · rw [ho.shown]
          exact .refl _
        · rw [ho.shown]

/-! ## Activation -/

/-- An activation that may commit: the session is in hand, with its new
    version if this call activates it, and without one if it was active. -/
structure Activating (before : List Entry) (id : Uuid) (user : User)
    (session : LoadedRemoteSession) (activated : Bool) (g : Grip) (s : RemoteSession)
    (t : Timestamp) : Prop where
  grip : g = if activated then .wroteSession id s ((activation t).apply s) else .ofSession id s
  status : s.status = if activated then .connecting else .active
  shown : session.toRemoteSession = if activated then (activation t).apply s else s
  sessionId : s.id = id
  owned : s.technicianId = user.id
  before : ∀ e ∈ before, e.time ≤ t

/-- What the transaction of an activation has shown when it ends. -/
def MayActivate (before : List Entry) (id : Uuid) (user : User)
    (result : LoadedRemoteSession × Bool) (g : Grip) (w : World) : Prop :=
  ∃ s t, Activating before id user result.1 result.2 g s t ∧ t ≤ w.clock

/-- The time stays in the past. -/
theorem MayActivate.persistent {id : Uuid} {user : User} {result : LoadedRemoteSession × Bool}
    {g : Grip} : (lifecycle calls throws).Persistent (MayActivate before id user result g) := by
  intro d w w' _ _ hg h
  rcases h with ⟨s, t, ha, ht⟩
  exact ⟨s, t, ha, Nat.le_trans ht hg.clock⟩

/-- The machine activates the session at this moment, or finds it active. -/
theorem Activating.committable {p : Progress} {id : Uuid} {user : User}
    {session : LoadedRemoteSession} {activated : Bool} {g : Grip} {s : RemoteSession}
    {t : Timestamp} {a : Option Bool} {w : World}
    (h : Activating before id user session activated g s t)
    (hop : calls c = .activateByTechnician id user) (ha : At c p g w) (ht : t ≤ w.clock) :
    Committable calls c before a g w := by
  have hgrip := h.grip
  have hst := h.status
  refine ⟨fun hp => ?_, fun sw hsw hold => ?_, t, h.before, ht, ?_⟩
  · rw [hop] at hp
    exact hp.elim
  -- No session is new, since the one it writes was there before.
  · cases activated with
    | true =>
        simp only [if_true] at hgrip
        simp only [hgrip, Grip.writes_wroteSession, List.mem_singleton] at hsw
        rw [hsw] at hold
        simp only [reduceCtorEq] at hold
    | false =>
        simp only [Bool.false_eq_true, if_false] at hgrip
        simp only [hgrip, Grip.writes_ofSession, List.not_mem_nil] at hsw
  · rw [hop]
    cases activated with
    | true =>
        simp only [if_true] at hgrip hst
        subst hgrip
        have hs : w.tables.sessions id = some s := ha.session rfl
        have hwrites : (Grip.wroteSession id s ((activation t).apply s)).writes =
            sessionWrites w.tables.sessions id ((activation t).apply s) := by
          simp only [sessionWrites, hs]
          rfl
        rw [hwrites]
        exact .activated id user s hs h.owned hst
    | false =>
        simp only [Bool.false_eq_true, if_false] at hgrip hst
        subst hgrip
        exact .repeated id user s (ha.session rfl) h.owned hst

/-- The rows were such when the call locked the session. -/
def LockedAs (c : CallId) (id : Uuid) (owner : Owner) (found : Tables → Prop) (w : World) : Prop :=
  ∃ e l, e :: l <:+ w.log ∧ e.call = c ∧ e.event = .ran (.lockSession id owner) ∧ found (replay l)

/-- An entry of the past stays in it. -/
theorem LockedAs.persistent {id : Uuid} {owner : Owner} {found : Tables → Prop} :
    (lifecycle calls throws).Persistent (LockedAs c id owner found) := by
  intro d w w' _ _ hg h
  rcases h with ⟨e, l, hs, hrest⟩
  rcases hg.entry with ⟨e', _, _, hlog, _⟩
  rw [LockedAs, hlog]
  exact ⟨e, l, hs.trans (List.suffix_cons e' w.log), hrest⟩

/-- The query for the lock is that entry, and the rows are those it ran in. -/
theorem Ran.lockedAs {id : Uuid} {owner : Owner} {found : Tables → Prop} {w₀ w : World}
    (h : Ran c (.lockSession id owner) w₀ w) (hi : Inv calls throws w₀) (hf : found w₀.tables) :
    LockedAs c id owner found w := by
  rcases h with ⟨t, hs⟩
  exact ⟨_, _, hs, rfl, rfl, by rw [← hi.tables]; exact hf⟩

/-- The technician has no such session. -/
def Missing (id : Uuid) (user : User) (T : Tables) : Prop :=
  ∀ s, T.sessions id = some s → s.technicianId ≠ user.id

/-- The technician has the session, in a status of this kind. -/
def FoundIn (id : Uuid) (user : User) (status : RemoteSessionStatus → Prop) (T : Tables) : Prop :=
  ∃ s, T.sessions id = some s ∧ s.technicianId = user.id ∧ status s.status

/-- The call locked the session before it was closed. -/
abbrev LockedOpen (c : CallId) (id : Uuid) (user : User) : World → Prop :=
  LockedAs c id (.technician user.id) (FoundIn id user (· ≠ .closed))

/-- The error tells what the call found when it locked the session. -/
def TurnedAway (c : CallId) (id : Uuid) (user : User) (e : HttpException) (w : World) : Prop :=
  (e = RemoteSessionsService.sessionNotFound id ∧
    LockedAs c id (.technician user.id) (Missing id user) w) ∨
  (e = RemoteSessionsService.alreadyClosed id ∧
    LockedAs c id (.technician user.id) (FoundIn id user (· = .closed)) w)

/-- What was found does not change. -/
theorem TurnedAway.persistent {id : Uuid} {user : User} {e : HttpException} :
    (lifecycle calls throws).Persistent (TurnedAway c id user e) := by
  intro d w w' hi hi' hg h
  exact h.imp (fun hm => ⟨hm.1, LockedAs.persistent d w w' hi hi' hg hm.2⟩)
    (fun hc => ⟨hc.1, LockedAs.persistent d w w' hi hi' hg hc.2⟩)

/-- The transaction of an activation. The error, or the return, tells what the
    session was like when it was locked. -/
theorem activateLocked_spec {id : Uuid} {user : User}
    (hop : calls c = .activateByTechnician id user) :
    (lifecycle calls throws).Triple (exec throws) c (Begun c before w₁)
      (RemoteSessionsService.activateLocked id user)
      (fun result w => ∃ a n g, At c (working before a n) g w ∧
        (MayActivate before id user result g w ∧ LockedOpen c id user w))
      (fun e w => ∃ a n g, At c (working before a n) g w ∧
        (RefusedWith calls c e w ∧ TurnedAway c id user e w)) := by
  refine lockSessionOrFail_then working_open Saw.persistent
    (fun w₀ w hi₀ _ hno ha hran hsaw => ?_) (fun w₀ s hi₀ _ hs ho => ?_)
  -- There is no such session of this technician at the moment of the lock.
  · have hmissing : Missing id user w₀.tables := fun s hs => of_decide_eq_false (hno s hs)
    refine ⟨_, _, _, ha, .of_saw rfl hsaw hi₀ (fun online _ => ?_),
      .inl ⟨rfl, hran.lockedAs hi₀ hmissing⟩⟩
    rw [hop]
    exact refuses_activate_missing online hmissing
  have hu : s.technicianId = user.id := of_decide_eq_true ho
  have hid := hi₀.consistent.sessionId id s hs
  refine throwIf_then (fun hclosed w _ hw => ?_) (fun hopen => ?_)
  -- The session was closed when it was locked.
  · have hst := of_decide_eq_true hclosed
    refine ⟨_, _, _, hw.1, .of_saw rfl hw.2.1.2 hi₀ (fun online _ => ?_),
      .inr ⟨rfl, hw.2.1.1.lockedAs hi₀ ⟨s, hs, hu, hst⟩⟩⟩
    rw [hop]
    exact refuses_activate online hs hu hst
  have hnot : s.status ≠ .closed := of_decide_eq_false hopen
  have hgranted : FoundIn id user (· ≠ .closed) w₀.tables := ⟨s, hs, hu, hnot⟩
  have hran : (lifecycle calls throws).Persistent
      (Ran c (.lockSession id (.technician user.id)) w₀) := Ran.persistent
  have hsaw₀ : (lifecycle calls throws).Persistent (Saw c w₀) := Saw.persistent
  have hsaw₁ : (lifecycle calls throws).Persistent (Saw c w₁) := Saw.persistent
  have hK := (hran.and hsaw₀).and hsaw₁
  by_cases hst : s.status = .active
  · -- Somebody activated it before: nothing is written, and the row is returned.
    simp only [if_pos hst]
    refine findDevice_then working_open hK (fun w₂ hi₂ ha₂ _ => ?_)
    exact .ret (fun w _ hw => ⟨none, false, _, hw.1, ⟨s, w₂.clock, ⟨rfl, hst, rfl, hid, hu,
      ha₂.before_le hi₂ rfl⟩, hw.2.1.clock⟩, hw.2.2.1.1.lockedAs hi₀ hgranted⟩)
  · simp only [if_neg hst]
    -- Neither closed nor active: the update under the lock cannot miss.
    have hconnecting : s.status = .connecting := connecting_of_live hnot hst
    refine newDate_then working_open hK (fun t w₂ hi₂ ha₂ _ ht => ?_)
    refine updateSession_held_then working_open ((clock_persistent.and Saw.persistent).and hK)
      (by rw [hconnecting]; exact List.mem_singleton.mpr rfl) (fun _ => isLive_iff.mpr hnot)
      (fun w₃ _ _ => ?_)
    refine findDevice_then working_open
      (Saw.persistent.and ((clock_persistent.and Saw.persistent).and hK)) (fun w₄ _ _ _ => ?_)
    exact .ret (fun w _ hw => ⟨none, false, _, hw.1, ⟨s, t, ⟨rfl, hconnecting, rfl, hid, hu,
      fun e he => Nat.le_trans (ha₂.before_le hi₂ rfl e he) ht⟩, hw.2.2.2.1.1⟩,
      hw.2.2.2.2.1.1.lockedAs hi₀ hgranted⟩)

/-- An activation after its commit: both ends are told, unless there was
    nothing to tell. -/
theorem activate_announced {id : Uuid} {user : User} {session : LoadedRemoteSession}
    {activated : Bool} {g : Grip} {s : RemoteSession} {t : Timestamp} {a : Option Bool}
    {T : Tables} {E : HttpException → World → Prop}
    (h : Activating before id user session activated g s t)
    (hop : calls c = .activateByTechnician id user) (hs : T.sessions id = some s) :
    (lifecycle calls throws).Triple (exec throws) c
      (fun w => At c (announcing before a g.writes []) .free w ∧ Since (T.apply g.writes) w)
      (if activated then (RemoteSessionsService.notifyActivated session).bind
          (fun _ => RemoteSessionsService.toResponse session)
        else RemoteSessionsService.toResponse session)
      (fun dto w => Done calls throws c before (.remoteSession dto) w ∧
        ∃ online, dto = RemoteSessionResponseDto.fromEntity session online) E := by
  -- What the activation shows and writes depends on whether it was the first.
  have hgrip := h.grip
  have hst := h.status
  have hshown := h.shown
  have hquiet : (calls c).Leaks → throws c .emitToDevice = false := by
    intro hl
    rw [hop] at hl
    exact hl.elim
  cases activated with
  | true =>
      simp only [if_true] at hgrip hst hshown ⊢
      subst hgrip
      -- Both ends are told, and the errors of both emissions are caught.
      have hsends : announcements (calls c)
          (Grip.wroteSession id s ((activation t).apply s)).writes =
          [⟨.device session.deviceId, .remoteSessionActive session.id⟩,
            ⟨.technician session.technicianId, .remoteSessionActive session.id⟩] := by
        have hsid : ((activation t).apply s).id = id := h.sessionId
        rw [hop, hshown, hsid]
        rfl
      have hshape : (RemoteSessionsService.notifyActivated session).bind
          (fun _ => RemoteSessionsService.toResponse session) =
          (logErrors (emitToDevice session.deviceId (.remoteSessionActive session.id))).bind _ :=
        Prog.bind_assoc (logErrors (emitToDevice session.deviceId
          (.remoteSessionActive session.id))) _ _
      rw [hshape]
      refine logErrors_then ?_ Since.persistent ?_
      · rw [hsends]
        exact List.mem_cons_self
      refine logErrors_then ?_ Since.persistent ?_
      · rw [hsends]
        exact List.mem_cons_of_mem _ List.mem_cons_self
      refine toResponse_shows Since.persistent hquiet ?_ (fun online w _ => ?_)
      · rw [attempts, hsends]
        rfl
      · rw [hop]
        refine .inl ⟨_, List.mem_singleton.mpr rfl, session, online, ?_, ?_, rfl⟩
        · rw [hshown]
          exact .refl _
        · rw [hshown]
  | false =>
      simp only [Bool.false_eq_true, if_false] at hgrip hst hshown ⊢
      subst hgrip
      -- Nothing was written, so nobody is told.
      have hsends : announcements (calls c) (Grip.ofSession id s).writes = [] := by
        rw [hop]
        rfl
      refine toResponse_shows Since.persistent hquiet ?_ (fun online w hsince => ?_)
      · rw [attempts, hsends]
        rfl
      · rw [hop]
        -- The session is still there, with what was filled in.
        rcases hsince.sessions id s hs with ⟨s', hs', hkeep⟩
        refine .inr ⟨rfl, session, online, by rw [hshown, hst], ⟨s', hs', ?_⟩, rfl⟩
        rw [hshown]
        exact hkeep

/-- The row of an activation that may commit, once it has committed. -/
theorem Activating.committed {id : Uuid} {user : User} {session : LoadedRemoteSession}
    {activated : Bool} {g : Grip} {s : RemoteSession} {t : Timestamp} {T : Tables}
    (h : Activating before id user session activated g s t) (hc : Consistent T)
    (hs : T.sessions id = some s) :
    session.status = .active ∧ session.connectedAt.isSome ∧
      (T.apply g.writes).sessions id = some session.toRemoteSession := by
  have hgrip := h.grip
  have hst := h.status
  rw [show session.status = session.toRemoteSession.status from rfl,
    show session.connectedAt = session.toRemoteSession.connectedAt from rfl, h.shown]
  cases activated with
  | true =>
      simp only [if_true] at hgrip ⊢
      subst hgrip
      refine ⟨rfl, rfl, ?_⟩
      simp only [Tables.apply, Grip.writes_wroteSession, applyWrites_single, if_true]
  | false =>
      simp only [Bool.false_eq_true, if_false] at hgrip hst ⊢
      subst hgrip
      -- An active session has a time of connection.
      have hwf := hc.sessionWellFormed id s hs
      rw [RemoteSession.WellFormed, hst] at hwf
      exact ⟨hst, hwf.1, hs⟩

/-- The answer shows an active session, with the time of activation in its
    row. -/
def ShowsActivated (id : Uuid) (dto : RemoteSessionResponseDto) (w : World) : Prop :=
  dto.status = .active ∧ ∃ t s, dto.connectedAt = some t ∧ w.tables.sessions id = some s ∧
    s.connectedAt = some t

/-- The time of connection stays in the row. -/
theorem ShowsActivated.persistent {id : Uuid} {dto : RemoteSessionResponseDto} :
    (lifecycle calls throws).Persistent (ShowsActivated id dto) := by
  intro d w w' hi hi' hg h
  rcases h with ⟨hst, t, s, ht, hs, hat⟩
  rcases (hg.grows hi hi').sessions id s hs with ⟨s', hs', hkeeps⟩
  exact ⟨hst, t, s', ht, hs', hkeeps.connectedAt t hat⟩

/-- An activation shows the time of activation if the session was open when it
    locked it. It is refused only for what it found then. -/
theorem activateByTechnician_spec {id : Uuid} {user : User}
    (hop : calls c = .activateByTechnician id user) :
    (lifecycle calls throws).Triple (exec throws) c (Begun c before w₁)
      (RemoteSessionsService.activateByTechnician id user)
      (fun dto w => Done calls throws c before (.remoteSession dto) w ∧
        ShowsActivated id dto w ∧ LockedOpen c id user w)
      (fun e w => Thrown calls throws c before e w ∧ TurnedAway c id user e w) := by
  refine transaction_then Saw.persistent
    (fun result _ g w => MayActivate before id user result g w ∧ LockedOpen c id user w)
    (fun _ _ _ => MayActivate.persistent.and LockedAs.persistent)
    (fun e _ w => RefusedWith calls c e w ∧ TurnedAway c id user e w)
    (fun _ _ => RefusedWith.persistent.and TurnedAway.persistent) (activateLocked_spec hop)
    (fun result a n g w _ ha hr => ?_)
    (fun e a n w _ ha hr => ⟨.inl ⟨a, n, ha, hr.1⟩, hr.2⟩)
    (fun result a n g w₀ hi ha hr => ?_)
  · rcases hr.1 with ⟨s, t, hact, ht⟩
    exact hact.committable hop ha ht
  · rcases hr.1 with ⟨s, t, hact, _⟩
    -- Written or not, the session is held until the commit.
    have hs : w₀.tables.sessions id = some s := by
      have hgrip := hact.grip
      cases hb : result.2 with
      | true =>
          simp only [hb, if_true] at hgrip
          subst hgrip
          exact ha.session rfl
      | false =>
          simp only [hb, Bool.false_eq_true, if_false] at hgrip
          subst hgrip
          exact ha.session rfl
    -- From here on the row has a time of connection, and keeps it.
    rcases hact.committed hi.consistent hs with ⟨hactive, hconnected, hrow⟩
    rcases Option.isSome_iff_exists.mp hconnected with ⟨t', ht'⟩
    have hK : (lifecycle calls throws).Persistent (fun w =>
        Since (w₀.tables.apply g.writes) w ∧ LockedOpen c id user w) :=
      Since.persistent.and LockedAs.persistent
    refine ((activate_announced hact hop hs).frame hK).conseq
      (fun _ _ h => ⟨⟨h.1, h.2.1⟩, h.2.1, h.2.2.2⟩) (fun dto w _ h => ?_)
      (fun _ _ _ h => h.1)
    rcases h with ⟨⟨hdone, online, rfl⟩, hsince, hlocked⟩
    rcases hsince.sessions id _ hrow with ⟨s', hs', hkeeps⟩
    exact ⟨hdone, ⟨hactive, t', s', ht', hs', hkeeps.connectedAt t' ht'⟩, hlocked⟩

/-! ## Closing -/

/-- The closing calls with the owner of the session and who ends it. -/
def Operation.ClosesAs (op : Operation) (id : Uuid) (owner : Owner)
    (endedBy : RemoteSessionEndedBy) : Prop :=
  (∃ user, op = .closeByTechnician id user ∧ owner = .technician user.id ∧
    endedBy = .technician) ∨
  (∃ device, op = .closeByDevice id device ∧ owner = .device device.id ∧ endedBy = .device)

/-- Both are closures. -/
theorem Operation.ClosesAs.isClosure {op : Operation} {id : Uuid} {owner : Owner}
    {endedBy : RemoteSessionEndedBy} (h : op.ClosesAs id owner endedBy) :
    op.IsClosure id owner := by
  rcases h with ⟨user, hop, ho, _⟩ | ⟨device, hop, ho, _⟩
  · exact .inl ⟨user, hop, ho⟩
  · exact .inr ⟨device, hop, ho⟩

/-- Both are what such a call may commit. -/
theorem Operation.ClosesAs.explains {op : Operation} {id : Uuid} {owner : Owner}
    {endedBy : RemoteSessionEndedBy} (h : op.ClosesAs id owner endedBy) {T : Tables}
    {s : RemoteSession} {r : SupportRequest} {t : Timestamp} (hs : T.sessions id = some s)
    (ho : owner.ofSession s = true) (hl : s.isLive = true)
    (hr : T.requests s.supportRequestId = some r) (hst : r.status = .accepted)
    (ht : r.StampedBy t) : Explains T t op (closureWrites T id s r t endedBy) := by
  rcases h with ⟨user, rfl, rfl, rfl⟩ | ⟨device, rfl, rfl, rfl⟩
  · exact .closedByTechnician id user s r hs (of_decide_eq_true ho) hl hr hst ht
  · exact .closedByDevice id device s r hs (of_decide_eq_true ho) hl hr hst ht

/-- A session does not change its owner. -/
theorem Owner.ofSession_keeps {owner : Owner} {s s' : RemoteSession} (hk : SessionKeeps s s')
    (h : owner.ofSession s = true) : owner.ofSession s' = true := by
  cases owner with
  | anyone => rfl
  | device id =>
      simp only [Owner.ofSession, decide_eq_true_eq, hk.deviceId] at h ⊢
      exact h
  | technician id =>
      simp only [Owner.ofSession, decide_eq_true_eq, hk.technicianId] at h ⊢
      exact h

/-- The stamps of the request of a session are at least as old as the moment
    the session was seen: by then the request was accepted. -/
theorem stamped_of_session {w₀ w : World} {id : Uuid} {s : RemoteSession} {r : SupportRequest}
    (hi : Inv calls throws w₀) (hs : w₀.tables.sessions id = some s) (hsaw : Saw c w₀ w)
    (hr : w.tables.requests s.supportRequestId = some r) : r.StampedBy w₀.clock := by
  -- When the session was seen, its request was accepted or completed already.
  rcases hi.consistent.owned id s hs with ⟨r₀, hr₀, _, _, hst⟩
  rcases hsaw.request hr₀ with ⟨r', hr', hkeep⟩
  rw [hr, Option.some.injEq] at hr'
  subst hr'
  have hstamped := hi.stamped _ r₀ hr₀
  have hwf := hi.consistent.requestWellFormed _ r₀ hr₀
  have hfilled : r₀.assignedAt.isSome ∧ r₀.respondedAt.isSome := by
    by_cases hl : s.isLive = true
    · rw [if_pos hl] at hst
      simp only [SupportRequest.WellFormed, hst] at hwf
      exact ⟨hwf.2.1, hwf.2.2.1⟩
    · rw [if_neg hl] at hst
      simp only [SupportRequest.WellFormed, hst] at hwf
      exact ⟨hwf.2.1, hwf.2.2.1⟩
  -- So the two stamps were there, and they have not changed since.
  rcases Option.isSome_iff_exists.mp hfilled.1 with ⟨τ₁, h₁⟩
  rcases Option.isSome_iff_exists.mp hfilled.2 with ⟨τ₂, h₂⟩
  constructor
  · intro τ hτ
    rw [hkeep.assignedAt τ₁ h₁, Option.some.injEq] at hτ
    rw [← hτ]
    exact hstamped.1 τ₁ h₁
  · intro τ hτ
    rw [hkeep.respondedAt τ₂ h₂, Option.some.injEq] at hτ
    rw [← hτ]
    exact hstamped.2 τ₂ h₂

/-- A closure that may commit: the session and its request are in hand, one
    closed and the other completed. -/
structure Closing (before : List Entry) (id : Uuid) (owner : Owner)
    (endedBy : RemoteSessionEndedBy) (g : Grip) (s₀ s : RemoteSession) (r : SupportRequest)
    (t : Timestamp) : Prop where
  grip : g = .wroteBoth id s ((closure t endedBy).apply s) s.supportRequestId r
    ((completion t).apply r)
  keeps : SessionKeeps s₀ s
  owned : owner.ofSession s = true
  live : s.isLive = true
  accepted : r.status = .accepted
  stamped : r.StampedBy t
  before : ∀ e ∈ before, e.time ≤ t

/-- What the transaction of a closure has shown when it ends. -/
def MayClose (before : List Entry) (id : Uuid) (owner : Owner) (endedBy : RemoteSessionEndedBy)
    (s₀ : RemoteSession) (t : Timestamp) (g : Grip) (w : World) : Prop :=
  t ≤ w.clock ∧ ∃ s r, Closing before id owner endedBy g s₀ s r t

/-- The time stays in the past. -/
theorem MayClose.persistent {id : Uuid} {owner : Owner} {endedBy : RemoteSessionEndedBy}
    {s₀ : RemoteSession} {t : Timestamp} {g : Grip} :
    (lifecycle calls throws).Persistent (MayClose before id owner endedBy s₀ t g) :=
  clock_persistent.and (fun _ _ _ _ _ _ h => h)

/-- The machine closes the session at this moment. -/
theorem Closing.committable {op : Operation} {p : Progress} {id : Uuid} {owner : Owner}
    {endedBy : RemoteSessionEndedBy} {g : Grip} {s₀ s : RemoteSession} {r : SupportRequest}
    {t : Timestamp} {a : Option Bool} {w : World}
    (h : Closing before id owner endedBy g s₀ s r t) (hop : calls c = op)
    (hcloses : op.ClosesAs id owner endedBy) (ha : At c p g w) (ht : t ≤ w.clock) :
    Committable calls c before a g w := by
  have hgrip := h.grip
  subst hgrip
  refine ⟨fun hp => ?_, fun sw hsw hold => ?_, t, h.before, ht, ?_⟩
  · rw [hop] at hp
    rcases hcloses with ⟨user, rfl, _⟩ | ⟨device, rfl, _⟩ <;> exact hp.elim
  · simp only [Grip.writes_wroteBoth, List.mem_singleton] at hsw
    rw [hsw] at hold
    simp only [reduceCtorEq] at hold
  · rw [hop, wroteBoth_writes (ha.session rfl) (ha.request rfl)]
    exact hcloses.explains (ha.session rfl) h.owned h.live (ha.request rfl) h.accepted h.stamped

/-- The transaction of a closure. The update of the session misses if the session
    is closed already; the update of its request cannot miss, because the session
    is live and in hand. -/
theorem closeBoth_spec {op : Operation} {id : Uuid} {owner : Owner}
    {endedBy : RemoteSessionEndedBy} {l : LoadedRemoteSession} {s₀ : RemoteSession}
    {t : Timestamp} {w₂ : World} {K : World → Prop} (hop : calls c = op)
    (hcloses : op.ClosesAs id owner endedBy) (hK : (lifecycle calls throws).Persistent K)
    (hKt : ∀ w, K w → t ≤ w.clock ∧ Saw c w₂ w) (hi₂ : Inv calls throws w₂)
    (hs₀ : w₂.tables.sessions id = some s₀) (ho : owner.ofSession s₀ = true)
    (hl : l.toRemoteSession = s₀) (ht : w₂.clock ≤ t) (hbefore : ∀ e ∈ before, e.time ≤ t) :
    (lifecycle calls throws).Triple (exec throws) c
      (fun w => At c (working before none false) .free w ∧ K w)
      (RemoteSessionsService.closeBoth l t endedBy)
      (fun _ w => ∃ a n g, At c (working before a n) g w ∧
        MayClose before id owner endedBy s₀ t g w)
      (fun e w => ∃ a n g, At c (working before a n) g w ∧ RefusedWith calls c e w) := by
  have hid : l.id = id := by
    rw [hl]
    exact hi₂.consistent.sessionId id s₀ hs₀
  have hreq : l.supportRequestId = s₀.supportRequestId := by
    rw [hl]
  have hdead : RemoteSessionStatus.closed ∉ activeRemoteSessionStatuses := by decide
  have hover : SupportRequestStatus.completed ∉ activeSupportRequestStatuses := by decide
  unfold RemoteSessionsService.closeBoth
  rw [hid, hreq]
  refine updateSession_free_then working_open hK hdead (fun w₃ hi₃ hk₃ hno => ?_)
    (fun w₃ s _ hk₃ hs hlive => ?_)
  · -- The other end, or the same one, has closed it since it was read.
    refine .throw (fun w _ hw => ⟨_, _, _, hw.1, .of_saw rfl hw.2.1 hi₃ (fun online _ => ?_)⟩)
    rcases (hKt w₃ hk₃).2.session hs₀ with ⟨s, hs, hkeep⟩
    rw [hop]
    refine refuses_close online hcloses.isClosure hs (Owner.ofSession_keeps hkeep ho) ?_
    by_contra hne
    exact hno s hs (of_decide_eq_true (isLive_iff.mpr hne))
  -- The row that is locked now is the one that was read, with what was filled in since.
  · rcases (hKt w₃ hk₃).2.session hs₀ with ⟨s', hs', hkeep⟩
    rw [hs, Option.some.injEq] at hs'
    subst hs'
    have hlive' : s.isLive = true := decide_eq_true hlive
    rw [← hkeep.supportRequestId]
    refine updateRequest_joined_then (Saw.persistent.and hK) hlive' hover
      (fun w₄ r _ hk₄ hr hst => ?_)
    -- The request was stamped when the session was read, and the clock was read after
    -- that.
    have hstamped : r.StampedBy w₂.clock := by
      refine stamped_of_session hi₂ hs₀ (hKt w₄ hk₄.2).2 ?_
      rw [← hkeep.supportRequestId]
      exact hr
    refine .ret (fun w _ hw => ⟨none, true, _, hw.1, (hKt w hw.2.2.2).1, s, r, ⟨rfl, hkeep,
      Owner.ofSession_keeps hkeep ho, hlive', hst, ?_, hbefore⟩⟩)
    exact ⟨fun τ hτ => Nat.le_trans (hstamped.1 τ hτ) ht,
      fun τ hτ => Nat.le_trans (hstamped.2 τ hτ) ht⟩

/-- A closure and what follows it are a time, a transaction, and what follows. -/
theorem close_bind {α : Type} {l : LoadedRemoteSession} {endedBy : RemoteSessionEndedBy}
    {k : LoadedRemoteSession → Service α} :
    (RemoteSessionsService.close l endedBy).bind k = newDate.bind (fun t =>
      (transaction (RemoteSessionsService.closeBoth l t endedBy)).bind (fun _ =>
        k { l with status := .closed, endedAt := some t, endedBy := some endedBy })) := by
  have h := Prog.bind_assoc newDate (fun t =>
    (transaction (RemoteSessionsService.closeBoth l t endedBy)).bind (fun _ => .ret
      { l with status := .closed, endedAt := some t, endedBy := some endedBy })) k
  simp only [Prog.bind_assoc (transaction _), Prog.ret_bind] at h
  exact h

/-- A closure and what follows it, for either end. The time is read before the
    transaction begins. -/
theorem close_then {α : Type} (before : List Entry) {Q : α → World → Prop} {op : Operation}
    {id : Uuid}
    {owner : Owner} {endedBy : RemoteSessionEndedBy} {l : LoadedRemoteSession}
    {s₀ : RemoteSession} {w₂ : World} {k : LoadedRemoteSession → Service α} (hop : calls c = op)
    (hcloses : op.ClosesAs id owner endedBy) (hi₂ : Inv calls throws w₂)
    (hs₀ : w₂.tables.sessions id = some s₀) (ho : owner.ofSession s₀ = true)
    (hl : l.toRemoteSession = s₀)
    (hk : ∀ (a : Option Bool) (T : Tables) s r t, SessionKeeps s₀ s →
      (lifecycle calls throws).Triple (exec throws) c
        (fun w => At c (announcing before a (closureWrites T id s r t endedBy) []) .free w ∧
          Since (T.apply (closureWrites T id s r t endedBy)) w)
        (k { l with status := .closed, endedAt := some t, endedBy := some endedBy })
        Q (Thrown calls throws c before)) :
    (lifecycle calls throws).Triple (exec throws) c
      (fun w => At c (working before none false) .free w ∧ Saw c w₂ w)
      ((RemoteSessionsService.close l endedBy).bind k) Q (Thrown calls throws c before) := by
  rw [close_bind]
  refine newDate_then working_open Saw.persistent (fun t w₃ hi₃ ha₃ hk₃ ht => ?_)
  have hclock : (lifecycle calls throws).Persistent (fun w => t ≤ w.clock) := clock_persistent
  have hsaw₂ : (lifecycle calls throws).Persistent (Saw c w₂) := Saw.persistent
  have hsaw₃ : (lifecycle calls throws).Persistent (Saw c w₃) := Saw.persistent
  have hK := (hclock.and hsaw₃).and hsaw₂
  refine transaction_then hK (fun _ _ g w => MayClose before id owner endedBy s₀ t g w)
    (fun _ _ _ => MayClose.persistent) (fun e _ w => RefusedWith calls c e w)
    (fun _ _ => RefusedWith.persistent)
    (closeBoth_spec hop hcloses hK (fun w hw => ⟨hw.1.1, hw.2⟩) hi₂ hs₀ ho hl
      (Nat.le_trans hk₃.clock ht)
      (fun e he => Nat.le_trans (ha₃.before_le hi₃ rfl e he) ht))
    (fun _ a n g w _ ha hr => ?_) (fun e a n w _ ha hr => .inl ⟨a, n, ha, hr⟩)
    (fun _ a n g w₀ hi ha hr => ?_)
  · rcases hr with ⟨htw, s, r, hc⟩
    exact hc.committable hop hcloses ha htw
  · rcases hr with ⟨_, s, r, hc⟩
    have hgrip := hc.grip
    subst hgrip
    -- What is in hand at the commit is what the commit writes.
    rw [wroteBoth_writes (ha.session rfl) (ha.request rfl)]
    exact (hk a w₀.tables s r t hc.keeps).weaken (fun _ _ h => ⟨h.1, h.2.1⟩)

/-- The answer of a closure shows the session closed. -/
theorem closed_shown {l : LoadedRemoteSession} {s₀ s : RemoteSession} {T : Tables} {id : Uuid}
    {r : SupportRequest} {t : Timestamp} {endedBy : RemoteSessionEndedBy}
    (hl : l.toRemoteSession = s₀) (hkeep : SessionKeeps s₀ s) (online : Bool) :
    ShowsSession (closureWrites T id s r t endedBy) (.remoteSession
      (RemoteSessionResponseDto.fromEntity
        { l with status := .closed, endedAt := some t, endedBy := some endedBy } online)) := by
  refine ⟨_, List.mem_singleton.mpr rfl, _, online, ?_, rfl, rfl⟩
  subst hl
  exact ⟨hkeep.id, hkeep.supportRequestId, hkeep.deviceId, hkeep.technicianId, hkeep.createdAt,
    hkeep.connectedAt, fun _ h => h, fun _ h => h⟩

/-- `closeByTechnician`. The device is told, and an error there comes through. -/
theorem closeByTechnician_spec {id : Uuid} {user : User}
    (hop : calls c = .closeByTechnician id user) :
    (lifecycle calls throws).Triple (exec throws) c (Begun c before w₁)
      (RemoteSessionsService.closeByTechnician id user)
      (fun dto => Done calls throws c before (.remoteSession dto))
      (Thrown calls throws c before) := by
  have hcloses : Operation.ClosesAs (.closeByTechnician id user) id (.technician user.id)
      .technician := .inl ⟨user, rfl, rfl, rfl⟩
  refine sessionOrFail_then working_open Saw.persistent
    (fun w₀ w hi₀ _ hno ha hsaw => ?_) (fun w₀ s₀ hi₀ _ hs₀ ho => ?_)
  · refine .of_saw ha rfl hsaw hi₀ (fun online _ => ?_)
    rw [hop]
    exact refuses_close_missing online hcloses.isClosure hno
  -- The response is made from the row that was read, with the closure added to it.
  have hid := hi₀.consistent.sessionId id s₀ hs₀
  have hclose := close_then before (l := w₀.loadSession s₀) hop hcloses hi₀ hs₀ ho rfl
    (fun _ T s r t hkeep => ?_) (Q := fun dto => Done calls throws c before
      (.remoteSession dto)) (k := fun closed =>
        (RemoteSessionsService.notifyDeviceClosed closed).bind
          (fun _ => RemoteSessionsService.toResponse closed))
  · exact hclose.weaken (fun _ _ h => ⟨h.1, h.2.1⟩)
  have hsends : announcements (calls c) (closureWrites T id s r t .technician) =
      [⟨.device s₀.deviceId, .remoteSessionClosed s₀.id .technician⟩] := by
    rw [hop, ← hkeep.deviceId, hid]
    rfl
  refine emit_then (e := ⟨.device s₀.deviceId, .remoteSessionClosed s₀.id .technician⟩) ?_
    Since.persistent (fun hthrow w _ ha _ => ?_) (fun hquiet => ?_)
  · rw [hsends]
    exact List.mem_cons_self
  · refine .inr ⟨rfl, ?_, hthrow, _, _, _, _, ha, hsends⟩
    rw [hop]
    trivial
  · refine toResponse_then Since.persistent (fun _ => hquiet) ?_ (fun online w _ => ?_)
    · rw [attempts, hsends, ← hquiet]
      rfl
    · rw [hop]
      exact closed_shown rfl hkeep online

/-- `closeByDevice`. The technician is told, and an error there is only logged. -/
theorem closeByDevice_spec {id : Uuid} {device : Device}
    (hop : calls c = .closeByDevice id device) :
    (lifecycle calls throws).Triple (exec throws) c (Begun c before w₁)
      (RemoteSessionsService.closeByDevice id device)
      (fun dto => Done calls throws c before (.remoteSession dto))
      (Thrown calls throws c before) := by
  have hcloses : Operation.ClosesAs (.closeByDevice id device) id (.device device.id) .device :=
    .inr ⟨device, rfl, rfl, rfl⟩
  refine sessionOrFail_then working_open Saw.persistent
    (fun w₀ w hi₀ _ hno ha hsaw => ?_) (fun w₀ s₀ hi₀ _ hs₀ ho => ?_)
  · refine .of_saw ha rfl hsaw hi₀ (fun online _ => ?_)
    rw [hop]
    exact refuses_close_missing online hcloses.isClosure hno
  have hid := hi₀.consistent.sessionId id s₀ hs₀
  have hclose := close_then before (l := w₀.loadSession s₀) hop hcloses hi₀ hs₀ ho rfl
    (fun _ T s r t hkeep => ?_) (Q := fun dto => Done calls throws c before
      (.remoteSession dto)) (k := fun closed =>
        (RemoteSessionsService.notifyTechnicianClosed closed).bind
          (fun _ => RemoteSessionsService.toResponse closed))
  · exact hclose.weaken (fun _ _ h => ⟨h.1, h.2.1⟩)
  have hsends : announcements (calls c) (closureWrites T id s r t .device) =
      [⟨.technician s₀.technicianId, .remoteSessionClosed s₀.id .device⟩] := by
    rw [hop, ← hkeep.technicianId, hid]
    rfl
  refine logErrors_then (e := ⟨.technician s₀.technicianId, .remoteSessionClosed s₀.id .device⟩)
    ?_ Since.persistent ?_
  · rw [hsends]
    exact List.mem_cons_self
  refine toResponse_then Since.persistent (fun hl => ?_) ?_ (fun online w _ => ?_)
  · rw [hop] at hl
    exact hl.elim
  · rw [attempts, hsends]
    rfl
  · rw [hop]
    exact closed_shown rfl hkeep online

end RemoteControl

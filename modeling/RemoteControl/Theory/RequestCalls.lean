import RemoteControl.Theory.Calls

/-!
# The Calls of the Support Requests

The five methods of `SupportRequestsService`, verified one by one: from its
beginning, a call ends done or thrown (`Theory.Calls`). A proof follows its
method statement by statement, with the rule for each, and at every error it
names the moment the call saw at which the machine refuses it.

What a call has seen is carried along as `Saw`, and a refusal is placed where
the query of the source has found its reason. Where an update has missed, the
reason is what the row looks like in the state the update ran in, and that it
is the same row follows from its having been seen before.

The two answers of a device share one method, and so they share one proof. A
cancellation is the one method here with a transaction of its own. What may be
committed at its end is `MayCancel`, and the emissions after the commit depend
on the status that the transaction returns.

## Main definitions

* `Begun`: Where a method begins.
* `Operation.AnswersWith`: The two answers with what they write.
* `Cancelling`, `MayCancel`: A cancellation that may commit.

## Theorems

* `createForDevice_spec`, `assign_spec`, `acceptByDevice_spec`,
  `rejectByDevice_spec`, `cancelByDevice_spec`: The five methods.
* `runDeviceTransition_spec`: The two answers of a device.
* `assign_announced`, `answer_announced`, `cancel_announced`: What follows a
  commit.
* `cancelLocked_spec`: The transaction of a cancellation.
* `Cancelling.committable`: What it holds may be committed.
-/

namespace RemoteControl

open Concurrency Machine

variable {calls : CallId → Operation} {throws : CallId → Emitter → Bool} {c : CallId}
  {before : List Entry} {w₁ : World}

/-- Where a method begins: the call has entered, and has looked at nothing
    but the state it entered in. -/
def Begun (c : CallId) (before : List Entry) (w₁ w : World) : Prop :=
  At c (working before none false) .free w ∧ Saw c w₁ w

/-- `createForDevice`. The one check is on the device, and the index decides the
    rest. -/
theorem createForDevice_spec {device : Device} (hop : calls c = .createForDevice device)
    (hi₁ : Inv calls throws w₁) :
    (lifecycle calls throws).Triple (exec throws) c (Begun c before w₁)
      (SupportRequestsService.createForDevice device)
      (fun dto => Done calls throws c before (.supportRequest dto))
      (Thrown calls throws c before) := by
  -- An inactive device is refused before anything is read.
  refine throwIf_then (fun hinactive w hi hw => ?_) (fun hactive => ?_)
  · rw [Bool.not_eq_true'] at hinactive
    refine .of_saw hw.1 rfl hw.2 hi₁ (fun online _ => ?_)
    rw [hop]
    exact refuses_inactive online hinactive
  rw [Bool.not_eq_false'] at hactive
  refine insertRequest_then hop hactive Saw.persistent
    (fun w hi ha => ha.before_le hi rfl) (fun w₀ name hi₀ _ hother => ?_)
    (fun w₀ row hi₀ _ htech => ?_)
  · -- The index was violated: the device has an active request already.
    rcases hother with ⟨j, r, hr, hd, hs⟩
    refine .throw (fun w _ hw => .of_saw hw.1 rfl hw.2.1 hi₀ (fun online _ => ?_))
    rw [hop]
    exact refuses_second_request online hactive hr hd hs
  -- Inserted and committed: the technicians are told, and the response shows the row.
  · have hsends : announcements (calls c) (requestWrites w₀.tables.requests row.id row) =
        [queueUpdated row.id] := by
      rw [hop]
      rfl
    refine notifyQueueUpdated_then (rfl : row.id = row.id)
      (by rw [hsends]; exact List.mem_cons_self)
      (Since.persistent.and Saw.persistent) ?_
    refine .ret (fun w _ hw => .of_sent (fun hl => ?_) hw.1 ?_ ?_)
    · rw [hop] at hl
      exact hl.elim
    · rw [attempts, hsends]
      rfl
    · rw [hop]
      exact ⟨_, List.mem_singleton.mpr rfl, _, .refl _, rfl⟩

/-- The row that a commit on one request wrote is still there. -/
theorem written_there {T : Tables} {id : Uuid} {row : SupportRequest} {w : World}
    (h : Since (T.apply (requestWrites T.requests id row)) w) :
    ∃ r', w.tables.requests id = some r' ∧ RequestKeeps row r' := by
  refine h.requests id row ?_
  rw [apply_requestWrites, if_pos rfl]

/-- An assignment after its commit. The device is told first, and an error
    there keeps the technicians from being told. -/
theorem assign_announced {T : Tables} {id : Uuid} {technician : User} {r : SupportRequest}
    {t : Timestamp} (hop : calls c = .assign id technician) (hid : r.id = id) :
    (lifecycle calls throws).Triple (exec throws) c
      (fun w => At c (announcing before (some true)
          (requestWrites T.requests id ((assignment technician.id t).apply r)) []) .free w ∧
        Since (T.apply (requestWrites T.requests id ((assignment technician.id t).apply r))) w)
      ((SupportRequestsService.findByIdOrFail id).bind (fun updated =>
        (SupportRequestsService.notifyAssigned updated technician).bind (fun _ =>
          (SupportRequestsService.notifyQueueUpdated updated).bind (fun _ =>
            SupportRequestsService.toTechnicianResponse updated))))
      (fun dto => Done calls throws c before (.supportRequest dto))
      (Thrown calls throws c before) := by
  -- The row is read again, and the emissions are made from what is read.
  refine reread_then announcing_open Since.persistent (fun w hk => written_there hk)
    (fun w₀ r' hkeep => ?_)
  have hid' : r'.id = id := hkeep.id.trans hid
  have hsends : announcements (calls c) (requestWrites T.requests id
      ((assignment technician.id t).apply r)) =
      [⟨.device r'.deviceId, .supportAssigned r'.id ⟨technician.id, technician.fullName⟩⟩,
        queueUpdated id] := by
    rw [hop, hkeep.deviceId, hid']
    rfl
  have hleaks : (calls c).Leaks := by
    rw [hop]
    trivial
  refine emit_then (e := ⟨.device r'.deviceId, .supportAssigned r'.id
    ⟨technician.id, technician.fullName⟩⟩) ?_ Since.persistent (fun hthrow w _ ha _ => ?_)
    (fun hquiet => ?_)
  · rw [hsends]
    exact List.mem_cons_self
  -- The error of the device's emission comes through, and nothing else is sent.
  · exact .inr ⟨rfl, hleaks, hthrow, _, _, _, _, ha, hsends⟩
  refine notifyQueueUpdated_then hid' ?_ Since.persistent ?_
  · rw [hsends]
    exact List.mem_cons_of_mem _ List.mem_cons_self
  refine isOnline_then announcing_open Since.persistent (fun b _ _ _ _ => ?_)
  refine .ret (fun w _ hw => .of_sent (a := some true) (fun _ => hquiet) hw.1 ?_ ?_)
  · rw [attempts, hsends, ← hquiet]
    rfl
  · rw [hop]
    exact ⟨b, _, List.mem_singleton.mpr rfl, w₀.loadRequest r', hkeep, rfl⟩

/-- `assign`. Three checks stand before the update, and the update checks the
    status once more. -/
theorem assign_spec {id : Uuid} {technician : User} (hop : calls c = .assign id technician) :
    (lifecycle calls throws).Triple (exec throws) c (Begun c before w₁)
      (SupportRequestsService.assign id technician)
      (fun dto => Done calls throws c before (.supportRequest dto))
      (Thrown calls throws c before) := by
  refine requestOrFail_then working_open Saw.persistent
    (fun w₀ w hi₀ _ hno ha hsaw => ?_) (fun w₀ r hi₀ _ hr _ => ?_)
  · refine .of_saw ha rfl hsaw hi₀ (fun online _ => ?_)
    rw [hop]
    refine refuses_assign_missing online (Option.eq_none_iff_forall_ne_some.mpr ?_)
    intro r hr
    have hc := hno r hr
    simp only [Owner.ofRequest, Bool.true_eq_false] at hc
  -- The request is not waiting any more.
  refine throwIf_then (fun hst w _ hw => ?_) (fun _ => ?_)
  · refine .of_saw hw.1 rfl hw.2.1 hi₀ (fun online _ => ?_)
    rw [hop]
    exact refuses_assign hr (fun hc => absurd hc (of_decide_eq_true hst))
  have hsaw₀ : (lifecycle calls throws).Persistent (Saw c w₀) := Saw.persistent
  have hsaw₁ : (lifecycle calls throws).Persistent (Saw c w₁) := Saw.persistent
  have hK := hsaw₀.and hsaw₁
  -- The presence is asked for the device of the row that was read.
  refine isOnline_then working_open hK (fun b w₂ hi₂ _ hk₂ => ?_)
  refine throwIf_then (fun hoff w _ hw => ?_) (fun hon => ?_)
  · refine .of_saw (a := some b) (n := false) hw.1 rfl hw.2.1 hi₂ (fun online ho => ?_)
    rw [hw.1.progress] at ho
    -- The request is there still, and whatever its status is, the device is offline.
    rcases hk₂.1.request hr with ⟨r₂, hr₂, _⟩
    rw [hop]
    refine refuses_assign hr₂ (fun _ => ?_)
    rw [ho b rfl]
    exact Bool.not_eq_true' _ ▸ hoff
  rw [Bool.not_eq_false'] at hon
  subst hon
  refine newDate_then working_open (Saw.persistent.and hK) (fun t w₃ hi₃ ha₃ _ ht₃ => ?_)
  refine updateRequest_auto_then before
    ((clock_persistent.and Saw.persistent).and (Saw.persistent.and hK)) (fun _ => rfl)
    (fun w r' _ hk hr' hst => ?_) (fun w₄ hi₄ hk₄ hno => ?_) (fun w₄ r₄ hi₄ _ hr₄ _ => ?_)
  -- The status is waiting in the very state that the update runs in.
  · refine ⟨t, fun e he => Nat.le_trans (ha₃.before_le hi₃ rfl e he) ht₃, hk.1.1, ?_⟩
    rw [hop]
    exact .assigned id technician r' hr' (List.mem_singleton.mp hst)
  · -- The request was taken or cancelled since it was read.
    refine .throw (fun w _ hw => .of_saw hw.1 rfl hw.2.1 hi₄ (fun online _ => ?_))
    rcases (hk₄.2.2.1).request hr with ⟨r₄, hr₄, _⟩
    rw [hop]
    refine refuses_assign hr₄ (fun hc => absurd ?_ (hno r₄ hr₄))
    rw [hc]
    exact List.mem_singleton.mpr rfl
  · exact (assign_announced hop (hi₄.consistent.requestId id r₄ hr₄)).weaken
      (fun _ _ h => ⟨h.1, h.2.1⟩)

/-! ## The answers of a device -/

/-- The two answers with what they write. -/
def Operation.AnswersWith (op : Operation) (id : Uuid) (device : Device) (t : Timestamp)
    (changes : SupportRequestTransition) : Prop :=
  (op = .acceptByDevice id device ∧ changes = acceptance t) ∨
  (op = .rejectByDevice id device ∧ changes = rejection t)

/-- Both are answers of the device. -/
theorem Operation.AnswersWith.isAnswer {op : Operation} {id : Uuid} {device : Device}
    {t : Timestamp} {changes : SupportRequestTransition}
    (h : op.AnswersWith id device t changes) : op.IsAnswer id device := by
  rcases h with ⟨rfl, _⟩ | ⟨rfl, _⟩
  · exact .inl rfl
  · exact .inr rfl

/-- Both are what such a call may commit. -/
theorem Operation.AnswersWith.explains {op : Operation} {id : Uuid} {device : Device}
    {t : Timestamp} {changes : SupportRequestTransition} {T : Tables} {r : SupportRequest}
    (h : op.AnswersWith id device t changes) (hr : T.requests id = some r)
    (hd : r.deviceId = device.id) (hs : r.status = .assigned) :
    Explains T t op (requestWrites T.requests id (changes.apply r)) := by
  rcases h with ⟨rfl, rfl⟩ | ⟨rfl, rfl⟩
  · exact .accepted id device r hr hd hs
  · exact .rejected id device r hr hd hs

/-- An answer after its commit: the technician of the request is told. -/
theorem answer_announced {T : Tables} {op : Operation} {id : Uuid} {device : Device}
    {t : Timestamp} {changes : SupportRequestTransition} {r : SupportRequest}
    {technicianId : Uuid} (hop : calls c = op) (hans : op.AnswersWith id device t changes)
    (hid : r.id = id) (hu : r.technicianId = some technicianId) :
    (lifecycle calls throws).Triple (exec throws) c
      (fun w => At c (announcing before none
          (requestWrites T.requests id (changes.apply r)) []) .free w ∧
        Since (T.apply (requestWrites T.requests id (changes.apply r))) w)
      ((SupportRequestsService.findByIdOrFail id).bind (fun updated =>
        (SupportRequestsService.notifyTechnicianUpdated updated).bind (fun _ =>
          .ret (SupportRequestResponseDto.forDevice updated))))
      (fun dto => Done calls throws c before (.supportRequest dto))
      (Thrown calls throws c before) := by
  -- An answer does not change the technician.
  have htech : (changes.apply r).technicianId = some technicianId := by
    rcases hans with ⟨_, rfl⟩ | ⟨_, rfl⟩
    · exact hu
    · exact hu
  have hsends : announcements (calls c) (requestWrites T.requests id (changes.apply r)) =
      [⟨.technician technicianId, .supportRequestUpdated id⟩] := by
    rw [hop]
    rcases hans with ⟨rfl, _⟩ | ⟨rfl, _⟩ <;>
      simp only [announcements, requestWrites, technicianUpdated, htech, List.flatMap_cons,
        List.flatMap_nil, Option.toList_some, List.map_cons, List.map_nil, List.append_nil]
  refine reread_then announcing_open Since.persistent (fun w hk => written_there hk)
    (fun w₀ r' hkeep => ?_)
  refine notifyTechnicianUpdated_then (hkeep.id.trans hid)
    (hkeep.technicianId _ htech) ?_ Since.persistent ?_
  · rw [hsends]
    exact List.mem_cons_self
  refine .ret (fun w _ hw => .of_sent (fun hl => ?_) hw.1 ?_ ?_)
  · rw [hop] at hl
    rcases hans with ⟨rfl, _⟩ | ⟨rfl, _⟩ <;> exact hl.elim
  · rw [attempts, hsends]
    rfl
  · rw [hop]
    rcases hans with ⟨rfl, _⟩ | ⟨rfl, _⟩ <;>
      exact ⟨_, List.mem_singleton.mpr rfl, w₀.loadRequest r', hkeep, rfl⟩

/-- `runDeviceTransition`. The status is checked by the update alone. -/
theorem runDeviceTransition_spec {op : Operation} {id : Uuid} {device : Device}
    {t : Timestamp} {changes : SupportRequestTransition} {w₂ : World} (hop : calls c = op)
    (hans : op.AnswersWith id device t changes) (hbefore : ∀ e ∈ before, e.time ≤ t) :
    (lifecycle calls throws).Triple (exec throws) c
      (fun w => At c (working before none false) .free w ∧ (t ≤ w.clock ∧ Saw c w₂ w) ∧
        Saw c w₁ w)
      (SupportRequestsService.runDeviceTransition id device [.assigned] changes)
      (fun dto => Done calls throws c before (.supportRequest dto))
      (Thrown calls throws c before) := by
  have hclock : (lifecycle calls throws).Persistent (fun w => t ≤ w.clock) := clock_persistent
  have hsaw₁ : (lifecycle calls throws).Persistent (Saw c w₁) := Saw.persistent
  have hsaw₂ : (lifecycle calls throws).Persistent (Saw c w₂) := Saw.persistent
  have hK := (hclock.and hsaw₂).and hsaw₁
  have hdevice : ∀ r : SupportRequest, (Owner.device device.id).ofRequest r = true →
      r.deviceId = device.id := fun r ho => of_decide_eq_true ho
  refine requestOrFail_then working_open hK
    (fun w₀ w hi₀ _ hno ha hsaw => ?_) (fun w₀ r hi₀ hk₀ hr ho => ?_)
  -- There is no such request of this device.
  · refine .of_saw ha rfl hsaw hi₀ (fun online _ => ?_)
    rw [hop]
    exact refuses_answer_missing online hans.isAnswer
      (fun r hr => of_decide_eq_false (hno r hr))
  -- Another call may change the row before the update; only its owner is fixed.
  refine updateRequest_auto_then before (Saw.persistent.and hK) (fun hp => ?_)
    (fun w r' _ hk hr' hst => ?_) (fun w₄ hi₄ hk₄ hno => ?_) (fun w₄ r₄ hi₄ hk₄ hr₄ hst => ?_)
  · rw [hop] at hp
    rcases hans with ⟨rfl, _⟩ | ⟨rfl, _⟩ <;> exact hp.elim
  · rcases hk.1.request hr with ⟨r'', hr'', hkeep⟩
    rw [hr', Option.some.injEq] at hr''
    subst hr''
    refine ⟨t, hbefore, hk.2.1.1, ?_⟩
    rw [hop]
    exact hans.explains hr' (hkeep.deviceId.trans (hdevice r ho)) (List.mem_singleton.mp hst)
  -- The update has missed, so the status was another one.
  · refine .throw (fun w _ hw => .of_saw hw.1 rfl hw.2.1 hi₄ (fun online _ => ?_))
    rcases hk₄.1.request hr with ⟨r₄, hr₄, hkeep⟩
    rw [hop]
    exact refuses_answer online hans.isAnswer hr₄ (hkeep.deviceId.trans (hdevice r ho))
      (fun hc => hno r₄ hr₄ (List.mem_singleton.mpr hc))
  -- An assigned request has a technician, who is told.
  · have hwf := hi₄.consistent.requestWellFormed id r₄ hr₄
    simp only [SupportRequest.WellFormed, List.mem_singleton.mp hst] at hwf
    rcases Option.isSome_iff_exists.mp hwf.1 with ⟨technicianId, hu⟩
    exact (answer_announced hop hans (hi₄.consistent.requestId id r₄ hr₄) hu).weaken
      (fun _ _ h => ⟨h.1, h.2.1⟩)

/-- `acceptByDevice`. The clock is read before the request. -/
theorem acceptByDevice_spec {id : Uuid} {device : Device}
    (hop : calls c = .acceptByDevice id device) :
    (lifecycle calls throws).Triple (exec throws) c (Begun c before w₁)
      (SupportRequestsService.acceptByDevice id device)
      (fun dto => Done calls throws c before (.supportRequest dto))
      (Thrown calls throws c before) :=
  newDate_then working_open Saw.persistent (fun _ _ hi ha _ ht =>
    runDeviceTransition_spec hop (.inl ⟨rfl, rfl⟩)
      (fun e he => Nat.le_trans (ha.before_le hi rfl e he) ht))

/-- `rejectByDevice`. It differs in what is written. -/
theorem rejectByDevice_spec {id : Uuid} {device : Device}
    (hop : calls c = .rejectByDevice id device) :
    (lifecycle calls throws).Triple (exec throws) c (Begun c before w₁)
      (SupportRequestsService.rejectByDevice id device)
      (fun dto => Done calls throws c before (.supportRequest dto))
      (Thrown calls throws c before) :=
  newDate_then working_open Saw.persistent (fun _ _ hi ha _ ht =>
    runDeviceTransition_spec hop (.inr ⟨rfl, rfl⟩)
      (fun e he => Nat.le_trans (ha.before_le hi rfl e he) ht))

/-! ## Cancellation -/

/-- A cancellation that may commit: the request is in hand with its new
    version, it was active, and if it was accepted it has no session. -/
structure Cancelling (before : List Entry) (id : Uuid) (device : Device)
    (previous : SupportRequestStatus) (g : Grip) (r : SupportRequest) (t : Timestamp)
    (alone : Bool) : Prop where
  grip : g = .wroteRequest id r ((cancellation t).apply r) alone
  previous : r.status = previous
  requestId : r.id = id
  owned : r.deviceId = device.id
  active : r.isActive = true
  alone : r.status = .accepted → alone = true
  assigned : r.status ≠ .waiting → r.technicianId.isSome
  stamped : r.StampedBy t
  before : ∀ e ∈ before, e.time ≤ t

/-- What the transaction of a cancellation has shown when it ends: its row is in
    hand, and the time of the cancellation is in the past. -/
def MayCancel (before : List Entry) (id : Uuid) (device : Device)
    (previous : SupportRequestStatus) (g : Grip) (w : World) : Prop :=
  ∃ r t alone, Cancelling before id device previous g r t alone ∧ t ≤ w.clock

/-- The time stays in the past. -/
theorem MayCancel.persistent {id : Uuid} {device : Device} {previous : SupportRequestStatus}
    {g : Grip} : (lifecycle calls throws).Persistent (MayCancel before id device previous g) := by
  intro d w w' _ _ hg h
  rcases h with ⟨r, t, alone, hc, ht⟩
  exact ⟨r, t, alone, hc, Nat.le_trans ht hg.clock⟩

/-- The machine cancels the request at this moment. -/
theorem Cancelling.committable {p : Progress} {id : Uuid} {device : Device}
    {previous : SupportRequestStatus} {g : Grip} {r : SupportRequest} {t : Timestamp}
    {alone : Bool} {a : Option Bool} {w : World}
    (h : Cancelling before id device previous g r t alone)
    (hop : calls c = .cancelByDevice id device) (hi : Inv calls throws w) (ha : At c p g w)
    (ht : t ≤ w.clock) : Committable calls c before a g w := by
  have hgrip := h.grip
  subst hgrip
  have hr : w.tables.requests id = some r := ha.request rfl
  refine ⟨fun hp => ?_, fun s hs => ?_, t, h.before, ht, ?_⟩
  · rw [hop] at hp
    exact hp.elim
  · simp only [Grip.writes_wroteRequest, List.not_mem_nil] at hs
  · rw [hop, wroteRequest_writes hr]
    refine .cancelled id device r hr h.owned h.active ?_ h.stamped
    -- If the request was accepted, it is in hand and has no session. Otherwise its
    -- status says that it has none.
    by_cases hst : r.status = .accepted
    · rcases ha.alone (h.alone hst) with ⟨hd, hg, hnone⟩
      simp only [Grip.wroteRequest, Option.some.injEq] at hg
      subst hg
      exact hnone
    · refine fun k s => hi.consistent.no_session hr hst (fun hc => ?_)
      have hactive := h.active
      rw [isActive_iff, hc] at hactive
      simp only [reduceCtorEq, or_self] at hactive

/-- The update of a cancellation, with the request in hand. It cannot miss,
    because nobody else can have changed the row. -/
theorem cancelLocked_update {K : World → Prop} {id : Uuid} {device : Device}
    {r : SupportRequest} {alone : Bool} (hK : (lifecycle calls throws).Persistent K)
    (hd : r.deviceId = device.id) (hs : r.isActive = true)
    (halone : r.status = .accepted → alone = true) :
    (lifecycle calls throws).Triple (exec throws) c
      (fun w => At c (working before none false) (.ofRequest id r alone) w ∧ K w)
      (newDate.bind (fun now =>
        (SupportRequestsService.applyTransition .entityManager id activeSupportRequestStatuses
          { status := .cancelled, closedAt := some now }).bind (fun cancelled =>
            (throwIf (!cancelled) (SupportRequestsService.cannotChange id r.status
              .cancelled)).bind (fun _ => .ret r.status))))
      (fun previous w => ∃ a n g, At c (working before a n) g w ∧
        MayCancel before id device previous g w)
      (fun e w => ∃ a n g, At c (working before a n) g w ∧ RefusedWith calls c e w) := by
  refine newDate_then working_open hK (fun t w₀ hi₀ ha₀ _ ht => ?_)
  have hr : w₀.tables.requests id = some r := ha₀.request rfl
  have hwf := hi₀.consistent.requestWellFormed id r hr
  have hstamped := hi₀.stamped id r hr
  refine updateRequest_held_then ((clock_persistent.and Saw.persistent).and hK)
    (isActive_mem.mp hs) (fun _ => hs) (fun w₂ _ hk₂ => ?_)
  refine .ret (fun w _ hw => ⟨none, true, _, hw.1, r, t, alone, ⟨rfl, rfl,
    hi₀.consistent.requestId id r hr, hd, hs, halone, fun hne => ?_, ?_, fun e he => ?_⟩,
    hw.2.2.1.1⟩)
  -- Only a waiting request is without a technician.
  · rcases isActive_iff.mp hs with hst | hst | hst
    · exact absurd hst hne
    · simp only [SupportRequest.WellFormed, hst] at hwf
      exact hwf.1
    · simp only [SupportRequest.WellFormed, hst] at hwf
      exact hwf.1
  -- The row was stamped before the clock was read.
  · exact ⟨fun τ hτ => Nat.le_trans (hstamped.1 τ hτ) ht,
      fun τ hτ => Nat.le_trans (hstamped.2 τ hτ) ht⟩
  · exact Nat.le_trans (ha₀.before_le hi₀ rfl e he) ht

/-- The transaction of a cancellation. It ends with a cancellation that may
    commit, or with the reason for its error. -/
theorem cancelLocked_spec {id : Uuid} {device : Device}
    (hop : calls c = .cancelByDevice id device) :
    (lifecycle calls throws).Triple (exec throws) c (Begun c before w₁)
      (SupportRequestsService.cancelLocked id device)
      (fun previous w => ∃ a n g, At c (working before a n) g w ∧
        MayCancel before id device previous g w)
      (fun e w => ∃ a n g, At c (working before a n) g w ∧ RefusedWith calls c e w) := by
  refine lockRequestOrFail_then working_open Saw.persistent
    (fun w₀ w hi₀ _ hno ha hsaw => ?_) (fun w₀ r hi₀ _ hr ho => ?_)
  -- There is no such request of this device.
  · refine ⟨_, _, _, ha, .of_saw rfl hsaw hi₀ (fun online _ => ?_)⟩
    rw [hop]
    exact refuses_cancel_missing online (fun r hr => of_decide_eq_false (hno r hr))
  have hd : r.deviceId = device.id := of_decide_eq_true ho
  refine throwIf_then (fun hinactive w _ hw => ?_) (fun hactive => ?_)
  -- The request is over.
  · refine ⟨_, _, _, hw.1, .of_saw rfl hw.2.1 hi₀ (fun online _ => ?_)⟩
    rw [hop]
    refine refuses_cancel online hr hd (fun hc => ?_)
    rw [hc] at hinactive
    simp only [Bool.not_true, Bool.false_eq_true] at hinactive
  rw [Bool.not_eq_false'] at hactive
  have hsaw₀ : (lifecycle calls throws).Persistent (Saw c w₀) := Saw.persistent
  have hsaw₁ : (lifecycle calls throws).Persistent (Saw c w₁) := Saw.persistent
  have hK := hsaw₀.and hsaw₁
  -- Only for an accepted request are the sessions looked at.
  by_cases hst : r.status = .accepted
  · simp only [if_pos hst]
    refine existsLiveSession_then working_open hK
      (fun s hid _ hl => by simp only [LiveSessionOf.found, hid, hl, decide_true, Bool.and_true])
      hst (fun w₂ hi₂ _ hr₂ hlive => ?_) (fun w₂ _ _ _ => ?_)
    · -- A session was opened before the request was locked.
      refine .throw (fun w _ hw => ⟨_, _, _, hw.1, .of_saw rfl hw.2.1 hi₂ (fun online _ => ?_)⟩)
      rcases hlive with ⟨j, s, hs, hfound⟩
      simp only [LiveSessionOf.found, Bool.and_eq_true, decide_eq_true_eq] at hfound
      rw [hop]
      exact refuses_cancel online hr₂ hd (fun _ => ⟨j, s, hs, hfound.1, hfound.2⟩)
    -- The request is in hand, so none can be opened until the commit.
    · exact cancelLocked_update (Saw.persistent.and hK) hd hactive (fun _ => rfl)
  · simp only [if_neg hst]
    exact cancelLocked_update hK hd hactive (fun hc => absurd hc hst)

/-- A cancellation after its commit: the technicians are told that the queue has
    changed, or the technician of the request that it is gone. Which of the two is
    decided by the status that the transaction has found. -/
theorem cancel_announced {T : Tables} {id : Uuid} {device : Device}
    {previous : SupportRequestStatus} {g : Grip} {r : SupportRequest} {t : Timestamp}
    {alone : Bool} {a : Option Bool} (h : Cancelling before id device previous g r t alone)
    (hop : calls c = .cancelByDevice id device) (hr : T.requests id = some r) :
    (lifecycle calls throws).Triple (exec throws) c
      (fun w => At c (announcing before a
          (requestWrites T.requests id ((cancellation t).apply r)) []) .free w ∧
        Since (T.apply (requestWrites T.requests id ((cancellation t).apply r))) w)
      ((SupportRequestsService.findByIdOrFail id).bind (fun cancelled =>
        if previous = .waiting then
          (SupportRequestsService.notifyQueueUpdated cancelled).bind (fun _ =>
            .ret (SupportRequestResponseDto.forDevice cancelled))
        else
          (SupportRequestsService.notifyTechnicianUpdated cancelled).bind (fun _ =>
            .ret (SupportRequestResponseDto.forDevice cancelled))))
      (fun dto => Done calls throws c before (.supportRequest dto))
      (Thrown calls throws c before) := by
  -- The end is the same in both branches, once the emissions are attempted.
  have hend : ∀ (w₀ : World) (r' : SupportRequest) (sent : List (Emission × Bool)),
      RequestKeeps ((cancellation t).apply r) r' →
      sent = attempts calls throws c (requestWrites T.requests id ((cancellation t).apply r)) →
      (lifecycle calls throws).Triple (exec throws) c
        (fun w => At c (announcing before a
            (requestWrites T.requests id ((cancellation t).apply r)) sent) .free w ∧
          Since (T.apply (requestWrites T.requests id ((cancellation t).apply r))) w)
        (.ret (SupportRequestResponseDto.forDevice (w₀.loadRequest r')))
        (fun dto => Done calls throws c before (.supportRequest dto))
        (Thrown calls throws c before) := by
    intro w₀ r' sent hkeep hsent
    refine .ret (fun w _ hw => .of_sent (fun hl => ?_) hw.1 hsent ?_)
    · rw [hop] at hl
      exact hl.elim
    · rw [hop]
      exact ⟨_, List.mem_singleton.mpr rfl, w₀.loadRequest r', hkeep, rfl⟩
  have hsends : announcements (calls c) (requestWrites T.requests id
      ((cancellation t).apply r)) = cancelNotice ⟨id, some r, (cancellation t).apply r⟩ := by
    rw [hop]
    simp only [announcements, requestWrites, hr, List.flatMap_cons, List.flatMap_nil,
      List.append_nil]
  refine reread_then announcing_open Since.persistent (fun w hk => written_there hk)
    (fun w₀ r' hkeep => ?_)
  have hid' : r'.id = id := hkeep.id.trans h.requestId
  by_cases hw : previous = .waiting
  · have hnotice : cancelNotice ⟨id, some r, (cancellation t).apply r⟩ = [queueUpdated id] := by
      simp only [cancelNotice, Option.any_some, h.previous, hw, decide_true, if_true]
    rw [hnotice] at hsends
    simp only [if_pos hw]
    refine notifyQueueUpdated_then hid' ?_ Since.persistent (hend w₀ r' _ hkeep ?_)
    · rw [hsends]
      exact List.mem_cons_self
    · rw [attempts, hsends]
      rfl
  · have hne : r.status ≠ .waiting := by
      rw [h.previous]
      exact hw
    rcases Option.isSome_iff_exists.mp (h.assigned hne) with ⟨technicianId, hu⟩
    have htech : ((cancellation t).apply r).technicianId = some technicianId := hu
    have hnotice : cancelNotice ⟨id, some r, (cancellation t).apply r⟩ =
        [⟨.technician technicianId, .supportRequestUpdated id⟩] := by
      simp only [cancelNotice, Option.any_some, hne, decide_false, Bool.false_eq_true, if_false,
        technicianUpdated, htech, Option.toList_some, List.map_cons, List.map_nil]
    rw [hnotice] at hsends
    simp only [if_neg hw]
    refine notifyTechnicianUpdated_then hid' (hkeep.technicianId _ htech) ?_
      Since.persistent (hend w₀ r' _ hkeep ?_)
    · rw [hsends]
      exact List.mem_cons_self
    · rw [attempts, hsends]
      rfl

/-- `cancelByDevice`. The transaction, its commit and what follows it. -/
theorem cancelByDevice_spec {id : Uuid} {device : Device}
    (hop : calls c = .cancelByDevice id device) :
    (lifecycle calls throws).Triple (exec throws) c (Begun c before w₁)
      (SupportRequestsService.cancelByDevice id device)
      (fun dto => Done calls throws c before (.supportRequest dto))
      (Thrown calls throws c before) := by
  refine transaction_then Saw.persistent
    (fun previous _ g w => MayCancel before id device previous g w)
    (fun _ _ _ => MayCancel.persistent) (fun e _ w => RefusedWith calls c e w)
    (fun _ _ => RefusedWith.persistent) (cancelLocked_spec hop)
    (fun previous a n g w hi ha hr => ?_) (fun e a n w _ ha hr => .inl ⟨a, n, ha, hr⟩)
    (fun previous a n g w₀ hi ha hr => ?_)
  · rcases hr with ⟨r, t, alone, hc, ht⟩
    exact hc.committable hop hi ha ht
  · rcases hr with ⟨r, t, alone, hc, _⟩
    have hgrip := hc.grip
    subst hgrip
    rw [wroteRequest_writes (ha.request rfl)]
    exact (cancel_announced hc hop (ha.request rfl)).weaken (fun _ _ h => ⟨h.1, h.2.1⟩)

end RemoteControl

import RemoteControl.Theory.CallsAlone
import RemoteControl.Theory.OwnRows
import RemoteControl.Theory.Recovery

/-!
# The Calls of an Owner

The calls that are made for a device or a technician, each run alone. Its
answer is the reply that the rows of the caller call for, and it changes no
other row (`call_lone`).

Two things are not in the methods themselves and come from the rows of a
reachable state. An insertion of a session never clashes with the row of
another owner: what clashes is a session of the same technician, which was
asked about before. And the request of a session belongs to both ends of it,
so completing it is no change to a row of someone else.

Run alone, a program is a function of the state, and is followed statement by
statement (`Lone`). Every branch it may take corresponds to a branch of the
reply, so each step has the same shape: the condition of the source is read
off the rows of the owner, the reply is rewritten accordingly, and the program
goes on in the branch that is left. What is emitted does not matter, unless an
emission throws that is not caught.

## Main definitions

* `EndsAs`, `Replies`: The reply of the rows, and nothing of the others
  changed.

## Theorems

* `answered_lone`, `cancelled_lone`, `opened_lone`, `activated_lone`,
  `closed_lone`: The transitions.
* `call_lone`: Every call.
* `ownRows_request`, `ownRows_session`, `of_ownRows_request`,
  `of_ownRows_session`: The rows of an owner, and the rows of the state.
* `currentRequest_eq`, `currentSession_eq`: The current row of an owner is the
  one there is.
* `spares_request`, `opened_spares`, `activated_spares`, `closed_spares`: What
  a commit spares.
-/

namespace RemoteControl

open Concurrency

variable {calls : CallId → Operation} {throws : CallId → Emitter → Bool} {c : CallId} {env : Env}
  {w₀ : World} {owner : Owner}

/-! ## The rows of an owner in a state -/

/-- A request of the owner's, as it is in the table. -/
theorem ownRows_request {id : Uuid} {r : SupportRequest} (hr : w₀.tables.requests id = some r)
    (ho : owner.ofRequest r = true) :
    (w₀.ownRows env owner).requests id = some (w₀.ownRequest env r) := by
  simp only [World.ownRows, hr, Option.filter_some, ho, if_true, Option.map_some]

/-- A session of the owner's, as it is in the table. -/
theorem ownRows_session {id : Uuid} {s : RemoteSession} (hs : w₀.tables.sessions id = some s)
    (ho : owner.ofSession s = true) :
    (w₀.ownRows env owner).sessions id = some (w₀.ownSession env s) := by
  simp only [World.ownRows, hs, Option.filter_some, ho, if_true, Option.map_some]

/-- A request that is not the owner's is none. -/
theorem ownRows_request_none {id : Uuid}
    (h : ∀ r, w₀.tables.requests id = some r → owner.ofRequest r = false) :
    (w₀.ownRows env owner).requests id = none := by
  rw [World.ownRows, owned_eq_none]
  exact h

/-- A session that is not the owner's is none. -/
theorem ownRows_session_none {id : Uuid}
    (h : ∀ s, w₀.tables.sessions id = some s → owner.ofSession s = false) :
    (w₀.ownRows env owner).sessions id = none := by
  rw [World.ownRows, owned_eq_none]
  exact h

/-- What the owner has of requests is in the table. -/
theorem of_ownRows_request {id : Uuid} {o : OwnRequest}
    (h : (w₀.ownRows env owner).requests id = some o) :
    ∃ r, w₀.tables.requests id = some r ∧ owner.ofRequest r = true ∧ o = w₀.ownRequest env r := by
  rcases owned_eq_some.mp h with ⟨r, hr, ho, rfl⟩
  exact ⟨r, hr, ho, rfl⟩

/-- What the owner has of sessions is in the table. -/
theorem of_ownRows_session {id : Uuid} {o : OwnSession}
    (h : (w₀.ownRows env owner).sessions id = some o) :
    ∃ s, w₀.tables.sessions id = some s ∧ owner.ofSession s = true ∧ o = w₀.ownSession env s := by
  rcases owned_eq_some.mp h with ⟨s, hs, ho, rfl⟩
  exact ⟨s, hs, ho, rfl⟩

/-- The row itself is among what belongs to it. -/
@[simp] theorem ownRequest_row (r : SupportRequest) : (w₀.ownRequest env r).row = r := rfl

/-- Likewise for a session. -/
@[simp] theorem ownSession_row (s : RemoteSession) : (w₀.ownSession env s).row = s := rfl

/-- A request of the owner's, with other columns. -/
theorem ownRequest_shown {r row : SupportRequest} (hd : row.deviceId = r.deviceId)
    (ht : row.technicianId = r.technicianId) :
    ((w₀.ownRequest env r).withRow row).shown = w₀.showRequest row := by
  simp only [OwnRequest.shown, OwnRequest.loaded, OwnRequest.withRow, World.ownRequest,
    World.showRequest, World.loadRequest, hd, ht]

/-- A session of the owner's, with other columns. -/
theorem ownSession_shown {s row : RemoteSession} (hd : row.deviceId = s.deviceId)
    (ht : row.technicianId = s.technicianId) :
    ((w₀.ownSession env s).withRow row).shown = w₀.showSession env row := by
  simp only [OwnSession.shown, OwnSession.loaded, OwnSession.withRow, World.ownSession,
    World.showSession, World.loadSession, hd, ht]

/-- The device has an active request if there is one in the table. -/
theorem hasActiveRequest_iff {deviceId : Uuid} :
    (w₀.ownRows env (.device deviceId)).HasActiveRequest ↔
      ∃ j r, w₀.tables.requests j = some r ∧ r.deviceId = deviceId ∧ r.isActive = true := by
  constructor
  · rintro ⟨k, o, ho, hactive⟩
    rcases of_ownRows_request ho with ⟨r, hr, hd, rfl⟩
    exact ⟨k, r, hr, of_decide_eq_true hd, hactive⟩
  · rintro ⟨j, r, hr, hd, hactive⟩
    exact ⟨j, _, ownRows_request hr (decide_eq_true hd), hactive⟩

/-- The technician has a live session if there is one in the table. -/
theorem hasLiveSession_iff {technicianId : Uuid} :
    (w₀.ownRows env (.technician technicianId)).HasLiveSession ↔
      ∃ j s, w₀.tables.sessions j = some s ∧
        (LiveSessionOf.technician technicianId).found s = true := by
  simp only [LiveSessionOf.found, Bool.and_eq_true, decide_eq_true_eq]
  constructor
  · rintro ⟨k, o, ho, hlive⟩
    rcases of_ownRows_session ho with ⟨s, hs, ht, rfl⟩
    exact ⟨k, s, hs, of_decide_eq_true ht, hlive⟩
  · rintro ⟨j, s, hs, ht, hlive⟩
    exact ⟨j, _, ownRows_session hs (decide_eq_true ht), hlive⟩

/-- The sessions about a request of the device are the device's. -/
theorem started_iff (hc : Consistent w₀.tables) {deviceId id : Uuid} {r : SupportRequest}
    (hr : w₀.tables.requests id = some r) (hd : r.deviceId = deviceId) :
    (w₀.ownRows env (.device deviceId)).Started id ↔
      ∃ j s, w₀.tables.sessions j = some s ∧
        (LiveSessionOf.supportRequest id).found s = true := by
  simp only [LiveSessionOf.found, Bool.and_eq_true, decide_eq_true_eq]
  constructor
  · rintro ⟨k, o, ho, hid, hlive⟩
    rcases of_ownRows_session ho with ⟨s, hs, _, rfl⟩
    exact ⟨k, s, hs, hid, hlive⟩
  · rintro ⟨j, s, hs, hid, hlive⟩
    -- A session belongs to the device of its request.
    rcases hc.owned j s hs with ⟨r', hr', hd', _, _⟩
    rw [hid, hr, Option.some.injEq] at hr'
    subst hr'
    exact ⟨j, _, ownRows_session hs (decide_eq_true (hd'.symm.trans hd)), hid, hlive⟩

/-- The live session of an owner is the one there is. -/
theorem currentSession_eq (hu : Unique w₀.tables) (howner : owner ≠ .anyone) {k : Uuid}
    {s : RemoteSession} (hs : w₀.tables.sessions k = some s) (hlive : s.isLive = true)
    (ho : owner.ofSession s = true) :
    (w₀.ownRows env owner).currentSession = some (w₀.ownSession env s) := by
  have hex : ∃ o, (∃ j, (w₀.ownRows env owner).sessions j = some o) ∧ o.row.isLive = true :=
    ⟨_, ⟨k, ownRows_session hs ho⟩, hlive⟩
  rw [OwnRows.currentSession, dif_pos hex, Option.some.injEq]
  rcases hex.choose_spec with ⟨⟨j, hj⟩, hlive'⟩
  -- Two live sessions of one owner would be the same.
  rcases of_ownRows_session hj with ⟨s', hs', ho', heq⟩
  rw [heq] at hlive' ⊢
  rw [hu.live_session howner hs hs' hlive hlive' ho ho']

/-- Without a live session there is no current one. -/
theorem currentSession_none
    (h : ∀ k s, w₀.tables.sessions k = some s → owner.ofSession s = true → s.isLive = false) :
    (w₀.ownRows env owner).currentSession = none := by
  rw [OwnRows.currentSession, dif_neg]
  rintro ⟨o, ⟨k, hk⟩, hlive⟩
  rcases of_ownRows_session hk with ⟨s, hs, ho, rfl⟩
  rw [ownSession_row, h k s hs ho] at hlive
  simp only [Bool.false_eq_true] at hlive

/-- The active request of a device is the one there is. -/
theorem currentRequest_eq (hu : Unique w₀.tables) {deviceId k : Uuid} {r : SupportRequest}
    (hr : w₀.tables.requests k = some r) (hactive : r.isActive = true)
    (hd : r.deviceId = deviceId) :
    (w₀.ownRows env (.device deviceId)).currentRequest = some (w₀.ownRequest env r) := by
  have hex : ∃ o, (∃ j, (w₀.ownRows env (.device deviceId)).requests j = some o) ∧
      o.row.isActive = true :=
    ⟨_, ⟨k, ownRows_request hr (decide_eq_true hd)⟩, hactive⟩
  rw [OwnRows.currentRequest, dif_pos hex, Option.some.injEq]
  rcases hex.choose_spec with ⟨⟨j, hj⟩, hactive'⟩
  rcases of_ownRows_request hj with ⟨r', hr', ho', heq⟩
  rw [heq] at hactive' ⊢
  rw [hu.active_request hr hr' hactive hactive' (hd.trans (of_decide_eq_true ho').symm)]

/-- Without an active request there is no current one. -/
theorem currentRequest_none {deviceId : Uuid}
    (h : ∀ k r, w₀.tables.requests k = some r → r.deviceId = deviceId → r.isActive = false) :
    (w₀.ownRows env (.device deviceId)).currentRequest = none := by
  rw [OwnRows.currentRequest, dif_neg]
  rintro ⟨o, ⟨k, hk⟩, hactive⟩
  rcases of_ownRows_request hk with ⟨r, hr, ho, rfl⟩
  rw [ownRequest_row, h k r hr (of_decide_eq_true ho)] at hactive
  simp only [Bool.false_eq_true] at hactive

/-! ## Support requests -/

/-- The call has ended as expected, and the rows that are not the owner's are
    what they were. -/
def EndsAs (owner : Owner) (w₀ : World) (expected res : Except HttpException Reply) (w : World) :
    Prop :=
  res = expected ∧ Spares owner w₀.tables w.tables

/-- Run alone from this stage on, the program is answered as expected. `f` is
    the reply that its result stands for. -/
abbrev Replies (throws : CallId → Emitter → Bool) (c : CallId) (env : Env) (w₀ : World) {α : Type}
    (st : Stage) (owner : Owner) (expected : Except HttpException Reply) (p : Service α)
    (f : α → Reply) : Prop :=
  Lone throws c env w₀ st p (fun a => EndsAs owner w₀ expected (.ok (f a)))
    (fun e => EndsAs owner w₀ expected (.error e))

/-- A call that changes no row and is answered as expected. -/
theorem EndsAs.unchanged {expected res : Except HttpException Reply} {st : Stage} {w : World}
    (hw : Here c env w₀ st w) (htables : st.tables = w₀.tables) (h : res = expected) :
    EndsAs owner w₀ expected res w := by
  refine ⟨h, ?_⟩
  rw [hw.tables, htables]
  exact .refl _ _

section Requests

open SupportRequestsService

variable {st : Stage} {α : Type} {Q : α → World → Prop} {E : HttpException → World → Prop}

/-- The event to a technician is sent with its errors caught. -/
theorem notifyTechnicianUpdated_lone {r : LoadedSupportRequest} {k : Unit → Service α}
    (hk : Lone throws c env w₀ st (k ()) Q E) :
    Lone throws c env w₀ st ((notifyTechnicianUpdated r).bind k) Q E := by
  unfold notifyTechnicianUpdated
  split
  · exact hk
  · exact lone_logErrors hk

/-- A commit that writes one request of the owner's. -/
theorem spares_request {T : Tables} {id : Uuid} {r row : SupportRequest}
    (hr : T.requests id = some r) (ho : owner.ofRequest r = true)
    (hrow : owner.ofRequest row = true) :
    Spares owner T (T.apply (requestWrites T.requests id row)) := by
  refine spares_apply (fun x hx => ?_) (fun x hx => ?_)
  -- The row was the owner's, and is.
  · rw [requestWrites, List.mem_singleton] at hx
    subst hx
    refine ⟨fun r' hr' => ?_, hrow⟩
    rw [Option.some.inj (hr'.symm.trans hr)]
    exact ho
  · simp only [requestWrites, List.not_mem_nil] at hx

/-- The device answers the technician of its request. -/
theorem answered_lone {id : Uuid} {device : Device} {now : Timestamp} {new : Bool}
    {changes : SupportRequestTransition} (htech : changes.technicianId = none) :
    Replies throws c env w₀ ⟨w₀.tables, .free, now, new⟩ (.device device.id)
      ((w₀.ownRows env (.device device.id)).answered id changes)
      (runDeviceTransition id device [.assigned] changes) .supportRequest := by
  refine lone_requestOrFail (fun hno w hw => .unchanged hw rfl ?_) (fun r hr ho => ?_)
  · simp only [OwnRows.answered, ownRows_request_none hno]
  have hown : (w₀.ownRows env (.device device.id)).requests id = some (w₀.ownRequest env r) :=
    ownRows_request hr ho
  -- The update goes by the status, which is the row's own.
  refine lone_update (fun hno => ?_) (fun r' hr' hsrc => ?_)
  · refine lone_throwIf (fun _ w hw => .unchanged hw rfl ?_) (fun hc => ?_)
    · rw [answered_conflict hown (fun hc => hno r hr (List.mem_singleton.mpr hc))]
      rfl
    · simp only [Bool.not_false, Bool.true_eq_false] at hc
  · have heq : r' = r := Option.some.inj (hr'.symm.trans hr)
    subst heq
    have hrow : (w₀.tables.apply (requestWrites w₀.tables.requests id (changes.apply r'))).requests
        id = some (changes.apply r') := by
      rw [apply_requestWrites, if_pos rfl]
    refine lone_throwIf (fun hc => ?_) (fun _ => ?_)
    · simp only [Bool.not_true, Bool.false_eq_true] at hc
    refine lone_requestOrFail (fun hno => ?_) (fun r'' hr'' _ => ?_)
    · have hc := hno _ hrow
      simp only [Owner.ofRequest, Bool.true_eq_false] at hc
    have heq : r'' = changes.apply r' := Option.some.inj (hr''.symm.trans hrow)
    subst heq
    refine notifyTechnicianUpdated_lone (.ret (fun w _ hw => ⟨?_, ?_⟩))
    -- An answer keeps the technician, so the one that is shown is the same.
    · have hkeep : (changes.apply r').technicianId = r'.technicianId := by
        simp only [SupportRequestTransition.apply, htech, Option.none_or]
      have hshown : ((w₀.ownRequest env r').withRow (changes.apply r')).shown =
          w₀.showRequest (changes.apply r') := ownRequest_shown rfl hkeep
      rw [answered_assigned hown (List.mem_singleton.mp hsrc), ownRequest_row, hshown]
      rfl
    · rw [hw.tables]
      exact spares_request hr ho ho

/-- The device asks for assistance. -/
theorem created_lone {g : Generated} {fails : Emitter → Bool} {device : Device} {now : Timestamp}
    (hnew : g.newId = env.newId) (hcreated : g.createdAt = env.createdAt) :
    Replies throws c env w₀ ⟨w₀.tables, .free, now, true⟩ (.device device.id)
      ((w₀.ownRows env (.device device.id)).reply g fails (.createForDevice device))
      (createForDevice device) .supportRequest := by
  refine lone_throwIf (fun hoff w hw => .unchanged hw rfl ?_) (fun hon => ?_)
  · rw [Bool.not_eq_true'] at hoff
    rw [OwnRows.reply, if_pos hoff]
  have hactive : ¬ (device.isActive = false) := by
    rw [Bool.not_eq_false'] at hon
    rw [hon, Bool.true_eq_false]
    exact not_false
  -- The index refuses a second active request of the device, and no other.
  refine lone_insertRequest (fun name hex => .throw (fun w _ hw => .unchanged hw rfl ?_))
    (fun hfresh hone => ?_)
  · rw [OwnRows.reply, if_neg hactive, if_pos (hasActiveRequest_iff.mpr hex)]
  -- The row went in, so the device had no active request.
  · have hno : ¬ (w₀.ownRows env (.device device.id)).HasActiveRequest := by
      rw [hasActiveRequest_iff]
      rintro ⟨j, r, hr, hd, ha⟩
      rw [hone j r hr hd] at ha
      exact Bool.false_ne_true ha
    refine lone_logErrors (.ret (fun w _ hw => ⟨?_, ?_⟩))
    · rw [OwnRows.reply, if_neg hactive, if_neg hno, hnew, hcreated]
    · rw [hw.tables]
      refine spares_apply (fun x hx => ?_) (fun x hx => ?_)
      · rw [requestWrites, List.mem_singleton] at hx
        subst hx
        refine ⟨fun r hr => ?_, decide_eq_true rfl⟩
        rw [hfresh] at hr
        simp only [reduceCtorEq] at hr
      · simp only [requestWrites, List.not_mem_nil] at hx

/-- What a cancellation is about to commit. -/
def CancelsOwn (own : OwnRows) (w₀ : World) (id : Uuid) (device : Device) (now : Timestamp)
    (grip : Grip) : Prop :=
  ∃ r, w₀.tables.requests id = some r ∧ r.deviceId = device.id ∧ r.isActive = true ∧
    ¬ own.Started id ∧ grip = .wroteRequest id r ((cancellation now).apply r) false

variable {g : Generated} {fails : Emitter → Bool} {own : OwnRows}

/-- The transaction of a cancellation from where it knows whether there is a
    session. -/
theorem cancelActive_lone {id : Uuid} {device : Device} {r : SupportRequest} {started : Bool}
    (hnow : g.now = w₀.clock + env.tick) (hr : w₀.tables.requests id = some r)
    (hd : r.deviceId = device.id) (hactive : r.isActive = true)
    (hown : own.requests id = some (w₀.ownRequest env r)) (hiff : started = true ↔ own.Started id) :
    Lone throws c env w₀ ⟨w₀.tables, .ofRequest id r false, w₀.clock, true⟩
      ((throwIf started (.conflict
        (s!"Remote assistance for support request with id {id} " ++
          "already started, close the remote session instead"))).bind (fun _ =>
        newDate.bind (fun now => (applyTransition .entityManager id activeSupportRequestStatuses
          { status := .cancelled, closedAt := some now }).bind (fun cancelled =>
            (throwIf (!cancelled) (cannotChange id r.status .cancelled)).bind (fun _ =>
              .ret r.status)))))
      (fun _ => InHand c env w₀ w₀.tables (fun grip _ => CancelsOwn own w₀ id device g.now grip))
      (fun e => InHand c env w₀ w₀.tables
        (fun _ _ => .error e = own.reply g fails (.cancelByDevice id device))) := by
  refine lone_throwIf (fun hs w hw => ⟨_, _, _, ?_, hw⟩) (fun hs => ?_)
  · simp only [OwnRows.reply, hown, ownRequest_row, hactive, Bool.true_eq_false, if_false,
      if_pos (hiff.mp hs)]
  · have hno : ¬ own.Started id := by
      rw [← hiff, hs]
      exact Bool.false_ne_true
    -- The request is locked, so its update cannot miss.
    refine lone_newDate (lone_updateHeld (isActive_mem.mp hactive) ?_)
    refine lone_throwIf (fun hc => ?_) (fun _ => .ret (fun w _ hw => ⟨_, _, _, ?_, hw⟩))
    · simp only [Bool.not_true, Bool.false_eq_true] at hc
    · rw [hnow]
      exact ⟨r, hr, hd, hactive, hno, rfl⟩

/-- The transaction of a cancellation, from the lock on. -/
theorem cancelLocked_lone (hc : Consistent w₀.tables) {id : Uuid} {device : Device}
    (hnow : g.now = w₀.clock + env.tick) (hown : own = w₀.ownRows env (.device device.id)) :
    Lone throws c env w₀ ⟨w₀.tables, .free, w₀.clock, true⟩ (cancelLocked id device)
      (fun _ => InHand c env w₀ w₀.tables (fun grip _ => CancelsOwn own w₀ id device g.now grip))
      (fun e => InHand c env w₀ w₀.tables
        (fun _ _ => .error e = own.reply g fails (.cancelByDevice id device))) := by
  subst hown
  refine lone_lockRequestOrFail (fun hno w hw => ⟨_, _, _, ?_, hw⟩) (fun r hr ho => ?_)
  · simp only [OwnRows.reply, ownRows_request_none hno]
  have hown : (w₀.ownRows env (.device device.id)).requests id = some (w₀.ownRequest env r) :=
    ownRows_request hr ho
  refine lone_throwIf (fun hoff w hw => ⟨_, _, _, ?_, hw⟩) (fun hon => ?_)
  · rw [Bool.not_eq_true'] at hoff
    rw [reply_cancel_inactive hown hoff]
    rfl
  rw [Bool.not_eq_false'] at hon
  have hd : r.deviceId = device.id := of_decide_eq_true ho
  have hstarted : (w₀.ownRows env (.device device.id)).Started id ↔ _ := started_iff hc hr hd
  change Lone throws c env w₀ _ (if r.status = .accepted then
    (hasLiveRemoteSession id).bind _ else _) _ _
  by_cases hst : r.status = .accepted
  · rw [if_pos hst]
    exact lone_existsLiveSession rfl (fun found hfound =>
      cancelActive_lone hnow hr hd hon hown (hfound.trans hstarted.symm))
  · -- A request that is not accepted has no live session.
    have hno : false = true ↔ (w₀.ownRows env (.device device.id)).Started id := by
      refine ⟨fun hc => absurd hc Bool.false_ne_true, fun hs => ?_⟩
      rcases hstarted.mp hs with ⟨j, s, hj, hfound⟩
      simp only [LiveSessionOf.found, Bool.and_eq_true, decide_eq_true_eq] at hfound
      rcases hc.owned j s hj with ⟨r', hr', _, _, hst'⟩
      rw [if_pos hfound.2] at hst'
      rw [hfound.1, hr, Option.some.injEq] at hr'
      rw [hr'] at hst
      exact absurd hst' hst
    rw [if_neg hst]
    exact cancelActive_lone hnow hr hd hon hown hno

/-- The device cancels its request. -/
theorem cancelled_lone (hc : Consistent w₀.tables) {id : Uuid} {device : Device}
    (hnow : g.now = w₀.clock + env.tick) (hown : own = w₀.ownRows env (.device device.id)) :
    Replies throws c env w₀ ⟨w₀.tables, .free, w₀.clock, true⟩ (.device device.id)
      (own.reply g fails (.cancelByDevice id device)) (cancelByDevice id device)
      .supportRequest := by
  refine lone_transaction (fun _ grip _ => CancelsOwn own w₀ id device g.now grip) _
    (cancelLocked_lone hc hnow hown) (fun e t w he hw => .unchanged hw rfl he)
    (fun previous grip t h => ?_)
  rcases h with ⟨r, hr, hd, hactive, hno, rfl⟩
  rw [wroteRequest_writes hr]
  have hrow : (w₀.tables.apply (requestWrites w₀.tables.requests id
      ((cancellation g.now).apply r))).requests id = some ((cancellation g.now).apply r) := by
    rw [apply_requestWrites, if_pos rfl]
  refine lone_requestOrFail (fun hmissing => ?_) (fun r' hr' _ => ?_)
  · have hcontra := hmissing _ hrow
    simp only [Owner.ofRequest, Bool.true_eq_false] at hcontra
  have heq : r' = (cancellation g.now).apply r := Option.some.inj (hr'.symm.trans hrow)
  subst heq
  -- The answer is read again after the commit, with the row just written.
  have hreply : own.reply g fails (.cancelByDevice id device) =
      .ok (.supportRequest (w₀.showRequest ((cancellation g.now).apply r))) := by
    have hrow' : own.requests id = some (w₀.ownRequest env r) := by
      rw [hown]
      exact ownRows_request hr (decide_eq_true hd)
    rw [reply_cancel_active hrow' hactive hno]
    rfl
  have hends : ∀ w, Here c env w₀ ⟨w₀.tables.apply (requestWrites w₀.tables.requests id
      ((cancellation g.now).apply r)), .free, t, false⟩ w →
      EndsAs (.device device.id) w₀ (own.reply g fails (.cancelByDevice id device))
        (.ok (.supportRequest (w₀.showRequest ((cancellation g.now).apply r)))) w := by
    intro w hw
    refine ⟨hreply.symm, ?_⟩
    rw [hw.tables]
    exact spares_request hr (decide_eq_true hd) (decide_eq_true hd)
  change Lone throws c env w₀ _ (if previous = .waiting then (notifyQueueUpdated _).bind _
    else (notifyTechnicianUpdated _).bind _) _ _
  split
  · exact lone_logErrors (.ret (fun w _ hw => hends w hw))
  · exact notifyTechnicianUpdated_lone (.ret (fun w _ hw => hends w hw))

/-- The active request of a device, if it has one. -/
theorem lone_findActiveRequest {deviceId : Uuid} {k : Option LoadedSupportRequest → Service α}
    (hnone : (∀ j r, st.tables.requests j = some r → r.deviceId = deviceId → r.isActive = false) →
      Lone throws c env w₀ st (k none) Q E)
    (hsome : ∀ j r, st.tables.requests j = some r → r.isActive = true → r.deviceId = deviceId →
      Lone throws c env w₀ st (k (some (w₀.loadRequest r))) Q E) :
    Lone throws c env w₀ st ((statement (.findActiveRequest deviceId)).bind k) Q E := by
  refine lone_statement (fun _ => st)
    (fun (found : Option LoadedSupportRequest) => match found with
      | none => ∀ j r, st.tables.requests j = some r → r.deviceId = deviceId → r.isActive = false
      | some x => ∃ j r, st.tables.requests j = some r ∧ r.isActive = true ∧
          r.deviceId = deviceId ∧ x = w₀.loadRequest r)
    (fun h => h.elim) (fun w _ h => h.elim) (fun w hw found w' hx => ?_) (fun found hφ => ?_)
  · rw [exec_findActiveRequest] at hx
    cases hx
    refine ⟨hw.record _, ?_⟩
    cases hhead : (w.activeRequests deviceId).head? with
    | none =>
        intro j r hr hd
        by_contra hactive
        rw [Bool.not_eq_false] at hactive
        -- An active request would have been found.
        have hmem := mem_activeRequests.mpr ⟨j, by rw [hw.tables]; exact hr, hactive, hd⟩
        rw [List.head?_eq_none_iff.mp hhead] at hmem
        simp only [List.not_mem_nil] at hmem
    | some r =>
        rcases mem_activeRequests.mp (List.mem_of_mem_head? hhead) with ⟨j, hr, hactive, hd⟩
        rw [hw.tables] at hr
        exact ⟨j, r, hr, hactive, hd, by rw [← hw.loadRequest]⟩
  · cases found with
    | none => exact hnone hφ
    | some x =>
        rcases hφ with ⟨j, r, hr, hactive, hd, rfl⟩
        exact hsome j r hr hactive hd

/-- The device asks for its request. -/
theorem currentRequest_lone (hu : Unique w₀.tables) {device : Device} {now : Timestamp}
    {new : Bool} :
    Replies throws c env w₀ ⟨w₀.tables, .free, now, new⟩ (.device device.id)
      ((w₀.ownRows env (.device device.id)).reply g fails (.currentRequestOfDevice device))
      (findCurrentForDevice device.id) .currentRequest := by
  refine lone_findActiveRequest (fun hno => .ret (fun w _ hw => .unchanged hw rfl ?_))
    (fun j r hr hactive hd => .ret (fun w _ hw => .unchanged hw rfl ?_))
  · rw [OwnRows.reply, currentRequest_none hno]
    rfl
  · rw [OwnRows.reply, currentRequest_eq hu hr hactive hd]
    rfl

end Requests

/-! ## Remote sessions -/

section Sessions

open RemoteSessionsService

variable {st : Stage} {α : Type} {Q : α → World → Prop} {E : HttpException → World → Prop}
  {g : Generated} {fails : Emitter → Bool} {own : OwnRows}

/-- The response says whether the device is online. -/
theorem toResponse_lone {s : LoadedRemoteSession} {Q : RemoteSessionResponseDto → World → Prop}
    (h : ∀ w, Here c env w₀ st w →
      Q (RemoteSessionResponseDto.fromEntity s (env.online s.deviceId)) w) :
    Lone throws c env w₀ st (toResponse s) Q E :=
  lone_isOnline (.ret (fun w _ hw => h w hw))

/-- A live session of an owner, if there is one. -/
theorem lone_findLiveSession {newestFirst : Bool} {k : Option LoadedRemoteSession → Service α}
    (hnone : (∀ j s, st.tables.sessions j = some s → owner.ofSession s = true →
      s.isLive = false) → Lone throws c env w₀ st (k none) Q E)
    (hsome : ∀ j s, st.tables.sessions j = some s → s.isLive = true → owner.ofSession s = true →
      Lone throws c env w₀ st (k (some (w₀.loadSession s))) Q E) :
    Lone throws c env w₀ st ((statement (.findLiveSession owner newestFirst)).bind k) Q E := by
  refine lone_statement (fun _ => st)
    (fun (found : Option LoadedRemoteSession) => match found with
      | none => ∀ j s, st.tables.sessions j = some s → owner.ofSession s = true → s.isLive = false
      | some x => ∃ j s, st.tables.sessions j = some s ∧ s.isLive = true ∧
          owner.ofSession s = true ∧ x = w₀.loadSession s)
    (fun h => h.elim) (fun w _ h => h.elim) (fun w hw found w' hx => ?_) (fun found hφ => ?_)
  · rw [exec_findLiveSession] at hx
    cases hx
    refine ⟨hw.record _, ?_⟩
    cases hhead : (w.liveSessions owner newestFirst).head? with
    | none =>
        intro j s hs ho
        by_contra hlive
        rw [Bool.not_eq_false] at hlive
        -- A live session would have been found.
        have hmem : s ∈ w.liveSessions owner newestFirst :=
          mem_liveSessions.mpr ⟨j, by rw [hw.tables]; exact hs, hlive, ho⟩
        rw [List.head?_eq_none_iff.mp hhead] at hmem
        simp only [List.not_mem_nil] at hmem
    | some s =>
        rcases mem_liveSessions.mp (List.mem_of_mem_head? hhead) with ⟨j, hs, hlive, ho⟩
        rw [hw.tables] at hs
        exact ⟨j, s, hs, hlive, ho, by rw [← hw.loadSession]⟩
  · cases found with
    | none => exact hnone hφ
    | some x =>
        rcases hφ with ⟨j, s, hs, hlive, ho, rfl⟩
        exact hsome j s hs hlive ho

/-- A read of the live session, by either end. -/
theorem currentSession_lone (hu : Unique w₀.tables) (howner : owner ≠ .anyone)
    {newestFirst : Bool} {now : Timestamp} {new : Bool}
    {k : Option LoadedRemoteSession → Service (Option RemoteSessionResponseDto)}
    (hnone : k none = .ret none)
    (hsome : ∀ s, k (some s) = (toResponse s).bind (fun response => .ret (some response))) :
    Replies throws c env w₀ ⟨w₀.tables, .free, now, new⟩ owner
      (.ok (.currentSession ((w₀.ownRows env owner).currentSession.map OwnSession.shown)))
      ((statement (.findLiveSession owner newestFirst)).bind k) .currentSession := by
  refine lone_findLiveSession (fun hno => ?_) (fun j s hs hlive ho => ?_)
  · rw [hnone]
    refine .ret (fun w _ hw => .unchanged hw rfl ?_)
    rw [currentSession_none hno]
    rfl
  · rw [hsome]
    refine lone_isOnline (.ret (fun w _ hw => .unchanged hw rfl ?_))
    rw [currentSession_eq hu howner hs hlive ho]
    rfl

/-- The technician asks for a session. -/
theorem findOne_lone {id : Uuid} {user : User} {now : Timestamp} {new : Bool} :
    Replies throws c env w₀ ⟨w₀.tables, .free, now, new⟩ (.technician user.id)
      ((w₀.ownRows env (.technician user.id)).reply g fails (.findOneForTechnician id user))
      (findOneForTechnician id user) .remoteSession := by
  refine lone_sessionOrFail (fun hno w hw => .unchanged hw rfl ?_) (fun s hs ho => ?_)
  · simp only [OwnRows.reply, ownRows_session_none hno]
  · refine toResponse_lone (fun w hw => .unchanged hw rfl ?_)
    simp only [OwnRows.reply, ownRows_session hs ho]
    rfl

/-! ### Opening -/

/-- What an opening is about to commit, and what it is answered. -/
def OpensOwn (own : OwnRows) (w₀ : World) (g : Generated) (fails : Emitter → Bool) (id : Uuid)
    (user : User) (online : Uuid → Bool) (created : LoadedRemoteSession) (grip : Grip) : Prop :=
  ∃ r, w₀.tables.sessions g.newId = none ∧
    grip = .opened id r (newSession r user.id g.newId g.createdAt) ∧
    own.reply g fails (.create id user) = if fails .emitToDevice = true then .error .transportError
      else .ok (.remoteSession (RemoteSessionResponseDto.fromEntity created
        (online created.deviceId)))

/-- A technician without a live session has none that a new one clashes with. -/
theorem no_clash (hi : Inv calls throws w₀) {id newId : Uuid} {createdAt : Timestamp} {user : User}
    {r : SupportRequest} (hr : w₀.tables.requests id = some r)
    (ht : r.technicianId = some user.id) (hst : r.status = .accepted)
    (hfree : ¬ ∃ j s, w₀.tables.sessions j = some s ∧
      (LiveSessionOf.technician user.id).found s = true)
    {i : UniqueIndex RemoteSession Uuid} (hmem : i ∈ remoteSessionIndexes) {j : Uuid}
    {s : RemoteSession} (hs : w₀.tables.sessions j = some s) :
    i.clash ((sessionDraft r user.id).toRow newId createdAt) s = false := by
  have hbusy : ∀ j s, w₀.tables.sessions j = some s → s.technicianId = user.id →
      s.isLive = false := by
    intro j s hs hu
    by_contra hlive
    rw [Bool.not_eq_false] at hlive
    refine hfree ⟨j, s, hs, ?_⟩
    simp only [LiveSessionOf.found, Bool.and_eq_true, decide_eq_true_eq]
    exact ⟨hu, hlive⟩
  -- A session of this request would be live, and the technician's.
  have hnone : ∀ j s, w₀.tables.sessions j = some s → s.supportRequestId ≠ id := by
    intro j s hs hid
    rcases hi.consistent.owned j s hs with ⟨r', hr', _, ht', hst'⟩
    rw [hid, hr, Option.some.injEq] at hr'
    subst hr'
    rw [ht, Option.some.injEq] at ht'
    rw [hbusy j s hs ht'.symm, hst] at hst'
    simp only [Bool.false_eq_true, if_false, reduceCtorEq] at hst'
  by_contra hclash
  rw [Bool.not_eq_false] at hclash
  rcases clash_technician hi hr hst hnone hmem hs hclash with ⟨_, hu, hlive⟩
  rw [hbusy j s hs hu] at hlive
  exact Bool.false_ne_true hlive

/-- The transaction of an opening, from the lock on. -/
theorem openLocked_lone (hi : Inv calls throws w₀) {id : Uuid} {user : User}
    (hnew : g.newId = env.newId) (hcreated : g.createdAt = env.createdAt)
    (hown : own = w₀.ownRows env (.technician user.id)) :
    Lone throws c env w₀ ⟨w₀.tables, .free, w₀.clock, true⟩ (openLocked id user)
      (fun created => InHand c env w₀ w₀.tables
        (fun grip _ => OpensOwn own w₀ g fails id user env.online created grip))
      (fun e => InHand c env w₀ w₀.tables
        (fun _ _ => .error e = own.reply g fails (.create id user))) := by
  subst hown
  refine lone_lockRequestOrFail (fun hno w hw => ⟨_, _, _, ?_, hw⟩) (fun r hr ho => ?_)
  · simp only [OwnRows.reply, ownRows_request_none hno]
    rfl
  have hown : (w₀.ownRows env (.technician user.id)).requests id = some (w₀.ownRequest env r) :=
    ownRows_request hr ho
  refine lone_throwIf (fun hst w hw => ⟨_, _, _, ?_, hw⟩) (fun hst => ?_)
  · rw [reply_create_unaccepted hown (of_decide_eq_true hst)]
  have hst : r.status = .accepted := not_not.mp (of_decide_eq_false hst)
  refine lone_existsLiveSession rfl (fun busy hfound => ?_)
  -- The query goes by the technician, hence by rows of its own.
  have hbusy : busy = true ↔ (w₀.ownRows env (.technician user.id)).HasLiveSession :=
    hfound.trans hasLiveSession_iff.symm
  refine lone_throwIf (fun hb w hw => ⟨_, _, _, ?_, hw⟩) (fun hb => ?_)
  · rw [reply_create_busy hown hst (hbusy.mp hb)]
  have hno : ¬ (w₀.ownRows env (.technician user.id)).HasLiveSession := by
    rw [← hbusy, hb]
    exact Bool.false_ne_true
  refine lone_isOnline (lone_throwIf (fun hoff w hw => ⟨_, _, _, ?_, hw⟩) (fun hon => ?_))
  · rw [Bool.not_eq_true'] at hoff
    rw [reply_create_offline hown hst hno hoff]
    rfl
  rw [Bool.not_eq_false'] at hon
  have hreply : OwnRows.reply _ g fails (.create id user) = _ := reply_create hown hst hno hon
  -- No index refuses the row, not even for a session of somebody else.
  refine lone_insertSession (fun i hmem j s hs => ?_) (fun hfresh => ?_)
  · exact no_clash hi hr (of_decide_eq_true ho) hst (fun hex => hno (hasLiveSession_iff.mpr hex))
      hmem hs
  · refine lone_findDevice (.ret (fun w _ hw => ⟨_, _, _, ?_, hw⟩))
    refine ⟨r, by rw [hnew]; exact hfresh, by rw [hnew, hcreated], ?_⟩
    rw [hreply, hnew, hcreated]
    rfl

/-- An opening commits the session it has inserted. -/
theorem opened_spares {T : Tables} {id technicianId newId : Uuid} {createdAt : Timestamp}
    {r : SupportRequest} (hfresh : T.sessions newId = none) :
    Spares (.technician technicianId) T
      (T.apply (Grip.opened id r (newSession r technicianId newId createdAt)).writes) := by
  refine spares_apply (fun x hx => ?_) (fun x hx => ?_)
  · simp only [Grip.writes_opened, List.not_mem_nil] at hx
  · simp only [Grip.writes_opened, List.mem_singleton] at hx
    subst hx
    refine ⟨fun s hs => ?_, decide_eq_true rfl⟩
    have hs' : T.sessions newId = some s := hs
    rw [hfresh] at hs'
    simp only [reduceCtorEq] at hs'

/-- The technician opens a session. -/
theorem opened_lone (hi : Inv calls throws w₀) {id : Uuid} {user : User}
    (hnew : g.newId = env.newId) (hcreated : g.createdAt = env.createdAt)
    (hown : own = w₀.ownRows env (.technician user.id)) :
    Replies throws c env w₀ ⟨w₀.tables, .free, w₀.clock, true⟩ (.technician user.id)
      (own.reply g (throws c) (.create id user)) (create id user) .remoteSession := by
  refine lone_transaction
    (fun created grip _ => OpensOwn own w₀ g (throws c) id user env.online created grip) _
    (openLocked_lone hi hnew hcreated hown) (fun e t w he hw => .unchanged hw rfl he)
    (fun created grip t h => ?_)
  rcases h with ⟨r, hfresh, rfl, hreply⟩
  -- The commit stands, whether or not the device is told.
  have hspares : ∀ w, Here c env w₀ ⟨w₀.tables.apply (Grip.opened id r (newSession r user.id g.newId
      g.createdAt)).writes, .free, t, false⟩ w →
      Spares (.technician user.id) w₀.tables w.tables := by
    intro w hw
    rw [hw.tables]
    exact opened_spares hfresh
  refine lone_emit (fun hthrow w hw => ⟨?_, hspares w hw⟩) (fun hquiet => ?_)
  · have hfails : throws c .emitToDevice = true := hthrow
    rw [hreply, if_pos hfails]
  · have hfails : ¬ (throws c .emitToDevice = true) := by
      rw [show throws c .emitToDevice = false from hquiet]
      exact Bool.false_ne_true
    refine toResponse_lone (fun w hw => ⟨?_, hspares w hw⟩)
    rw [hreply, if_neg hfails]

/-! ### Activating -/

/-- What an activation is about to commit, and what it is answered. -/
def ActivatesOwn (own : OwnRows) (w₀ : World) (g : Generated) (fails : Emitter → Bool) (id : Uuid)
    (user : User) (online : Uuid → Bool) (activated : LoadedRemoteSession) (grip : Grip) : Prop :=
  ∃ s, w₀.tables.sessions id = some s ∧ s.technicianId = user.id ∧
    (grip = .ofSession id s ∨ grip = .wroteSession id s ((activation g.now).apply s)) ∧
    own.reply g fails (.activateByTechnician id user) = .ok (.remoteSession
      (RemoteSessionResponseDto.fromEntity activated (online activated.deviceId)))

/-- The transaction of an activation, from the lock on. -/
theorem activateLocked_lone {id : Uuid} {user : User} (hnow : g.now = w₀.clock + env.tick)
    (hown : own = w₀.ownRows env (.technician user.id)) :
    Lone throws c env w₀ ⟨w₀.tables, .free, w₀.clock, true⟩ (activateLocked id user)
      (fun result => InHand c env w₀ w₀.tables
        (fun grip _ => ActivatesOwn own w₀ g fails id user env.online result.1 grip))
      (fun e => InHand c env w₀ w₀.tables
        (fun _ _ => .error e = own.reply g fails (.activateByTechnician id user))) := by
  subst hown
  refine lone_lockSessionOrFail (fun hno w hw => ⟨_, _, _, ?_, hw⟩) (fun s hs ho => ?_)
  · simp only [OwnRows.reply, ownRows_session_none hno]
  have hown : (w₀.ownRows env (.technician user.id)).sessions id = some (w₀.ownSession env s) :=
    ownRows_session hs ho
  have ht : s.technicianId = user.id := of_decide_eq_true ho
  refine lone_throwIf (fun hclosed w hw => ⟨_, _, _, ?_, hw⟩) (fun hopen => ?_)
  · rw [reply_activate_closed hown (of_decide_eq_true hclosed)]
  by_cases hst : s.status = .active
  · rw [if_pos hst]
    refine lone_findDevice (.ret (fun w _ hw => ⟨_, _, _, ⟨s, hs, ht, .inl rfl, ?_⟩, hw⟩))
    rw [reply_activate_active hown hst]
    rfl
  · have hconnecting : s.status = .connecting := connecting_of_live (of_decide_eq_false hopen) hst
    rw [if_neg hst]
    -- The session is locked, so its update cannot miss.
    refine lone_newDate (lone_updateSession (List.mem_singleton.mpr hconnecting) ?_)
    refine lone_throwIf (fun hc => ?_) (fun _ => ?_)
    · simp only [Bool.not_true, Bool.false_eq_true] at hc
    refine lone_findDevice (.ret (fun w _ hw => ⟨_, _, _, ⟨s, hs, ht, .inr ?_, ?_⟩, hw⟩))
    · rw [hnow]
      rfl
    · rw [reply_activate_connecting hown hconnecting, hnow]
      rfl

/-- An activation commits the session it holds, or nothing. -/
theorem activated_spares {T : Tables} {id technicianId : Uuid} {s : RemoteSession} {now : Timestamp}
    {grip : Grip} (hs : T.sessions id = some s) (ht : s.technicianId = technicianId)
    (hgrip : grip = .ofSession id s ∨ grip = .wroteSession id s ((activation now).apply s)) :
    Spares (.technician technicianId) T (T.apply grip.writes) := by
  rcases hgrip with rfl | rfl
  · exact .refl _ _
  · refine spares_apply (fun x hx => ?_) (fun x hx => ?_)
    · simp only [Grip.writes_wroteSession, List.not_mem_nil] at hx
    · simp only [Grip.writes_wroteSession, List.mem_singleton] at hx
      subst hx
      refine ⟨fun s' hs' => ?_, decide_eq_true ht⟩
      rw [Option.some.inj (hs'.symm.trans hs)]
      exact decide_eq_true ht

/-- The technician activates a session. A repeated activation is answered with the
    row as it is. -/
theorem activated_lone {id : Uuid} {user : User} (hnow : g.now = w₀.clock + env.tick)
    (hown : own = w₀.ownRows env (.technician user.id)) :
    Replies throws c env w₀ ⟨w₀.tables, .free, w₀.clock, true⟩ (.technician user.id)
      (own.reply g fails (.activateByTechnician id user)) (activateByTechnician id user)
      .remoteSession := by
  refine lone_transaction
    (fun result grip _ => ActivatesOwn own w₀ g fails id user env.online result.1 grip) _
    (activateLocked_lone hnow hown) (fun e t w he hw => .unchanged hw rfl he)
    (fun result grip t h => ?_)
  rcases result with ⟨activated, notifies⟩
  rcases h with ⟨s, hs, ht, hgrip, hreply⟩
  -- Whatever is emitted, the answer and the rows are settled by now.
  have hends : ∀ w, Here c env w₀ ⟨w₀.tables.apply grip.writes, .free, t, false⟩ w →
      EndsAs (.technician user.id) w₀ (own.reply g fails (.activateByTechnician id user))
        (.ok (.remoteSession (RemoteSessionResponseDto.fromEntity activated
          (env.online activated.deviceId)))) w := by
    intro w hw
    refine ⟨hreply.symm, ?_⟩
    rw [hw.tables]
    exact activated_spares hs ht hgrip
  cases notifies with
  | false => exact toResponse_lone hends
  | true =>
      have hshape : (notifyActivated activated).bind (fun _ => toResponse activated) =
          (logErrors (emitToDevice activated.deviceId (.remoteSessionActive activated.id))).bind
            (fun _ => (logErrors (emitToTechnician activated.technicianId
              (.remoteSessionActive activated.id))).bind (fun _ => toResponse activated)) :=
        Prog.bind_assoc _ _ _
      change Lone throws c env w₀ _ ((notifyActivated activated).bind _) _ _
      rw [hshape]
      exact lone_logErrors (lone_logErrors (toResponse_lone hends))

/-! ### Closing -/

/-- A closure commits a session of the owner's and its request, which is the
    owner's too. -/
theorem closed_spares {T : Tables} {id : Uuid} {s : RemoteSession} {r : SupportRequest}
    {now : Timestamp} {endedBy : RemoteSessionEndedBy} (hs : T.sessions id = some s)
    (ho : owner.ofSession s = true) (hr : T.requests s.supportRequestId = some r)
    (hor : owner.ofRequest r = true) :
    Spares owner T (T.apply (Grip.wroteBoth id s ((closure now endedBy).apply s)
      s.supportRequestId r ((completion now).apply r)).writes) := by
  refine spares_apply (fun x hx => ?_) (fun x hx => ?_)
  · simp only [Grip.writes_wroteBoth, List.mem_singleton] at hx
    subst hx
    refine ⟨fun r' hr' => ?_, ?_⟩
    · rw [Option.some.inj (hr'.symm.trans hr)]
      exact hor
    · cases owner with
      | anyone => rfl
      | device deviceId => exact hor
      | technician technicianId => exact hor
  · simp only [Grip.writes_wroteBoth, List.mem_singleton] at hx
    subst hx
    refine ⟨fun s' hs' => ?_, ?_⟩
    · rw [Option.some.inj (hs'.symm.trans hs)]
      exact ho
    · cases owner with
      | anyone => rfl
      | device deviceId => exact ho
      | technician technicianId => exact ho

/-- What a closure is about to commit. -/
def ClosesOwn (owner : Owner) (w₀ : World) (id : Uuid) (now : Timestamp)
    (endedBy : RemoteSessionEndedBy) (s : RemoteSession) (grip : Grip) : Prop :=
  ∃ r, s.status ≠ .closed ∧ w₀.tables.requests s.supportRequestId = some r ∧
    owner.ofRequest r = true ∧
    grip = .wroteBoth id s ((closure now endedBy).apply s) s.supportRequestId r
      ((completion now).apply r)

/-- The transaction of a closure, from the update of the session on. -/
theorem closeBoth_lone (hc : Consistent w₀.tables) {id : Uuid} {s : RemoteSession}
    {now : Timestamp} {endedBy : RemoteSessionEndedBy} {new : Bool}
    (hs : w₀.tables.sessions id = some s) (ho : owner.ofSession s = true) :
    Lone throws c env w₀ ⟨w₀.tables, .free, now, new⟩ (closeBoth (w₀.loadSession s) now endedBy)
      (fun _ => InHand c env w₀ w₀.tables
        (fun grip _ => ClosesOwn owner w₀ id now endedBy s grip))
      (fun e => InHand c env w₀ w₀.tables
        (fun _ _ => s.status = .closed ∧ e = alreadyClosed id)) := by
  have hid : (w₀.loadSession s).id = id := hc.sessionId id s hs
  unfold closeBoth
  rw [hid]
  refine lone_closeSession (fun hno => ?_) (fun s' hs' hlive => ?_)
  -- The session is closed already, as that is the only reason for the update to miss.
  · refine lone_throwIf (fun _ w hw => ⟨_, _, _, ⟨?_, rfl⟩, hw⟩) (fun hfalse => ?_)
    · by_contra hne
      exact hno s hs (of_decide_eq_true (isLive_iff.mpr hne))
    · simp only [Bool.not_false, Bool.true_eq_false] at hfalse
  have heq : s' = s := Option.some.inj (hs'.symm.trans hs)
  subst heq
  have hne : s'.status ≠ .closed := isLive_iff.mp (decide_eq_true hlive)
  refine lone_throwIf (fun htrue => ?_) (fun _ => ?_)
  · simp only [Bool.not_true, Bool.false_eq_true] at htrue
  -- The request of a live session is accepted, so completing it cannot fail.
  rcases hc.owned id s' hs with ⟨r, hr, hd, ht, hst⟩
  rw [if_pos (isLive_iff.mpr hne)] at hst
  -- The request of a session has its device and its technician.
  have hor : owner.ofRequest r = true := by
    cases owner with
    | anyone => rfl
    | device deviceId => exact decide_eq_true (hd.trans (of_decide_eq_true ho))
    | technician technicianId =>
        exact decide_eq_true (ht.trans (congrArg some (of_decide_eq_true ho)))
  refine lone_complete hr (List.mem_singleton.mpr hst) ?_
  exact .ret (fun w _ hw => ⟨_, _, _, ⟨r, hne, hr, hor, rfl⟩, hw⟩)

/-- A closure by either end. `k` is what the end that closes the session says
    to the other. -/
theorem closed_lone (hc : Consistent w₀.tables) {id : Uuid} {endedBy : RemoteSessionEndedBy}
    {fail : Bool} {k : LoadedRemoteSession → Service RemoteSessionResponseDto}
    {Q : RemoteSessionResponseDto → World → Prop} {E : HttpException → World → Prop}
    (hreply : ∀ e w, EndsAs owner w₀ ((w₀.ownRows env owner).closed id (w₀.clock + env.tick)
      endedBy fail) (.error e) w → E e w)
    (hk : ∀ s, w₀.tables.sessions id = some s → s.status ≠ .closed → owner.ofSession s = true →
      ∀ T t, Spares owner w₀.tables T → (w₀.ownRows env owner).closed id (w₀.clock + env.tick)
        endedBy fail = (if fail = true then .error .transportError else .ok (.remoteSession
          (w₀.showSession env ((closure (w₀.clock + env.tick) endedBy).apply s)))) →
      Lone throws c env w₀ ⟨T, .free, t, false⟩
        (k (w₀.loadSession ((closure (w₀.clock + env.tick) endedBy).apply s))) Q E) :
    Lone throws c env w₀ ⟨w₀.tables, .free, w₀.clock, true⟩
      ((findOwnedOrFail id owner).bind (fun s => (close s endedBy).bind k)) Q E := by
  refine lone_sessionOrFail (fun hno w hw => hreply _ w (.unchanged hw rfl ?_)) (fun s hs ho => ?_)
  · simp only [OwnRows.closed, ownRows_session_none hno]
  have hown : (w₀.ownRows env owner).sessions id = some (w₀.ownSession env s) :=
    ownRows_session hs ho
  rw [close_bind]
  refine lone_newDate (lone_transaction
    (fun _ grip _ => ClosesOwn owner w₀ id (w₀.clock + env.tick) endedBy s grip) _
    (closeBoth_lone hc hs ho) (fun e t w he hw => hreply _ w (.unchanged hw rfl ?_))
    (fun _ grip t h => ?_))
  · rw [closed_closed hown he.1, he.2]
  · rcases h with ⟨r, hne, hr, hor, rfl⟩
    have hshown : ((w₀.ownSession env s).withRow ((closure (w₀.clock + env.tick) endedBy).apply
        s)).shown = w₀.showSession env ((closure (w₀.clock + env.tick) endedBy).apply s) :=
      ownSession_shown rfl rfl
    -- Both rows that the closure has written are the owner's.
    refine hk s hs hne ho _ t (closed_spares hs ho hr hor) ?_
    rw [closed_live hown hne, ownSession_row, hshown]

/-- The technician closes a session. -/
theorem closeByTechnician_lone (hc : Consistent w₀.tables) {id : Uuid} {user : User} :
    Replies throws c env w₀ ⟨w₀.tables, .free, w₀.clock, true⟩ (.technician user.id)
      ((w₀.ownRows env (.technician user.id)).reply (w₀.generated env) (throws c)
        (.closeByTechnician id user)) (closeByTechnician id user) .remoteSession := by
  refine closed_lone hc (fun e w h => h) (fun s hs hne ho T t hspares hreply => ?_)
  have hends : ∀ {res : Except HttpException Reply} {w : World},
      Here c env w₀ ⟨T, .free, t, false⟩ w →
      res = (w₀.ownRows env (.technician user.id)).closed id (w₀.clock + env.tick) .technician
        (throws c .emitToDevice) →
      EndsAs (.technician user.id) w₀ ((w₀.ownRows env (.technician user.id)).reply
        (w₀.generated env) (throws c) (.closeByTechnician id user)) res w := by
    intro res w hw hres
    refine ⟨hres, ?_⟩
    rw [hw.tables]
    exact hspares
  -- This emission may throw, and then its error is the answer.
  refine lone_emit (fun hthrow w hw => hends hw ?_) (fun hquiet => ?_)
  · have hfails : throws c .emitToDevice = true := hthrow
    rw [hreply, if_pos hfails]
  · have hfails : ¬ (throws c .emitToDevice = true) := by
      rw [show throws c .emitToDevice = false from hquiet]
      exact Bool.false_ne_true
    refine toResponse_lone (fun w hw => hends hw ?_)
    rw [hreply, if_neg hfails]
    rfl

/-- The device closes a session. Its event to the technician is sent with its
    errors caught. -/
theorem closeByDevice_lone (hc : Consistent w₀.tables) {id : Uuid} {device : Device} :
    Replies throws c env w₀ ⟨w₀.tables, .free, w₀.clock, true⟩ (.device device.id)
      ((w₀.ownRows env (.device device.id)).reply (w₀.generated env) (throws c)
        (.closeByDevice id device)) (closeByDevice id device) .remoteSession := by
  refine closed_lone hc (fun e w h => h) (fun s hs hne ho T t hspares hreply => ?_)
  refine lone_logErrors (toResponse_lone (fun w hw => ⟨?_, ?_⟩))
  · have hends := hreply.trans (if_neg Bool.false_ne_true)
    exact hends.symm
  · rw [hw.tables]
    exact hspares

end Sessions

/-! ## Every call -/

/-- A call of an owner, run alone, is answered what the rows of the owner call
    for, and changes no other row. -/
theorem call_lone (hi : Inv calls throws w₀) (call : OwnerCall) :
    Replies throws c env w₀ ⟨w₀.tables, .free, w₀.clock, true⟩ call.owner
      ((w₀.ownRows env call.owner).reply (w₀.generated env) (throws c) call) call.body
      (fun reply => reply) := by
  cases call with
  | createForDevice device => exact lone_map (created_lone rfl rfl)
  | currentRequestOfDevice device => exact lone_map (currentRequest_lone hi.unique)
  | acceptByDevice id device => exact lone_map (lone_newDate (answered_lone rfl))
  | rejectByDevice id device => exact lone_map (lone_newDate (answered_lone rfl))
  | cancelByDevice id device => exact lone_map (cancelled_lone hi.consistent rfl rfl)
  -- A read changes nothing, and shows the one live session of the owner.
  | currentSessionOfDevice device =>
      exact lone_map (currentSession_lone hi.unique (by simp only [ne_eq, reduceCtorEq,
        not_false_eq_true]) rfl (fun _ => rfl))
  | closeByDevice id device => exact lone_map (closeByDevice_lone hi.consistent)
  | create id user => exact lone_map (opened_lone hi rfl rfl rfl)
  | currentSessionOfTechnician user =>
      exact lone_map (currentSession_lone hi.unique (by simp only [ne_eq, reduceCtorEq,
        not_false_eq_true]) rfl (fun _ => rfl))
  | findOneForTechnician id user => exact lone_map findOne_lone
  | activateByTechnician id user => exact lone_map (activated_lone rfl rfl)
  | closeByTechnician id user => exact lone_map (closeByTechnician_lone hi.consistent)

end RemoteControl

import RemoteControl.Theory.Steps

/-!
# Locks and Updates

The rules for the statements that lock and update, each in the situations in
which the nine calls use it. A rule has one premise for each way the
statement can turn out, with what the call learns in that case.

Two of the source's checks cannot fail, and their rules say so by having no
premise for it: the update of a row the transaction has locked and checked
(`updateRequest_held_then`, `updateSession_held_then`), and the completion of
the request of a session that the transaction is closing
(`updateRequest_joined_then`).

A statement is unfolded once, in the lemmas about `exec`, and after that only
the specifications of the tables are used. What a call learns is a fact about
the state the statement ran in, so that several statements of one call can be
put together although the rows have changed in between.

## Main definitions

* `updateWrites`: What an update on its own commits.
* `Grip.wroteRequest`, `Grip.wroteSession`, `Grip.wroteBoth`: Rows in hand
  with a version written to them.

## Theorems

* `requestTakesNoKey`, `sessionTakesNoKey`: Updates and the indexes.
* `lockRequest_then`, `lockSession_then`: Locking.
* `existsLiveSession_then`: Asking for a live session with its request in
  hand.
* `updateRequest_auto_then`, `updateRequest_held_then`,
  `updateRequest_joined_then`: Updates of a request.
* `updateSession_free_then`, `updateSession_held_then`: Updates of a session.
* `exec_lockRequest`, `exec_lockSession`, `exec_updateSession`,
  `exec_updateRequest_held`, `exec_updateRequest_auto`: What a statement is to
  the tables.
* `At.ranRequests`, `At.ranSessions`, `At.ran`: Statements that commit
  nothing.
-/

namespace RemoteControl

open Concurrency Machine

/-! ## Keys of the indexes -/

/-- A request that is changed takes no new key, if it does not become active
    again. -/
theorem requestTakesNoKey {r row : SupportRequest} {q : Row SupportRequest CallId}
    (hr : r ∈ q.versions) (hd : row.deviceId = r.deviceId)
    (h : row.isActive = true → r.isActive = true) :
    Table.TakesNoKey supportRequestIndexes row q := by
  intro i hi
  rw [supportRequestIndexes, List.mem_singleton] at hi
  subst hi
  -- A request that is not active is in no index.
  by_cases ha : row.isActive = true
  · refine .inr ⟨r, hr, ?_⟩
    simp only [if_pos ha, if_pos (h ha), hd]
  · exact .inl (if_neg ha)

/-- A session that is changed takes no new key, if it does not come back to life. -/
theorem sessionTakesNoKey {s row : RemoteSession} {q : Row RemoteSession CallId}
    (hs : s ∈ q.versions) (hid : row.supportRequestId = s.supportRequestId)
    (hd : row.deviceId = s.deviceId) (hu : row.technicianId = s.technicianId)
    (h : row.isLive = true → s.isLive = true) :
    Table.TakesNoKey remoteSessionIndexes row q := by
  intro i hi
  simp only [remoteSessionIndexes, List.mem_cons, List.not_mem_nil, or_false] at hi
  -- The indexes on the device and the technician only cover live sessions.
  by_cases hl : row.isLive = true
  · refine .inr ⟨s, hs, ?_⟩
    rcases hi with rfl | rfl | rfl
    · simp only [hid]
    · simp only [if_pos hl, if_pos (h hl), hd]
    · simp only [if_pos hl, if_pos (h hl), hu]
  · rcases hi with rfl | rfl | rfl
    · exact .inr ⟨s, hs, by simp only [hid]⟩
    · exact .inl (if_neg hl)
    · exact .inl (if_neg hl)

/-- A request that is active after a move was active before it. -/
theorem StatusMove.active {a b : SupportRequestStatus} (h : StatusMove a b)
    (hb : b ∈ activeSupportRequestStatuses) : a ∈ activeSupportRequestStatuses := by
  cases h <;> revert hb <;> decide

/-- Likewise, of the rows. -/
theorem RequestMove.active {r r' : SupportRequest} (h : RequestMove r r')
    (ha : r'.isActive = true) : r.isActive = true :=
  isActive_mem.mpr (h.status.active (isActive_mem.mp ha))

/-! ## What the operations did, read off their equations -/

section Exec

variable {throws : CallId → Emitter → Bool} {c : CallId} {env : Env} {w w' : World}

/-- A lock that is answered has been taken in the table of the requests. -/
theorem exec_lockRequest {id : Uuid} {owner : Owner} {res : Option SupportRequest}
    (h : exec throws c env (.lockRequest id owner) w = some (res, w')) :
    ∃ t, w.requests.selectForUpdate c id owner.ofRequest = some (res, t) ∧
      w' = (w.setRequests t).record c (.ran (.lockRequest id owner)) := by
  simp only [exec] at h
  cases hl : w.requests.selectForUpdate c id owner.ofRequest with
  | none =>
      rw [hl] at h
      simp only [reduceCtorEq] at h
  | some rt =>
      rw [hl] at h
      cases h
      exact ⟨rt.2, rfl, rfl⟩

/-- A lock that is answered has been taken in the table of the sessions. -/
theorem exec_lockSession {id : Uuid} {owner : Owner} {res : Option RemoteSession}
    (h : exec throws c env (.lockSession id owner) w = some (res, w')) :
    ∃ t, w.sessions.selectForUpdate c id owner.ofSession = some (res, t) ∧
      w' = (w.setSessions t).record c (.ran (.lockSession id owner)) := by
  simp only [exec] at h
  cases hl : w.sessions.selectForUpdate c id owner.ofSession with
  | none =>
      rw [hl] at h
      simp only [reduceCtorEq] at h
  | some st =>
      rw [hl] at h
      cases h
      exact ⟨st.2, rfl, rfl⟩

/-- An update that is answered has been carried out in the table of the sessions. -/
theorem exec_updateSession {id : Uuid} {source : List RemoteSessionStatus}
    {changes : RemoteSessionChanges} {res : Bool}
    (h : exec throws c env (.updateSession id source changes) w = some (res, w')) :
    ∃ t, w.sessions.update (some c) id (fun s => decide (s.status ∈ source)) changes.apply =
        some (res, t) ∧
      w' = (w.setSessions t).record c (.ran (.updateSession id source changes)) := by
  simp only [exec] at h
  cases hl : w.sessions.update (some c) id (fun s => decide (s.status ∈ source))
      changes.apply with
  | none =>
      rw [hl] at h
      simp only [reduceCtorEq] at h
  | some rt =>
      rw [hl] at h
      cases h
      exact ⟨rt.2, rfl, rfl⟩

/-- An update in a transaction that is answered has been carried out there. -/
theorem exec_updateRequest_held {id : Uuid} {source : List SupportRequestStatus}
    {changes : SupportRequestTransition} {res : Bool}
    (h : exec throws c env (.updateRequest .entityManager id source changes) w =
      some (res, w')) :
    ∃ t, w.requests.update (some c) id (fun r => decide (r.status ∈ source)) changes.apply =
        some (res, t) ∧
      w' = (w.setRequests t).record c
        (.ran (.updateRequest .entityManager id source changes)) := by
  simp only [exec, runUpdateRequest, Manager.actor] at h
  cases hl : w.requests.update (some c) id (fun r => decide (r.status ∈ source))
      changes.apply with
  | none =>
      rw [hl] at h
      simp only [reduceCtorEq] at h
  | some rt =>
      rw [hl] at h
      cases h
      exact ⟨rt.2, rfl, rfl⟩

/-- An update on its own changes no row, or commits the row it changed. -/
theorem exec_updateRequest_auto {id : Uuid} {source : List SupportRequestStatus}
    {changes : SupportRequestTransition} {res : Bool}
    (h : exec throws c env (.updateRequest .dataSource id source changes) w =
      some (res, w')) :
    (res = false ∧ (∀ r, w.tables.requests id = some r → r.status ∉ source) ∧
      w' = w.record c (.ran (.updateRequest .dataSource id source changes))) ∨
    (res = true ∧ ∃ r, w.tables.requests id = some r ∧ r.status ∈ source ∧
      (w.requests.row id).held = none ∧
      w' = (w.setRequests (w.requests.set id ((w.requests.row id).put none
        (changes.apply r)))).record c
          (.committed (requestWrites w.tables.requests id (changes.apply r)))) := by
  simp only [exec, runUpdateRequest, Manager.actor] at h
  cases hl : w.requests.update none id (fun r => decide (r.status ∈ source))
      changes.apply with
  | none =>
      rw [hl] at h
      simp only [reduceCtorEq] at h
  | some rt =>
      rcases rt with ⟨affected, t⟩
      rcases Table.update_auto_spec hl with ⟨_, hno, hyes⟩
      rw [hl] at h
      -- Without a transaction the row is free, so its only version is the committed one.
      cases affected with
      | false =>
          rcases hno rfl with ⟨ht, hnone⟩
          cases h
          refine .inl ⟨rfl, fun r hr => of_decide_eq_false (hnone r hr), ?_⟩
          rw [ht]
          rfl
      | true =>
          rcases hyes rfl with ⟨r, hr, hsrc, hheld, ht, hcommitted⟩
          have hrow : t.committed id = some (changes.apply r) := by
            rw [hcommitted, applyWrites_single, if_pos rfl]
          simp only [hrow] at h
          cases h
          refine .inr ⟨rfl, r, hr, of_decide_eq_true hsrc, hheld, ?_⟩
          rw [ht]
          rfl

end Exec

section Programs

variable {calls : CallId → Operation} {throws : CallId → Emitter → Bool} {c : CallId}
  {p : Progress} {g : Grip} {K : World → Prop} {α : Type}
  {Q : α → World → Prop} {E : HttpException → World → Prop}

/-! ## Statements that commit nothing -/

/-- A statement that changes the table of requests, in its locks or in rows that
    are not committed. The lock or the version is all that is new, and the
    sessions are the same. -/
theorem At.ranRequests {w : World} {o : Op} {t : Table Uuid SupportRequest CallId} (g' : Grip)
    (hi : Inv calls throws w) (ha : At c p g w) (hp : p.Open)
    (hc : t.committed = w.requests.committed) (hd : t.Distinct supportRequestIndexes)
    (hu : Table.Untouched (some c) w.requests t) (hh : t.Holds c g'.request)
    (hsession : g'.session = g.session)
    (halone : g'.alone = true → ∃ h, g'.request = some h ∧
      ∀ k s, w.tables.sessions k = some s → s.supportRequestId ≠ h.key) :
    Inv calls throws ((w.setRequests t).record c (.ran o)) ∧
      Guar c w ((w.setRequests t).record c (.ran o)) ∧
      At c (p.add w.log (.ran o)) g' ((w.setRequests t).record c (.ran o)) ∧
      Saw c w ((w.setRequests t).record c (.ran o)) :=
  ha.quiet _ _ hi rfl (fun ws hc => by simp only [reduceCtorEq] at hc) (Nat.le_refl _)
    (entryOk_ran _ hi ha.progress hp.1 hp.2 (Nat.le_refl _) (.inl ⟨_, rfl⟩)) rfl rfl hc rfl hd
    hi.sessionsDistinct hu (.refl _ _) hh (by rw [hsession]; exact ha.sessions) halone

/-- A statement that changes the table of sessions in the same way. -/
theorem At.ranSessions {w : World} {o : Op} {t : Table Uuid RemoteSession CallId} (g' : Grip)
    (hi : Inv calls throws w) (ha : At c p g w) (hp : p.Open)
    (hc : t.committed = w.sessions.committed) (hd : t.Distinct remoteSessionIndexes)
    (hu : Table.Untouched (some c) w.sessions t) (hh : t.Holds c g'.session)
    (hrequest : g'.request = g.request) (halone : g'.alone = g.alone) :
    Inv calls throws ((w.setSessions t).record c (.ran o)) ∧
      Guar c w ((w.setSessions t).record c (.ran o)) ∧
      At c (p.add w.log (.ran o)) g' ((w.setSessions t).record c (.ran o)) ∧
      Saw c w ((w.setSessions t).record c (.ran o)) :=
  ha.quiet _ _ hi rfl (fun ws hc => by simp only [reduceCtorEq] at hc) (Nat.le_refl _)
    (entryOk_ran _ hi ha.progress hp.1 hp.2 (Nat.le_refl _) (.inl ⟨_, rfl⟩)) rfl rfl rfl hc
    hi.requestsDistinct hd (.refl _ _) hu (by rw [hrequest]; exact ha.requests) hh
    (fun h => by
      rw [hrequest]
      exact ha.alone (by rw [← halone]; exact h))

/-- A statement that changes no table. -/
theorem At.ran {w : World} {o : Op} (hi : Inv calls throws w) (ha : At c p g w) (hp : p.Open) :
    Inv calls throws (w.record c (.ran o)) ∧ Guar c w (w.record c (.ran o)) ∧
      At c (p.add w.log (.ran o)) g (w.record c (.ran o)) ∧ Saw c w (w.record c (.ran o)) :=
  ha.recorded hi (fun ws hc => by simp only [reduceCtorEq] at hc)
    (entryOk_ran _ hi ha.progress hp.1 hp.2 (Nat.le_refl _) (.inl ⟨_, rfl⟩))

/-! ## Locks -/

/-- Lock a request. Either there is none of this owner, or it is held from now on,
    as it was committed at that moment. -/
theorem lockRequest_then {id : Uuid} {owner : Owner} {k : Option SupportRequest → Service α}
    (hp : p.Open) (hK : (lifecycle calls throws).Persistent K)
    (hnone : ∀ w₀, Inv calls throws w₀ → K w₀ →
      (∀ r, w₀.tables.requests id = some r → owner.ofRequest r = false) →
      (lifecycle calls throws).Triple (exec throws) c
        (fun w => At c p .free w ∧ Saw c w₀ w ∧ K w) (k none) Q E)
    (hsome : ∀ w₀ r, Inv calls throws w₀ → K w₀ → w₀.tables.requests id = some r →
      owner.ofRequest r = true →
      (lifecycle calls throws).Triple (exec throws) c
        (fun w => At c p (.ofRequest id r false) w ∧ Saw c w₀ w ∧ K w) (k (some r)) Q E) :
    (lifecycle calls throws).Triple (exec throws) c (fun w => At c p .free w ∧ K w)
      ((statement (.lockRequest id owner)).bind k) Q E := by
  refine statement_then (fun _ _ => p)
    (fun res _ => match res with | none => .free | some r => .ofRequest id r false)
    (fun res w => match res with
      | none => ∀ r, w.tables.requests id = some r → owner.ofRequest r = false
      | some r => w.tables.requests id = some r ∧ owner.ofRequest r = true)
    (fun _ w₀ => Saw c w₀) hK (fun _ _ => Saw.persistent)
    (fun w _ ha _ => ⟨ha.requests, ha.sessions⟩) (fun w hi ha _ env res w' hx => ?_)
    (fun res w₀ hi _ hk₀ hφ => ?_)
  · rcases exec_lockRequest hx with ⟨t, hl, rfl⟩
    rcases Table.lock_spec ha.requests hl with ⟨hu, hc, hno, hyes⟩
    -- The row is locked in the state the statement found, and read there as well.
    cases res with
    | none =>
        rcases hno rfl with ⟨rfl, hnot⟩
        rcases ha.ran hi hp with ⟨hi', hg, ha', hsaw⟩
        exact ⟨hi', hg, ha', hsaw, hnot⟩
    | some r =>
        rcases hyes r rfl with ⟨hr, ho, hheld, ht, hholds⟩
        rcases ha.ranRequests (.ofRequest id r false) hi hp hc
          (by rw [ht]; exact hi.requestsDistinct.lock hheld) hu hholds rfl
          (fun halone => by simp only [Grip.ofRequest, Bool.false_eq_true] at halone) with
          ⟨hi', hg, ha', hsaw⟩
        exact ⟨hi', hg, ha', hsaw, hr, ho⟩
  · cases res with
    | none => exact hnone w₀ hi hk₀ hφ
    | some r => exact hsome w₀ r hi hk₀ hφ.1 hφ.2

/-- Lock a session. As with a request, and the call remembers that it has asked. -/
theorem lockSession_then {id : Uuid} {owner : Owner} {k : Option RemoteSession → Service α}
    (hp : p.Open) (hK : (lifecycle calls throws).Persistent K)
    (hnone : ∀ w₀, Inv calls throws w₀ → K w₀ →
      (∀ s, w₀.tables.sessions id = some s → owner.ofSession s = false) →
      (lifecycle calls throws).Triple (exec throws) c
        (fun w => At c p .free w ∧ (Ran c (.lockSession id owner) w₀ w ∧ Saw c w₀ w) ∧ K w)
        (k none) Q E)
    (hsome : ∀ w₀ s, Inv calls throws w₀ → K w₀ → w₀.tables.sessions id = some s →
      owner.ofSession s = true →
      (lifecycle calls throws).Triple (exec throws) c
        (fun w => At c p (.ofSession id s) w ∧
          (Ran c (.lockSession id owner) w₀ w ∧ Saw c w₀ w) ∧ K w) (k (some s)) Q E) :
    (lifecycle calls throws).Triple (exec throws) c (fun w => At c p .free w ∧ K w)
      ((statement (.lockSession id owner)).bind k) Q E := by
  refine statement_then (fun _ _ => p)
    (fun res _ => match res with | none => .free | some s => .ofSession id s)
    (fun res w => match res with
      | none => ∀ s, w.tables.sessions id = some s → owner.ofSession s = false
      | some s => w.tables.sessions id = some s ∧ owner.ofSession s = true)
    (fun _ w₀ w => Ran c (.lockSession id owner) w₀ w ∧ Saw c w₀ w) hK
    (fun _ _ => Ran.persistent.and Saw.persistent)
    (fun w _ ha _ => ⟨ha.requests, ha.sessions⟩) (fun w hi ha _ env res w' hx => ?_)
    (fun res w₀ hi _ hk₀ hφ => ?_)
  · rcases exec_lockSession hx with ⟨t, hl, rfl⟩
    rcases Table.lock_spec ha.sessions hl with ⟨hu, hc, hno, hyes⟩
    -- That the row was asked for stays in the log, for the caller to point at.
    have hran : ∀ t', Ran c (.lockSession id owner) w
        ((w.setSessions t').record c (.ran (.lockSession id owner))) :=
      fun t' => ⟨w.clock, List.suffix_rfl⟩
    cases res with
    | none =>
        rcases hno rfl with ⟨rfl, hnot⟩
        rcases ha.ran hi hp with ⟨hi', hg, ha', hsaw⟩
        exact ⟨hi', hg, ha', ⟨hran _, hsaw⟩, hnot⟩
    | some s =>
        rcases hyes s rfl with ⟨hs, ho, hheld, ht, hholds⟩
        rcases ha.ranSessions (.ofSession id s) hi hp hc
          (by rw [ht]; exact hi.sessionsDistinct.lock hheld) hu hholds rfl rfl with
          ⟨hi', hg, ha', hsaw⟩
        exact ⟨hi', hg, ha', ⟨hran _, hsaw⟩, hs, ho⟩
  · cases res with
    | none => exact hnone w₀ hi hk₀ hφ
    | some s => exact hsome w₀ s hi hk₀ hφ.1 hφ.2

/-- Look for a live session with the request in hand. When there is none that
    could be the request's, no session belongs to the request, and none will
    while it is held. -/
theorem existsLiveSession_then {whose : LiveSessionOf} {id : Uuid} {r : SupportRequest}
    {k : Bool → Service α} (hp : p.Open) (hK : (lifecycle calls throws).Persistent K)
    (hwhose : ∀ s : RemoteSession, s.supportRequestId = id →
      r.technicianId = some s.technicianId → s.isLive = true → whose.found s = true)
    (hst : r.status = .accepted)
    (htrue : ∀ w₀, Inv calls throws w₀ → K w₀ → w₀.tables.requests id = some r →
      (∃ j s, w₀.tables.sessions j = some s ∧ whose.found s = true) →
      (lifecycle calls throws).Triple (exec throws) c
        (fun w => At c p (.ofRequest id r false) w ∧ Saw c w₀ w ∧ K w) (k true) Q E)
    (hfalse : ∀ w₀, Inv calls throws w₀ → K w₀ → w₀.tables.requests id = some r →
      (lifecycle calls throws).Triple (exec throws) c
        (fun w => At c p (.ofRequest id r true) w ∧ Saw c w₀ w ∧ K w) (k false) Q E) :
    (lifecycle calls throws).Triple (exec throws) c
      (fun w => At c p (.ofRequest id r false) w ∧ K w)
      ((statement (.existsLiveSession whose)).bind k) Q E := by
  refine statement_then (fun _ _ => p) (fun res _ => .ofRequest id r (!res))
    (fun res w => res = true → ∃ j s, w.tables.sessions j = some s ∧ whose.found s = true)
    (fun _ w₀ => Saw c w₀) hK (fun _ _ => Saw.persistent) (fun _ _ _ _ => trivial)
    (fun w hi ha _ env res w' hx => ?_) (fun res w₀ hi ha₀ hk₀ hφ => ?_)
  -- The transaction holds no session, so it sees the committed ones.
  · simp only [exec] at hx
    cases hx
    have hview : ∀ j, w.sessions.view (some c) j = w.tables.sessions j :=
      fun j => Table.holds_none_view ha.sessions j
    have hfound : w.sessions.anyRow (some c) whose.found = true ↔
        ∃ j s, w.tables.sessions j = some s ∧ whose.found s = true := by
      rw [Table.anyRow_iff]
      simp only [hview]
    have hr : w.tables.requests id = some r := ha.request rfl
    have hnone : w.sessions.anyRow (some c) whose.found = false →
        ∀ j s, w.tables.sessions j = some s → s.supportRequestId ≠ id := by
      intro hno j s hs hid
      -- An accepted request has live sessions only, and this would be one.
      rcases hi.consistent.owned j s hs with ⟨r', hr', _, hu, hstatus⟩
      rw [hid, hr, Option.some.injEq] at hr'
      subst hr'
      have hlive : s.isLive = true := by
        by_contra hl
        rw [if_neg hl, hst] at hstatus
        simp only [reduceCtorEq] at hstatus
      rw [hfound.mpr ⟨j, s, hs, hwhose s hid hu hlive⟩] at hno
      simp only [Bool.true_eq_false] at hno
    rcases ha.ranRequests (.ofRequest id r (!w.sessions.anyRow (some c) whose.found)) hi hp
      rfl hi.requestsDistinct (.refl _ _) ha.requests rfl
      (fun halone => ⟨_, rfl, hnone (Bool.not_eq_true' _ ▸ halone)⟩) with ⟨hi', hg, ha', hsaw⟩
    exact ⟨hi', hg, ha', hsaw, hfound.mp⟩
  · cases res with
    | true => exact htrue w₀ hi hk₀ (ha₀.request rfl) (hφ rfl)
    | false => exact hfalse w₀ hi hk₀ (ha₀.request rfl)

/-! ## Updates -/

/-- What an update on its own commits when it finds its row. -/
def updateWrites (T : Tables) (id : Uuid) (changes : SupportRequestTransition) : Writes :=
  match T.requests id with
  | some r => requestWrites T.requests id (changes.apply r)
  | none => { requests := [], sessions := [] }

/-- The row that was found is the one that is committed. -/
theorem updateWrites_some {T : Tables} {id : Uuid} {changes : SupportRequestTransition}
    {r : SupportRequest} (h : T.requests id = some r) :
    updateWrites T id changes = requestWrites T.requests id (changes.apply r) := by
  simp only [updateWrites, h]

/-- What the answer to an update says of the row: it was there and could be
    changed, or not. -/
abbrev AnswersUpdate {V : Type} (may : V → Prop) (row : Option V) : Bool → Prop
  | false => ∀ v, row = some v → ¬ may v
  | true => ∃ v, row = some v ∧ may v

/-- An update on its own. It finds no row it may change, or it changes the
    row and commits, and then there has to be an explanation for it. -/
theorem updateRequest_auto_then {id : Uuid} {source : List SupportRequestStatus}
    {changes : SupportRequestTransition} {k : Bool → Service α} (before : List Entry)
    {asked : Option Bool} {written : Bool} (hK : (lifecycle calls throws).Persistent K)
    (hpresence : (calls c).NeedsPresence → asked = some true)
    (hexplains : ∀ w r, Inv calls throws w → K w → w.tables.requests id = some r →
      r.status ∈ source → ∃ t, (∀ e ∈ before, e.time ≤ t) ∧ t ≤ w.clock ∧
        Explains w.tables t (calls c) (requestWrites w.tables.requests id (changes.apply r)))
    (hfalse : ∀ w₀, Inv calls throws w₀ → K w₀ →
      (∀ r, w₀.tables.requests id = some r → r.status ∉ source) →
      (lifecycle calls throws).Triple (exec throws) c
        (fun w => At c (working before asked true) .free w ∧ Saw c w₀ w ∧ K w) (k false) Q E)
    (htrue : ∀ w₀ r, Inv calls throws w₀ → K w₀ → w₀.tables.requests id = some r →
      r.status ∈ source →
      (lifecycle calls throws).Triple (exec throws) c
        (fun w => At c (announcing before asked
            (requestWrites w₀.tables.requests id (changes.apply r)) []) .free w ∧
          Since (w₀.tables.apply (requestWrites w₀.tables.requests id (changes.apply r))) w ∧
          K w) (k true) Q E) :
    (lifecycle calls throws).Triple (exec throws) c
      (fun w => At c (working before asked written) .free w ∧ K w)
      ((statement (.updateRequest .dataSource id source changes)).bind k) Q E := by
  refine statement_then
    (fun (res : Bool) w => if res then
        announcing before asked (updateWrites w.tables id changes) []
      else working before asked true)
    (fun _ _ => .free)
    (fun res w => AnswersUpdate (fun r => r.status ∈ source) (w.tables.requests id) res)
    (fun res w₀ => match res with
      | false => Saw c w₀
      | true => Since (w₀.tables.apply (updateWrites w₀.tables id changes)))
    hK (fun res w₀ => ?_) (fun w _ ha _ => .inl ⟨ha.requests, ha.sessions⟩)
    (fun w hi ha hk env res w' hx => ?_) (fun res w₀ hi _ hk₀ hφ => ?_)
  · cases res with
    | false => exact Saw.persistent
    | true => exact Since.persistent
  · rcases exec_updateRequest_auto hx with ⟨rfl, hnone, rfl⟩ | ⟨rfl, r, hr, hsrc, hheld, rfl⟩
    · rcases ha.ran hi working_open with ⟨hi', hg, ha', hsaw⟩
      exact ⟨hi', hg, ha', hsaw, hnone⟩
    -- Outside of a transaction the update is its own commit, so it is explained here.
    · rcases hexplains w r hi hk hr hsrc with ⟨t, hbefore, ht, hx⟩
      -- The change is a move, so the row takes no key it did not have.
      have hmove := (hx.requestMove hi.consistent _ (List.mem_singleton.mpr rfl)).2 r hr
      -- Nobody holds the row, and nobody holds it afterwards.
      have hfree : (w.requests.row id).freeFor none = true := by
        simp only [Row.freeFor, hheld]
      have hcommitted : (w.requests.set id ((w.requests.row id).put none
          (changes.apply r))).committed =
          applyWrites [⟨id, w.tables.requests id, changes.apply r⟩] w.tables.requests := by
        funext j
        rw [applyWrites_single]
        by_cases hj : j = id
        · rw [hj, if_pos rfl]
          simp only [Table.committed, Table.set_row_self, Row.put]
        · rw [if_neg (fun hc => hj hc.symm)]
          simp only [Table.committed, Table.set_row_of_ne _ _ _ _ hj, World.tables]
      -- A statement on its own holds nothing when it is over.
      have hunheld : (w.requests.set id ((w.requests.row id).put none
          (changes.apply r))).Holds c none := by
        refine Table.Holds.frame (h := none) ha.requests (Table.put_untouched hfree) ?_
        simp only [ne_eq, reduceCtorEq, not_false_eq_true]
      rcases ha.commits
        ((w.setRequests (w.requests.set id ((w.requests.row id).put none
          (changes.apply r)))).record c
            (.committed (requestWrites w.tables.requests id (changes.apply r))))
        (requestWrites w.tables.requests id (changes.apply r)) hi rfl rfl rfl
        ⟨rfl, rfl, hpresence, before, t, rfl, hbefore, ht, hi.tables ▸ hx⟩ rfl rfl
        (by simp only [World.tables, World.record, World.setRequests, hcommitted]; rfl)
        (hi.requestsDistinct.put (requestTakesNoKey (Table.mem_versions_committed hr)
          hmove.deviceId hmove.active)) hi.sessionsDistinct
        (fun j c' _ hheld' => Table.put_untouched hfree j c'
          (by simp only [ne_eq, reduceCtorEq, not_false_eq_true]) hheld') (.refl _ _) hunheld
        ha.sessions (fun s hs => by simp only [requestWrites, List.not_mem_nil] at hs) with
        ⟨hi', hg, ha', hsince⟩
      refine ⟨hi', hg, ?_, ?_, r, hr, hsrc⟩
      · simp only [if_true, updateWrites_some hr]
        exact ha'
      · simp only [updateWrites_some hr]
        exact hsince
  · cases res with
    | false => exact hfalse w₀ hi hk₀ hφ
    | true =>
        rcases hφ with ⟨r, hr, hsrc⟩
        simp only [if_true, updateWrites_some hr]
        exact htrue w₀ r hi hk₀ hr hsrc

/-- The request in hand, with a version written to it. -/
def Grip.wroteRequest (id : Uuid) (r row : SupportRequest) (alone : Bool) : Grip :=
  { request := some ⟨id, some r, some row⟩, session := none, alone }

/-- It is about to commit one request. -/
@[simp] theorem Grip.writes_wroteRequest (id : Uuid) (r row : SupportRequest) (alone : Bool) :
    (Grip.wroteRequest id r row alone).writes =
      { requests := [⟨id, some r, row⟩], sessions := [] } := rfl

/-- As the writes of a commit of that request. -/
theorem wroteRequest_writes {T : Tables} {id : Uuid} {r row : SupportRequest} {alone : Bool}
    (hr : T.requests id = some r) :
    (Grip.wroteRequest id r row alone).writes = requestWrites T.requests id row := by
  rw [Grip.writes_wroteRequest, requestWrites, hr]

/-- The session in hand, with a version written to it. -/
def Grip.wroteSession (id : Uuid) (s row : RemoteSession) : Grip :=
  { request := none, session := some ⟨id, some s, some row⟩, alone := false }

/-- It is about to commit one session. -/
@[simp] theorem Grip.writes_wroteSession (id : Uuid) (s row : RemoteSession) :
    (Grip.wroteSession id s row).writes =
      { requests := [], sessions := [⟨id, some s, row⟩] } := rfl

/-- An update of the request in hand, in a status it may start from. Nobody can
    have changed it, so the update finds it. -/
theorem updateRequest_held_then {id : Uuid} {source : List SupportRequestStatus}
    {changes : SupportRequestTransition} {k : Bool → Service α} {before : List Entry}
    {asked : Option Bool} {written alone : Bool} {r : SupportRequest}
    (hK : (lifecycle calls throws).Persistent K) (hsrc : r.status ∈ source)
    (hkey : (changes.apply r).isActive = true → r.isActive = true)
    (htrue : ∀ w₀, Inv calls throws w₀ → K w₀ →
      (lifecycle calls throws).Triple (exec throws) c
        (fun w => At c (working before asked true)
          (.wroteRequest id r (changes.apply r) alone) w ∧ Saw c w₀ w ∧ K w) (k true) Q E) :
    (lifecycle calls throws).Triple (exec throws) c
      (fun w => At c (working before asked written) (.ofRequest id r alone) w ∧ K w)
      ((statement (.updateRequest .entityManager id source changes)).bind k) Q E := by
  refine statement_then (fun _ _ => working before asked true)
    (fun _ _ => .wroteRequest id r (changes.apply r) alone) (fun res _ => res = true)
    (fun _ w₀ => Saw c w₀) hK (fun _ _ => Saw.persistent)
    (fun w _ ha _ => .inr (.inl ⟨rfl, _, ha.requests, rfl⟩))
    (fun w hi ha _ env res w' hx => ?_) (fun res w₀ hi _ hk₀ hres => ?_)
  · rcases exec_updateRequest_held hx with ⟨t, hup, rfl⟩
    rcases Table.update_held_spec ha.requests rfl hup with ⟨hu, hc, hres, _, hyes⟩
    rw [decide_eq_true hsrc] at hres
    rcases hyes hres with ⟨ht, hholds⟩
    have hcommitted : (w.requests.row id).committed = some r := ha.request rfl
    -- The lock is the same, so nobody else came to it in between.
    have halone : alone = true → ∃ h, (some ⟨id, some r, some (changes.apply r)⟩ :
        Option (Hold Uuid SupportRequest)) = some h ∧
        ∀ j s, w.tables.sessions j = some s → s.supportRequestId ≠ h.key := by
      intro hal
      rcases ha.alone hal with ⟨h, hg, hnone⟩
      simp only [Grip.ofRequest, Option.some.injEq] at hg
      subst hg
      exact ⟨_, rfl, hnone⟩
    rcases ha.ranRequests (.wroteRequest id r (changes.apply r) alone)
      (o := .updateRequest .entityManager id source changes) hi working_open hc
      (by rw [ht]; exact hi.requestsDistinct.put
            (requestTakesNoKey (Table.mem_versions_committed hcommitted) rfl hkey))
      hu hholds rfl halone with ⟨hi', hg, ha', hsaw⟩
    exact ⟨hi', hg, ha', hsaw, hres⟩
  · subst hres
    exact htrue w₀ hi hk₀

/-- The session in hand, closed, and its request, completed. -/
def Grip.wroteBoth (sid : Uuid) (s row : RemoteSession) (id : Uuid) (r row' : SupportRequest) :
    Grip :=
  { request := some ⟨id, some r, some row'⟩, session := some ⟨sid, some s, some row⟩
    alone := false }

/-- It is about to commit one session and one request. -/
@[simp] theorem Grip.writes_wroteBoth (sid : Uuid) (s row : RemoteSession) (id : Uuid)
    (r row' : SupportRequest) : (Grip.wroteBoth sid s row id r row').writes =
      { requests := [⟨id, some r, row'⟩], sessions := [⟨sid, some s, row⟩] } := rfl

/-- As the writes of a closure. -/
theorem wroteBoth_writes {T : Tables} {id : Uuid} {s : RemoteSession} {r : SupportRequest}
    {t : Timestamp} {endedBy : RemoteSessionEndedBy} (hs : T.sessions id = some s)
    (hr : T.requests s.supportRequestId = some r) :
    (Grip.wroteBoth id s ((closure t endedBy).apply s) s.supportRequestId r
      ((completion t).apply r)).writes = closureWrites T id s r t endedBy := by
  rw [Grip.writes_wroteBoth, closureWrites, hs, hr]

/-- The completion of the request of a session that is being closed. The
    request is accepted for as long as the session is live in what is
    committed, so the update finds it. -/
theorem updateRequest_joined_then {sid : Uuid} {s row : RemoteSession}
    {changes : SupportRequestTransition} {k : Bool → Service α} {before : List Entry}
    {asked : Option Bool} {written : Bool} (hK : (lifecycle calls throws).Persistent K)
    (hl : s.isLive = true) (hkey : changes.status ∉ activeSupportRequestStatuses)
    (htrue : ∀ w₀ r, Inv calls throws w₀ → K w₀ →
      w₀.tables.requests s.supportRequestId = some r → r.status = .accepted →
      (lifecycle calls throws).Triple (exec throws) c
        (fun w => At c (working before asked true)
          (.wroteBoth sid s row s.supportRequestId r (changes.apply r)) w ∧ Saw c w₀ w ∧ K w)
        (k true) Q E) :
    (lifecycle calls throws).Triple (exec throws) c
      (fun w => At c (working before asked written) (.wroteSession sid s row) w ∧ K w)
      ((statement (.updateRequest .entityManager s.supportRequestId [.accepted] changes)).bind k)
      Q E := by
  refine statement_then (fun _ _ => working before asked true)
    (fun _ w => match w.tables.requests s.supportRequestId with
      | some r => .wroteBoth sid s row s.supportRequestId r (changes.apply r)
      | none => .free)
    (fun res w => res = true ∧ ∃ r, w.tables.requests s.supportRequestId = some r ∧
      r.status = .accepted)
    (fun _ w₀ => Saw c w₀) hK (fun _ _ => Saw.persistent)
    (fun w _ ha _ => .inr (.inr ⟨ha.requests, _, s, ha.sessions, rfl, hl, rfl⟩))
    (fun w hi ha _ env res w' hx => ?_) (fun res w₀ hi _ hk₀ hφ => ?_)
  · rcases exec_updateRequest_held hx with ⟨t, hup, rfl⟩
    rcases Table.update_free_spec ha.requests hup with ⟨hu, hc, hno, hyes⟩
    have hs : w.tables.sessions sid = some s := ha.session rfl
    -- The request of a live session is accepted, so the update cannot miss it.
    rcases hi.consistent.owned sid s hs with ⟨r, hr, _, _, hst⟩
    rw [if_pos hl] at hst
    cases res with
    -- This is the conflict that the source checks for, and it cannot happen.
    | false =>
        have hnot := of_decide_eq_false ((hno rfl).2 r hr)
        rw [hst] at hnot
        exact absurd (List.mem_singleton.mpr rfl) hnot
    | true =>
        rcases hyes rfl with ⟨r', hr', _, _, ht, hholds⟩
        have heq : r' = r := Option.some.inj (hr'.symm.trans hr)
        subst heq
        have hkey' : (changes.apply r').isActive = true → r'.isActive = true :=
          fun hc => absurd (isActive_mem.mp hc) hkey
        rcases ha.quiet ((w.setRequests t).record c
            (.ran (.updateRequest .entityManager s.supportRequestId [.accepted] changes)))
          (.wroteBoth sid s row s.supportRequestId r' (changes.apply r')) hi rfl
          (fun ws hc => by simp only [reduceCtorEq] at hc) (Nat.le_refl _)
          (entryOk_ran _ hi ha.progress rfl rfl (Nat.le_refl _) (.inl ⟨_, rfl⟩)) rfl rfl hc rfl
          (by rw [ht]; exact hi.requestsDistinct.put
                (requestTakesNoKey (Table.mem_versions_committed hr) rfl hkey'))
          hi.sessionsDistinct hu (.refl _ _) hholds ha.sessions
          (fun hc => by simp only [Grip.wroteBoth, Bool.false_eq_true] at hc) with
          ⟨hi', hg, ha', hsaw⟩
        refine ⟨hi', hg, ?_, hsaw, rfl, r', hr, hst⟩
        simp only [hr]
        exact ha'
  · rcases hφ with ⟨rfl, r, hr, hst⟩
    simp only [hr]
    exact htrue w₀ r hi hk₀ hr hst

/-- What a call has a hold of after it has changed a session. -/
def Grip.ofUpdate (id : Uuid) (changes : RemoteSessionChanges) (row : Option RemoteSession) :
    Grip :=
  row.elim .free (fun s => .wroteSession id s (changes.apply s))

/-- An update of a session by a transaction that holds nothing yet. It finds no
    session it may change, or has changed one and holds it. -/
theorem updateSession_free_then {id : Uuid} {source : List RemoteSessionStatus}
    {changes : RemoteSessionChanges} {k : Bool → Service α} (hp : p.Open)
    (hK : (lifecycle calls throws).Persistent K)
    (hkey : changes.status ∉ activeRemoteSessionStatuses)
    (hfalse : ∀ w₀, Inv calls throws w₀ → K w₀ →
      (∀ s, w₀.tables.sessions id = some s → s.status ∉ source) →
      (lifecycle calls throws).Triple (exec throws) c
        (fun w => At c p .free w ∧ Saw c w₀ w ∧ K w) (k false) Q E)
    (htrue : ∀ w₀ s, Inv calls throws w₀ → K w₀ → w₀.tables.sessions id = some s →
      s.status ∈ source →
      (lifecycle calls throws).Triple (exec throws) c
        (fun w => At c p (.wroteSession id s (changes.apply s)) w ∧ Saw c w₀ w ∧ K w) (k true)
        Q E) :
    (lifecycle calls throws).Triple (exec throws) c (fun w => At c p .free w ∧ K w)
      ((statement (.updateSession id source changes)).bind k) Q E := by
  refine statement_then (fun _ _ => p)
    (fun (res : Bool) w => if res then Grip.ofUpdate id changes (w.tables.sessions id) else .free)
    (fun res w => AnswersUpdate (fun s => s.status ∈ source) (w.tables.sessions id) res)
    (fun _ w₀ => Saw c w₀) hK (fun _ _ => Saw.persistent)
    (fun w _ ha _ => ⟨ha.requests, .inl ha.sessions⟩)
    (fun w hi ha _ env res w' hx => ?_) (fun res w₀ hi _ hk₀ hφ => ?_)
  · rcases exec_updateSession hx with ⟨t, hup, rfl⟩
    rcases Table.update_free_spec ha.sessions hup with ⟨hu, hc, hno, hyes⟩
    cases res with
    | false =>
        rcases hno rfl with ⟨rfl, hnot⟩
        rcases ha.ran (o := .updateSession id source changes) hi hp with ⟨hi', hg, ha', hsaw⟩
        exact ⟨hi', hg, ha', hsaw, fun s hs => of_decide_eq_false (hnot s hs)⟩
    | true =>
        rcases hyes rfl with ⟨s, hs, hsrc, _, ht, hholds⟩
        have hs' : w.tables.sessions id = some s := hs
        -- The update closes the session, and a closed one is in none of the partial indexes.
        have hdead : (changes.apply s).isLive = true → s.isLive = true :=
          fun hc => absurd (of_decide_eq_true hc) hkey
        rcases ha.ranSessions (.wroteSession id s (changes.apply s))
          (o := .updateSession id source changes) hi hp hc
          (by rw [ht]; exact hi.sessionsDistinct.put
                (sessionTakesNoKey (Table.mem_versions_committed hs) rfl rfl rfl hdead))
          hu hholds rfl rfl with ⟨hi', hg, ha', hsaw⟩
        refine ⟨hi', hg, ?_, hsaw, s, hs, of_decide_eq_true hsrc⟩
        simp only [Grip.ofUpdate, hs', if_true, Option.elim_some]
        exact ha'
  · cases res with
    | false => exact hfalse w₀ hi hk₀ hφ
    | true =>
        rcases hφ with ⟨s, hs, hsrc⟩
        simp only [hs]
        exact htrue w₀ s hi hk₀ hs hsrc

/-- An update of the session in hand, in a status it may start from. Nobody can
    have changed it, so the update finds it. -/
theorem updateSession_held_then {id : Uuid} {source : List RemoteSessionStatus}
    {changes : RemoteSessionChanges} {k : Bool → Service α} {s : RemoteSession} (hp : p.Open)
    (hK : (lifecycle calls throws).Persistent K) (hsrc : s.status ∈ source)
    (hkey : (changes.apply s).isLive = true → s.isLive = true)
    (htrue : ∀ w₀, Inv calls throws w₀ → K w₀ →
      (lifecycle calls throws).Triple (exec throws) c
        (fun w => At c p (.wroteSession id s (changes.apply s)) w ∧ Saw c w₀ w ∧ K w) (k true)
        Q E) :
    (lifecycle calls throws).Triple (exec throws) c (fun w => At c p (.ofSession id s) w ∧ K w)
      ((statement (.updateSession id source changes)).bind k) Q E := by
  refine statement_then (fun _ _ => p)
    (fun _ _ => .wroteSession id s (changes.apply s)) (fun res _ => res = true)
    (fun _ w₀ => Saw c w₀) hK (fun _ _ => Saw.persistent)
    (fun w _ ha _ => ⟨ha.requests, .inr ⟨_, ha.sessions, rfl⟩⟩)
    (fun w hi ha _ env res w' hx => ?_) (fun res w₀ hi _ hk₀ hres => ?_)
  · rcases exec_updateSession hx with ⟨t, hup, rfl⟩
    rcases Table.update_held_spec ha.sessions rfl hup with ⟨hu, hc, hres, _, hyes⟩
    rw [decide_eq_true hsrc] at hres
    rcases hyes hres with ⟨ht, hholds⟩
    -- Whoever holds the row has read it, so the update cannot miss it.
    have hcommitted : (w.sessions.row id).committed = some s := ha.session rfl
    rcases ha.ranSessions (.wroteSession id s (changes.apply s))
      (o := .updateSession id source changes) hi hp hc
      (by rw [ht]; exact hi.sessionsDistinct.put
            (sessionTakesNoKey (Table.mem_versions_committed hcommitted) rfl rfl rfl hkey))
      hu hholds rfl rfl with ⟨hi', hg, ha', hsaw⟩
    exact ⟨hi', hg, ha', hsaw, hres⟩
  · subst hres
    exact htrue w₀ hi hk₀

end Programs

end RemoteControl

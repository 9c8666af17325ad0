import RemoteControl.Theory.Operations

/-!
# Insertions, Transactions and Emissions

The rules for what remains of the operations: the two insertions, the clock
and the presence, a transaction around a program, and the emissions after it.

An insertion of a session is refused by one index only, the one on the
technician. The request is in hand and has no session, so the index on the
request is out; and a live session of the same device would belong to another
active request of that device.

The rule for a transaction asks for an explanation of what it is about to
commit, in the state it commits in. The rule for an emission asks that the
commit calls for it.

Every rule has the same shape. It is given the continuation after each outcome
and proves the program before it, so that a proof about an operation follows
the text of the operation. What has been shown of the past (`K`) has to be
persistent, because a statement is only sent after a wait in which the others
go on.

Inside a transaction nothing is committed, and the entry of a statement is
`quiet`. The rows are held, and the grip says which and with what in them.
Only the commit turns the grip into writes, and only there is an explanation
asked for. A rollback lets the grip go and leaves no trace but its entry.

## Main definitions

* `requestDraft`, `sessionDraft`: What the source saves a new row with.
* `Grip.opened`: A request in hand, and a session inserted for it.
* `Committable`: What a transaction has to show before it commits.

## Theorems

* `insertRequest_then`, `insertSession_then`: Insertions.
* `newDate_then`, `isOnline_then`: The clock and the presence.
* `transaction_then`: Transactions.
* `emit_then`, `logErrors_then`: Emissions.
* `clash_requestDraft`, `clash_technician`: What it means that an insertion
  was refused.
* `begin_then`, `commit_then`, `rollback_then`: The three statements around a
  transaction.
* `transaction_bind`: A transaction, statement by statement.
-/

namespace RemoteControl

open Concurrency Machine

/-! ## What the insertions did, read off their equations -/

section Exec

variable {throws : CallId → Emitter → Bool} {c : CallId} {env : Env} {w w' : World}

/-- An insertion of a request either clashes and leaves the table, or is committed
    in the same step, because no transaction is around it. -/
theorem exec_insertRequest {draft : SupportRequestDraft}
    {res : Except QueryFailedError SupportRequest}
    (h : exec throws c env (.insertRequest draft) w = some (res, w')) :
    (∃ name t, res = .error ⟨uniqueViolation, name⟩ ∧
      w.requests.insert supportRequestIndexes none env.newId
        (draft.toRow env.newId env.createdAt) = some (.error name, t) ∧
      w' = w.record c (.ran (.insertRequest draft))) ∨
    (∃ t, res = .ok (draft.toRow env.newId env.createdAt) ∧
      w.requests.insert supportRequestIndexes none env.newId
        (draft.toRow env.newId env.createdAt) = some (.ok (), t) ∧
      w' = (w.setRequests t).record c (.committed (requestWrites w.tables.requests env.newId
        (draft.toRow env.newId env.createdAt)))) := by
  -- Outside of a transaction the row is committed at once.
  simp only [exec, runInsertRequest] at h
  cases hins : w.requests.insert supportRequestIndexes none env.newId
      (draft.toRow env.newId env.createdAt) with
  | none =>
      rw [hins] at h
      simp only [reduceCtorEq] at h
  | some rt =>
      rcases rt with ⟨r, t⟩
      rw [hins] at h
      cases r with
      | error name =>
          cases h
          exact .inl ⟨name, t, rfl, rfl, rfl⟩
      | ok u =>
          cases h
          exact .inr ⟨t, rfl, rfl, rfl⟩

/-- An insertion of a session either clashes, or adds the row to what its
    transaction holds. -/
theorem exec_insertSession {draft : RemoteSessionDraft}
    {res : Except QueryFailedError RemoteSession}
    (h : exec throws c env (.insertSession draft) w = some (res, w')) :
    (∃ name t, res = .error ⟨uniqueViolation, name⟩ ∧
      w.sessions.insert remoteSessionIndexes (some c) env.newId
        (draft.toRow env.newId env.createdAt) = some (.error name, t) ∧
      w' = w.record c (.ran (.insertSession draft))) ∨
    (∃ t, res = .ok (draft.toRow env.newId env.createdAt) ∧
      w.sessions.insert remoteSessionIndexes (some c) env.newId
        (draft.toRow env.newId env.createdAt) = some (.ok (), t) ∧
      w' = (w.setSessions t).record c (.ran (.insertSession draft))) := by
  simp only [exec, runInsertSession] at h
  cases hins : w.sessions.insert remoteSessionIndexes (some c) env.newId
      (draft.toRow env.newId env.createdAt) with
  | none =>
      rw [hins] at h
      simp only [reduceCtorEq] at h
  | some rt =>
      rcases rt with ⟨r, t⟩
      rw [hins] at h
      cases r with
      | error name =>
          cases h
          exact .inl ⟨name, t, rfl, rfl, rfl⟩
      | ok u =>
          cases h
          exact .inr ⟨t, rfl, rfl, rfl⟩

end Exec

section Programs

variable {calls : CallId → Operation} {throws : CallId → Emitter → Bool} {c : CallId}
  {p : Progress} {g : Grip} {K : World → Prop} {α : Type}
  {Q : α → World → Prop} {E : HttpException → World → Prop}

/-! ## Insertions -/

/-- What a new request is saved with. -/
def requestDraft (deviceId : Uuid) : SupportRequestDraft :=
  { deviceId, status := .waiting, technicianId := none, assignedAt := none, respondedAt := none
    closedAt := none }

/-- What a new session is saved with. -/
def sessionDraft (r : SupportRequest) (technicianId : Uuid) : RemoteSessionDraft :=
  { supportRequestId := r.id, deviceId := r.deviceId, technicianId, status := .connecting
    connectedAt := none, endedAt := none, endedBy := none }

/-- A new request clashes with the active requests of its device. -/
theorem clash_requestDraft {i : UniqueIndex SupportRequest Uuid} (hi : i ∈ supportRequestIndexes)
    {deviceId newId : Uuid} {createdAt : Timestamp} {r : SupportRequest} :
    i.clash ((requestDraft deviceId).toRow newId createdAt) r = true ↔
      r.deviceId = deviceId ∧ r.isActive = true := by
  rw [supportRequestIndexes, List.mem_singleton] at hi
  subst hi
  have hwaiting : ((requestDraft deviceId).toRow newId createdAt).isActive = true := rfl
  simp only [UniqueIndex.clash, hwaiting, if_true, Option.isSome_some, Bool.true_and,
    decide_eq_true_eq]
  -- The index is partial: only active requests take a key.
  by_cases hr : r.isActive = true
  · rw [if_pos hr, Option.some.injEq]
    exact ⟨fun h => ⟨h.symm, hr⟩, fun h => h.1.symm⟩
  · rw [if_neg hr]
    simp only [reduceCtorEq, hr, and_false, Bool.false_eq_true]

/-- A request that was inserted is the only active one of its device. -/
theorem no_active_request {t t' : Table Uuid SupportRequest CallId} {deviceId newId : Uuid}
    {createdAt : Timestamp} (h : t.insert supportRequestIndexes none newId
      ((requestDraft deviceId).toRow newId createdAt) = some (.ok (), t')) {j : Uuid}
    {r : SupportRequest} (hr : t.committed j = some r) (hd : r.deviceId = deviceId) :
    r.isActive = false := by
  by_contra hactive
  rw [Bool.not_eq_false] at hactive
  have hnone : ∀ c, (none : Option CallId) = some c → t.Holds c none := by
    intro c hc
    simp only [reduceCtorEq] at hc
  have hmem : _ ∈ supportRequestIndexes := List.mem_cons_self
  -- The insertion went through, so the index has found no clash.
  have hclash := Table.insert_no_clash h hnone _ hmem j r hr
  rw [(clash_requestDraft hmem).mpr ⟨hd, hactive⟩] at hclash
  simp only [Bool.true_eq_false] at hclash

/-- The insertion of a request. It finds an active request of the device, or it
    commits the new one. The row is saved without a transaction, so that the entry
    of the insertion is its commit. -/
theorem insertRequest_then {device : Device}
    {k : Except QueryFailedError SupportRequest → Service α}
    {before : List Entry} {asked : Option Bool} {written : Bool}
    (hop : calls c = .createForDevice device) (hactive : device.isActive = true)
    (hK : (lifecycle calls throws).Persistent K)
    (hbefore : ∀ w, Inv calls throws w → At c (working before asked written) .free w →
      ∀ e ∈ before, e.time ≤ w.clock)
    (herror : ∀ w₀ name, Inv calls throws w₀ → K w₀ →
      (∃ j r, w₀.tables.requests j = some r ∧ r.deviceId = device.id ∧ r.isActive = true) →
      (lifecycle calls throws).Triple (exec throws) c
        (fun w => At c (working before asked written) .free w ∧ Saw c w₀ w ∧ K w)
        (k (.error ⟨uniqueViolation, name⟩)) Q E)
    (hok : ∀ w₀ row, Inv calls throws w₀ → K w₀ → row.technicianId = none →
      (lifecycle calls throws).Triple (exec throws) c
        (fun w => At c (announcing before asked (requestWrites w₀.tables.requests row.id row) [])
            .free w ∧
          Since (w₀.tables.apply (requestWrites w₀.tables.requests row.id row)) w ∧ K w)
        (k (.ok row)) Q E) :
    (lifecycle calls throws).Triple (exec throws) c
      (fun w => At c (working before asked written) .free w ∧ K w)
      ((statement (.insertRequest (requestDraft device.id))).bind k) Q E := by
  refine statement_then
    (fun (res : Except QueryFailedError SupportRequest) w => match res with
      | .error _ => working before asked written
      | .ok row => announcing before asked (requestWrites w.tables.requests row.id row) [])
    (fun _ _ => .free)
    (fun (res : Except QueryFailedError SupportRequest) w => match res with
      | .error e => (∃ name, e = ⟨uniqueViolation, name⟩) ∧ ∃ j r,
          w.tables.requests j = some r ∧ r.deviceId = device.id ∧ r.isActive = true
      | .ok row => row.technicianId = none)
    (fun (res : Except QueryFailedError SupportRequest) w₀ => match res with
      | .error _ => Saw c w₀
      | .ok row => Since (w₀.tables.apply (requestWrites w₀.tables.requests row.id row)))
    hK (fun res w₀ => ?_) (fun w _ ha _ => ⟨ha.requests, ha.sessions⟩)
    (fun w hi ha hk env res w' hx => ?_) (fun res w₀ hi _ hk₀ hφ => ?_)
  -- What was seen of the past does not change while the call waits.
  · cases res with
    | error e => exact Saw.persistent
    | ok row => exact Since.persistent
  · have hnoheld : ∀ a, (none : Option CallId) = some a → w.requests.Holds a none := by
      intro a ha
      simp only [reduceCtorEq] at ha
    rcases exec_insertRequest hx with ⟨name, t, rfl, hins, rfl⟩ | ⟨t, rfl, hins, rfl⟩
    · rcases Table.insert_auto_spec hins with ⟨_, herr, _⟩
      -- Refused: the row that clashed is an active request of the device.
      rcases herr name rfl with ⟨_, i, hmem, _, j, r, hr, hclash⟩
      rcases ha.ran (o := .insertRequest (requestDraft device.id)) hi working_open with
        ⟨hi', hg, ha', hsaw⟩
      exact ⟨hi', hg, ha', hsaw, ⟨name, rfl⟩, j, r, hr, (clash_requestDraft hmem).mp hclash⟩
    · rcases Table.insert_auto_spec hins with ⟨hu, _, hok'⟩
      rcases hok' rfl with ⟨hfresh, hcommitted⟩
      -- Inserted: the row is committed in the same step.
      have hdistinct := hi.requestsDistinct.insert hnoheld hins
      have hfree : ∀ j r, w.tables.requests j = some r → r.deviceId = device.id →
          r.isActive = false := fun j r hr hd => no_active_request hins hr hd
      have hexplains : Explains w.tables w.clock (calls c) (requestWrites w.tables.requests
          env.newId (newRequest device.id env.newId env.createdAt)) := by
        rw [hop]
        exact .created device env.newId env.createdAt hactive hfresh hfree
      -- The call held no request before, and it holds none now.
      have hunheld : t.Holds c none := by
        refine Table.Holds.frame (h := none) ha.requests hu ?_
        simp only [ne_eq, reduceCtorEq, not_false_eq_true]
      rcases ha.commits
        ((w.setRequests t).record c (.committed (requestWrites w.tables.requests env.newId
            (newRequest device.id env.newId env.createdAt))))
        (requestWrites w.tables.requests env.newId
            (newRequest device.id env.newId env.createdAt)) hi rfl rfl rfl
        ⟨rfl, rfl, fun hc => by rw [hop] at hc; exact hc.elim, before, w.clock, rfl,
          hbefore w hi ha, Nat.le_refl _, hi.tables ▸ hexplains⟩ rfl rfl
        (by simp only [World.tables, World.record, World.setRequests, hcommitted, Tables.apply,
              requestWrites, applyWrites_nil, newRequest, requestDraft, SupportRequestDraft.toRow,
              hfresh])
        hdistinct hi.sessionsDistinct
        (fun j c' _ hheld' => hu j c'
          (by simp only [ne_eq, reduceCtorEq, not_false_eq_true]) hheld') (.refl _ _) hunheld
        ha.sessions (fun s hs => by simp only [requestWrites, List.not_mem_nil] at hs) with
        ⟨hi', hg, ha', hsince⟩
      exact ⟨hi', hg, ha', hsince, rfl⟩
  · cases res with
    -- The call goes on with what the statement has answered.
    | error e =>
        rcases hφ with ⟨⟨name, rfl⟩, hex⟩
        exact herror w₀ name hi hk₀ hex
    | ok row => exact hok w₀ row hi hk₀ hφ

/-- The request in hand, with a session inserted for it. -/
def Grip.opened (id : Uuid) (r : SupportRequest) (row : RemoteSession) : Grip :=
  { request := some ⟨id, some r, none⟩, session := some ⟨row.id, none, some row⟩, alone := true }

/-- What it would commit is the new session. -/
@[simp] theorem Grip.writes_opened (id : Uuid) (r : SupportRequest) (row : RemoteSession) :
    (Grip.opened id r row).writes =
      { requests := [], sessions := [⟨row.id, none, row⟩] } := rfl

/-- A clash of a new session with a committed one, when the request is
    accepted and has no session: it can only be the technician's. -/
theorem clash_technician {w : World} (hi : Inv calls throws w) {id technicianId newId : Uuid}
    {createdAt : Timestamp} {r : SupportRequest} (hr : w.tables.requests id = some r)
    (hst : r.status = .accepted)
    (hnone : ∀ j s, w.tables.sessions j = some s → s.supportRequestId ≠ id)
    {i : UniqueIndex RemoteSession Uuid} (hmem : i ∈ remoteSessionIndexes) {j : Uuid}
    {s : RemoteSession} (hs : w.tables.sessions j = some s)
    (hclash : i.clash ((sessionDraft r technicianId).toRow newId createdAt) s = true) :
    i.name = activeTechnicianRemoteSessionIndex ∧ s.technicianId = technicianId ∧
      s.isLive = true := by
  have hlive : ((sessionDraft r technicianId).toRow newId createdAt).isLive = true := rfl
  rw [remoteSessionIndexes, List.mem_cons, List.mem_cons, List.mem_singleton] at hmem
  rcases hmem with rfl | rfl | rfl
  -- The index on the request: it has no session at all.
  · simp only [UniqueIndex.clash, Option.isSome_some, Bool.true_and, decide_eq_true_eq,
      Option.some.injEq] at hclash
    exact absurd (hclash.symm.trans (hi.consistent.requestId id r hr)) (hnone j s hs)
  -- The index on the device.
  · simp only [UniqueIndex.clash, hlive, if_true, Option.isSome_some, Bool.true_and,
      decide_eq_true_eq] at hclash
    by_cases hl : s.isLive = true
    · rw [if_pos hl, Option.some.injEq] at hclash
      -- The request of that session is active on the same device, so it is this one.
      rcases hi.consistent.owned j s hs with ⟨r', hr', hd, _, hst'⟩
      rw [if_pos hl] at hst'
      have hsame := hi.unique.activeRequest id s.supportRequestId r r' hr hr'
        (isActive_iff.mpr (.inr (.inr hst))) (isActive_iff.mpr (.inr (.inr hst')))
        (by rw [hd]; exact hclash)
      exact absurd hsame.symm (hnone j s hs)
    · rw [if_neg hl] at hclash
      simp only [reduceCtorEq] at hclash
  -- The index on the technician, which is the one that is left.
  · simp only [UniqueIndex.clash, hlive, if_true, Option.isSome_some, Bool.true_and,
      decide_eq_true_eq] at hclash
    by_cases hl : s.isLive = true
    · rw [if_pos hl, Option.some.injEq] at hclash
      exact ⟨rfl, hclash.symm, hl⟩
    · rw [if_neg hl] at hclash
      simp only [reduceCtorEq] at hclash

/-- The insertion of a session, with its request in hand and no session for it:
    the technician is busy, or the row is in the transaction. The transaction goes
    on holding its request, so that nobody else can open a session for it
    meanwhile. -/
theorem insertSession_then {id : Uuid} {r : SupportRequest} {user : User}
    {k : Except QueryFailedError RemoteSession → Service α} (hp : p.Open)
    (hst : r.status = .accepted) (hK : (lifecycle calls throws).Persistent K)
    (herror : ∀ w₀, Inv calls throws w₀ → K w₀ → w₀.tables.requests id = some r →
      (∃ j s, w₀.tables.sessions j = some s ∧ s.technicianId = user.id ∧ s.isLive = true) →
      (lifecycle calls throws).Triple (exec throws) c
        (fun w => At c p (.ofRequest id r true) w ∧ Saw c w₀ w ∧ K w)
        (k (.error ⟨uniqueViolation, activeTechnicianRemoteSessionIndex⟩)) Q E)
    (hok : ∀ w₀ newId createdAt, Inv calls throws w₀ → K w₀ →
      w₀.tables.requests id = some r →
      (lifecycle calls throws).Triple (exec throws) c
        (fun w => At c p (.opened id r (newSession r user.id newId createdAt)) w ∧
          Saw c w₀ w ∧ K w)
        (k (.ok (newSession r user.id newId createdAt))) Q E) :
    (lifecycle calls throws).Triple (exec throws) c
      (fun w => At c p (.ofRequest id r true) w ∧ K w)
      ((statement (.insertSession (sessionDraft r user.id))).bind k) Q E := by
  refine statement_then (fun _ _ => p)
    (fun (res : Except QueryFailedError RemoteSession) _ => match res with
      | .error _ => .ofRequest id r true
      | .ok row => .opened id r row)
    (fun (res : Except QueryFailedError RemoteSession) w => match res with
      | .error e => e = ⟨uniqueViolation, activeTechnicianRemoteSessionIndex⟩ ∧
          ∃ j s, w.tables.sessions j = some s ∧ s.technicianId = user.id ∧ s.isLive = true
      | .ok row => ∃ newId createdAt, row = newSession r user.id newId createdAt)
    (fun _ w₀ => Saw c w₀) hK (fun _ _ => Saw.persistent) (fun w hi ha _ => ?_)
    (fun w hi ha hk env res w' hx => ?_) (fun res w₀ hi ha₀ hk₀ hφ => ?_)
  · have hid := hi.consistent.requestId id r (ha.request rfl)
    -- The request is held, and no session belongs to it.
    rcases ha.alone rfl with ⟨h, hg, hnone⟩
    simp only [Grip.ofRequest, Option.some.injEq] at hg
    subst hg
    exact ⟨ha.sessions, ⟨_, ha.requests, hid.symm⟩, fun j s hs => by
      simp only [sessionDraft, hid]
      exact hnone j s hs⟩
  · rcases exec_insertSession hx with ⟨name, t, rfl, hins, rfl⟩ | ⟨t, rfl, hins, rfl⟩
    · rcases Table.insert_spec ha.sessions hins with ⟨_, _, herr, _⟩
      rcases herr name rfl with ⟨_, i, hmem, hname, j, s, hs, hclash⟩
      rcases ha.alone rfl with ⟨h, hg, hnone⟩
      simp only [Grip.ofRequest, Option.some.injEq] at hg
      subst hg
      -- The row that clashed is a live session of the technician.
      rcases clash_technician hi (ha.request rfl) hst hnone hmem hs hclash with ⟨hn, hu, hl⟩
      rcases ha.ran (o := .insertSession (sessionDraft r user.id)) hi hp with
        ⟨hi', hg, ha', hsaw⟩
      exact ⟨hi', hg, ha', hsaw, by rw [← hname, hn], j, s, hs, hu, hl⟩
    · rcases Table.insert_spec ha.sessions hins with ⟨hu, hc, _, hok'⟩
      rcases hok' rfl with ⟨_, hholds⟩
      -- The transaction has held no session before.
      have hfree : ∀ a, some c = some a → w.sessions.Holds a none := by
        intro a hca
        rw [Option.some.injEq] at hca
        rw [← hca]
        exact ha.sessions
      have halone : (true : Bool) = true → ∃ h, (some ⟨id, some r, none⟩ :
          Option (Hold Uuid SupportRequest)) = some h ∧
          ∀ j s, w.tables.sessions j = some s → s.supportRequestId ≠ h.key := ha.alone
      rcases ha.quiet ((w.setSessions t).record c (.ran (.insertSession (sessionDraft r user.id))))
        (.opened id r (newSession r user.id env.newId env.createdAt)) hi rfl
        (fun ws hc => by simp only [reduceCtorEq] at hc) (Nat.le_refl _)
        (entryOk_ran _ hi ha.progress hp.1 hp.2 (Nat.le_refl _) (.inl ⟨_, rfl⟩)) rfl rfl rfl hc
        hi.requestsDistinct (hi.sessionsDistinct.insert hfree hins) (.refl _ _) hu ha.requests
        hholds halone with ⟨hi', hg, ha', hsaw⟩
      exact ⟨hi', hg, ha', hsaw, env.newId, env.createdAt, rfl⟩
  · cases res with
    | error e =>
        rcases hφ with ⟨rfl, hex⟩
        exact herror w₀ hi hk₀ (ha₀.request rfl) hex
    | ok row =>
        rcases hφ with ⟨newId, createdAt, rfl⟩
        exact hok w₀ newId createdAt hi hk₀ (ha₀.request rfl)

/-! ## The clock and the presence -/

/-- The history at a call's beginning is an earlier part of the history. So
    everything in it is older than what the call has done itself. -/
theorem entered_suffix {l before : List Entry} (h : (progress c l).entered = some before) :
    ∃ l₁, l = l₁ ++ before := by
  induction l with
  | nil => simp only [progress, Progress.start, reduceCtorEq] at h
  | cons e l ih =>
      -- A beginning that was there before is followed by the new entry, too.
      have hkeep : (progress c l).entered = some before → ∃ l₁, e :: l = l₁ ++ before := by
        intro hl
        rcases ih hl with ⟨l₁, hl₁⟩
        exact ⟨e :: l₁, by rw [hl₁, List.cons_append]⟩
      by_cases he : e.call = c
      · rw [progress_own he] at h
        cases hev : e.event with
        | entered =>
            rw [hev] at h
            simp only [Progress.add, Option.some.injEq] at h
            exact ⟨[e], by rw [h]; rfl⟩
        | ran o =>
            rw [hev] at h
            cases o <;> exact hkeep h
        | _ =>
            rw [hev] at h
            exact hkeep h
      · rw [progress_other he] at h
        exact hkeep h

/-- Everything that happened before a call is in the past. -/
theorem At.before_le {w : World} (hi : Inv calls throws w) (ha : At c p g w)
    {before : List Entry} (hb : p.entered = some before) : ∀ e ∈ before, e.time ≤ w.clock := by
  intro e he
  rw [← ha.progress] at hb
  rcases entered_suffix hb with ⟨l₁, hl⟩
  exact hi.times e (by rw [hl]; exact List.mem_append_right _ he)

/-- `new Date()`. The time that is read is between two readings of the clock: not
    before what the call has seen, and not after what comes next. -/
theorem newDate_then {k : Timestamp → Service α} (hp : p.Open)
    (hK : (lifecycle calls throws).Persistent K)
    (hk : ∀ t w₀, Inv calls throws w₀ → At c p g w₀ → K w₀ → w₀.clock ≤ t →
      (lifecycle calls throws).Triple (exec throws) c
        (fun w => At c p g w ∧ (t ≤ w.clock ∧ Saw c w₀ w) ∧ K w) (k t) Q E) :
    (lifecycle calls throws).Triple (exec throws) c (fun w => At c p g w ∧ K w)
      (newDate.bind k) Q E := by
  refine ask_then (o := .now) (fun _ _ => p) (fun (t : Timestamp) w => w.clock ≤ t)
    (fun (t : Timestamp) w₀ w => t ≤ w.clock ∧ Saw c w₀ w) hK (fun _ _ _ _ => trivial)
    (fun w hi ha _ env t w' hx => ?_) (fun t w₀ hi ha hk₀ ht => hk t w₀ hi ha hk₀ ht)
  simp only [exec] at hx
  cases hx
  -- The clock goes on, and the call is told where it has come to.
  have hle : w.clock ≤ w.clock + env.tick := Nat.le_add_right _ _
  rcases ha.quiet ({ w with clock := w.clock + env.tick }.record c (.ran .now)) g hi rfl
    (fun ws hc => by simp only [reduceCtorEq] at hc) hle
    (entryOk_ran _ hi ha.progress hp.1 hp.2 hle (.inl ⟨_, rfl⟩)) rfl rfl rfl rfl
    hi.requestsDistinct hi.sessionsDistinct (.refl _ _) (.refl _ _) ha.requests ha.sessions
    ha.alone with ⟨hi', hg, ha', hsaw⟩
  exact ⟨hi', hg, ha', ⟨Nat.le_refl _, hsaw⟩, hle⟩

/-- `isOnline`. Only the first answer is part of the progress, since only that one
    decides how the call goes on. -/
theorem isOnline_then {deviceId : Uuid} {k : Bool → Service α} (hp : p.Open)
    (hK : (lifecycle calls throws).Persistent K)
    (hk : ∀ b w₀, Inv calls throws w₀ → At c p g w₀ → K w₀ →
      (lifecycle calls throws).Triple (exec throws) c
        (fun w => At c { p with asked := p.asked.or (some b) } g w ∧ Saw c w₀ w ∧ K w) (k b)
        Q E) :
    (lifecycle calls throws).Triple (exec throws) c (fun w => At c p g w ∧ K w)
      ((isOnline deviceId).bind k) Q E := by
  refine ask_then (o := .isOnline deviceId)
    (fun (b : Bool) _ => { p with asked := p.asked.or (some b) }) (fun _ _ => True)
    (fun _ w₀ => Saw c w₀) hK (fun _ _ _ _ => trivial)
    (fun w hi ha _ env b w' hx => ?_) (fun b w₀ hi ha hk₀ _ => hk b w₀ hi ha hk₀)
  simp only [exec] at hx
  cases hx
  rcases ha.recorded hi (fun ws hc => by simp only [reduceCtorEq] at hc)
    (entryOk_ran (.asked (env.online deviceId)) hi ha.progress hp.1 hp.2 (Nat.le_refl _)
    (.inr (.inl ⟨_, rfl⟩))) with
    ⟨hi', hg, ha', hsaw⟩
  exact ⟨hi', hg, ha', hsaw, trivial⟩

/-! ## Transactions -/

/-- What the tables hold for the call is what its grip says. -/
theorem Grip.writes_eq {w : World} (ha : At c p g w) : w.writes c = g.writes := by
  have hr := Table.writes_of_holds ha.requests
  have hs := Table.writes_of_holds ha.sessions
  simp only [World.writes, Grip.writes, hr, hs]

/-- `BEGIN` changes nothing. -/
theorem begin_then {k : Unit → Service α} (hp : p.Open)
    (hK : (lifecycle calls throws).Persistent K)
    (hk : (lifecycle calls throws).Triple (exec throws) c (fun w => At c p g w ∧ K w)
      (k ()) Q E) :
    (lifecycle calls throws).Triple (exec throws) c (fun w => At c p g w ∧ K w)
      ((statement .begin).bind k) Q E :=
  read_then (f := fun _ => ()) hp hK (fun _ => trivial) (fun _ _ => rfl) (fun _ => rfl)
    (fun _ _ _ _ => hk.weaken (fun _ _ h => ⟨h.1, h.2.2⟩))

/-- `ROLLBACK`. The call is working still, with nothing in hand. -/
theorem rollback_then {k : Unit → Service α} (hp : p.Open)
    (hK : (lifecycle calls throws).Persistent K)
    (hk : (lifecycle calls throws).Triple (exec throws) c (fun w => At c p .free w ∧ K w)
      (k ()) Q E) :
    (lifecycle calls throws).Triple (exec throws) c (fun w => At c p g w ∧ K w)
      ((statement .rollback).bind k) Q E := by
  refine statement_then (fun _ _ => p) (fun _ _ => .free) (fun _ _ => True)
    (fun _ w₀ => Saw c w₀) hK (fun _ _ => Saw.persistent) (fun _ _ _ _ => trivial)
    (fun w hi ha _ env r w' hx => ?_)
    (fun _ _ _ _ _ _ => hk.weaken (fun _ _ h => ⟨h.1, h.2.2⟩))
  simp only [exec] at hx
  cases hx
  rcases Table.rollback_spec w.requests c with ⟨hur, hhr, hcr⟩
  rcases Table.rollback_spec w.sessions c with ⟨hus, hhs, hcs⟩
  -- The rows are let go, and nothing is committed.
  rcases ha.quiet (((w.setRequests (w.requests.rollback c)).setSessions
      (w.sessions.rollback c)).record c (.ran .rollback)) .free hi rfl
    (fun ws hc => by simp only [reduceCtorEq] at hc) (Nat.le_refl _)
    (entryOk_ran _ hi ha.progress hp.1 hp.2 (Nat.le_refl _) (.inl ⟨_, rfl⟩)) rfl rfl hcr hcs
    (hi.requestsDistinct.rollback c) (hi.sessionsDistinct.rollback c) hur hus hhr hhs
    (fun hc => by simp only [Grip.free, Bool.false_eq_true] at hc) with ⟨hi', hg, ha', hsaw⟩
  exact ⟨hi', hg, ha', hsaw, trivial⟩

/-- The transaction may commit what it holds. -/
def Committable (calls : CallId → Operation) (c : CallId) (before : List Entry)
    (asked : Option Bool) (g : Grip) (w : World) : Prop :=
  ((calls c).NeedsPresence → asked = some true) ∧
  (∀ s ∈ g.writes.sessions, s.old = none →
    ∃ h, g.request = some h ∧ h.key = s.new.supportRequestId) ∧
  ∃ t, (∀ e ∈ before, e.time ≤ t) ∧ t ≤ w.clock ∧ Explains w.tables t (calls c) g.writes

/-- `COMMIT`. What is held becomes the entry of the commit, and from here on the
    call only announces it. -/
theorem commit_then {k : Unit → Service α} {before : List Entry} {asked : Option Bool}
    {written : Bool} (hK : (lifecycle calls throws).Persistent K)
    (hcommit : ∀ w, Inv calls throws w → At c (working before asked written) g w → K w →
      Committable calls c before asked g w)
    (hk : ∀ w₀, Inv calls throws w₀ → At c (working before asked written) g w₀ → K w₀ →
      (lifecycle calls throws).Triple (exec throws) c
        (fun w => At c (announcing before asked g.writes []) .free w ∧
          Since (w₀.tables.apply g.writes) w ∧ K w) (k ()) Q E) :
    (lifecycle calls throws).Triple (exec throws) c
      (fun w => At c (working before asked written) g w ∧ K w)
      ((statement .commit).bind k) Q E := by
  refine statement_then (fun _ _ => announcing before asked g.writes []) (fun _ _ => .free)
    (fun _ _ => True) (fun _ w₀ => Since (w₀.tables.apply g.writes)) hK
    (fun _ _ => Since.persistent) (fun _ _ _ _ => trivial)
    (fun w hi ha hk env r w' hx => ?_) (fun _ w₀ hi ha hk₀ _ => hk w₀ hi ha hk₀)
  simp only [exec] at hx
  cases hx
  -- What is held is written to both tables in one entry.
  rcases hcommit w hi ha hk with ⟨hpresence, hopen, t, hbefore, ht, hexplains⟩
  rcases Table.commit_spec ha.requests with ⟨hur, hhr, hcr⟩
  rcases Table.commit_spec ha.sessions with ⟨hus, hhs, hcs⟩
  rcases ha.commits (((w.setRequests (w.requests.commit c)).setSessions
      (w.sessions.commit c)).record c (.committed (w.writes c))) g.writes hi
    (by rw [Grip.writes_eq ha]; rfl) rfl rfl
    ⟨rfl, rfl, hpresence, before, t, rfl, hbefore, ht, hi.tables ▸ hexplains⟩ rfl rfl
    (by simp only [World.tables, World.record, World.setRequests, World.setSessions, hcr, hcs]; rfl)
    (hi.requestsDistinct.commit c) (hi.sessionsDistinct.commit c) hur hus hhr hhs
    -- A session is opened only with its request in hand, which nobody else then holds.
    (fun s hs hold => by
      rcases hopen s hs hold with ⟨h, hgr, hkey⟩
      have hrow := ha.requests
      rw [hgr] at hrow
      simp only [← hkey, Row.freeFor, hrow.1, decide_true]) with ⟨hi', hg, ha', hsince⟩
  exact ⟨hi', hg, ha', hsince, trivial⟩

/-- A transaction and what follows it, statement by statement. -/
theorem transaction_bind {β : Type} (body : Service β) (k : β → Service α) :
    (transaction body).bind k = (statement .begin).bind (fun _ =>
      (body.onError (fun e => (statement .rollback).bind (fun _ => .throw e))).bind
        (fun result => (statement .commit).bind (fun _ => k result))) := by
  have hshape : (transaction body).bind k = (statement .begin).bind (fun _ =>
      ((body.onError (fun e => (statement .rollback).bind (fun _ => .throw e))).bind
        (fun result => (statement .commit).bind (fun _ => .ret result))).bind k) := rfl
  rw [hshape]
  simp only [Prog.bind_assoc, Prog.ret_bind]

/-- A transaction around a program: the body ends with something it may commit, or
    with an error that is still one after the rollback. What the body has shown is
    kept through the wait before the commit, and the explanation is given in the
    state that the commit runs in. -/
theorem transaction_then {β : Type} {body : Service β} {k : β → Service α}
    {before : List Entry} {asked : Option Bool} {written : Bool}
    (hK : (lifecycle calls throws).Persistent K)
    (R : β → Option Bool → Grip → World → Prop)
    (hR : ∀ b a g, (lifecycle calls throws).Persistent (R b a g))
    (B : HttpException → Option Bool → World → Prop)
    (hB : ∀ e a, (lifecycle calls throws).Persistent (B e a))
    (hbody : (lifecycle calls throws).Triple (exec throws) c
      (fun w => At c (working before asked written) .free w ∧ K w) body
      (fun b w => ∃ a n g, At c (working before a n) g w ∧ R b a g w)
      (fun e w => ∃ a n g, At c (working before a n) g w ∧ B e a w))
    (hcommit : ∀ b a n g w, Inv calls throws w → At c (working before a n) g w → R b a g w →
      Committable calls c before a g w)
    (herror : ∀ e a n w, Inv calls throws w → At c (working before a n) .free w → B e a w → E e w)
    (hk : ∀ b a n g w₀, Inv calls throws w₀ → At c (working before a n) g w₀ → R b a g w₀ →
      (lifecycle calls throws).Triple (exec throws) c
        (fun w => At c (announcing before a g.writes []) .free w ∧
          Since (w₀.tables.apply g.writes) w ∧ R b a g w) (k b) Q E) :
    (lifecycle calls throws).Triple (exec throws) c
      (fun w => At c (working before asked written) .free w ∧ K w)
      ((transaction body).bind k) Q E := by
  rw [transaction_bind]
  refine begin_then working_open hK ?_
  -- Thrown inside, it is rolled back; otherwise it is committed.
  refine (hbody.onError (fun e => ?_)).bind (fun b => ?_)
  · refine .exists (fun a => .exists (fun n => .exists (fun g => ?_)))
    refine rollback_then working_open (hB e a) ?_
    exact .throw (fun w hi hw => herror e a n w hi hw.1 hw.2)
  · refine .exists (fun a => .exists (fun n => .exists (fun g => ?_)))
    exact commit_then (hR b a g) (fun w hi ha hr => hcommit b a n g w hi ha hr)
      (fun w₀ hi ha hr => hk b a n g w₀ hi ha hr)

/-! ## Emissions -/

/-- An emission that the commit calls for. -/
theorem emitted_step {w w' : World} {before : List Entry} {asked : Option Bool} {ws : Writes}
    {sent : List (Emission × Bool)} {e : Emission} {env : Env} {threw : Bool}
    (hmem : e ∈ announcements (calls c) ws) (hi : Inv calls throws w)
    (ha : At c (announcing before asked ws sent) g w)
    (hx : exec throws c env (.emit e) w = some (threw, w')) :
    threw = throws c e.emitter ∧ Inv calls throws w' ∧ Guar c w w' ∧
      At c (announcing before asked ws (sent ++ [(e, throws c e.emitter)])) g w' := by
  simp only [exec] at hx
  cases hx
  -- The emission is one that the commit calls for.
  have hok : EntryOk calls throws w.log ⟨c, w.clock, .emitted e (throws c e.emitter)⟩ :=
    ⟨fun e' he' => hi.times e' he', by rw [ha.progress]; rfl,
      ⟨rfl, ws, by rw [ha.progress]; rfl, hmem⟩⟩
  rcases ha.recorded hi (fun ws hc => by simp only [reduceCtorEq] at hc) hok with
    ⟨hi', hg, ha', _⟩
  exact ⟨rfl, hi', hg, ha'⟩

/-- An emission that nobody catches. If the emitter throws, the call ends there
    with an error, and the emission is on record. -/
theorem emit_then {e : Emission} {k : Unit → Service α} {before : List Entry}
    {asked : Option Bool} {ws : Writes} {sent : List (Emission × Bool)}
    (hmem : e ∈ announcements (calls c) ws) (hK : (lifecycle calls throws).Persistent K)
    (hthrow : throws c e.emitter = true → ∀ w, Inv calls throws w →
      At c (announcing before asked ws (sent ++ [(e, true)])) g w → K w → E .transportError w)
    (hk : throws c e.emitter = false → (lifecycle calls throws).Triple (exec throws) c
      (fun w => At c (announcing before asked ws (sent ++ [(e, false)])) g w ∧ K w) (k ()) Q E) :
    (lifecycle calls throws).Triple (exec throws) c
      (fun w => At c (announcing before asked ws sent) g w ∧ K w) ((emit e).bind k) Q E := by
  have hshape : (emit e).bind k = (ask (.emit e)).bind
      (fun threw => (throwIf threw .transportError).bind k) := by
    rfl
  rw [hshape]
  refine .op (fun threw w => threw = throws c e.emitter ∧
      At c (announcing before asked ws (sent ++ [(e, throws c e.emitter)])) g w ∧ K w)
    (fun _ _ _ => trivial) (fun w hi hw env threw w' hx => ?_) (fun threw => .pure (fun ht => ?_))
  -- The emission is on record, whether it threw or not.
  · rcases emitted_step hmem hi hw.1 hx with ⟨ht, hi', hg, ha'⟩
    exact ⟨hi', hg, ht, ha', hK c w w' hi hi' hg hw.2⟩
  -- The error goes on, or the program does.
  · refine throwIf_then (fun hc w hi hw => ?_) (fun hc => ?_)
    · rw [hc] at ht
      rw [← ht] at hw
      exact hthrow ht.symm w hi hw.1 hw.2
    · rw [hc] at ht
      rw [← ht]
      exact hk ht.symm

/-- An emission whose error is caught. Whether it throws makes no difference to
    what follows. -/
theorem logErrors_then {e : Emission} {k : Unit → Service α} {before : List Entry}
    {asked : Option Bool} {ws : Writes} {sent : List (Emission × Bool)}
    (hmem : e ∈ announcements (calls c) ws) (hK : (lifecycle calls throws).Persistent K)
    (hk : (lifecycle calls throws).Triple (exec throws) c
      (fun w => At c (announcing before asked ws (sent ++ [(e, throws c e.emitter)])) g w ∧ K w)
      (k ()) Q E) :
    (lifecycle calls throws).Triple (exec throws) c
      (fun w => At c (announcing before asked ws sent) g w ∧ K w)
      ((logErrors (emit e)).bind k) Q E := by
  -- The program that catches is one operation, whatever it answers.
  have hshape : (logErrors (emit e)).bind k = .op (.emit e) (fun _ => k ()) := by
    simp only [logErrors, emit, ask, Prog.request, Prog.bind_eq, Prog.op_bind, Prog.ret_bind,
      Prog.op_onError, Prog.op.injEq, heq_eq_eq, true_and]
    funext threw
    cases threw <;> rfl
  rw [hshape]
  refine .op (fun _ w =>
      At c (announcing before asked ws (sent ++ [(e, throws c e.emitter)])) g w ∧ K w)
    (fun _ _ _ => trivial) (fun w hi hw env threw w' hx => ?_) (fun _ => hk)
  rcases emitted_step hmem hi hw.1 hx with ⟨_, hi', hg, ha'⟩
  exact ⟨hi', hg, ha', hK c w w' hi hi' hg hw.2⟩

end Programs

end RemoteControl

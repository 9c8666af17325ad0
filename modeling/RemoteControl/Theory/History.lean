import RemoteControl.Concurrency.RelyGuarantee
import RemoteControl.Theory.Machine

/-!
# Histories

The invariant of the interleaved system, and what each call guarantees to the
others. Both speak about the history: the rows that are committed are the
rows it leads to, and every entry was in order when it was added (`EntryOk`).
A call enters first and adds nothing after it has left; it commits at most
once, and what it commits is explained by the rows of that moment and by a
time between its beginning and its commit; it emits only after its commit,
and only what its commit calls for (`announcements`).

How far a call has come is read off its own entries (`Progress`). The other
calls cannot change it, which makes it the natural thing for the proof of a
call to carry from one of its waits to the next, along with the rows its
transaction holds.

A call that fails has changed nothing, and there is an entry of its own at
which the rows were such that the machine refuses it (`Refused`). That entry
will be the moment the call is said to have happened.

The invariant speaks of every point of the history and not only of the last
one (`Inv.past`), because a refusal is placed at a point that is long gone
when the call returns. Since nothing is ever taken out of a history, this
costs nothing to keep.

## Main definitions

* `announcements`: The emissions a commit calls for.
* `Progress`, `progress`: How far a call has come.
* `EntryOk`, `History`: The entries are in order.
* `Inv`, `Guar`, `Issue`, `lifecycle`: The rules of the lifecycle calls.
* `Refused`: There was a moment at which the machine refuses the call.
* `Grows`: Rows are kept, and their filled columns with them.

## Theorems

* `Inv.unique`: The indexes hold of the committed rows.
* `Inv.step`: An entry that is in order keeps the invariant.
* `Guar.grows`: The rows only grow.
* `progress_other`, `Refused.cons`: What the entries of others leave alone.
* `Explains.request_after`, `Explains.session_after`: What one commit does to
  a row.
* `Explains.session_before`: Where a session comes from.
-/

namespace RemoteControl

open Concurrency Machine

/-! ## What a commit calls for -/

/-- All technicians are told that the queue has changed. -/
def queueUpdated (id : Uuid) : Emission := ⟨.allTechnicians, .supportRequestQueueUpdated id⟩

/-- The technician of a request is told that the device changed it. -/
def technicianUpdated (w : Write Uuid SupportRequest) : List Emission :=
  w.new.technicianId.toList.map (fun t => ⟨.technician t, .supportRequestUpdated w.key⟩)

/-- Whoever has to know of a cancellation: everybody, if nobody had taken the
    request. -/
def cancelNotice (w : Write Uuid SupportRequest) : List Emission :=
  if w.old.any (fun r => decide (r.status = .waiting)) then [queueUpdated w.key]
  else technicianUpdated w

/-- What is sent to the other end when a session is closed. -/
def closedMessage (w : Write Uuid RemoteSession) : Message :=
  .remoteSessionClosed w.key (w.new.endedBy.getD .system)

/-- The emissions a commit of the call calls for, in their order. -/
def announcements (op : Operation) (ws : Writes) : List Emission :=
  match op with
  | .createForDevice _ => ws.requests.map (fun w => queueUpdated w.key)
  | .assign _ technician => ws.requests.flatMap (fun w =>
      [⟨.device w.new.deviceId, .supportAssigned w.key ⟨technician.id, technician.fullName⟩⟩,
        queueUpdated w.key])
  | .acceptByDevice _ _ => ws.requests.flatMap technicianUpdated
  | .rejectByDevice _ _ => ws.requests.flatMap technicianUpdated
  | .cancelByDevice _ _ => ws.requests.flatMap cancelNotice
  | .create _ user => ws.sessions.map (fun w => ⟨.device w.new.deviceId,
      .remoteSessionCreated w.key w.new.supportRequestId ⟨user.id, user.fullName⟩⟩)
  | .activateByTechnician _ _ => ws.sessions.flatMap (fun w =>
      [⟨.device w.new.deviceId, .remoteSessionActive w.key⟩,
        ⟨.technician w.new.technicianId, .remoteSessionActive w.key⟩])
  | .closeByTechnician _ _ => ws.sessions.map (fun w => ⟨.device w.new.deviceId, closedMessage w⟩)
  | .closeByDevice _ _ => ws.sessions.map (fun w =>
      ⟨.technician w.new.technicianId, closedMessage w⟩)

/-! ## How far a call has come -/

/-- What the entries of a call amount to: the history at its beginning, the
    first answer about presence, whether it has come past an update of a
    request, what it committed, its emissions in their order, and whether it
    has returned. -/
structure Progress where
  entered : Option (List Entry)
  asked : Option Bool
  written : Bool
  committed : Option Writes
  emissions : List (Emission × Bool)
  left : Bool

/-- The call has done nothing. -/
def Progress.start : Progress :=
  { entered := none, asked := none, written := false, committed := none, emissions := []
    left := false }

/-- What one more entry of the call makes of it. -/
def Progress.add (l : List Entry) (ev : Event) (p : Progress) : Progress :=
  match ev with
  | .entered => { p with entered := some l }
  | .ran (.updateRequest _ _ _ _) => { p with written := true }
  | .ran _ => p
  -- Only the first answer counts. A call asks again for its response.
  | .asked online => { p with asked := p.asked.or (some online) }
  | .committed ws => { p with written := true, committed := some ws }
  | .emitted e threw => { p with emissions := p.emissions ++ [(e, threw)] }
  | .left => { p with left := true }

/-- How far the call has come, from its own entries. -/
def progress (c : CallId) : List Entry → Progress
  | [] => Progress.start
  | e :: l => if e.call = c then (progress c l).add l e.event else progress c l

/-- An entry of the call takes it further. -/
theorem progress_own {c : CallId} {e : Entry} {l : List Entry} (h : e.call = c) :
    progress c (e :: l) = (progress c l).add l e.event := by
  simp only [progress, if_pos h]

/-- An entry of another call does not. -/
theorem progress_other {c : CallId} {e : Entry} {l : List Entry} (h : e.call ≠ c) :
    progress c (e :: l) = progress c l := by
  simp only [progress, if_neg h]

/-! ## Entries in order -/

/-- What the call may commit at this point, at the time `now`. -/
def MayCommit (op : Operation) (l : List Entry) (p : Progress) (now : Timestamp) (ws : Writes) :
    Prop :=
  p.committed = none ∧ p.emissions = [] ∧ (op.NeedsPresence → p.asked = some true) ∧
    ∃ before t, p.entered = some before ∧ (∀ e ∈ before, e.time ≤ t) ∧ t ≤ now ∧
      Explains (replay l) t op ws

/-- What a call may add to the history. -/
structure EntryOk (calls : CallId → Operation) (throws : CallId → Emitter → Bool)
    (l : List Entry) (e : Entry) : Prop where
  time : ∀ e' ∈ l, e'.time ≤ e.time
  notLeft : (progress e.call l).left = false
  event : match e.event with
    | .entered => progress e.call l = Progress.start
    | .committed ws => MayCommit (calls e.call) l (progress e.call l) e.time ws
    | .emitted em threw => threw = throws e.call em.emitter ∧
        ∃ ws, (progress e.call l).committed = some ws ∧ em ∈ announcements (calls e.call) ws
    | _ => (progress e.call l).entered.isSome

/-- Every entry was in order when it was added. -/
def History (calls : CallId → Operation) (throws : CallId → Emitter → Bool) : List Entry → Prop
  | [] => True
  | e :: l => EntryOk calls throws l e ∧ History calls throws l

/-! ## Rows are kept -/

/-- Every row is still there, with what was filled in unchanged. -/
structure Grows (T T' : Tables) : Prop where
  requests : ∀ k r, T.requests k = some r → ∃ r', T'.requests k = some r' ∧ RequestKeeps r r'
  sessions : ∀ k s, T.sessions k = some s → ∃ s', T'.sessions k = some s' ∧ SessionKeeps s s'

/-- Nothing has happened. -/
theorem Grows.refl (T : Tables) : Grows T T :=
  ⟨fun _ r h => ⟨r, h, .refl r⟩, fun _ s h => ⟨s, h, .refl s⟩⟩

/-- Rows that have grown and have grown again. -/
theorem Grows.trans {T₁ T₂ T₃ : Tables} (h : Grows T₁ T₂) (h' : Grows T₂ T₃) : Grows T₁ T₃ := by
  constructor
  · intro k r hr
    rcases h.requests k r hr with ⟨r', hr', hk⟩
    rcases h'.requests k r' hr' with ⟨r'', hr'', hk'⟩
    exact ⟨r'', hr'', hk.trans hk'⟩
  · intro k s hs
    rcases h.sessions k s hs with ⟨s', hs', hk⟩
    rcases h'.sessions k s' hs' with ⟨s'', hs'', hk'⟩
    exact ⟨s'', hs'', hk.trans hk'⟩

/-- One commit leaves a request alone or moves it. -/
theorem Explains.request_after {T : Tables} {t : Timestamp} {op : Operation} {ws : Writes}
    (hx : Explains T t op ws) (h : Consistent T) {k : Uuid} {r : SupportRequest}
    (hr : T.requests k = some r) :
    ∃ r', (T.apply ws).requests k = some r' ∧ (r' = r ∨ RequestMove r r') := by
  rcases applyWrites_cases ws.requests T.requests k with heq | ⟨w, hw, hk, heq⟩
  · exact ⟨r, by rw [apply_requests, heq, hr], .inl rfl⟩
  · have hm := hx.requestMove h w hw
    rw [hk, hr] at hm
    exact ⟨w.new, heq, .inr (hm.2 r hm.1)⟩

/-- One commit leaves a session alone or moves it. -/
theorem Explains.session_after {T : Tables} {t : Timestamp} {op : Operation} {ws : Writes}
    (hx : Explains T t op ws) (h : Consistent T) {k : Uuid} {s : RemoteSession}
    (hs : T.sessions k = some s) :
    ∃ s', (T.apply ws).sessions k = some s' ∧ (s' = s ∨ SessionMove s s') := by
  rcases applyWrites_cases ws.sessions T.sessions k with heq | ⟨w, hw, hk, heq⟩
  · exact ⟨s, by rw [apply_sessions, heq, hs], .inl rfl⟩
  · have hm := hx.sessionMove h w hw
    rw [hk, hs] at hm
    exact ⟨w.new, heq, .inr (hm.2 s hm.1)⟩

/-- A session was there before the commit, or the commit opened it. -/
theorem Explains.session_before {T : Tables} {t : Timestamp} {op : Operation} {ws : Writes}
    (hx : Explains T t op ws) (h : Consistent T) {k : Uuid} {s' : RemoteSession}
    (hs : (T.apply ws).sessions k = some s') :
    (∃ s, T.sessions k = some s ∧ (s' = s ∨ SessionMove s s')) ∨
      ∃ w ∈ ws.sessions, w.old = none ∧ w.new = s' := by
  rcases applyWrites_cases ws.sessions T.sessions k with heq | ⟨w, hw, hk, heq⟩
  · rw [apply_sessions, heq] at hs
    exact .inl ⟨s', hs, .inl rfl⟩
  -- The row under the key is the one that was written last.
  · have hnew : w.new = s' := by
      rw [apply_sessions, heq, Option.some.injEq] at hs
      exact hs
    have hm := hx.sessionMove h w hw
    cases hold : w.old with
    | none => exact .inr ⟨w, hw, hold, hnew⟩
    | some s =>
        rw [hold, hk] at hm
        exact .inl ⟨s, hm.1.symm, .inr (by rw [← hnew]; exact hm.2 s rfl)⟩

/-- What an explained commit does to the rows is to let them grow. -/
theorem Explains.grows {T : Tables} {t : Timestamp} {op : Operation} {ws : Writes}
    (hx : Explains T t op ws) (h : Consistent T) : Grows T (T.apply ws) := by
  constructor
  · intro k r hr
    rcases hx.request_after h hr with ⟨r', hr', rfl | hm⟩
    · exact ⟨r', hr', .refl r'⟩
    · exact ⟨r', hr', hm.toRequestKeeps⟩
  · intro k s hs
    rcases hx.session_after h hs with ⟨s', hs', rfl | hm⟩
    · exact ⟨s', hs', .refl s'⟩
    · exact ⟨s', hs', hm.toSessionKeeps⟩

/-- The stamps of the requests after a commit are those before it and its
    own time. -/
theorem Explains.stamped {T : Tables} {t now : Timestamp} {op : Operation} {ws : Writes}
    (hx : Explains T t op ws) (h : ∀ k r, T.requests k = some r → r.StampedBy now)
    (ht : t ≤ now) : ∀ k r, (T.apply ws).requests k = some r → r.StampedBy now := by
  intro k r hr
  rcases applyWrites_cases ws.requests T.requests k with heq | ⟨w, hw, hk, heq⟩
  · rw [apply_requests, heq] at hr
    exact h k r hr
  · rw [apply_requests, heq, Option.some.injEq] at hr
    subst hr
    -- The one stamp that is new is the time of the commit.
    have own : ∀ τ, some t = some τ → τ ≤ now := by
      intro τ hτ
      rw [Option.some.injEq] at hτ
      rw [← hτ]
      exact ht
    cases hx.requestChange hw with
    | created device createdAt hop hr hnew =>
        rw [hnew]
        exact ⟨fun τ hτ => by simp only [newRequest, reduceCtorEq] at hτ,
          fun τ hτ => by simp only [newRequest, reduceCtorEq] at hτ⟩
    | assigned technician r hop hr hs hnew =>
        rw [hnew]
        exact ⟨own, (h _ r hr).2⟩
    | accepted device r hop hr hs hnew =>
        rw [hnew]
        exact ⟨(h _ r hr).1, own⟩
    | rejected device r hop hr hs hnew =>
        rw [hnew]
        exact ⟨(h _ r hr).1, own⟩
    | cancelled r hr hs htime hnew =>
        rw [hnew]
        exact h _ r hr
    | completed r hr hs htime hnew =>
        rw [hnew]
        exact h _ r hr

/-! ## The rules of the lifecycle -/

section Rules

variable (calls : CallId → Operation) (throws : CallId → Emitter → Bool)

/-- What holds of the state at every moment. -/
structure Inv (w : World) : Prop where
  tables : w.tables = replay w.log
  history : History calls throws w.log
  consistent : Consistent w.tables
  past : ∀ l, l <:+ w.log → Consistent (replay l)
  requestsDistinct : w.requests.Distinct supportRequestIndexes
  sessionsDistinct : w.sessions.Distinct remoteSessionIndexes
  times : ∀ e ∈ w.log, e.time ≤ w.clock
  stamped : ∀ k r, w.tables.requests k = some r → r.StampedBy w.clock

/-- What a call promises the others about each of its operations: it adds one
    entry, it leaves the rows they hold alone, and it opens a session only on
    a request that none of them holds. -/
structure Guar (c : CallId) (w w' : World) : Prop where
  entry : ∃ e, e.call = c ∧ e.time = w'.clock ∧ w'.log = e :: w.log ∧
    ∀ ws, e.event = .committed ws → ∀ s ∈ ws.sessions, s.old = none →
      (w.requests.row s.new.supportRequestId).freeFor (some c) = true
  clock : w.clock ≤ w'.clock
  devices : w'.devices = w.devices
  users : w'.users = w.users
  requests : Table.Untouched (some c) w.requests w'.requests
  sessions : Table.Untouched (some c) w.sessions w'.sessions

/-- What a call holds when it issues a statement that may have to wait. -/
def Issue (c : CallId) (o : Op) (w : World) : Prop :=
  match o with
  | .lockRequest _ _ => w.requests.Holds c none ∧ w.sessions.Holds c none
  | .lockSession _ _ => w.requests.Holds c none ∧ w.sessions.Holds c none
  | .insertRequest _ => w.requests.Holds c none ∧ w.sessions.Holds c none
  | .updateRequest m id _ _ =>
      (w.requests.Holds c none ∧ w.sessions.Holds c none) ∨
      (m = .entityManager ∧ ∃ h, w.requests.Holds c (some h) ∧ h.key = id) ∨
      (w.requests.Holds c none ∧ ∃ h s, w.sessions.Holds c (some h) ∧ h.committed = some s ∧
        s.isLive = true ∧ s.supportRequestId = id)
  | .updateSession id _ _ => w.requests.Holds c none ∧
      (w.sessions.Holds c none ∨ ∃ h, w.sessions.Holds c (some h) ∧ h.key = id)
  | .insertSession draft => w.sessions.Holds c none ∧
      (∃ h, w.requests.Holds c (some h) ∧ h.key = draft.supportRequestId) ∧
      ∀ k s, w.tables.sessions k = some s → s.supportRequestId ≠ draft.supportRequestId
  | _ => True

/-- The rules the nine calls agree on. -/
def lifecycle : Rules Op World CallId where
  inv := Inv calls throws
  guar := Guar
  issue := Issue

end Rules

variable {calls : CallId → Operation} {throws : CallId → Emitter → Bool}

/-- The indexes hold of the committed rows. -/
theorem Inv.unique {w : World} (h : Inv calls throws w) : Unique w.tables := by
  -- A row that is in the index has the key that the index gives it.
  have hactive : ∀ r : SupportRequest, r.isActive = true →
      (if r.isActive then some r.deviceId else none) = some r.deviceId :=
    fun r hr => if_pos hr
  have hlive : ∀ (s : RemoteSession) (x : Uuid), s.isLive = true →
      (if s.isLive then some x else none) = some x := fun s x hs => if_pos hs
  constructor
  · intro k k' r r' hr hr' ha ha' hd
    refine h.requestsDistinct.committed (List.mem_singleton.mpr rfl) hr hr' (hactive r ha) ?_
    rw [hd]
    exact hactive r' ha'
  · intro k k' s s' hs hs' hid
    refine h.sessionsDistinct.committed List.mem_cons_self hs hs' rfl ?_
    simp only [hid]
  · intro k k' s s' hs hs' hl hl' hd
    refine h.sessionsDistinct.committed (List.mem_cons_of_mem _ List.mem_cons_self) hs hs'
      (hlive s s.deviceId hl) ?_
    rw [hd]
    exact hlive s' s'.deviceId hl'
  · intro k k' s s' hs hs' hl hl' hd
    refine h.sessionsDistinct.committed
      (List.mem_cons_of_mem _ (List.mem_cons_of_mem _ List.mem_cons_self)) hs hs'
      (hlive s s.technicianId hl) ?_
    rw [hd]
    exact hlive s' s'.technicianId hl'

/-- An entry that is in order, added with the rows it leads to, keeps the
    invariant. -/
theorem Inv.step {w w' : World} {e : Entry} (h : Inv calls throws w)
    (hlog : w'.log = e :: w.log) (htime : e.time = w'.clock) (hclock : w.clock ≤ w'.clock)
    (htables : w'.tables = replay (e :: w.log)) (hok : EntryOk calls throws w.log e)
    (hrequests : w'.requests.Distinct supportRequestIndexes)
    (hsessions : w'.sessions.Distinct remoteSessionIndexes) : Inv calls throws w' := by
  -- An entry leads to the same rows, or to those after an explained commit.
  have hrest : w'.tables = w.tables ∨ ∃ t ws, t ≤ w'.clock ∧
      Explains w.tables t (calls e.call) ws ∧ w'.tables = w.tables.apply ws := by
    rw [htables, h.tables]
    cases hev : e.event with
    | committed ws =>
        have hc := hok.event
        simp only [hev] at hc
        rcases hc with ⟨_, _, _, before, t, _, _, ht, hx⟩
        exact .inr ⟨t, ws, by rw [← htime]; exact ht, hx, by simp only [replay, hev]⟩
    | _ => exact .inl (by simp only [replay, hev])
  have hold : ∀ k r, w.tables.requests k = some r → r.StampedBy w'.clock := by
    intro k r hr
    have hs := h.stamped k r hr
    exact ⟨fun τ hτ => Nat.le_trans (hs.1 τ hτ) hclock,
      fun τ hτ => Nat.le_trans (hs.2 τ hτ) hclock⟩
  have hconsistent : Consistent w'.tables := by
    rcases hrest with heq | ⟨t, ws, _, hx, heq⟩
    · rw [heq]
      exact h.consistent
    · rw [heq]
      exact h.consistent.apply h.unique hx
  refine ⟨by rw [hlog]; exact htables, by rw [hlog]; exact ⟨hok, h.history⟩, hconsistent, ?_,
    hrequests, hsessions, ?_, ?_⟩
  -- At this point the rows are consistent, and at the earlier ones they were.
  · intro l hl
    rw [hlog, List.suffix_cons_iff] at hl
    rcases hl with rfl | hl
    · rw [← htables]
      exact hconsistent
    · exact h.past l hl
  · intro e' he'
    rw [hlog, List.mem_cons] at he'
    rcases he' with rfl | he'
    · exact Nat.le_of_eq htime
    · exact Nat.le_trans (h.times e' he') hclock
  · rcases hrest with heq | ⟨t, ws, ht, hx, heq⟩
    · rw [heq]
      exact hold
    · rw [heq]
      exact hx.stamped hold ht

/-- What one operation does to the rows: nothing, or an explained commit. That the
    entry is in order says so. -/
theorem Guar.tables {c : CallId} {w w' : World} (h : Inv calls throws w)
    (h' : Inv calls throws w') (hg : Guar c w w') :
    w'.tables = w.tables ∨ ∃ t ws, Explains w.tables t (calls c) ws ∧
      w'.tables = w.tables.apply ws ∧ ∀ s ∈ ws.sessions, s.old = none →
        (w.requests.row s.new.supportRequestId).freeFor (some c) = true := by
  rcases hg.entry with ⟨e, hc, _, hlog, hopen⟩
  have hhist := h'.history
  rw [hlog] at hhist
  rw [h'.tables, h.tables, hlog]
  cases hev : e.event with
  | committed ws =>
      have hok := hhist.1.event
      simp only [hev] at hok
      rcases hok with ⟨_, _, _, _, t, _, _, _, hx⟩
      rw [hc] at hx
      exact .inr ⟨t, ws, hx, by simp only [replay, hev], hopen ws hev⟩
  | _ => exact .inl (by simp only [replay, hev])

/-- So one operation lets the rows grow. -/
theorem Guar.grows {c : CallId} {w w' : World} (h : Inv calls throws w)
    (h' : Inv calls throws w') (hg : Guar c w w') : Grows w.tables w'.tables := by
  rcases hg.tables h h' with heq | ⟨t, ws, hx, heq, _⟩
  · rw [heq]
    exact .refl _
  · rw [heq]
    exact hx.grows h.consistent

/-! ## Refused calls -/

/-- There is an entry of the call at which the machine refuses it, with every
    presence that agrees with what the call was told. -/
def Refused (calls : CallId → Operation) (c : CallId) (cls : Outcome) (l : List Entry) : Prop :=
  ∃ l₁ e l₂, l = l₁ ++ e :: l₂ ∧ e.call = c ∧ (∀ ws, e.event ≠ .committed ws) ∧
    ∀ online, (∀ b, (progress c l).asked = some b → online = b) →
      Refuses (calls c) online cls (replay l₂)

/-- What a call was told about presence stays the first answer. -/
theorem asked_kept {c : CallId} {e : Entry} {l : List Entry} {b : Bool}
    (h : (progress c l).asked = some b) : (progress c (e :: l)).asked = some b := by
  by_cases he : e.call = c
  · rw [progress_own he]
    cases hev : e.event with
    | asked b' => simp only [Progress.add, h, Option.some_or]
    | ran o => cases o <;> exact h
    | _ => exact h
  · rw [progress_other he]
    exact h

/-- Nothing that happens later takes the refusal away. -/
theorem Refused.cons {c : CallId} {cls : Outcome} {l : List Entry} (h : Refused calls c cls l)
    (e : Entry) : Refused calls c cls (e :: l) := by
  rcases h with ⟨l₁, e', l₂, heq, hc, hev, href⟩
  refine ⟨e :: l₁, e', l₂, by rw [heq, List.cons_append], hc, hev, fun online ho => ?_⟩
  exact href online (fun b hb => ho b (asked_kept hb))

end RemoteControl

import RemoteControl.Theory.SessionTraces

/-!
# Closed Sessions

What a closed session says of itself, and what the call that closed it has
answered.

A closure takes its time before its transaction, and it answers with a row it
has read even earlier. An activation that falls in between is not undone by
it: the session is closed with the time of an activation that is later than
its end, or its closure answers without that time. Both results say exactly
when this happens.

The times are found in the entries of the calls, each of which reads the clock
once (`told_once`), and which call has filled in a column is found in the
commits.

`SessionChange` sorts the commits by what they do to a session: it is opened,
activated, or closed. Of a closed session two such commits are then known, the
one that has closed it and, if its column is filled, the one that has
activated it, and each has its time from the clock reading of its own call
(`Reachable.committed_at`). So both results compare entries of two calls, and
never what a function has computed.

The answer of a closure is the row it has read, with the end added. It differs
from the row that is stored only in the time of connection, and that column is
filled between the reading and the closure, or not at all
(`connectedAt_since`, `not_connected_before`).

## Main definitions

* `ActivatedBy`, `ClosedBy`: The commit that changed the session.
* `NotOvertaken`: No closure is overtaken by an activation.
* `ActivatedMeanwhile`: The session was activated after the closure read it.
* `SessionChange`: The ways in which a commit writes a session.
* `CommitsSession`: A commit of a session with a status.
* `ClosedInOrder`: What is expected of the closed sessions.
* `AnswersWithRow`: What is expected of the answer of a closure.

## Theorems

* `closed_final`: A closed session does not change.
* `connected_before_ended`: The times of the closed sessions.
* `close_response`: The answer of a closure.
* `Explains.sessionChange`, `Explains.session_cases`: What a commit does to a
  session.
* `activation_of_connectedAt`, `commit_of_session`, `closed_with_request`:
  Where the columns of a session come from.
* `Reachable.told_once`, `Reachable.committed_at`: The one time that a call
  knows.
* `Reachable.activatedBy`, `Reachable.closedBy`: The columns have the times of
  the calls.
* `connectedAt_since`, `not_connected_before`: When the time of connection is
  filled.
-/

namespace RemoteControl

open Concurrency

variable {calls : CallId → Operation} {throws : CallId → Emitter → Bool} {c : CallId}

/-! ## What one commit does to a session -/

/-- The ways in which a commit writes a session. -/
inductive SessionChange (T T' : Tables) (t : Timestamp) (op : Operation)
    (x : Write Uuid RemoteSession) : Prop where
  | opened (hfresh : T.sessions x.key = none) (hst : x.new.status = .connecting)
      (hconnected : x.new.connectedAt = none)
  | activated (user : User) (s : RemoteSession) (hop : op = .activateByTechnician x.key user)
      (hs : T.sessions x.key = some s) (hst : s.status = .connecting)
      (hnew : x.new = (activation t).apply s)
  | closed (s : RemoteSession) (r : SupportRequest) (endedBy : RemoteSessionEndedBy)
      (hop : op.ChangesSession) (hs : T.sessions x.key = some s) (hlive : s.isLive = true)
      (hr : T'.requests s.supportRequestId = some ((completion t).apply r))
      (hnew : x.new = (closure t endedBy).apply s)

section Commits

variable {T : Tables} {t : Timestamp} {op : Operation} {ws : Writes}

/-- A closure completes the request of its session. -/
theorem apply_closure_request (id : Uuid) (s : RemoteSession) (r : SupportRequest)
    (endedBy : RemoteSessionEndedBy) :
    (T.apply (closureWrites T id s r t endedBy)).requests s.supportRequestId =
      some ((completion t).apply r) := by
  simp only [apply_requests, closureWrites, applyWrites_single, if_true]

/-- Every write of a commit to a session is one of the three changes. -/
theorem Explains.sessionChange (h : Explains T t op ws) {x : Write Uuid RemoteSession}
    (hx : x ∈ ws.sessions) : SessionChange T (T.apply ws) t op x := by
  cases h with
  | opened id user r sid createdAt hr hu hs hfresh hfree =>
      rw [sessionWrites, List.mem_singleton] at hx
      subst hx
      exact .opened hfresh rfl rfl
  | activated id user s hs hu hst =>
      rw [sessionWrites, List.mem_singleton] at hx
      subst hx
      exact .activated user s rfl hs hst rfl
  | closedByTechnician id user s r hs hu hl hr hst ht =>
      rw [closureWrites, List.mem_singleton] at hx
      subst hx
      exact .closed s r .technician trivial hs hl (apply_closure_request id s r .technician) rfl
  | closedByDevice id device s r hs hd hl hr hst ht =>
      rw [closureWrites, List.mem_singleton] at hx
      subst hx
      exact .closed s r .device trivial hs hl (apply_closure_request id s r .device) rfl
  -- The other operations write no session.
  | _ => simp only [requestWrites, List.not_mem_nil] at hx

/-- A commit leaves a session alone, or writes it. -/
theorem Explains.session_cases (h : Explains T t op ws) {k : Uuid} {s : RemoteSession}
    (hs : (T.apply ws).sessions k = some s) :
    T.sessions k = some s ∨
      ∃ x ∈ ws.sessions, x.key = k ∧ x.new = s ∧ SessionChange T (T.apply ws) t op x := by
  rcases applyWrites_cases ws.sessions T.sessions k with heq | ⟨x, hx, hk, heq⟩
  · rw [apply_sessions, heq] at hs
    exact .inl hs
  · rw [apply_sessions, heq, Option.some.injEq] at hs
    exact .inr ⟨x, hx, hk, hs, h.sessionChange hx⟩

/-- Only an activation writes a session as active. -/
theorem Explains.activation_of_active (h : Explains T t op ws) {x : Write Uuid RemoteSession}
    (hx : x ∈ ws.sessions) (hst : x.new.status = .active) :
    ∃ user s, op = .activateByTechnician x.key user ∧ T.sessions x.key = some s ∧
      s.status = .connecting ∧ x.new = (activation t).apply s := by
  cases h.sessionChange hx with
  | opened hfresh hnew hconnected =>
      rw [hst] at hnew
      simp only [reduceCtorEq] at hnew
  | activated user s hop hs hconnecting hnew => exact ⟨user, s, hop, hs, hconnecting, hnew⟩
  | closed s r endedBy hop hs hlive hr hnew =>
      rw [hnew] at hst
      simp only [RemoteSessionChanges.apply, closure, reduceCtorEq] at hst

end Commits

/-! ## Along the history -/

section Past

variable {w : World}

/-- The commit wrote the session with this status. -/
def CommitsSession (k : Uuid) (status : RemoteSessionStatus) (e : Entry) : Prop :=
  ∃ ws, e.event = .committed ws ∧ ∃ x ∈ ws.sessions, x.key = k ∧ x.new.status = status

/-- The call has activated the session. -/
def ActivatedBy (c : CallId) (k : Uuid) (l : List Entry) : Prop :=
  ∃ e l', e :: l' <:+ l ∧ e.call = c ∧ CommitsSession k .active e

/-- The call has closed the session. -/
def ClosedBy (c : CallId) (k : Uuid) (l : List Entry) : Prop :=
  ∃ e l', e :: l' <:+ l ∧ e.call = c ∧ CommitsSession k .closed e

/-- A closed session does not change. -/
theorem closed_final (hi : Inv calls throws w) {l l' : List Entry} (hl : l <:+ l')
    (hl' : l' <:+ w.log) {k : Uuid} {s : RemoteSession} (hs : (replay l).sessions k = some s)
    (hclosed : s.status = .closed) : (replay l').sessions k = some s := by
  refine hi.since_induction (P := fun l' => (replay l').sessions k = some s) hs
    (fun e l' _ _ hsame ih => ?_) (fun e l' ws t _ _ _ hafter hc hx ih => ?_) hl hl'
  · rw [hsame]
    exact ih
  · rcases hx.session_after hc ih with ⟨s', hs', rfl | hm⟩
    · rw [hafter]
      exact hs'
    · -- No move leaves the closed status.
      have hmove := hm.status
      rw [hclosed] at hmove
      cases hmove

/-- A session has its time of activation from the commit that activated it. -/
theorem activation_of_connectedAt (hi : Inv calls throws w) {l : List Entry} (hl : l <:+ w.log)
    {k : Uuid} {s : RemoteSession} {a : Timestamp} (hs : (replay l).sessions k = some s)
    (ha : s.connectedAt = some a) :
    ∃ e l' ws x, e :: l' <:+ l ∧ e.event = .committed ws ∧ x ∈ ws.sessions ∧ x.key = k ∧
      x.new.status = .active ∧ x.new.connectedAt = some a := by
  refine hi.past_induction (P := fun l => ∀ s, (replay l).sessions k = some s →
    s.connectedAt = some a → ∃ e l' ws x, e :: l' <:+ l ∧ e.event = .committed ws ∧
      x ∈ ws.sessions ∧ x.key = k ∧ x.new.status = .active ∧ x.new.connectedAt = some a)
    (fun s hs => ?_) (fun e l _ hsame ih s hs ha => ?_)
    (fun e l ws t _ he hafter _ hx ih s hs ha => ?_) hl s hs ha
  · simp only [replay, Tables.empty, reduceCtorEq] at hs
  · rw [hsame] at hs
    rcases ih s hs ha with ⟨e', l', ws, x, hsuffix, hrest⟩
    exact ⟨e', l', ws, x, hsuffix.trans (List.suffix_cons e l), hrest⟩
  -- A time that stood there before was stored by an earlier commit.
  · have hearlier : ∀ s, (replay l).sessions k = some s → s.connectedAt = some a →
        ∃ e' l' ws x, e' :: l' <:+ e :: l ∧ e'.event = .committed ws ∧ x ∈ ws.sessions ∧
          x.key = k ∧ x.new.status = .active ∧ x.new.connectedAt = some a := by
      intro s hs ha
      rcases ih s hs ha with ⟨e', l', ws, x, hsuffix, hrest⟩
      exact ⟨e', l', ws, x, hsuffix.trans (List.suffix_cons e l), hrest⟩
    rw [hafter] at hs
    rcases hx.session_cases hs with hold | ⟨x, hxs, hk, rfl, hchange⟩
    · exact hearlier s hold ha
    · cases hchange with
      -- A new session has no time yet, and a closure keeps the one it finds.
      | opened hfresh hst hconnected =>
          rw [hconnected] at ha
          simp only [reduceCtorEq] at ha
      | activated user s hop hs hst hnew =>
          exact ⟨e, l, ws, x, List.suffix_rfl, he, hxs, hk, by rw [hnew]; rfl, ha⟩
      | closed s r endedBy hop hs hlive hr hnew =>
          rw [hnew] at ha
          rw [hk] at hs
          exact hearlier s hs ha

/-- A session is as the last commit that wrote it has left it. -/
theorem commit_of_session (hi : Inv calls throws w) {l : List Entry} (hl : l <:+ w.log) {k : Uuid}
    {s : RemoteSession} (hs : (replay l).sessions k = some s) :
    ∃ e l' ws x, e :: l' <:+ l ∧ e.event = .committed ws ∧ x ∈ ws.sessions ∧ x.key = k ∧
      x.new = s := by
  refine hi.past_induction (P := fun l => (replay l).sessions k = some s →
    ∃ e l' ws x, e :: l' <:+ l ∧ e.event = .committed ws ∧ x ∈ ws.sessions ∧ x.key = k ∧
      x.new = s) (fun hs => ?_) (fun e l _ hsame ih hs => ?_)
    (fun e l ws t _ he hafter _ hx ih hs => ?_) hl hs
  · simp only [replay, Tables.empty, reduceCtorEq] at hs
  · rw [hsame] at hs
    rcases ih hs with ⟨e', l', ws, x, hsuffix, hrest⟩
    exact ⟨e', l', ws, x, hsuffix.trans (List.suffix_cons e l), hrest⟩
  · rw [hafter] at hs
    -- The last commit that wrote the row wrote what stands there.
    rcases hx.session_cases hs with hold | ⟨x, hxs, hk, hnew, _⟩
    · rcases ih hold with ⟨e', l', ws, x, hsuffix, hrest⟩
      exact ⟨e', l', ws, x, hsuffix.trans (List.suffix_cons e l), hrest⟩
    · exact ⟨e, l, ws, x, List.suffix_rfl, he, hxs, hk, hnew⟩

/-- The request of a closed session was closed at its end. -/
theorem closed_with_request (hi : Inv calls throws w) {l : List Entry} (hl : l <:+ w.log)
    {k : Uuid} {s : RemoteSession} (hs : (replay l).sessions k = some s)
    (hclosed : s.status = .closed) :
    ∃ r, (replay l).requests s.supportRequestId = some r ∧ r.closedAt = s.endedAt := by
  refine hi.past_induction (P := fun l => ∀ s, (replay l).sessions k = some s →
    s.status = .closed → ∃ r, (replay l).requests s.supportRequestId = some r ∧
      r.closedAt = s.endedAt) (fun s hs => ?_) (fun e l _ hsame ih s hs hclosed => ?_)
    (fun e l ws t hl he hafter hc hx ih s hs hclosed => ?_) hl s hs hclosed
  · simp only [replay, Tables.empty, reduceCtorEq] at hs
  · rw [hsame] at hs ⊢
    exact ih s hs hclosed
  · rw [hafter] at hs ⊢
    rcases hx.session_cases hs with hold | ⟨x, hxs, hk, rfl, hchange⟩
    -- Closed before, so its request has the time, and keeps it.
    · rcases ih s hold hclosed with ⟨r, hr, hat⟩
      have hwf := hc.sessionWellFormed k s hold
      rw [RemoteSession.WellFormed, hclosed] at hwf
      rcases Option.isSome_iff_exists.mp hwf.1 with ⟨t', ht'⟩
      rcases (hx.grows hc).requests _ r hr with ⟨r', hr', hkeep⟩
      exact ⟨r', hr', (hkeep.closedAt t' (hat.trans ht')).trans ht'.symm⟩
    · cases hchange with
      | opened hfresh hst hconnected =>
          rw [hclosed] at hst
          simp only [reduceCtorEq] at hst
      | activated user s hop hs hst hnew =>
          rw [hnew] at hclosed
          simp only [RemoteSessionChanges.apply, activation, reduceCtorEq] at hclosed
      -- One commit writes both rows, with one time.
      | closed s r endedBy hop hs hlive hr hnew =>
          refine ⟨(completion t).apply r, ?_, ?_⟩
          · rw [hnew]
            exact hr
          · rw [hnew]
            rfl

end Past

/-! ## The times in the rows -/

section Times

variable {sys : Calls}

/-- The operation of an entry was in order for its call. -/
theorem Reachable.inOrder (h : Reachable calls throws sys) (hop : (calls c).ChangesSession)
    {e : Entry} {l : List Entry} {o : Op} (hs : e :: l <:+ sys.shared.log) (hc : e.call = c)
    (he : e.event = .ran o) : InOrder (marks c l) o := by
  rcases h.changes_traced.trail c _ _ (mark_suffix hs hc) with ⟨o', r, hleaves, hok⟩
  rcases hleaves.entry with ⟨e', l', heq, _, hran⟩
  rw [List.cons.injEq] at heq
  rw [← heq.1] at hran
  rw [hran o he]
  exact hok hop

/-- The clock is not read a second time. -/
theorem Reachable.not_told_again (h : Reachable calls throws sys)
    (hop : (calls c).ChangesSession) {e e' : Entry} {l l' : List Entry} (hs : e :: l <:+ l')
    (hs' : e' :: l' <:+ sys.shared.log) (hc : e.call = c) (hc' : e'.call = c)
    (he : e.event = .ran .now) (he' : e'.event = .ran .now) : False := by
  have hfirst : readings Op.isNow (marks c l') = [] := h.inOrder hop hs' hc' he'
  have hread : e :: l ∈ readings Op.isNow (marks c l') :=
    mem_readings.mpr ⟨mem_marks.mpr ⟨e, l, rfl, hs, hc⟩, e, l, .now, rfl, he, rfl⟩
  rw [hfirst] at hread
  simp only [List.not_mem_nil] at hread

/-- Two parts of a history that end in an entry: one is the other, or comes
    before its last entry. -/
theorem suffix_order {e e' : Entry} {l l' log : List Entry} (hs : e :: l <:+ log)
    (hs' : e' :: l' <:+ log) : e :: l <:+ l' ∨ e' :: l' <:+ l ∨ e = e' ∧ l = l' := by
  rcases List.suffix_or_suffix_of_suffix hs hs' with hle | hle
  · rcases List.suffix_cons_iff.mp hle with heq | hlt
    · exact .inr (.inr (List.cons.inj heq))
    · exact .inl hlt
  · rcases List.suffix_cons_iff.mp hle with heq | hlt
    · exact .inr (.inr (List.cons.inj heq.symm))
    · exact .inr (.inl hlt)

/-- A call that changes a session reads the clock once. -/
theorem Reachable.told_once (h : Reachable calls throws sys) (hop : (calls c).ChangesSession)
    {e e' : Entry} {l l' : List Entry} (hs : e :: l <:+ sys.shared.log)
    (hs' : e' :: l' <:+ sys.shared.log) (hc : e.call = c) (hc' : e'.call = c)
    (he : e.event = .ran .now) (he' : e'.event = .ran .now) : e = e' := by
  rcases suffix_order hs hs' with hlt | hlt | heq
  · exact (h.not_told_again hop hlt hs' hc hc' he he').elim
  · exact (h.not_told_again hop hlt hs hc' hc he' he).elim
  · exact heq.1

/-- What is committed to a session has the time the call has read. -/
theorem Reachable.committed_at (h : Reachable calls throws sys)
    (hop : (calls c).ChangesSession) {e : Entry} {l : List Entry} {ws : Writes}
    {x : Write Uuid RemoteSession} (hs : e :: l <:+ sys.shared.log) (hc : e.call = c)
    (he : e.event = .committed ws) (hx : x ∈ ws.sessions) :
    ∃ e' l', e' :: l' <:+ sys.shared.log ∧ e'.call = c ∧ e'.event = .ran .now ∧
      ∃ (changes : RemoteSessionChanges) (s : RemoteSession), changes.At e'.time ∧
        x.new = changes.apply s := by
  rcases h.changes_traced.inv.committed e l ws hs he x hx with ⟨e₁, l₁, o, hs₁, hc₁, he₁, hw⟩
  have hs₁' := hs₁.trans ((List.suffix_cons e l).trans hs)
  rw [hc] at hc₁
  -- The statement that wrote the row carries the time that the call had read.
  have hok := h.inOrder hop hs₁' hc₁ he₁
  cases o with
  | updateSession id source changes =>
      rcases hok with ⟨e', l', htold, hat⟩
      rcases hw with ⟨_, s, hnew⟩
      have hread : e' :: l' ∈ readings Op.isNow (marks c l₁) := by
        rw [htold]
        exact List.mem_singleton_self _
      rcases mem_readings.mp hread with ⟨hmark, e'', l'', o, heq, hran, hnow⟩
      rcases mem_marks.mp hmark with ⟨e₂, l₂, heq', hs₂, hc₂⟩
      rw [List.cons.injEq] at heq heq'
      rw [← heq.1] at hran
      rw [← heq'.1, ← heq'.2] at hs₂
      rw [← heq'.1] at hc₂
      refine ⟨e', l', hs₂.trans ((List.suffix_cons e₁ l₁).trans hs₁'), hc₂, ?_, changes, s, hat,
        hnew⟩
      cases o with
      | now => exact hran
      | _ => simp only [Op.isNow, Bool.false_eq_true] at hnow
  | insertSession draft => exact hok.elim
  | _ => exact hw.elim

/-- Of the two changes only an activation leaves a session active. -/
theorem RemoteSessionChanges.At.connectedAt {changes : RemoteSessionChanges} {t : Timestamp}
    (h : changes.At t) {s : RemoteSession} (hst : (changes.apply s).status = .active) :
    (changes.apply s).connectedAt = some t := by
  rcases h with rfl | ⟨endedBy, rfl⟩
  · rfl
  · simp only [RemoteSessionChanges.apply, closure, reduceCtorEq] at hst

/-- And only a closure leaves it closed. -/
theorem RemoteSessionChanges.At.endedAt {changes : RemoteSessionChanges} {t : Timestamp}
    (h : changes.At t) {s : RemoteSession} (hst : (changes.apply s).status = .closed) :
    (changes.apply s).endedAt = some t := by
  rcases h with rfl | ⟨endedBy, rfl⟩
  · simp only [RemoteSessionChanges.apply, activation, reduceCtorEq] at hst
  · rfl

/-- A commit that activates or closes a session is one of a call that changes
    sessions. -/
theorem Inv.changesSession {w : World} (hi : Inv calls throws w) {e : Entry} {l : List Entry}
    {ws : Writes} {x : Write Uuid RemoteSession} (hs : e :: l <:+ w.log)
    (he : e.event = .committed ws) (hx : x ∈ ws.sessions) (hst : x.new.status ≠ .connecting) :
    (calls e.call).ChangesSession := by
  rcases hi.explained hs he with ⟨_, t, hexplains⟩
  cases hexplains.sessionChange hx with
  | opened hfresh hnew hconnected => exact absurd hnew hst
  | activated user s hop hs hold hnew =>
      rw [hop]
      -- All closures are calls that change sessions.
      trivial
  | closed s r endedBy hop hs hlive hr hnew => exact hop

/-- The row a commit has written is there, or what it has become. -/
theorem Inv.kept_since {w : World} (hi : Inv calls throws w) {e : Entry} {l : List Entry}
    {ws : Writes} {x : Write Uuid RemoteSession} (hs : e :: l <:+ w.log)
    (he : e.event = .committed ws) (hx : x ∈ ws.sessions) :
    ∃ s, w.tables.sessions x.key = some s ∧ SessionKeeps x.new s :=
  (hi.grows_since hs).sessions x.key x.new ((hi.written hs he).2 x hx)

/-- The call that has activated a session has read the time of the activation
    off the clock. -/
theorem Reachable.activatedBy (h : Reachable calls throws sys) {k : Uuid}
    (ha : ActivatedBy c k sys.shared.log) {e : Entry} {l : List Entry}
    (hs : e :: l <:+ sys.shared.log) (hc : e.call = c) (he : e.event = .ran .now) :
    ∃ s, sys.shared.tables.sessions k = some s ∧ s.connectedAt = some e.time := by
  rcases ha with ⟨e₁, l₁, hs₁, hc₁, ws, he₁, x, hx, rfl, hst⟩
  have hop := h.inv.changesSession hs₁ he₁ hx (by rw [hst]; decide)
  rw [hc₁] at hop
  rcases h.committed_at hop hs₁ hc₁ he₁ hx with ⟨e', l', hs', hc', he', changes, s₀, hat, hnew⟩
  -- The entry is the only reading of the clock by that call.
  have htold := h.told_once hop hs hs' hc hc' he he'
  rcases h.inv.kept_since hs₁ he₁ hx with ⟨s, hrow, hkeeps⟩
  refine ⟨s, hrow, hkeeps.connectedAt e.time ?_⟩
  -- The commit has written the time, and the row has kept it.
  rw [hnew] at hst ⊢
  rw [htold]
  exact hat.connectedAt hst

/-- The call that has closed a session has read the time of the closure off
    the clock. -/
theorem Reachable.closedBy (h : Reachable calls throws sys) {k : Uuid}
    (hclosed : ClosedBy c k sys.shared.log) {e : Entry} {l : List Entry}
    (hs : e :: l <:+ sys.shared.log) (hc : e.call = c) (he : e.event = .ran .now) :
    ∃ s, sys.shared.tables.sessions k = some s ∧ s.status = .closed ∧
      s.endedAt = some e.time := by
  rcases hclosed with ⟨e₁, l₁, hs₁, hc₁, ws, he₁, x, hx, rfl, hst⟩
  have hop := h.inv.changesSession hs₁ he₁ hx (by rw [hst]; decide)
  rw [hc₁] at hop
  rcases h.committed_at hop hs₁ hc₁ he₁ hx with ⟨e', l', hs', hc', he', changes, s₀, hat, hnew⟩
  have htold := h.told_once hop hs hs' hc hc' he he'
  have hrow := (h.inv.written hs₁ he₁).2 x hx
  refine ⟨x.new, ?_, hst, ?_⟩
  · rw [h.inv.tables]
    -- Once closed, the row stays what the closure has written.
    exact closed_final h.inv hs₁ List.suffix_rfl hrow hst
  · rw [hnew] at hst ⊢
    rw [htold]
    exact hat.endedAt hst

/-- No closure is overtaken: what it has read off the clock is not earlier
    than what an activation of the session has read after it. -/
def NotOvertaken (log : List Entry) : Prop :=
  ∀ k closing activating, ClosedBy closing k log → ActivatedBy activating k log →
    ∀ e l e' l', e :: l <:+ l' → e' :: l' <:+ log → e.call = closing → e'.call = activating →
      e.event = .ran .now → e'.event = .ran .now → e'.time ≤ e.time

/-- The times of a history do not decrease. -/
theorem History.time_le {l l' : List Entry} {e e' : Entry} (h : History calls throws (e :: l))
    (hs : e' :: l' <:+ l) : e'.time ≤ e.time :=
  h.1.time e' (hs.subset List.mem_cons_self)

/-- A closed session was connected before its end, and its request was closed
    at its end. -/
def ClosedInOrder (T : Tables) : Prop :=
  ∀ k s, T.sessions k = some s → s.status = .closed →
    (∀ a, s.connectedAt = some a → ∃ t, s.endedAt = some t ∧ a ≤ t) ∧
    ∃ r, T.requests s.supportRequestId = some r ∧ r.closedAt = s.endedAt

/-- The closed sessions are in order in exactly the runs in which no closure
    is overtaken by an activation that has read a later time. -/
theorem connected_before_ended (h : Reachable calls throws sys) :
    ClosedInOrder sys.shared.tables ↔ NotOvertaken sys.shared.log := by
  have hi := h.inv
  constructor
  · intro hordered k closing activating hclosing hactivating e l e' l' hs hs' hc hc' he he'
    have hs₀ := hs.trans ((List.suffix_cons e' l').trans hs')
    rcases h.closedBy hclosing hs₀ hc he with ⟨s, hrow, hst, hended⟩
    rcases h.activatedBy hactivating hs' hc' he' with ⟨s', hrow', hconnected⟩
    rw [hrow, Option.some.injEq] at hrow'
    subst hrow'
    rcases (hordered k s hrow hst).1 e'.time hconnected with ⟨t, ht, hle⟩
    rw [hended, Option.some.injEq] at ht
    rw [ht]
    exact hle
  · intro hnot k s hrow hst
    rw [hi.tables] at hrow ⊢
    refine ⟨fun a ha => ?_, closed_with_request hi List.suffix_rfl hrow hst⟩
    rcases activation_of_connectedAt hi List.suffix_rfl hrow ha with
      ⟨e₁, l₁, ws₁, x₁, hs₁, he₁, hx₁, hk₁, hactive, hconnected⟩
    rcases commit_of_session hi List.suffix_rfl hrow with ⟨e₂, l₂, ws₂, x₂, hs₂, he₂, hx₂, hk₂, rfl⟩
    have hop₁ := hi.changesSession hs₁ he₁ hx₁ (by rw [hactive]; decide)
    have hop₂ := hi.changesSession hs₂ he₂ hx₂ (by rw [hst]; decide)
    rcases h.committed_at hop₁ hs₁ rfl he₁ hx₁ with ⟨e, l, hs, hc, he, changes, s₀, hat, hnew⟩
    rcases h.committed_at hop₂ hs₂ rfl he₂ hx₂ with
      ⟨e', l', hs', hc', he', changes', s₀', hat', hnew'⟩
    have hended : x₂.new.endedAt = some e'.time := by
      rw [hnew'] at hst ⊢
      exact hat'.endedAt hst
    have hstart : a = e.time := by
      rw [hnew] at hactive hconnected
      rw [hat.connectedAt hactive, Option.some.injEq] at hconnected
      exact hconnected.symm
    refine ⟨e'.time, hended, ?_⟩
    rw [hstart]
    -- The activation has read the clock before the closure, or after it.
    rcases suffix_order hs hs' with hlt | hlt | heq
    · exact (hi.history.suffix hs').time_le hlt
    · exact hnot k e₂.call e₁.call ⟨e₂, l₂, hs₂, rfl, ws₂, he₂, x₂, hx₂, hk₂, hst⟩
        ⟨e₁, l₁, hs₁, rfl, ws₁, he₁, x₁, hx₁, hk₁, hactive⟩ e' l' e l hlt hs hc' hc he' he
    · rw [heq.1]

/-- The closure reads the session and the clock; then the session is
    activated; then the closure goes on. -/
def overtaken : List (CallId × Env) := opening ++ turns 5 3 0 ++ turns 4 11 0 ++ turns 5 8 0

/-- The row says that it was connected after its end, and the closure has
    answered that it was never connected. -/
theorem overtaken_reachable : ∃ sys, Reachable assistance quiet sys ∧
    ∃ s, sys.shared.tables.sessions 20 = some s ∧ s.status = .closed ∧ s.connectedAt = some 4 ∧
      s.endedAt = some 3 ∧ ∃ dto, sys.threads 5 = .ret (.remoteSession dto) ∧
        dto.connectedAt = none := by
  have hrun : ((follow (exec quiet) (boot assistance (fun _ => tablet) (fun _ => agent) 0)
      overtaken).any (fun sys =>
        (sys.shared.tables.sessions 20).any (fun s =>
          decide (s.status = .closed ∧ s.connectedAt = some 4 ∧ s.endedAt = some 3)) &&
        (sys.threads 5).returned.any (fun r => decide (r = .remoteSession
          { id := 20, supportRequestId := 10, status := .closed, createdAt := 0
            connectedAt := none, endedAt := some 3, endedBy := some .technician
            device := RemoteSessionDeviceDto.fromEntity tablet true
            technician := SupportRequestTechnicianDto.fromTechnician agent })))) = true := by
    decide +kernel
  rcases reachable_of_follow hrun with ⟨sys, hsys, hp⟩
  rw [Bool.and_eq_true, Option.any_eq_true, Option.any_eq_true] at hp
  rcases hp with ⟨⟨s, hs, hst⟩, r, hr, hdto⟩
  rw [Prog.returned_eq_some, of_decide_eq_true hdto] at hr
  rcases of_decide_eq_true hst with ⟨hclosed, hconnected, hended⟩
  exact ⟨sys, hsys, s, hs, hclosed, hconnected, hended, _, hr, rfl⟩

/-- Such a row is out of order. -/
theorem not_closedInOrder {T : Tables} {s : RemoteSession} (hs : T.sessions 20 = some s)
    (hclosed : s.status = .closed) (hconnected : s.connectedAt = some 4)
    (hended : s.endedAt = some 3) : ¬ ClosedInOrder T := by
  intro horder
  rcases (horder 20 s hs hclosed).1 4 hconnected with ⟨t, ht, hle⟩
  rw [hended, Option.some.injEq] at ht
  rw [← ht] at hle
  have hlater : (4 : Nat) ≤ 3 := hle
  omega

/-- A session has been connected after its end. -/
theorem connected_before_ended_overtaken : ¬ ∀ (calls : CallId → Operation)
    (throws : CallId → Emitter → Bool) (sys : Calls), Reachable calls throws sys →
    ClosedInOrder sys.shared.tables := by
  intro hall
  rcases overtaken_reachable with ⟨sys, hsys, s, hs, hclosed, hconnected, hended, _⟩
  exact not_closedInOrder hs hclosed hconnected hended (hall assistance quiet sys hsys)

/-- In that run the closure is overtaken. -/
theorem connected_before_ended_late : ∃ sys, Reachable assistance quiet sys ∧
    ¬ NotOvertaken sys.shared.log := by
  rcases overtaken_reachable with ⟨sys, hsys, s, hs, hclosed, hconnected, hended, _⟩
  exact ⟨sys, hsys, fun hnot => not_closedInOrder hs hclosed hconnected hended
    ((connected_before_ended hsys).mpr hnot)⟩

end Times

/-! ## The answer of a closure -/

section Answers

/-- The call closes the session. -/
def Operation.Closes (id : Uuid) : Operation → Prop
  | .closeByTechnician id' _ => id' = id
  | .closeByDevice id' _ => id' = id
  | _ => False

/-- The response carries what the row says. -/
structure RemoteSessionResponseDto.ShowsRow (dto : RemoteSessionResponseDto) (s : RemoteSession) :
    Prop where
  status : dto.status = s.status
  createdAt : dto.createdAt = s.createdAt
  connectedAt : dto.connectedAt = s.connectedAt
  endedAt : dto.endedAt = s.endedAt
  endedBy : dto.endedBy = s.endedBy

/-- The session is activated after the call has read it. -/
def ActivatedMeanwhile (c : CallId) (id : Uuid) (log : List Entry) : Prop :=
  ∃ e l e' l' owner, e :: l <:+ l' ∧ e' :: l' <:+ log ∧ e.call = c ∧
    e.event = .ran (.findSession id owner) ∧ CommitsSession id .active e'

/-- What a closure commits is the closed session. The request of the session is
    written along with it, and is no session. -/
theorem Explains.closes {T : Tables} {t : Timestamp} {op : Operation} {ws : Writes} {id : Uuid}
    (hx : Explains T t op ws) (hop : op.Closes id) {x : Write Uuid RemoteSession}
    (hmem : x ∈ ws.sessions) : x.key = id ∧ x.new.status = .closed := by
  cases hx with
  | closedByTechnician id user s r hs hu hl hr hst ht =>
      rw [closureWrites, List.mem_singleton] at hmem
      subst hmem
      exact ⟨hop, rfl⟩
  | closedByDevice id device s r hs hd hl hr hst ht =>
      rw [closureWrites, List.mem_singleton] at hmem
      subst hmem
      exact ⟨hop, rfl⟩
  | _ => exact hop.elim

variable {w : World}

/-- Unless it is activated, a session that is there keeps its time of
    activation. -/
theorem connectedAt_since (hi : Inv calls throws w) {id : Uuid} {l : List Entry}
    {s : RemoteSession} (hs : (replay l).sessions id = some s)
    (hnot : ∀ e l', e :: l' <:+ w.log → l <:+ l' → ¬ CommitsSession id .active e)
    {l' : List Entry} (hl : l <:+ l') (hl' : l' <:+ w.log) :
    ∃ s', (replay l').sessions id = some s' ∧ s'.connectedAt = s.connectedAt := by
  refine hi.since_induction
    (P := fun l' => ∃ s', (replay l').sessions id = some s' ∧ s'.connectedAt = s.connectedAt)
    ⟨s, hs, rfl⟩ (fun e l' _ _ hsame ih => ?_)
    (fun e l' ws t hl he' he hafter hc hx ih => ?_) hl hl'
  · rw [hsame]
    exact ih
  · rcases ih with ⟨s', hs', hsame⟩
    rcases hx.session_after hc hs' with ⟨s'', hs'', heq | hmove⟩
    · exact ⟨s'', by rw [hafter]; exact hs'', by rw [heq]; exact hsame⟩
    refine ⟨s'', by rw [hafter]; exact hs'', ?_⟩
    rcases hx.session_cases hs'' with hold | ⟨x, hxs, hk, hnew, hchange⟩
    · rw [hs', Option.some.injEq] at hold
      rw [← hold]
      exact hsame
    rw [← hk] at hs'
    cases hchange with
    | opened hfresh hst hconnected =>
        rw [hfresh] at hs'
        simp only [reduceCtorEq] at hs'
    | activated user s₁ hop hs₁ hst hactive =>
        -- There is no activation in this time.
        exact (hnot e l' he' hl ⟨ws, he, x, hxs, hk, by rw [hactive]; rfl⟩).elim
    | closed s₁ r endedBy hop hs₁ hlive hr hclosed =>
        -- A closure leaves the time of the activation as it is.
        rw [hs', Option.some.injEq] at hs₁
        subst hs₁
        rw [← hnew, hclosed]
        exact hsame

/-- A session that is activated has not been connected before. -/
theorem not_connected_before (hi : Inv calls throws w) {id : Uuid} {l l' : List Entry}
    {s : RemoteSession} (hs : (replay l).sessions id = some s) (hl : l <:+ l') {e : Entry}
    (hl' : e :: l' <:+ w.log) (he : CommitsSession id .active e) :
    s.connectedAt = none ∧ ∃ s', w.tables.sessions id = some s' ∧ s'.connectedAt.isSome = true := by
  rcases he with ⟨ws, he, x, hx, rfl, hst⟩
  rcases hi.explained hl' he with ⟨hc, t, hexplains⟩
  rcases hi.kept_since hl' he hx with ⟨s', hs', hkeeps⟩
  rcases hexplains.activation_of_active hx hst with ⟨user, s₁, _, hs₁, hconnecting, hnew⟩
  constructor
  · -- The row was still connecting when the activation found it.
    rcases (hi.grows_between hl ((List.suffix_cons e l').trans hl')).sessions _ s hs with
      ⟨s₂, hs₂, hkeeps₂⟩
    rw [hs₁, Option.some.injEq] at hs₂
    subst hs₂
    have hwf := hc.sessionWellFormed _ s₁ hs₁
    rw [RemoteSession.WellFormed, hconnecting] at hwf
    cases hat : s.connectedAt with
    | none => rfl
    | some a =>
        have hkept := hkeeps₂.connectedAt a hat
        rw [hwf.1] at hkept
        simp only [reduceCtorEq] at hkept
  · refine ⟨s', hs', ?_⟩
    have hat : x.new.connectedAt = some t := by rw [hnew]; rfl
    rw [hkeeps.connectedAt t hat]
    rfl

/-- The answer of a closure, and the row it has closed. -/
theorem Reachable.closed_answer {sys : Calls} (h : Reachable calls throws sys) {id : Uuid}
    (hop : (calls c).Closes id) {r : Response} (hr : sys.threads c = .ret r) :
    ∃ dto s, r = .remoteSession dto ∧ sys.shared.tables.sessions id = some s ∧
      s.status = .closed ∧ dto.status = s.status ∧ dto.createdAt = s.createdAt ∧
      KeepsValue dto.endedAt s.endedAt ∧ KeepsValue dto.endedBy s.endedBy := by
  have hi := h.inv
  rcases h.returned hr with ⟨_, before, a, ws, hat, hanswers⟩
  -- Only the two closures are concerned.
  have hshows : ShowsSession ws r := by
    cases hcall : calls c with
    | closeByTechnician id user =>
        rw [hcall] at hanswers
        exact hanswers
    | closeByDevice id device =>
        rw [hcall] at hanswers
        exact hanswers
    | _ =>
        rw [hcall] at hop
        exact hop.elim
  rcases hshows with ⟨x, hx, loaded, online, hkeeps, hst, rfl⟩
  have hcommitted : (progress c sys.shared.log).committed = some ws := by rw [hat.progress]; rfl
  rcases committed_entry hcommitted with ⟨e, l, hs, hc, he⟩
  rcases hi.explained hs he with ⟨_, t, hexplains⟩
  rw [hc] at hexplains
  rcases hexplains.closes hop hx with ⟨hk, hclosed⟩
  have hrow := (hi.written hs he).2 x hx
  refine ⟨_, x.new, rfl, ?_, hclosed, hst, hkeeps.createdAt.symm, hkeeps.endedAt, hkeeps.endedBy⟩
  rw [hi.tables, ← hk]
  exact closed_final hi hs List.suffix_rfl hrow hclosed

/-- The answer of a closure is made of the row it has read. -/
theorem Reachable.answers_with_read {sys : Calls} (h : Reachable calls throws sys) {id : Uuid}
    (hop : (calls c).Closes id) {r : Response} (hr : sys.threads c = .ret r) :
    ∃ endedBy dto, r = .remoteSession dto ∧
      AnswersWithRead id endedBy (marks c sys.shared.log) dto := by
  have hanswer := h.changes_traced.along c
  rw [hr] at hanswer
  -- The two closures have the same trace, with their own owner.
  cases hcall : calls c with
  | closeByTechnician id' user =>
      rw [hcall] at hop hanswer
      rcases hanswer trivial with ⟨dto, hdto, hread⟩
      rw [← hop]
      exact ⟨_, dto, hdto, hread⟩
  | closeByDevice id' device =>
      rw [hcall] at hop hanswer
      rcases hanswer trivial with ⟨dto, hdto, hread⟩
      rw [← hop]
      exact ⟨_, dto, hdto, hread⟩
  | _ =>
      rw [hcall] at hop
      exact hop.elim

/-- The answer is the closed row, which stays as it is. -/
def AnswersWithRow (throws : CallId → Emitter → Bool) (sys : Calls) (id : Uuid) (r : Response) :
    Prop :=
  ∃ dto s, r = .remoteSession dto ∧ sys.shared.tables.sessions id = some s ∧
    s.status = .closed ∧ dto.ShowsRow s ∧
    ∀ ok sys', Run (exec throws) ok sys sys' → sys'.shared.tables.sessions id = some s

/-- A closure answers with the row it has closed in exactly the runs in which
    the session is not activated after the closure has read it. -/
theorem close_response {sys : Calls} (h : Reachable calls throws sys) {id : Uuid}
    (hop : (calls c).Closes id) {r : Response} (hr : sys.threads c = .ret r) :
    AnswersWithRow throws sys id r ↔ ¬ ActivatedMeanwhile c id sys.shared.log := by
  have hi := h.inv
  rcases h.closed_answer hop hr with ⟨dto, s, rfl, hrow, hclosed, hstatus, hcreated, hended, hby⟩
  rcases h.answers_with_read hop hr with
    ⟨endedBy, dto', heq, e, l, owner, read, t, online, hfind, hran, hread, hdto⟩
  rw [Response.remoteSession.injEq] at heq
  subst heq
  have hmark : e :: l ∈ readings Op.isFind (marks c sys.shared.log) := by
    rw [hfind]
    exact List.mem_singleton_self _
  have hs : e :: l <:+ sys.shared.log ∧ e.call = c := by
    rcases mem_marks.mp (mem_readings.mp hmark).1 with ⟨e', l', heq, hs, hc⟩
    rw [List.cons.injEq] at heq
    rw [heq.1, heq.2]
    exact ⟨hs, hc⟩
  -- The session was activated after the reading, so the answer lacks a time that the
  -- row has.
  constructor
  · rintro ⟨dto', s', heq, hrow', _, hshows, _⟩ ⟨e₁, l₁, e', l', owner, hs₁, hs', hc₁, he₁, hactive⟩
    rw [Response.remoteSession.injEq] at heq
    subst heq
    -- The call has read the session only there.
    have hmark₁ : e₁ :: l₁ ∈ readings Op.isFind (marks c sys.shared.log) :=
      mem_readings.mpr ⟨mem_marks.mpr ⟨e₁, l₁, rfl, hs₁.trans ((List.suffix_cons e' l').trans hs'),
        hc₁⟩, e₁, l₁, _, rfl, he₁, rfl⟩
    rw [hfind, List.mem_singleton, List.cons.injEq] at hmark₁
    rw [hmark₁.2] at hs₁
    rcases not_connected_before hi hread ((List.suffix_cons _ l).trans hs₁) hs' hactive with
      ⟨hnone, s'', hrow'', hsome⟩
    rw [hrow', Option.some.injEq] at hrow''
    rw [← hrow'', ← hshows.connectedAt, hdto] at hsome
    simp only [RemoteSessionResponseDto.fromEntity, hnone, Option.isSome_none,
      Bool.false_eq_true] at hsome
  -- Nobody has activated it since, so the column is as it was read.
  · intro hnot
    have hsame : (replay (e :: l)).sessions id = some read.toRemoteSession := by
      simp only [replay, hran]
      exact hread
    rcases connectedAt_since hi hsame (fun e' l' hs' hl hactive =>
        hnot ⟨e, l, e', l', owner, hl, hs', hs.2, hran, hactive⟩) hs.1 List.suffix_rfl with
      ⟨s', hrow', hconnected⟩
    rw [← hi.tables, hrow, Option.some.injEq] at hrow'
    subst hrow'
    rw [hdto] at hstatus hcreated hended hby
    rw [hdto]
    refine ⟨_, s, rfl, hrow, hclosed, ⟨hstatus, hcreated, hconnected.symm, ?_, ?_⟩, ?_⟩
    · exact (hended t rfl).symm
    · exact (hby endedBy rfl).symm
    -- A closed session stays as it is.
    · intro ok sys' hrun
      have hi' := (h.run hrun).inv
      rw [hi'.tables]
      rw [hi.tables] at hrow
      exact closed_final hi' (h.log_suffix hrun) List.suffix_rfl hrow hclosed

/-- Such an answer is not the row. -/
theorem not_answersWithRow {sys : Calls} {s : RemoteSession} {dto : RemoteSessionResponseDto}
    (hs : sys.shared.tables.sessions 20 = some s) (hconnected : s.connectedAt = some 4)
    (hnone : dto.connectedAt = none) : ¬ AnswersWithRow throws sys 20 (.remoteSession dto) := by
  rintro ⟨dto', s', heq, hs', _, hshows, _⟩
  rw [Response.remoteSession.injEq] at heq
  rw [hs, Option.some.injEq] at hs'
  rw [← heq, ← hs'] at hshows
  have hat := hshows.connectedAt
  rw [hnone, hconnected] at hat
  simp only [reduceCtorEq] at hat

/-- A closure has answered that the session was never connected. -/
theorem close_response_stale : ¬ ∀ (calls : CallId → Operation)
    (throws : CallId → Emitter → Bool) (sys : Calls), Reachable calls throws sys →
    ∀ c id r, (calls c).Closes id → sys.threads c = .ret r → AnswersWithRow throws sys id r := by
  intro hall
  rcases overtaken_reachable with ⟨sys, hsys, s, hs, _, hconnected, _, dto, hdto, hnone⟩
  exact not_answersWithRow hs hconnected hnone (hall assistance quiet sys hsys 5 20 _ rfl hdto)

/-- In that run the session was activated meanwhile. -/
theorem close_response_overtaken : ∃ sys, Reachable assistance quiet sys ∧
    ActivatedMeanwhile 5 20 sys.shared.log := by
  rcases overtaken_reachable with ⟨sys, hsys, s, hs, _, hconnected, _, dto, hdto, hnone⟩
  have hop : (assistance 5).Closes 20 := rfl
  refine ⟨sys, hsys, ?_⟩
  by_contra hnot
  exact not_answersWithRow hs hconnected hnone ((close_response hsys hop hdto).mpr hnot)

end Answers

end RemoteControl

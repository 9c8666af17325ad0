import RemoteControl.Theory.History

/-!
# The Steps of a Call

The operations of the backend under the rules of the lifecycle: one rule for
each, from what a call knows before it to what it knows after. The assertion
is always of the same form. `At c p g` says how far call `c` has come (`p`)
and what its transaction holds (`g`); the other calls can change neither.

What a statement found is kept as the moment it ran: `Saw c w₀ w` says that
the call looked at the state `w₀` on its way to `w`. Facts about `w₀` are
plain facts, so a program can combine what it saw at different moments, and
`Saw` itself survives everything (it is persistent). From a moment the call
saw follow the rows that are still there, the stamps that are in the past,
and, when the machine refuses the call at that moment, that the call may fail
(`Saw.refused`).

The rules do the same work for every operation. They take the invariant and
the assertion before it, show that the new entry is in order, and give back
the invariant, the guarantee and the assertion after it. An operation that
commits nothing does this by `At.quiet`, one that commits by `At.commits`, and
the rules of `Theory.Operations` only say what is particular to their
statement.

## Main definitions

* `Grip`, `At`: What a call holds and how far it has come.
* `Saw`, `Since`: A moment the call saw, and rows that have only grown since.
* `working`, `announcing`: How far a call has come before and after its
  commit.

## Theorems

* `At.stable`, `Saw.persistent`, `Since.persistent`: What survives the others.
* `Saw.refused`: A moment of refusal is what a failure needs.
* `At.quiet`, `At.commits`: An operation that commits nothing, and one that
  commits.
* `statement_then`, `ask_then`: An operation and the program after it.
* `throwIf_then`, `orFail_then`: The source's checks.
* `owned_eq_none`, `owned_eq_some`: What a query for the row of an owner finds.
* `findRequest_then`, `findSession_then`, `findDevice_then`: Statements that
  only read.
-/

namespace RemoteControl

open Concurrency Machine

/-- What the transaction of a call holds: a request, a session, or neither.
    `alone` adds that no session belongs to the request it holds. -/
structure Grip where
  request : Option (Hold Uuid SupportRequest)
  session : Option (Hold Uuid RemoteSession)
  alone : Bool

/-- Nothing is held. -/
def Grip.free : Grip := { request := none, session := none, alone := false }

/-- A request has been locked, and not written yet. -/
def Grip.ofRequest (id : Uuid) (r : SupportRequest) (alone : Bool) : Grip :=
  { request := some ⟨id, some r, none⟩, session := none, alone }

/-- A session has been locked, and not written yet. -/
def Grip.ofSession (id : Uuid) (s : RemoteSession) : Grip :=
  { request := none, session := some ⟨id, some s, none⟩, alone := false }

/-- What a commit of the transaction writes. -/
def Grip.writes (g : Grip) : Writes :=
  { requests := g.request.elim [] Hold.writes, sessions := g.session.elim [] Hold.writes }

/-- Nothing has been written yet. -/
@[simp] theorem Grip.writes_ofSession (id : Uuid) (s : RemoteSession) :
    (Grip.ofSession id s).writes = { requests := [], sessions := [] } := rfl

/-- Call `c` has come as far as `p`, and its transaction holds `g`. -/
structure At (c : CallId) (p : Progress) (g : Grip) (w : World) : Prop where
  progress : progress c w.log = p
  requests : w.requests.Holds c g.request
  sessions : w.sessions.Holds c g.session
  alone : g.alone = true → ∃ h, g.request = some h ∧
    ∀ k s, w.tables.sessions k = some s → s.supportRequestId ≠ h.key

/-- Call `c` looked at the state `w₀` on its way to `w`. -/
structure Saw (c : CallId) (w₀ w : World) : Prop where
  log : ∃ l₁ e, w.log = l₁ ++ e :: w₀.log ∧ e.call = c ∧ ∀ ws, e.event ≠ .committed ws
  clock : w₀.clock ≤ w.clock
  grows : Grows w₀.tables w.tables
  devices : w.devices = w₀.devices
  users : w.users = w₀.users

/-- The operation `o` of call `c` ran in the state `w₀`, on the way to `w`. -/
def Ran (c : CallId) (o : Op) (w₀ w : World) : Prop := ∃ t, ⟨c, t, .ran o⟩ :: w₀.log <:+ w.log

/-- The rows `T` have only grown. -/
def Since (T : Tables) (w : World) : Prop := Grows T w.tables

/-- The call has not committed yet. -/
def working (before : List Entry) (asked : Option Bool) (written : Bool) : Progress :=
  { entered := some before, asked, written, committed := none, emissions := [], left := false }

/-- The call has committed and is sending its emissions. -/
def announcing (before : List Entry) (asked : Option Bool) (ws : Writes)
    (emissions : List (Emission × Bool)) : Progress :=
  { entered := some before, asked, written := true, committed := some ws, emissions
    left := false }

variable {calls : CallId → Operation} {throws : CallId → Emitter → Bool}

/-! ## What survives the others -/

/-- The others cannot change how far the call has come, because their entries are
    not its own, nor what it holds. And as long as it holds a request, nobody can
    open a session for it. -/
theorem At.stable {c : CallId} {p : Progress} {g : Grip} :
    (lifecycle calls throws).Stable c (At c p g) := by
  intro u w w' huc hi hi' hg h
  have hne : some u ≠ some c := fun hc => huc (Option.some.inj hc)
  refine ⟨?_, h.requests.frame hg.requests hne, h.sessions.frame hg.sessions hne, fun ha => ?_⟩
  · -- The entry is somebody else's.
    rcases hg.entry with ⟨e, he, _, hlog, _⟩
    rw [hlog, progress_other (by rw [he]; exact huc)]
    exact h.progress
  · rcases h.alone ha with ⟨hd, hgr, hnone⟩
    refine ⟨hd, hgr, fun k s' hs' hid => ?_⟩
    rcases hg.tables hi hi' with heq | ⟨t, ws, hx, heq, hopen⟩
    · rw [heq] at hs'
      exact hnone k s' hs' hid
    -- There was no session for the request, so one there is now would have been opened.
    · rw [heq] at hs'
      rcases hx.session_before hi.consistent hs' with ⟨s, hs, rfl | hm⟩ | ⟨sw, hsw, hold, hnew⟩
      · exact hnone k _ hs hid
      · exact hnone k s hs (by rw [← hm.supportRequestId]; exact hid)
      · -- Opening a session takes the request, and the request is held here.
        have hfree := hopen sw hsw hold
        rw [hnew, hid] at hfree
        have hrow := h.requests
        rw [hgr] at hrow
        exact Table.not_heldBy_of_free hfree hne ⟨hd.written, by rw [hrow.1]⟩

/-- What the call has seen is in the past, and the past does not change. -/
theorem Saw.persistent {c : CallId} {w₀ : World} :
    (lifecycle calls throws).Persistent (Saw c w₀) := by
  intro d w w' hi hi' hg h
  rcases h.log with ⟨l₁, e, hlog, hc, hev⟩
  rcases hg.entry with ⟨e', _, _, hlog', _⟩
  exact ⟨⟨e' :: l₁, e, by rw [hlog', hlog, List.cons_append], hc, hev⟩,
    Nat.le_trans h.clock hg.clock, h.grows.trans (hg.grows hi hi'),
    hg.devices.trans h.devices, hg.users.trans h.users⟩

/-- An operation that has run has run. -/
theorem Ran.persistent {c : CallId} {o : Op} {w₀ : World} :
    (lifecycle calls throws).Persistent (Ran c o w₀) := by
  intro d w w' _ _ hg h
  rcases h with ⟨t, hs⟩
  rcases hg.entry with ⟨e, _, _, hlog, _⟩
  rw [Ran, hlog]
  exact ⟨t, hs.trans (List.suffix_cons e w.log)⟩

/-- Rows go on growing. -/
theorem Since.persistent {T : Tables} : (lifecycle calls throws).Persistent (Since T) :=
  fun _ _ _ hi hi' hg h => h.trans (hg.grows hi hi')

/-- A refusal is about a moment that is over. -/
theorem Refused.persistent {c : CallId} {cls : Outcome} :
    (lifecycle calls throws).Persistent (fun w => Refused calls c cls w.log) := by
  intro d w w' _ _ hg h
  rcases hg.entry with ⟨e, _, _, hlog, _⟩
  rw [hlog]
  exact h.cons e

/-- The clock does not go back. -/
theorem clock_persistent {t : Timestamp} :
    (lifecycle calls throws).Persistent (fun w => t ≤ w.clock) :=
  fun _ _ _ _ _ hg h => Nat.le_trans h hg.clock

/-- A moment at which the machine refuses the call is what a failure needs. -/
theorem Saw.refused {c : CallId} {w₀ w : World} {cls : Outcome} (h : Saw c w₀ w)
    (hi : Inv calls throws w₀)
    (href : ∀ online, (∀ b, (progress c w.log).asked = some b → online = b) →
      Refuses (calls c) online cls w₀.tables) : Refused calls c cls w.log := by
  rcases h.log with ⟨l₁, e, hlog, hc, hev⟩
  refine ⟨l₁, e, w₀.log, hlog, hc, hev, fun online ho => ?_⟩
  rw [← hi.tables]
  exact href online ho

/-- A request that the call has seen is still there, with what was filled in. -/
theorem Saw.request {c : CallId} {w₀ w : World} (h : Saw c w₀ w) {k : Uuid} {r : SupportRequest}
    (hr : w₀.tables.requests k = some r) :
    ∃ r', w.tables.requests k = some r' ∧ RequestKeeps r r' := h.grows.requests k r hr

/-- A session that the call has seen is still there, with what was filled in. -/
theorem Saw.session {c : CallId} {w₀ w : World} (h : Saw c w₀ w) {k : Uuid} {s : RemoteSession}
    (hs : w₀.tables.sessions k = some s) :
    ∃ s', w.tables.sessions k = some s' ∧ SessionKeeps s s' := h.grows.sessions k s hs

/-- What the transaction holds is what is committed. -/
theorem At.request {c : CallId} {p : Progress} {g : Grip} {w : World} (h : At c p g w)
    {hd : Hold Uuid SupportRequest} (hg : g.request = some hd) :
    w.tables.requests hd.key = hd.committed := by
  have hrow := h.requests
  rw [hg] at hrow
  simp only [World.tables, Table.committed, hrow.1]

/-- What the transaction holds of a session is what is committed. -/
theorem At.session {c : CallId} {p : Progress} {g : Grip} {w : World} (h : At c p g w)
    {hd : Hold Uuid RemoteSession} (hg : g.session = some hd) :
    w.tables.sessions hd.key = hd.committed := by
  have hrow := h.sessions
  rw [hg] at hrow
  simp only [World.tables, Table.committed, hrow.1]

/-! ## One operation -/

/-- A call that has entered and not left may add an entry that neither
    commits nor emits. -/
theorem entryOk_ran {c : CallId} {w : World} {p : Progress} {t : Timestamp} (ev : Event)
    (hi : Inv calls throws w) (hp : progress c w.log = p) (hin : p.entered.isSome)
    (hout : p.left = false) (ht : w.clock ≤ t)
    (hev : (∃ o, ev = .ran o) ∨ (∃ b, ev = .asked b) ∨ ev = .left) :
    EntryOk calls throws w.log ⟨c, t, ev⟩ := by
  refine ⟨fun e he => Nat.le_trans (hi.times e he) ht, by rw [hp]; exact hout, ?_⟩
  rcases hev with ⟨o, rfl⟩ | ⟨b, rfl⟩ | rfl <;> simp only [hp] <;> exact hin

/-- An operation that changes no committed row. What is left to show of the
    statement are facts about its table. -/
theorem At.quiet {c : CallId} {w : World} {p : Progress} {g : Grip} {ev : Event} (w' : World)
    (g' : Grip) (hi : Inv calls throws w) (ha : At c p g w)
    (hlog : w'.log = ⟨c, w'.clock, ev⟩ :: w.log)
    (hev : ∀ ws, ev ≠ .committed ws) (hclock : w.clock ≤ w'.clock)
    (hok : EntryOk calls throws w.log ⟨c, w'.clock, ev⟩)
    (hdevices : w'.devices = w.devices) (husers : w'.users = w.users)
    (hcr : w'.requests.committed = w.requests.committed)
    (hcs : w'.sessions.committed = w.sessions.committed)
    (hdr : w'.requests.Distinct supportRequestIndexes)
    (hds : w'.sessions.Distinct remoteSessionIndexes)
    (hur : Table.Untouched (some c) w.requests w'.requests)
    (hus : Table.Untouched (some c) w.sessions w'.sessions)
    (hhr : w'.requests.Holds c g'.request) (hhs : w'.sessions.Holds c g'.session)
    (halone : g'.alone = true → ∃ h, g'.request = some h ∧
      ∀ k s, w.tables.sessions k = some s → s.supportRequestId ≠ h.key) :
    Inv calls throws w' ∧ Guar c w w' ∧ At c (p.add w.log ev) g' w' ∧ Saw c w w' := by
  have htables : w'.tables = w.tables := by
    simp only [World.tables, hcr, hcs]
  have hguar : Guar c w w' :=
    ⟨⟨_, rfl, rfl, hlog, fun ws hws => absurd hws (hev ws)⟩, hclock, hdevices, husers, hur, hus⟩
  -- An entry that is no commit leads to the same rows.
  have hi' : Inv calls throws w' := by
    refine hi.step hlog rfl hclock ?_ hok hdr hds
    rw [htables, hi.tables]
    cases ev with
    | committed ws => exact absurd rfl (hev ws)
    | _ => rfl
  refine ⟨hi', hguar, ⟨?_, hhr, hhs, ?_⟩, ⟨[], _, hlog, rfl, hev⟩, hclock, hguar.grows hi hi',
    hdevices, husers⟩
  · rw [hlog, progress_own (c := c) rfl, ha.progress]
  · rw [htables]
    exact halone

/-- An operation that changes no table. -/
theorem At.recorded {c : CallId} {w : World} {p : Progress} {g : Grip} {ev : Event}
    (hi : Inv calls throws w) (ha : At c p g w) (hev : ∀ ws, ev ≠ .committed ws)
    (hok : EntryOk calls throws w.log ⟨c, w.clock, ev⟩) :
    Inv calls throws (w.record c ev) ∧ Guar c w (w.record c ev) ∧
      At c (p.add w.log ev) g (w.record c ev) ∧ Saw c w (w.record c ev) :=
  ha.quiet _ _ hi rfl hev (Nat.le_refl _) hok rfl rfl rfl rfl hi.requestsDistinct
  hi.sessionsDistinct
    (.refl _ _) (.refl _ _) ha.requests ha.sessions ha.alone

/-- An operation that commits, with an explanation for what it commits. Afterwards
    the call holds nothing and the commit is part of its progress. -/
theorem At.commits {c : CallId} {w : World} {p : Progress} {g : Grip} (w' : World)
    (ws : Writes) (hi : Inv calls throws w) (ha : At c p g w)
    (hlog : w'.log = ⟨c, w.clock, .committed ws⟩ :: w.log) (hclock : w'.clock = w.clock)
    (hleft : p.left = false) (hmay : MayCommit (calls c) w.log p w.clock ws)
    (hdevices : w'.devices = w.devices) (husers : w'.users = w.users)
    (htables : w'.tables = w.tables.apply ws)
    (hdr : w'.requests.Distinct supportRequestIndexes)
    (hds : w'.sessions.Distinct remoteSessionIndexes)
    (hur : Table.Untouched (some c) w.requests w'.requests)
    (hus : Table.Untouched (some c) w.sessions w'.sessions)
    (hhr : w'.requests.Holds c none) (hhs : w'.sessions.Holds c none)
    (hopen : ∀ s ∈ ws.sessions, s.old = none →
      (w.requests.row s.new.supportRequestId).freeFor (some c) = true) :
    Inv calls throws w' ∧ Guar c w w' ∧ At c (p.add w.log (.committed ws)) Grip.free w' ∧
      Since (w.tables.apply ws) w' := by
  -- The commit is in order, because the call is open and has an explanation for it.
  have hok : EntryOk calls throws w.log ⟨c, w.clock, .committed ws⟩ :=
    ⟨fun e he => hi.times e he, by rw [ha.progress]; exact hleft, by rw [ha.progress]; exact hmay⟩
  have hguar : Guar c w w' := by
    refine ⟨⟨_, rfl, hclock.symm, hlog, fun ws' hws' => ?_⟩, Nat.le_of_eq hclock.symm, hdevices,
      husers, hur, hus⟩
    rw [Event.committed.injEq] at hws'
    rw [← hws']
    exact hopen
  have hi' : Inv calls throws w' := by
    refine hi.step hlog hclock.symm (Nat.le_of_eq hclock.symm) ?_ hok hdr hds
    rw [htables, hi.tables]
    rfl
  refine ⟨hi', hguar, ⟨?_, hhr, hhs, fun hc => ?_⟩, ?_⟩
  · rw [hlog, progress_own (c := c) rfl, ha.progress]
  · simp only [Grip.free, Bool.false_eq_true] at hc
  · rw [Since, htables]
    exact .refl _

/-! ## Programs, one step at a time -/

section Programs

variable {c : CallId} {p : Progress} {g : Grip} {K : World → Prop} {α : Type}
  {Q : α → World → Prop} {E : HttpException → World → Prop}

/-- A statement and what follows it. Before it the call knows `K`, and after
    it also what the statement left (`J`), both of which survive everything;
    and it knows what held at the moment the statement ran (`φ`). -/
theorem statement_then {o : Op} {k : Resp o → Service α} (p' : Resp o → World → Progress)
    (g' : Resp o → World → Grip) (φ : Resp o → World → Prop) (J : Resp o → World → World → Prop)
    (hK : (lifecycle calls throws).Persistent K)
    (hJ : ∀ r w₀, (lifecycle calls throws).Persistent (J r w₀))
    (hissue : ∀ w, Inv calls throws w → At c p g w → K w → Issue c o w)
    (hdoes : ∀ w, Inv calls throws w → At c p g w → K w → ∀ env r w',
      exec throws c env o w = some (r, w') →
      Inv calls throws w' ∧ Guar c w w' ∧ At c (p' r w) (g' r w) w' ∧ J r w w' ∧ φ r w)
    (hk : ∀ r w₀, Inv calls throws w₀ → At c p g w₀ → K w₀ → φ r w₀ →
      (lifecycle calls throws).Triple (exec throws) c
        (fun w => At c (p' r w₀) (g' r w₀) w ∧ J r w₀ w ∧ K w) (k r) Q E) :
    (lifecycle calls throws).Triple (exec throws) c (fun w => At c p g w ∧ K w)
      ((statement o).bind k) Q E := by
  -- The statement is sent only after a wait, so what is assumed of it has to be stable.
  refine .await (At.stable.and hK.stable) (.op
    (fun r w => ∃ w₀, (Inv calls throws w₀ ∧ At c p g w₀ ∧ K w₀ ∧ φ r w₀) ∧
      At c (p' r w₀) (g' r w₀) w ∧ J r w₀ w ∧ K w)
    (fun w hi hw => hissue w hi hw.1 hw.2) (fun w hi hw env r w' hexec => ?_) (fun r => ?_))
  · rcases hdoes w hi hw.1 hw.2 env r w' hexec with ⟨hi', hg, ha, hj, hφ⟩
    exact ⟨hi', hg, w, ⟨hi, hw.1, hw.2, hφ⟩, ha, hj, hK c w w' hi hi' hg hw.2⟩
  -- What has been seen is fixed now, and the call waits once more before it goes on.
  · refine .exists (fun w₀ => .pure (fun hw₀ => ?_))
    exact .await (At.stable.and ((hJ r w₀).stable.and hK.stable))
      (hk r w₀ hw₀.1 hw₀.2.1 hw₀.2.2.1 hw₀.2.2.2)

/-- What is answered at once, and what follows it in the same segment. -/
theorem ask_then {o : Op} {k : Resp o → Service α} (p' : Resp o → World → Progress)
    (φ : Resp o → World → Prop) (J : Resp o → World → World → Prop)
    (hK : (lifecycle calls throws).Persistent K)
    (hissue : ∀ w, Inv calls throws w → At c p g w → K w → Issue c o w)
    (hdoes : ∀ w, Inv calls throws w → At c p g w → K w → ∀ env r w',
      exec throws c env o w = some (r, w') →
      Inv calls throws w' ∧ Guar c w w' ∧ At c (p' r w) g w' ∧ J r w w' ∧ φ r w)
    (hk : ∀ r w₀, Inv calls throws w₀ → At c p g w₀ → K w₀ → φ r w₀ →
      (lifecycle calls throws).Triple (exec throws) c
        (fun w => At c (p' r w₀) g w ∧ J r w₀ w ∧ K w) (k r) Q E) :
    (lifecycle calls throws).Triple (exec throws) c (fun w => At c p g w ∧ K w)
      ((ask o).bind k) Q E := by
  refine .op (fun r w => ∃ w₀, (Inv calls throws w₀ ∧ At c p g w₀ ∧ K w₀ ∧ φ r w₀) ∧
      At c (p' r w₀) g w ∧ J r w₀ w ∧ K w)
    (fun w hi hw => hissue w hi hw.1 hw.2) (fun w hi hw env r w' hexec => ?_) (fun r => ?_)
  · rcases hdoes w hi hw.1 hw.2 env r w' hexec with ⟨hi', hg, ha, hj, hφ⟩
    exact ⟨hi', hg, w, ⟨hi, hw.1, hw.2, hφ⟩, ha, hj, hK c w w' hi hi' hg hw.2⟩
  · exact .exists (fun w₀ => .pure (fun hw₀ =>
      hk r w₀ hw₀.1 hw₀.2.1 hw₀.2.2.1 hw₀.2.2.2))

/-- A check of the source. Whoever fails it has a reason to. -/
theorem throwIf_then {reason : Bool} {e : HttpException} {k : Unit → Service α}
    {P : World → Prop} (hfail : reason = true → ∀ w, Inv calls throws w → P w → E e w)
    (hk : reason = false → (lifecycle calls throws).Triple (exec throws) c P (k ()) Q E) :
    (lifecycle calls throws).Triple (exec throws) c P ((throwIf reason e).bind k) Q E := by
  cases reason with
  | true => exact .throw (hfail rfl)
  | false => exact hk rfl

/-- A query for the row of an owner finds nothing iff the row is missing or
    someone else's. -/
theorem owned_eq_none {ρ β : Type} {row : Option ρ} {owns : ρ → Bool} {load : ρ → β} :
    (row.filter owns).map load = none ↔ ∀ x, row = some x → owns x = false := by
  simp only [Option.map_eq_none_iff, Option.filter_eq_none_iff, Bool.not_eq_true]

/-- A query for the row of an owner finds it if it is there and the owner's. -/
theorem owned_eq_some {ρ β : Type} {row : Option ρ} {owns : ρ → Bool} {load : ρ → β} {b : β} :
    (row.filter owns).map load = some b ↔ ∃ x, row = some x ∧ owns x = true ∧ load x = b := by
  simp only [Option.map_eq_some_iff, Option.filter_eq_some_iff, and_assoc]

/-- What a query has found, or the error. Whoever fails has found nothing. -/
theorem orFail_then {β : Type} {found : Option β} {e : HttpException} {k : β → Service α}
    {P : World → Prop} (hnone : found = none → ∀ w, Inv calls throws w → P w → E e w)
    (hk : ∀ b, found = some b → (lifecycle calls throws).Triple (exec throws) c P (k b) Q E) :
    (lifecycle calls throws).Triple (exec throws) c P ((orFail found e).bind k) Q E := by
  cases found with
  | none => exact .throw (hnone rfl)
  | some b => exact hk b rfl

/-- The call is between its beginning and its return. -/
def Progress.Open (p : Progress) : Prop := p.entered.isSome ∧ p.left = false

/-- A call that is working has begun and has not returned. -/
theorem working_open {before : List Entry} {asked : Option Bool} {written : Bool} :
    (working before asked written).Open := ⟨rfl, rfl⟩

/-- So has one that is announcing. -/
theorem announcing_open {before : List Entry} {asked : Option Bool} {ws : Writes}
    {emissions : List (Emission × Bool)} : (announcing before asked ws emissions).Open :=
  ⟨rfl, rfl⟩

/-- A statement that only reads. The answer is a function of the state it ran in,
    and nothing has changed. -/
theorem read_then {o : Op} {k : Resp o → Service α} {f : World → Resp o}
    (hp : p.Open) (hK : (lifecycle calls throws).Persistent K)
    (hissue : ∀ w, Issue c o w)
    (hexec : ∀ env w, exec throws c env o w = some (f w, w.record c (.ran o)))
    (hadd : ∀ l, p.add l (.ran o) = p)
    (hk : ∀ w₀, Inv calls throws w₀ → At c p g w₀ → K w₀ →
      (lifecycle calls throws).Triple (exec throws) c
        (fun w => At c p g w ∧ Saw c w₀ w ∧ K w) (k (f w₀)) Q E) :
    (lifecycle calls throws).Triple (exec throws) c (fun w => At c p g w ∧ K w)
      ((statement o).bind k) Q E := by
  refine statement_then (fun _ _ => p) (fun _ _ => g) (fun r w₀ => r = f w₀) (fun _ w₀ => Saw c w₀)
    hK (fun _ _ => Saw.persistent) (fun w _ _ _ => hissue w) (fun w hi ha _ env r w' hx => ?_)
    (fun r w₀ hi ha hk₀ hr => ?_)
  · rw [hexec, Option.some.injEq, Prod.mk.injEq] at hx
    rw [← hx.1, ← hx.2]
    rcases ha.recorded hi (fun ws hc => by simp only [reduceCtorEq] at hc)
      (entryOk_ran (.ran o) hi ha.progress hp.1 hp.2 (Nat.le_refl _) (.inl ⟨o, rfl⟩)) with
      ⟨hi', hg, ha', hsaw⟩
    rw [hadd] at ha'
    exact ⟨hi', hg, ha', hsaw, rfl⟩
  -- The answer belongs to the state that the call has seen.
  · rw [hr]
    exact hk w₀ hi ha hk₀

/-- `SELECT` of a request, whoever asks for it. -/
theorem findRequest_then {id : Uuid} {owner : Owner} {k : Option LoadedSupportRequest → Service α}
    (hp : p.Open) (hK : (lifecycle calls throws).Persistent K)
    (hk : ∀ w₀, Inv calls throws w₀ → At c p g w₀ → K w₀ →
      (lifecycle calls throws).Triple (exec throws) c (fun w => At c p g w ∧ Saw c w₀ w ∧ K w)
        (k (((w₀.tables.requests id).filter owner.ofRequest).map w₀.loadRequest)) Q E) :
    (lifecycle calls throws).Triple (exec throws) c (fun w => At c p g w ∧ K w)
      ((statement (.findRequest id owner)).bind k) Q E :=
  read_then (f := fun w => ((w.tables.requests id).filter owner.ofRequest).map w.loadRequest)
    hp hK (fun _ => trivial)
    (fun env w => by
      simp only [exec, Table.select, Table.auto_view]
      rfl)
    (fun _ => rfl) hk

/-- `SELECT` of a session, whoever asks for it. -/
theorem findSession_then {id : Uuid} {owner : Owner} {k : Option LoadedRemoteSession → Service α}
    (hp : p.Open) (hK : (lifecycle calls throws).Persistent K)
    (hk : ∀ w₀, Inv calls throws w₀ → At c p g w₀ → K w₀ →
      (lifecycle calls throws).Triple (exec throws) c (fun w => At c p g w ∧ Saw c w₀ w ∧ K w)
        (k (((w₀.tables.sessions id).filter owner.ofSession).map w₀.loadSession)) Q E) :
    (lifecycle calls throws).Triple (exec throws) c (fun w => At c p g w ∧ K w)
      ((statement (.findSession id owner)).bind k) Q E :=
  read_then (f := fun w => ((w.tables.sessions id).filter owner.ofSession).map w.loadSession)
    hp hK (fun _ => trivial)
    (fun env w => by
      simp only [exec, Table.select, Table.auto_view]
      rfl)
    (fun _ => rfl) hk

/-- `SELECT` of a device. -/
theorem findDevice_then {id : Uuid} {k : Device → Service α} (hp : p.Open)
    (hK : (lifecycle calls throws).Persistent K)
    (hk : ∀ w₀, Inv calls throws w₀ → At c p g w₀ → K w₀ →
      (lifecycle calls throws).Triple (exec throws) c (fun w => At c p g w ∧ Saw c w₀ w ∧ K w)
        (k (w₀.devices id)) Q E) :
    (lifecycle calls throws).Triple (exec throws) c (fun w => At c p g w ∧ K w)
      ((statement (.findDevice id)).bind k) Q E :=
  read_then (f := fun w => w.devices id) hp hK (fun _ => trivial) (fun _ _ => rfl)
    (fun _ => rfl) hk

end Programs

end RemoteControl

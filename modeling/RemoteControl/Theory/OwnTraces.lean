import RemoteControl.Concurrency.Traces
import RemoteControl.Theory.Linearizability

/-!
# What a Call has Done

The entries of a call in the history, as the trace of its program. A mark is
the history up to an entry of the call, so that it says what was asked and
when, and what the rows were.

The rows are the ones the history leads to, and a version of a session that a
transaction holds was put there by one of its own statements. Both hold of
every operation, whoever issues it (`exec_records`), so they hold of every
part of a history.

The trace of a call is what its program is proved about in the next modules.
An entry does not say enough for that: the answer of an operation depends on
the state. So a mark keeps the whole history up to the entry, which the rows
can be read off, and `Leaves` says that the operation was answered in a state
with that history.

## Main definitions

* `Records`: What an entry says of the rows.
* `Recorded`: What the history says of the rows.
* `marks`: The entries of a call.
* `Leaves`: An operation with its answer, and the history it leaves.

## Theorems

* `exec_records`: What an operation does to the rows.
* `marked`: The history holds the traces of the calls.
* `Reachable.traced`: The calls are where their traces lead to.
* `lockRequest_records`, `updateRequest_records`, `insertRequest_records`,
  `commit_records`: The operations on rows, one by one.
* `Recorded.step`, `init_recorded`: The history accounts for the rows, from
  the start on.
* `mem_marks`, `mark_suffix`: The marks of a call in a history.
-/

namespace RemoteControl

open Concurrency

variable {calls : CallId → Operation} {throws : CallId → Emitter → Bool} {c : CallId}

/-! ## One operation -/

/-- The version of the session is what the operation makes of it. -/
def Op.Writes (k : Uuid) (v : RemoteSession) : Op → Prop
  | .updateSession id _ changes => id = k ∧ ∃ s, v = changes.apply s
  | .insertSession draft => ∃ id createdAt, v = draft.toRow id createdAt
  | _ => False

/-- What an operation does to the rows, and the entry that says so. A version of a
    session that is new is noted as the statement that has put it there. -/
structure Records (c : CallId) (o : Op) (ev : Event) (w w' : World) : Prop where
  log : w'.log = ⟨c, w'.clock, ev⟩ :: w.log
  ran : ∀ o', ev = .ran o' → o' = o
  tables : w.tables = replay w.log → w'.tables = replay w'.log
  held : ∀ k u v, (w'.sessions.row k).held = some (u, some v) →
    (w.sessions.row k).held = some (u, some v) ∨ u = c ∧ ev = .ran o ∧ o.Writes k v
  committed : ∀ ws, ev = .committed ws → ∀ x ∈ ws.sessions,
    (w.sessions.row x.key).held = some (c, some x.new)

/-- An operation that is recorded as having run, and commits nothing. -/
theorem Records.ran_only {o : Op} {w w' : World} (hlog : w'.log = ⟨c, w'.clock, .ran o⟩ :: w.log)
    (htables : w'.tables = w.tables)
    (hheld : ∀ k u v, (w'.sessions.row k).held = some (u, some v) →
      (w.sessions.row k).held = some (u, some v) ∨ u = c ∧ o.Writes k v) :
    Records c o (.ran o) w w' where
  log := hlog
  ran := fun _ h => (Event.ran.inj h).symm
  tables := fun h => by
    -- The history leads to the same rows as before.
    rw [htables, h, hlog, replay_note (fun ws hc => by simp only [reduceCtorEq] at hc)]
  held := fun k u v h => (hheld k u v h).imp_right (fun hw => ⟨hw.1, rfl, hw.2⟩)
  committed := fun ws h => by simp only [reduceCtorEq] at h

/-- An operation that leaves the rows alone. -/
theorem Records.idle {o : Op} {ev : Event} {w w' : World}
    (hlog : w'.log = ⟨c, w'.clock, ev⟩ :: w.log) (hev : (∀ ws, ev ≠ .committed ws) ∧
      ∀ o', ev = .ran o' → o' = o) (hrequests : w'.requests = w.requests)
    (hsessions : w'.sessions = w.sessions) : Records c o ev w w' where
  log := hlog
  ran := hev.2
  tables := fun h => by
    rw [hlog, replay_note hev.1, ← h]
    simp only [World.tables, hrequests, hsessions]
  held := fun k u v h => .inl (by rw [← hsessions]; exact h)
  committed := fun ws h => absurd h (hev.1 ws)

/-- A statement of its own that commits one request. -/
theorem Records.request {o : Op} {id : Uuid} {row : SupportRequest} {w w' : World}
    (hlog : w'.log = ⟨c, w'.clock, .committed (requestWrites w.requests.committed id row)⟩ :: w.log)
    (hrequests : w'.requests.committed = applyWrites [⟨id, w.requests.committed id, row⟩]
      w.requests.committed) (hsessions : w'.sessions = w.sessions) :
    Records c o (.committed (requestWrites w.requests.committed id row)) w w' where
  log := hlog
  ran := fun _ h => by simp only [reduceCtorEq] at h
  tables := fun h => by
    rw [hlog]
    simp only [replay, ← h]
    simp only [World.tables, hrequests, hsessions, Tables.apply, requestWrites, applyWrites_nil]
  held := fun k u v h => .inl (by rw [← hsessions]; exact h)
  committed := fun ws h => by
    rw [← Event.committed.inj h]
    intro x hx
    simp only [requestWrites, List.not_mem_nil] at hx

section Operations

variable {env : Env} {w w' : World}

/-- A lock is not a version of the row. -/
theorem lockRequest_records {id : Uuid} {owner : Owner} {r : Option SupportRequest}
    (h : exec throws c env (.lockRequest id owner) w = some (r, w')) :
    ∃ ev, Records c (.lockRequest id owner) ev w w' := by
  rcases exec_lockRequest h with ⟨t, hlock, rfl⟩
  refine ⟨_, .ran_only rfl ?_ (fun _ _ _ hheld => .inl hheld)⟩
  simp only [World.tables, World.record, World.setRequests, (Table.lock_adds hlock).1]

/-- Likewise for a session: the lock puts no version there. -/
theorem lockSession_records {id : Uuid} {owner : Owner} {r : Option RemoteSession}
    (h : exec throws c env (.lockSession id owner) w = some (r, w')) :
    ∃ ev, Records c (.lockSession id owner) ev w w' := by
  rcases exec_lockSession h with ⟨t, hlock, rfl⟩
  refine ⟨_, .ran_only rfl ?_ (fun k u v hheld => ?_)⟩
  · simp only [World.tables, World.record, World.setSessions, (Table.lock_adds hlock).1]
  · exact ((Table.lock_adds hlock).2 k u v hheld).imp_right (fun hf => hf.2.2.elim)

/-- The version that is new is the one that the changes make of the row. -/
theorem updateSession_records {id : Uuid} {source : List RemoteSessionStatus}
    {changes : RemoteSessionChanges} {r : Bool}
    (h : exec throws c env (.updateSession id source changes) w = some (r, w')) :
    ∃ ev, Records c (.updateSession id source changes) ev w w' := by
  rcases exec_updateSession h with ⟨t, hupdate, rfl⟩
  refine ⟨_, .ran_only rfl ?_ (fun k u v hheld => ?_)⟩
  · simp only [World.tables, World.record, World.setSessions, (Table.update_adds hupdate).1]
  · rcases (Table.update_adds hupdate).2 k u v hheld with hold | ⟨hu, hk, hv⟩
    · exact .inl hold
    · exact .inr ⟨hu, hk.symm, hv⟩

/-- The version that is new is the row of the draft. -/
theorem insertSession_records {draft : RemoteSessionDraft}
    {r : Except QueryFailedError RemoteSession}
    (h : exec throws c env (.insertSession draft) w = some (r, w')) :
    ∃ ev, Records c (.insertSession draft) ev w w' := by
  -- Refused by an index, the statement has only been recorded.
  rcases exec_insertSession h with ⟨_, _, _, _, rfl⟩ | ⟨t, _, hinsert, rfl⟩
  · exact ⟨_, .ran_only rfl rfl (fun _ _ _ hheld => .inl hheld)⟩
  · refine ⟨_, .ran_only rfl ?_ (fun k u v hheld => ?_)⟩
    · simp only [World.tables, World.record, World.setSessions, (Table.insert_adds hinsert).1]
    · rcases (Table.insert_adds hinsert).2 k u v hheld with hold | ⟨hu, _, hv⟩
      · exact .inl hold
      · exact .inr ⟨hu, _, _, hv⟩

/-- A request is inserted outside of any transaction, and committed at once. -/
theorem insertRequest_records {draft : SupportRequestDraft}
    {r : Except QueryFailedError SupportRequest}
    (h : exec throws c env (.insertRequest draft) w = some (r, w')) :
    ∃ ev, Records c (.insertRequest draft) ev w w' := by
  rcases exec_insertRequest h with ⟨_, _, _, _, rfl⟩ | ⟨t, _, hinsert, rfl⟩
  · exact ⟨_, .ran_only rfl rfl (fun _ _ _ hheld => .inl hheld)⟩
  · rcases (Table.insert_auto_spec hinsert).2.2 rfl with ⟨hnone, hcommitted⟩
    refine ⟨_, .request rfl ?_ rfl⟩
    rw [hnone]
    exact hcommitted

/-- The update of a request is part of a transaction, or it is on its own and
    committed at once. -/
theorem updateRequest_records {m : Manager} {id : Uuid} {source : List SupportRequestStatus}
    {changes : SupportRequestTransition} {r : Bool}
    (h : exec throws c env (.updateRequest m id source changes) w = some (r, w')) :
    ∃ ev, Records c (.updateRequest m id source changes) ev w w' := by
  cases m with
  | entityManager =>
      rcases exec_updateRequest_held h with ⟨t, hupdate, rfl⟩
      refine ⟨_, .ran_only rfl ?_ (fun _ _ _ hheld => .inl hheld)⟩
      simp only [World.tables, World.record, World.setRequests, (Table.update_adds hupdate).1]
  | dataSource =>
      rcases exec_updateRequest_auto h with ⟨_, _, rfl⟩ | ⟨_, row, hrow, _, _, rfl⟩
      · exact ⟨_, .ran_only rfl rfl (fun _ _ _ hheld => .inl hheld)⟩
      · refine ⟨_, .request rfl ?_ rfl⟩
        rw [show w.requests.committed id = some row from hrow]
        exact Table.put_committed _ _ _ _

/-- What a commit writes are the versions its transaction holds. -/
theorem commit_records (h : exec throws c env .commit w = some ((), w')) :
    ∃ ev, Records c .commit ev w w' := by
  cases h
  refine ⟨_, rfl, fun _ hc => by simp only [reduceCtorEq] at hc, fun ht => ?_,
    fun k u v hheld => .inl (Table.held_of_commit hheld), fun ws hws x hx => ?_⟩
  · refine Eq.trans ?_ (congrArg (Tables.apply · (w.writes c)) ht)
    simp only [World.tables, World.record, World.setRequests, World.setSessions,
      Table.commit_committed, Tables.apply, World.writes]
  · rw [← Event.committed.inj hws] at hx
    exact Table.held_of_mem_writes hx

/-- A rollback takes versions away and puts none there. -/
theorem rollback_records (h : exec throws c env .rollback w = some ((), w')) :
    ∃ ev, Records c .rollback ev w w' := by
  cases h
  refine ⟨_, .ran_only rfl ?_ (fun k u v hheld => .inl (Table.held_of_rollback hheld))⟩
  simp only [World.tables, World.record, World.setRequests, World.setSessions,
    Table.rollback_committed]

/-- What an operation does to the rows, whoever issues it. -/
theorem exec_records {o : Op} {r : Resp o} (h : exec throws c env o w = some (r, w')) :
    ∃ ev, Records c o ev w w' := by
  cases o
  -- These have entries of their own.
  case enter | leave | isOnline | emit =>
    cases h
    exact ⟨_, .idle rfl ⟨fun _ hc => by simp only [reduceCtorEq] at hc,
      fun _ hc => by simp only [reduceCtorEq] at hc⟩ rfl rfl⟩
  case lockRequest => exact lockRequest_records h
  case lockSession => exact lockSession_records h
  case updateSession => exact updateSession_records h
  case insertSession => exact insertSession_records h
  case insertRequest => exact insertRequest_records h
  case updateRequest => exact updateRequest_records h
  case commit => exact commit_records h
  case rollback => exact rollback_records h
  -- What is left reads, or begins a transaction.
  all_goals
    cases h
    exact ⟨_, .idle rfl ⟨fun _ hc => by simp only [reduceCtorEq] at hc,
      fun _ hc => (Event.ran.inj hc).symm⟩ rfl rfl⟩

end Operations

/-! ## What the history says of the rows -/

/-- The version of the session was written by a statement of the call. -/
def WrittenBy (u : CallId) (k : Uuid) (v : RemoteSession) (l : List Entry) : Prop :=
  ∃ e l' o, e :: l' <:+ l ∧ e.call = u ∧ e.event = .ran o ∧ o.Writes k v

/-- The committed rows are the ones the history leads to, and what a
    transaction has written or committed was written by its own statements. -/
structure Recorded (w : World) : Prop where
  tables : w.tables = replay w.log
  held : ∀ k u v, (w.sessions.row k).held = some (u, some v) → WrittenBy u k v w.log
  committed : ∀ e l ws, e :: l <:+ w.log → e.event = .committed ws →
    ∀ x ∈ ws.sessions, WrittenBy e.call x.key x.new l

/-- It is still in a longer history. -/
theorem WrittenBy.of_suffix {u : CallId} {k : Uuid} {v : RemoteSession} {l l' : List Entry}
    (h : WrittenBy u k v l) (hl : l <:+ l') : WrittenBy u k v l' := by
  rcases h with ⟨e, l₁, o, hs, hrest⟩
  exact ⟨e, l₁, o, hs.trans hl, hrest⟩

/-- One operation. -/
theorem Recorded.step {o : Op} {ev : Event} {w w' : World} (h : Recorded w)
    (hrec : Records c o ev w w') : Recorded w' := by
  have hlonger : w.log <:+ w'.log := by
    rw [hrec.log]
    exact List.suffix_cons _ _
  refine ⟨hrec.tables h.tables, fun k u v hheld => ?_, fun e l ws hs he x hx => ?_⟩
  · rcases hrec.held k u v hheld with hold | ⟨hu, hev, hw⟩
    · exact (h.held k u v hold).of_suffix hlonger
    · refine ⟨⟨c, w'.clock, ev⟩, w.log, o, ?_, hu.symm, hev, hw⟩
      rw [hrec.log]
  · rw [hrec.log, List.suffix_cons_iff] at hs
    rcases hs with heq | hs
    · -- The transaction has just written what it commits.
      rw [List.cons.injEq] at heq
      rw [heq.1] at he
      rw [heq.1, heq.2]
      exact h.held x.key c x.new (hrec.committed ws he x hx)
    · exact h.committed e l ws hs he x hx

/-- In the beginning there are no rows. -/
theorem init_recorded (devices : Uuid → Device) (users : Uuid → User) (clock : Timestamp) :
    Recorded (World.init devices users clock) where
  tables := rfl
  held := fun k u v h => by simp only [World.init, Table.init, Row.empty, reduceCtorEq] at h
  committed := fun e l ws hs => by
    simp only [World.init, List.suffix_nil, reduceCtorEq] at hs

/-! ## The entries of a call -/

/-- The history up to each of the call's entries. -/
def marks (c : CallId) : List Entry → List (List Entry)
  | [] => []
  | e :: l => if e.call = c then (e :: l) :: marks c l else marks c l

/-- The newest entry is the call's own. -/
theorem marks_own {e : Entry} {l : List Entry} (h : e.call = c) :
    marks c (e :: l) = (e :: l) :: marks c l := by
  simp only [marks, if_pos h]

/-- The newest entry is another call's. -/
theorem marks_other {e : Entry} {l : List Entry} (h : e.call ≠ c) :
    marks c (e :: l) = marks c l := by
  simp only [marks, if_neg h]

/-- A longer history has more marks. -/
theorem marks_suffix {l l' : List Entry} (h : l <:+ l') : marks c l <:+ marks c l' := by
  induction l' with
  | nil =>
      rw [List.suffix_nil] at h
      rw [h]
  | cons e l' ih =>
      rw [List.suffix_cons_iff] at h
      rcases h with rfl | h
      · exact List.suffix_rfl
      · by_cases he : e.call = c
        · rw [marks_own he]
          exact (ih h).trans (List.suffix_cons _ _)
        · rw [marks_other he]
          exact ih h

/-- The marks before that of an entry are those of the history before it. -/
theorem mark_suffix {e : Entry} {l l' : List Entry} (h : e :: l <:+ l') (he : e.call = c) :
    (e :: l) :: marks c l <:+ marks c l' := by
  rw [← marks_own he]
  exact marks_suffix h

/-- The marks of a call are the histories up to its entries. -/
theorem mem_marks {l m : List Entry} :
    m ∈ marks c l ↔ ∃ e l', m = e :: l' ∧ e :: l' <:+ l ∧ e.call = c := by
  constructor
  · intro h
    induction l with
    | nil => simp only [marks, List.not_mem_nil] at h
    | cons a l ih =>
        have hrest : m ∈ marks c l → ∃ e l', m = e :: l' ∧ e :: l' <:+ a :: l ∧ e.call = c := by
          intro hm
          rcases ih hm with ⟨e, l', heq, hs, hc⟩
          exact ⟨e, l', heq, hs.trans (List.suffix_cons a l), hc⟩
        by_cases ha : a.call = c
        · rw [marks_own ha, List.mem_cons] at h
          rcases h with rfl | h
          · exact ⟨a, l, rfl, List.suffix_rfl, ha⟩
          · exact hrest h
        · rw [marks_other ha] at h
          exact hrest h
  · rintro ⟨e, l', rfl, hs, hc⟩
    exact (mark_suffix hs hc).subset List.mem_cons_self

/-- The operation, issued by the call and answered with `r`, has led to the
    history `m`. -/
def Leaves (throws : CallId → Emitter → Bool) (c : CallId) (o : Op) (r : Resp o)
    (m : List Entry) : Prop :=
  ∃ env w w', Recorded w ∧ exec throws c env o w = some (r, w') ∧ m = w'.log

/-- The history holds the traces of the calls. -/
theorem marked : Marked (exec throws) Recorded (Leaves throws) (fun c w => marks c w.log) where
  inv := by
    intro c env o w r w' hx hw
    rcases exec_records hx with ⟨ev, hrec⟩
    exact hw.step hrec
  own := by
    intro c env o w r w' hx hw
    rcases exec_records hx with ⟨ev, hrec⟩
    refine ⟨w'.log, ⟨env, w, w', hw, hx, rfl⟩, ?_⟩
    rw [hrec.log]
    exact marks_own rfl
  others := by
    intro c u env o w r w' hx hu
    rcases exec_records hx with ⟨ev, hrec⟩
    rw [hrec.log]
    exact marks_other (fun hc => hu hc.symm)

/-- The calls are where their traces lead to. -/
theorem Reachable.traced {ok : CallId → List (List Entry) → Op → Prop}
    {Q : CallId → List (List Entry) → Response → Prop}
    {E : CallId → List (List Entry) → HttpException → Prop} {sys : Calls}
    (h : Reachable calls throws sys)
    (hcalls : ∀ c, (handle (calls c)).Along (Leaves throws c) (ok c) (Q c) (E c) []) :
    Traced Recorded (Leaves throws) (fun c w => marks c w.log) ok Q E sys := by
  rcases h with ⟨devices, users, clock, hrun⟩
  exact (Traced.start (init_recorded devices users clock) (fun _ => rfl) hcalls).run marked hrun

end RemoteControl

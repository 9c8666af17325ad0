import RemoteControl.Concurrency.Alone
import RemoteControl.Theory.Deadlocks

/-!
# A Call That Runs Alone

The statements of the two services for a call that gets every turn. Nothing
moves but what the call moves itself, so the committed rows are known exactly
at every point of the program. `Here` says where the call stands: the rows, what its
transaction holds, and the time.

There is one rule for each statement, and no rule mentions a state. A rule
has one premise for each way the statement can turn out, in which the rows
decide what the way is.

A call that runs alone has to wait only for a call that held a row before it
began (`Impeded`), or for an identifier that is not a new one.

The rules say more than those of `Theory.Operations`, where the others may do
anything in between and only what has been seen can be carried along. Here the
answer of a statement is a function of the stage, so the continuation is asked
for that one answer, or for each of the two that the rows leave open.

Most of a proof is the same for every statement, and it is in
`lone_statement`: the call does not wait, since it holds what it needs and
nobody else holds anything, and after the statement it is at the next stage.
What is particular to a statement is what the table does (`Here.setRequests`,
`Here.setSessions`).

## Main definitions

* `Stage`, `Here`: Where a call stands.
* `Impeded`: The reasons to wait.
* `Lone`: The triples of a call that runs alone.
* `InHand`: What a transaction holds when its body ends.

## Theorems

* `lone_statement`, `lone_ask`: An operation and what follows it.
* `lone_lockRequest`, `lone_lockSession`: Locks.
* `lone_update`, `lone_updateHeld`, `lone_complete`: Updates of a request.
* `lone_closeSession`, `lone_updateSession`: Updates of a session.
* `lone_insertRequest`, `lone_insertSession`: Insertions.
* `lone_transaction`: Transactions.
* `Here.start`, `Here.record`, `Here.impeded`: Where a call begins, and why it
  might wait.
* `lone_findRequest`, `lone_findSession`, `lone_findDevice`: Queries.
* `lone_newDate`, `lone_isOnline`: The clock and the presence.
* `lone_emit`, `lone_logErrors`: Emissions.
* `lone_requestOrFail`, `lone_sessionOrFail`: Queries with their check.
-/

namespace RemoteControl

open Concurrency

/-- The committed rows, what the transaction holds, and the time. `new` says
    that no row has been inserted. -/
structure Stage where
  tables : Tables
  grip : Grip
  now : Timestamp
  new : Bool

/-- A call that runs alone from `w₀` on has come to this stage. -/
structure Here (c : CallId) (env : Env) (w₀ : World) (st : Stage) (w : World) : Prop where
  tables : w.tables = st.tables
  requests : w.requests.Holds c st.grip.request
  sessions : w.sessions.Holds c st.grip.session
  otherRequests : Table.Untouched (some c) w₀.requests w.requests
  otherSessions : Table.Untouched (some c) w₀.sessions w.sessions
  devices : w.devices = w₀.devices
  users : w.users = w₀.users
  clock : w.clock = st.now
  fresh : st.new = true → env.Fresh w₀ → env.Fresh w

/-- Another call holds a row, or the identifier for a new row is in use. -/
def Impeded (c : CallId) (env : Env) (w : World) : Prop :=
  (∃ d, d ≠ c ∧ Holding w d) ∨ ¬ env.Fresh w

/-- From this stage on, a call that runs alone ends in one of the two
    postconditions, unless it was impeded from the beginning. -/
abbrev Lone (throws : CallId → Emitter → Bool) (c : CallId) (env : Env) (w₀ : World) {α : Type}
    (st : Stage) (p : Service α) (Q : α → World → Prop) (E : HttpException → World → Prop) :
    Prop :=
  (Rules.alone (exec throws) c env (Impeded c env w₀)).Triple (always (exec throws) env) c
    (Here c env w₀ st) p Q E

variable {throws : CallId → Emitter → Bool} {c : CallId} {env : Env} {w₀ w w' : World}
  {st : Stage} {α : Type} {Q : α → World → Prop} {E : HttpException → World → Prop}

/-- A call that holds nothing is at the beginning. -/
theorem Here.start (hr : w₀.requests.Holds c none) (hs : w₀.sessions.Holds c none) :
    Here c env w₀ ⟨w₀.tables, .free, w₀.clock, true⟩ w₀ :=
  ⟨rfl, hr, hs, .refl _ _, .refl _ _, rfl, rfl, rfl, fun _ h => h⟩

/-- An entry moves the call no further. -/
theorem Here.record (h : Here c env w₀ st w) (ev : Event) :
    Here c env w₀ st (w.record c ev) :=
  ⟨h.tables, h.requests, h.sessions, h.otherRequests, h.otherSessions, h.devices, h.users,
    h.clock, h.fresh⟩

/-- Whatever has run, the identifier for a new row need not be free any more. -/
theorem Here.spent (h : Here c env w₀ st w) : Here c env w₀ { st with new := false } w :=
  { h with fresh := fun hc => absurd hc Bool.false_ne_true }

/-- The devices and the users are those of the beginning. -/
theorem Here.loadRequest (h : Here c env w₀ st w) : w.loadRequest = w₀.loadRequest := by
  funext r
  simp only [World.loadRequest, h.devices, h.users]

/-- So a session is shown as it would have been then. -/
theorem Here.loadSession (h : Here c env w₀ st w) : w.loadSession = w₀.loadSession := by
  funext s
  simp only [World.loadSession, h.devices, h.users]

/-- Who holds a row now, and is not the call, held it before. -/
theorem Here.holding (h : Here c env w₀ st w) {d : CallId} (hne : d ≠ c) (hd : Holding w d) :
    Holding w₀ d := by
  have hactor : some c ≠ some d := fun hc => hne (Option.some.inj hc).symm
  rcases hd with ⟨k, hk⟩ | ⟨k, hk⟩
  · refine .inl ⟨k, ?_⟩
    rw [← h.otherRequests k d hactor (.inr hk)]
    exact hk
  · refine .inr ⟨k, ?_⟩
    rw [← h.otherSessions k d hactor (.inr hk)]
    exact hk

/-- An operation has no answer only for one of the reasons to wait. -/
theorem Here.impeded {o : Op} (h : Here c env w₀ st w) (hnew : o.Inserts → st.new = true)
    (hself : ¬ Blocks c o w c) (hx : exec throws c env o w = none) : Impeded c env w₀ := by
  by_cases hfresh : env.Fresh w₀
  · rcases blocks_of_none (fun ho => h.fresh (hnew ho) hfresh) hx with ⟨d, hd⟩
    have hne : d ≠ c := by
      rintro rfl
      exact hself hd
    exact .inl ⟨d, hne, h.holding hne hd.holding⟩
  · exact .inr hfresh

/-! ## Operations -/

/-- A statement, and what follows it. -/
theorem lone_statement {o : Op} {k : Resp o → Service α} (st' : Resp o → Stage)
    (φ : Resp o → Prop) (hnew : o.Inserts → st.new = true)
    (hself : ∀ w, Here c env w₀ st w → ¬ Blocks c o w c)
    (hdoes : ∀ w, Here c env w₀ st w → ∀ r w', exec throws c env o w = some (r, w') →
      Here c env w₀ (st' r) w' ∧ φ r)
    (hk : ∀ r, φ r → Lone throws c env w₀ (st' r) (k r) Q E) :
    Lone throws c env w₀ st ((statement o).bind k) Q E := by
  -- A wait, then the statement, then another wait.
  refine alone_await (alone_op (fun r w => φ r ∧ Here c env w₀ (st' r) w)
    (fun w hw hx => hw.impeded hnew (hself w hw) hx) (fun w hw r w' hx => ?_)
    (fun r => .pure (fun hφ => alone_await (hk r hφ))))
  rcases hdoes w hw r w' hx with ⟨hhere, hφ⟩
  exact ⟨hφ, hhere⟩

/-- A statement that changes nothing and whose answer the stage determines. -/
theorem lone_read {o : Op} {k : Resp o → Service α} (f : Resp o) (ev : Event)
    (hexec : ∀ w, Here c env w₀ st w → exec throws c env o w = some (f, w.record c ev))
    (hk : Lone throws c env w₀ st (k f) Q E) :
    Lone throws c env w₀ st ((statement o).bind k) Q E := by
  refine alone_await (alone_op (fun r w => r = f ∧ Here c env w₀ st w) (fun w hw hx => ?_)
    (fun w hw r w' hx => ?_) (fun r => .pure (fun hr => ?_)))
  · rw [hexec w hw] at hx
    simp only [reduceCtorEq] at hx
  · rw [hexec w hw, Option.some.injEq, Prod.mk.injEq] at hx
    rw [← hx.1, ← hx.2]
    exact ⟨rfl, hw.record ev⟩
  · rw [hr]
    exact alone_await hk

/-- What is answered at once, and what follows it. -/
theorem lone_ask {o : Op} {k : Resp o → Service α} (st' : Stage) (f : Resp o) (w' : World → World)
    (hexec : ∀ w, Here c env w₀ st w → exec throws c env o w = some (f, w' w) ∧
      Here c env w₀ st' (w' w))
    (hk : Lone throws c env w₀ st' (k f) Q E) :
    Lone throws c env w₀ st ((ask o).bind k) Q E := by
  refine alone_op (fun r w => r = f ∧ Here c env w₀ st' w) (fun w hw hx => ?_)
    (fun w hw r w'' hx => ?_) (fun r => .pure (fun hr => ?_))
  · rw [(hexec w hw).1] at hx
    simp only [reduceCtorEq] at hx
  · rw [(hexec w hw).1, Option.some.injEq, Prod.mk.injEq] at hx
    rw [← hx.1, ← hx.2]
    exact ⟨rfl, (hexec w hw).2⟩
  · rw [hr]
    exact hk

/-- A check fails or lets the call go on. -/
theorem lone_throwIf {reason : Bool} {e : HttpException} {k : Unit → Service α}
    (hfail : reason = true → ∀ w, Here c env w₀ st w → E e w)
    (hk : reason = false → Lone throws c env w₀ st (k ()) Q E) :
    Lone throws c env w₀ st ((throwIf reason e).bind k) Q E := by
  cases reason with
  | true => exact .throw (fun w _ => hfail rfl w)
  | false => exact hk rfl

/-- What a query has found, or the error. -/
theorem lone_orFail {β : Type} {found : Option β} {e : HttpException} {k : β → Service α}
    (hnone : found = none → ∀ w, Here c env w₀ st w → E e w)
    (hk : ∀ b, found = some b → Lone throws c env w₀ st (k b) Q E) :
    Lone throws c env w₀ st ((orFail found e).bind k) Q E := by
  cases found with
  | none => exact .throw (fun w _ => hnone rfl w)
  | some b => exact hk b rfl

/-! ## Reads -/

/-- A query for a request, answered from the stage. -/
theorem lone_findRequest {id : Uuid} {owner : Owner}
    {k : Option LoadedSupportRequest → Service α}
    (hk : Lone throws c env w₀ st
      (k (((st.tables.requests id).filter owner.ofRequest).map w₀.loadRequest)) Q E) :
    Lone throws c env w₀ st ((statement (.findRequest id owner)).bind k) Q E := by
  refine lone_read _ (.ran (.findRequest id owner)) (fun w hw => ?_) hk
  rw [← hw.tables, ← hw.loadRequest]
  simp only [exec, Table.select, Table.auto_view]
  rfl

/-- A query for a session. -/
theorem lone_findSession {id : Uuid} {owner : Owner} {k : Option LoadedRemoteSession → Service α}
    (hk : Lone throws c env w₀ st
      (k (((st.tables.sessions id).filter owner.ofSession).map w₀.loadSession)) Q E) :
    Lone throws c env w₀ st ((statement (.findSession id owner)).bind k) Q E := by
  refine lone_read _ (.ran (.findSession id owner)) (fun w hw => ?_) hk
  rw [← hw.tables, ← hw.loadSession]
  simp only [exec, Table.select, Table.auto_view]
  rfl

/-- A query for a device. -/
theorem lone_findDevice {id : Uuid} {k : Device → Service α}
    (hk : Lone throws c env w₀ st (k (w₀.devices id)) Q E) :
    Lone throws c env w₀ st ((statement (.findDevice id)).bind k) Q E := by
  refine lone_read _ (.ran (.findDevice id)) (fun w hw => ?_) hk
  rw [← hw.devices]
  rfl

/-- Is there a live session? The transaction has written none. -/
theorem lone_existsLiveSession {whose : LiveSessionOf} {k : Bool → Service α}
    (hg : st.grip.session = none)
    (hk : ∀ found : Bool, (found = true ↔
      ∃ j s, st.tables.sessions j = some s ∧ whose.found s = true) →
      Lone throws c env w₀ st (k found) Q E) :
    Lone throws c env w₀ st ((statement (.existsLiveSession whose)).bind k) Q E := by
  refine lone_statement (fun _ => st) _ (fun h => h.elim) (fun w _ h => h.elim)
    (fun w hw found w' hx => ?_) hk
  simp only [exec] at hx
  cases hx
  -- No session is held, so the query sees what is committed.
  have hnone := hw.sessions
  rw [hg] at hnone
  refine ⟨hw.record _, ?_⟩
  simp only [Table.anyRow_iff, Table.holds_none_view hnone, ← hw.tables, World.tables]

/-- The clock is moved on by this turn, and read. -/
theorem lone_newDate {k : Timestamp → Service α}
    (hk : Lone throws c env w₀ { st with now := st.now + env.tick } (k (st.now + env.tick)) Q E) :
    Lone throws c env w₀ st (newDate.bind k) Q E := by
  refine lone_ask _ _
    (fun w => { w with clock := w.clock + env.tick }.record c (.ran .now)) (fun w hw => ?_) hk
  refine ⟨by rw [← hw.clock]; rfl, ?_⟩
  exact ⟨hw.tables, hw.requests, hw.sessions, hw.otherRequests, hw.otherSessions, hw.devices,
    hw.users, congrArg (· + env.tick) hw.clock, hw.fresh⟩

/-- The presence is that of the environment. -/
theorem lone_isOnline {deviceId : Uuid} {k : Bool → Service α}
    (hk : Lone throws c env w₀ st (k (env.online deviceId)) Q E) :
    Lone throws c env w₀ st ((isOnline deviceId).bind k) Q E :=
  lone_ask st _ (fun w => w.record c (.asked (env.online deviceId)))
    (fun _ hw => ⟨rfl, hw.record _⟩) hk

/-! ## Emissions -/

/-- An emission throws or does not, and that is known. -/
theorem lone_emit {e : Emission} {k : Unit → Service α}
    (hthrow : throws c e.emitter = true → ∀ w, Here c env w₀ st w → E .transportError w)
    (hk : throws c e.emitter = false → Lone throws c env w₀ st (k ()) Q E) :
    Lone throws c env w₀ st ((emit e).bind k) Q E := by
  have hshape : (emit e).bind k = (ask (.emit e)).bind
      (fun threw => (throwIf threw .transportError).bind k) := rfl
  rw [hshape]
  exact lone_ask st _ (fun w => w.record c (.emitted e (throws c e.emitter)))
    (fun _ hw => ⟨rfl, hw.record _⟩) (lone_throwIf hthrow hk)

/-- An emission whose error is caught. -/
theorem lone_logErrors {e : Emission} {k : Unit → Service α}
    (hk : Lone throws c env w₀ st (k ()) Q E) :
    Lone throws c env w₀ st ((logErrors (emit e)).bind k) Q E := by
  have hshape : (logErrors (emit e)).bind k = (ask (.emit e)).bind (fun _ => k ()) := by
    simp only [logErrors, emit, ask, Prog.request, Prog.bind_eq, Prog.op_bind, Prog.ret_bind,
      Prog.op_onError, Prog.op.injEq, heq_eq_eq, true_and]
    funext threw
    cases threw <;> rfl
  rw [hshape]
  exact lone_ask st _ (fun w => w.record c (.emitted e (throws c e.emitter)))
    (fun _ hw => ⟨rfl, hw.record _⟩) hk

/-! ## Locks -/

/-- A statement that changes the table of requests. Whether the new identifier is
    still free depends on whether the table has become longer. -/
theorem Here.setRequests {t : Table Uuid SupportRequest CallId} {st' : Stage}
    (h : Here c env w₀ st w) (ev : Event) (hu : Table.Untouched (some c) w.requests t)
    (htables : { st.tables with requests := t.committed } = st'.tables)
    (hh : t.Holds c st'.grip.request) (hs : st'.grip.session = st.grip.session)
    (hnow : st'.now = st.now) (hnew : st'.new = true → st.new = true ∧ t.dom = w.requests.dom) :
    Here c env w₀ st' ((w.setRequests t).record c ev) := by
  refine ⟨?_, hh, by rw [hs]; exact h.sessions, h.otherRequests.trans hu, h.otherSessions,
    h.devices, h.users, by rw [hnow]; exact h.clock, fun hc hfresh => ?_⟩
  · rw [← htables, ← h.tables]
    rfl
  · rcases hnew hc with ⟨hst, hdom⟩
    rcases h.fresh hst hfresh with ⟨hr, hs'⟩
    refine ⟨?_, hs'⟩
    change env.newId ∉ t.dom
    rw [hdom]
    exact hr

/-- A statement that changes the table of sessions. The committed sessions are the
    same, because only a commit changes them. -/
theorem Here.setSessions {t : Table Uuid RemoteSession CallId} {st' : Stage}
    (h : Here c env w₀ st w) (ev : Event) (hu : Table.Untouched (some c) w.sessions t)
    (hc : t.committed = w.sessions.committed) (htables : st'.tables = st.tables)
    (hh : t.Holds c st'.grip.session) (hr : st'.grip.request = st.grip.request)
    (hnow : st'.now = st.now) (hnew : st'.new = false) :
    Here c env w₀ st' ((w.setSessions t).record c ev) := by
  refine ⟨?_, by rw [hr]; exact h.requests, hh, h.otherRequests, h.otherSessions.trans hu,
    h.devices, h.users, by rw [hnow]; exact h.clock, fun hnew' => ?_⟩
  · rw [htables, ← h.tables]
    simp only [World.tables, World.setSessions, World.record, hc]
  · rw [hnew] at hnew'
    simp only [Bool.false_eq_true] at hnew'

/-- The committed requests are those of the stage. -/
theorem Here.requests_committed (h : Here c env w₀ st w) :
    w.requests.committed = st.tables.requests := by
  rw [← h.tables]
  rfl

/-- So are the sessions. -/
theorem Here.sessions_committed (h : Here c env w₀ st w) :
    w.sessions.committed = st.tables.sessions := by
  rw [← h.tables]
  rfl

variable {T : Tables} {now : Timestamp} {new : Bool}

/-- A lock finds a request of the owner and holds it, or finds none. -/
theorem lone_lockRequest {id : Uuid} {owner : Owner} {k : Option SupportRequest → Service α}
    (hnone : (∀ r, T.requests id = some r → owner.ofRequest r = false) →
      Lone throws c env w₀ ⟨T, .free, now, new⟩ (k none) Q E)
    (hsome : ∀ r, T.requests id = some r → owner.ofRequest r = true →
      Lone throws c env w₀ ⟨T, .ofRequest id r false, now, new⟩ (k (some r)) Q E) :
    Lone throws c env w₀ ⟨T, .free, now, new⟩ ((statement (.lockRequest id owner)).bind k) Q E := by
  refine lone_statement
    (fun res => ⟨T, res.elim .free (fun r => .ofRequest id r false), now, new⟩)
    (fun res => match res with
      | none => ∀ r, T.requests id = some r → owner.ofRequest r = false
      | some r => T.requests id = some r ∧ owner.ofRequest r = true)
    (fun h => h.elim) (fun w _ h => h.1 rfl) (fun w hw res w' hx => ?_) (fun res hφ => ?_)
  · rcases exec_lockRequest hx with ⟨t, hl, rfl⟩
    rcases Table.lock_spec hw.requests hl with ⟨hu, hc, hno, hyes⟩
    have htables : ({ T with requests := t.committed } : Tables) = T := by
      rw [hc, hw.requests_committed]
    cases res with
    | none =>
        rcases hno rfl with ⟨rfl, hnot⟩
        refine ⟨hw.setRequests _ hu htables hw.requests rfl rfl (fun hn => ⟨hn, rfl⟩), ?_⟩
        rw [hw.requests_committed] at hnot
        exact hnot
    -- Where the row was found, it is held from here on.
    | some r =>
        rcases hyes r rfl with ⟨hr, howner, _, ht, hh⟩
        -- A lock adds no row to the table.
        refine ⟨hw.setRequests _ hu htables hh rfl rfl (fun hn => ⟨hn, ?_⟩), ?_, howner⟩
        · rw [ht]
          exact Table.dom_set hr _
        · rw [← hw.requests_committed]
          exact hr
  · cases res with
    | none => exact hnone hφ
    | some r => exact hsome r hφ.1 hφ.2

/-- The same for a session. -/
theorem lone_lockSession {id : Uuid} {owner : Owner} {k : Option RemoteSession → Service α}
    (hnone : (∀ s, T.sessions id = some s → owner.ofSession s = false) →
      Lone throws c env w₀ ⟨T, .free, now, false⟩ (k none) Q E)
    (hsome : ∀ s, T.sessions id = some s → owner.ofSession s = true →
      Lone throws c env w₀ ⟨T, .ofSession id s, now, false⟩ (k (some s)) Q E) :
    Lone throws c env w₀ ⟨T, .free, now, new⟩ ((statement (.lockSession id owner)).bind k) Q E := by
  refine lone_statement
    (fun res => ⟨T, res.elim .free (fun s => .ofSession id s), now, false⟩)
    (fun res => match res with
      | none => ∀ s, T.sessions id = some s → owner.ofSession s = false
      | some s => T.sessions id = some s ∧ owner.ofSession s = true)
    (fun h => h.elim) (fun w _ h => h.1 rfl) (fun w hw res w' hx => ?_) (fun res hφ => ?_)
  · rcases exec_lockSession hx with ⟨t, hl, rfl⟩
    rcases Table.lock_spec hw.sessions hl with ⟨hu, hc, hno, hyes⟩
    cases res with
    | none =>
        rcases hno rfl with ⟨rfl, hnot⟩
        refine ⟨hw.setSessions _ hu hc rfl hw.sessions rfl rfl rfl, ?_⟩
        rw [hw.sessions_committed] at hnot
        exact hnot
    | some s =>
        rcases hyes s rfl with ⟨hs, howner, _, _, hh⟩
        refine ⟨hw.setSessions _ hu hc rfl hh rfl rfl rfl, ?_, howner⟩
        rw [← hw.sessions_committed]
        exact hs
  · cases res with
    | none => exact hnone hφ
    | some s => exact hsome s hφ.1 hφ.2

/-! ## Updates -/

/-- An update on its own, by a call that holds nothing. -/
theorem lone_update {id : Uuid} {source : List SupportRequestStatus}
    {changes : SupportRequestTransition} {k : Bool → Service α}
    (hfalse : (∀ r, T.requests id = some r → r.status ∉ source) →
      Lone throws c env w₀ ⟨T, .free, now, false⟩ (k false) Q E)
    (htrue : ∀ r, T.requests id = some r → r.status ∈ source →
      Lone throws c env w₀ ⟨T.apply (requestWrites T.requests id (changes.apply r)), .free, now,
        false⟩ (k true) Q E) :
    Lone throws c env w₀ ⟨T, .free, now, new⟩
      ((statement (.updateRequest .dataSource id source changes)).bind k) Q E := by
  refine lone_statement
    (fun (res : Bool) =>
      ⟨if res then T.apply (updateWrites T id changes) else T, .free, now, false⟩)
    (fun res => AnswersUpdate (fun r => r.status ∈ source) (T.requests id) res)
    (fun h => h.elim) (fun w hw h => hw.requests id h.2) (fun w hw res w' hx => ?_)
    (fun res hφ => ?_)
  · rcases exec_updateRequest_auto hx with ⟨rfl, hnone, rfl⟩ | ⟨rfl, r, hr, hsrc, hheld, rfl⟩
    · rw [hw.tables] at hnone
      refine ⟨?_, hnone⟩
      exact (hw.record _).spent
    · rw [hw.tables] at hr
      -- Outside of a transaction: nobody holds the row, and the write is committed at once.
      have hfree : (w.requests.row id).freeFor none = true := by
        simp only [Row.freeFor, hheld]
      have hu := Table.put_untouched (v := changes.apply r) hfree
      refine ⟨hw.setRequests _ (hu.auto _) ?_ (Table.Holds.frame (h := none) hw.requests hu ?_) rfl
        rfl (fun hc => by simp only [Bool.false_eq_true] at hc), r, hr, hsrc⟩
      · simp only [if_true, updateWrites_some hr, Tables.apply, requestWrites, applyWrites_nil,
          Table.put_committed _ id (T.requests id), hw.requests_committed]
      · simp only [ne_eq, reduceCtorEq, not_false_eq_true]
  · cases res with
    | false => exact hfalse hφ
    | true =>
        rcases hφ with ⟨r, hr, hsrc⟩
        have hnext := htrue r hr hsrc
        rw [← updateWrites_some hr] at hnext
        exact hnext

/-- An update of the request in hand. It cannot miss, since the row is the one
    that was locked. -/
theorem lone_updateHeld {id : Uuid} {source : List SupportRequestStatus}
    {changes : SupportRequestTransition} {k : Bool → Service α} {r : SupportRequest} {alone : Bool}
    (hsrc : r.status ∈ source)
    (htrue : Lone throws c env w₀ ⟨T, .wroteRequest id r (changes.apply r) alone, now, false⟩
      (k true) Q E) :
    Lone throws c env w₀ ⟨T, .ofRequest id r alone, now, new⟩
      ((statement (.updateRequest .entityManager id source changes)).bind k) Q E := by
  refine lone_statement (fun _ => ⟨T, .wroteRequest id r (changes.apply r) alone, now, false⟩)
    (fun res => res = true) (fun h => h.elim) (fun w _ h => h.1 rfl) (fun w hw res w' hx => ?_)
    (fun res hφ => ?_)
  · rcases exec_updateRequest_held hx with ⟨t, hup, rfl⟩
    rcases Table.update_held_spec hw.requests rfl hup with ⟨hu, hc, hres, _, hyes⟩
    rw [decide_eq_true hsrc] at hres
    refine ⟨hw.setRequests _ hu ?_ (hyes hres).2 rfl rfl
      (fun hc => by simp only [Bool.false_eq_true] at hc), hres⟩
    rw [hc, hw.requests_committed]
  · subst hφ
    exact htrue

/-- An update of a request with a session in hand. -/
theorem lone_complete {sid id : Uuid} {s row : RemoteSession} {source : List SupportRequestStatus}
    {changes : SupportRequestTransition} {k : Bool → Service α} {r : SupportRequest}
    (hr : T.requests id = some r) (hsrc : r.status ∈ source)
    (htrue : Lone throws c env w₀ ⟨T, .wroteBoth sid s row id r (changes.apply r), now, false⟩
      (k true) Q E) :
    Lone throws c env w₀ ⟨T, .wroteSession sid s row, now, new⟩
      ((statement (.updateRequest .entityManager id source changes)).bind k) Q E := by
  refine lone_statement (fun _ => ⟨T, .wroteBoth sid s row id r (changes.apply r), now, false⟩)
    (fun res => res = true) (fun h => h.elim) (fun w _ h => h.1 rfl) (fun w hw res w' hx => ?_)
    (fun res hφ => ?_)
  · rcases exec_updateRequest_held hx with ⟨t, hup, rfl⟩
    rcases Table.update_free_spec hw.requests hup with ⟨hu, hc, hno, hyes⟩
    rw [hw.requests_committed] at hno hyes
    cases res with
    -- The row is there and has one of the statuses, so the update finds it.
    | false => exact absurd hsrc (of_decide_eq_false ((hno rfl).2 r hr))
    | true =>
        rcases hyes rfl with ⟨r', hr', _, _, _, hh⟩
        have heq : r' = r := Option.some.inj (hr'.symm.trans hr)
        subst heq
        refine ⟨hw.setRequests _ hu ?_ hh rfl rfl
          (fun hc => by simp only [Bool.false_eq_true] at hc), rfl⟩
        rw [hc, hw.requests_committed]
  · subst hφ
    exact htrue

/-- An update of a session by a transaction that holds nothing. It hits or misses
    according to the status of the row. -/
theorem lone_closeSession {id : Uuid} {source : List RemoteSessionStatus}
    {changes : RemoteSessionChanges} {k : Bool → Service α}
    (hfalse : (∀ s, T.sessions id = some s → s.status ∉ source) →
      Lone throws c env w₀ ⟨T, .free, now, false⟩ (k false) Q E)
    (htrue : ∀ s, T.sessions id = some s → s.status ∈ source →
      Lone throws c env w₀ ⟨T, .wroteSession id s (changes.apply s), now, false⟩ (k true) Q E) :
    Lone throws c env w₀ ⟨T, .free, now, new⟩
      ((statement (.updateSession id source changes)).bind k) Q E := by
  refine lone_statement
    (fun (res : Bool) => ⟨T, if res then .ofUpdate id changes (T.sessions id) else .free, now,
      false⟩)
    (fun res => AnswersUpdate (fun s => s.status ∈ source) (T.sessions id) res)
    (fun h => h.elim) (fun w _ h => h.1 rfl) (fun w hw res w' hx => ?_) (fun res hφ => ?_)
  · rcases exec_updateSession hx with ⟨t, hup, rfl⟩
    rcases Table.update_free_spec hw.sessions hup with ⟨hu, hc, hno, hyes⟩
    rw [hw.sessions_committed] at hno hyes
    cases res with
    | false =>
        rcases hno rfl with ⟨rfl, hnot⟩
        exact ⟨hw.setSessions _ hu hc rfl hw.sessions rfl rfl rfl,
          fun s hs => of_decide_eq_false (hnot s hs)⟩
    | true =>
        rcases hyes rfl with ⟨s, hs, hsrc, _, _, hh⟩
        have hgrip : Grip.ofUpdate id changes (T.sessions id) =
            .wroteSession id s (changes.apply s) := by
          rw [hs]
          rfl
        refine ⟨?_, s, hs, of_decide_eq_true hsrc⟩
        simp only [if_true, hgrip]
        exact hw.setSessions _ hu hc rfl hh rfl rfl rfl
  · cases res with
    | false => exact hfalse hφ
    | true =>
        rcases hφ with ⟨s, hs, hsrc⟩
        simp only [if_true, Grip.ofUpdate, hs, Option.elim_some]
        exact htrue s hs hsrc

/-- An update of the session in hand. -/
theorem lone_updateSession {id : Uuid} {source : List RemoteSessionStatus}
    {changes : RemoteSessionChanges} {k : Bool → Service α} {s : RemoteSession}
    (hsrc : s.status ∈ source)
    (htrue : Lone throws c env w₀ ⟨T, .wroteSession id s (changes.apply s), now, false⟩
      (k true) Q E) :
    Lone throws c env w₀ ⟨T, .ofSession id s, now, new⟩
      ((statement (.updateSession id source changes)).bind k) Q E := by
  refine lone_statement (fun _ => ⟨T, .wroteSession id s (changes.apply s), now, false⟩)
    (fun res => res = true) (fun h => h.elim) (fun w _ h => h.1 rfl) (fun w hw res w' hx => ?_)
    (fun res hφ => ?_)
  · rcases exec_updateSession hx with ⟨t, hup, rfl⟩
    rcases Table.update_held_spec hw.sessions rfl hup with ⟨hu, hc, hres, _, hyes⟩
    rw [decide_eq_true hsrc] at hres
    exact ⟨hw.setSessions _ hu hc rfl (hyes hres).2 rfl rfl rfl, hres⟩
  · subst hφ
    exact htrue

/-! ## Insertions -/

/-- The insertion of a request. -/
theorem lone_insertRequest {deviceId : Uuid}
    {k : Except QueryFailedError SupportRequest → Service α}
    (herror : ∀ name, (∃ j r, T.requests j = some r ∧ r.deviceId = deviceId ∧ r.isActive = true) →
      Lone throws c env w₀ ⟨T, .free, now, false⟩ (k (.error ⟨uniqueViolation, name⟩)) Q E)
    (hok : T.requests env.newId = none →
      (∀ j r, T.requests j = some r → r.deviceId = deviceId → r.isActive = false) →
      Lone throws c env w₀ ⟨T.apply (requestWrites T.requests env.newId
        (newRequest deviceId env.newId env.createdAt)), .free, now, false⟩
        (k (.ok (newRequest deviceId env.newId env.createdAt))) Q E) :
    Lone throws c env w₀ ⟨T, .free, now, true⟩
      ((statement (.insertRequest (requestDraft deviceId))).bind k) Q E := by
  refine lone_statement
    (fun (res : Except QueryFailedError SupportRequest) => ⟨match res with
      | .error _ => T
      | .ok row => T.apply (requestWrites T.requests env.newId row), .free, now, false⟩)
    (fun (res : Except QueryFailedError SupportRequest) => match res with
      | .error e => (∃ name, e = ⟨uniqueViolation, name⟩) ∧
          ∃ j r, T.requests j = some r ∧ r.deviceId = deviceId ∧ r.isActive = true
      | .ok row => row = newRequest deviceId env.newId env.createdAt ∧
          T.requests env.newId = none ∧
          ∀ j r, T.requests j = some r → r.deviceId = deviceId → r.isActive = false)
    (fun _ => rfl) (fun w hw hb => ?_) (fun w hw res w' hx => ?_) (fun res hφ => ?_)
  -- To wait here, another call would have to hold a version of a row.
  · rcases hb with ⟨_, _, j, v, _, _, hheld, _⟩
    exact hw.requests j ⟨_, hheld⟩
  · rcases exec_insertRequest hx with ⟨name, t, rfl, hins, rfl⟩ | ⟨t, rfl, hins, rfl⟩
    -- The row clashes with a committed one.
    · rcases Table.insert_auto_spec hins with ⟨_, herr, _⟩
      rcases herr name rfl with ⟨_, i, hmem, _, j, r, hr, hclash⟩
      rw [hw.requests_committed] at hr
      refine ⟨?_, ⟨name, rfl⟩, j, r, hr, (clash_requestDraft hmem).mp hclash⟩
      exact (hw.record _).spent
    · rcases Table.insert_auto_spec hins with ⟨hu, _, hok'⟩
      rcases hok' rfl with ⟨hfresh, hcommitted⟩
      -- The row went in, so no request of the device is active.
      have hone := fun j r => no_active_request (j := j) (r := r) hins
      rw [hw.requests_committed] at hfresh hcommitted hone
      have hnone : T.requests env.newId = none := hfresh
      refine ⟨hw.setRequests _ (hu.auto _) ?_ (Table.Holds.frame (h := none) hw.requests hu ?_) rfl
        rfl (fun hc => by simp only [Bool.false_eq_true] at hc), rfl, hfresh, hone⟩
      · simp only [hcommitted, Tables.apply, requestWrites, applyWrites_nil, hnone]
      · simp only [ne_eq, reduceCtorEq, not_false_eq_true]
  · cases res with
    | error e =>
        rcases hφ with ⟨⟨name, rfl⟩, hex⟩
        exact herror name hex
    | ok row =>
        rcases hφ with ⟨rfl, hfresh, hone⟩
        exact hok hfresh hone

/-- The insertion of a session that clashes with none. -/
theorem lone_insertSession {id technicianId : Uuid} {r : SupportRequest} {alone : Bool}
    {k : Except QueryFailedError RemoteSession → Service α}
    (hno : ∀ i ∈ remoteSessionIndexes, ∀ j s, T.sessions j = some s →
      i.clash ((sessionDraft r technicianId).toRow env.newId env.createdAt) s = false)
    (hok : T.sessions env.newId = none →
      Lone throws c env w₀ ⟨T, .opened id r (newSession r technicianId env.newId env.createdAt),
        now, false⟩ (k (.ok (newSession r technicianId env.newId env.createdAt))) Q E) :
    Lone throws c env w₀ ⟨T, .ofRequest id r alone, now, true⟩
      ((statement (.insertSession (sessionDraft r technicianId))).bind k) Q E := by
  refine lone_statement
    (fun _ => ⟨T, .opened id r (newSession r technicianId env.newId env.createdAt), now, false⟩)
    (fun (res : Except QueryFailedError RemoteSession) =>
      res = .ok (newSession r technicianId env.newId env.createdAt) ∧ T.sessions env.newId = none)
    (fun _ => rfl) (fun w hw hb => ?_) (fun w hw res w' hx => ?_) (fun res hφ => ?_)
  · rcases hb with ⟨_, _, _, _, _, hne, _⟩
    exact hne rfl
  · rcases exec_insertSession hx with ⟨name, t, rfl, hins, rfl⟩ | ⟨t, rfl, hins, rfl⟩
    · rcases Table.insert_spec hw.sessions hins with ⟨_, _, herr, _⟩
      rcases herr name rfl with ⟨_, i, hmem, _, j, s, hs, hclash⟩
      rw [hw.sessions_committed] at hs
      -- The index that refuses the row would have found a clash.
      rw [hno i hmem j s hs] at hclash
      simp only [Bool.false_eq_true] at hclash
    · rcases Table.insert_spec hw.sessions hins with ⟨hu, hc, _, hok'⟩
      rcases hok' rfl with ⟨hfresh, hh⟩
      rw [hw.sessions_committed] at hfresh
      exact ⟨hw.setSessions _ hu hc rfl hh rfl rfl rfl, rfl, hfresh⟩
  · rcases hφ with ⟨rfl, hfresh⟩
    exact hok hfresh

/-! ## Transactions -/

variable {g : Grip}

/-- What was held is let go. -/
theorem lone_rollback {k : Unit → Service α}
    (hk : Lone throws c env w₀ ⟨T, .free, now, false⟩ (k ()) Q E) :
    Lone throws c env w₀ ⟨T, g, now, new⟩ ((statement .rollback).bind k) Q E := by
  refine lone_statement (fun _ => ⟨T, .free, now, false⟩) (fun _ => True) (fun h => h.elim)
    (fun w _ h => h.elim) (fun w hw r w' hx => ?_) (fun _ _ => hk)
  simp only [exec] at hx
  cases hx
  rcases Table.rollback_spec w.requests c with ⟨hur, hhr, hcr⟩
  rcases Table.rollback_spec w.sessions c with ⟨hus, hhs, hcs⟩
  refine ⟨⟨?_, hhr, hhs, hw.otherRequests.trans hur, hw.otherSessions.trans hus, hw.devices,
    hw.users, hw.clock, fun hc => by simp only [Bool.false_eq_true] at hc⟩, trivial⟩
  rw [← hw.tables]
  simp only [World.tables, World.record, World.setRequests, World.setSessions, hcr, hcs]

/-- What was held is committed. -/
theorem lone_commit {k : Unit → Service α}
    (hk : Lone throws c env w₀ ⟨T.apply g.writes, .free, now, false⟩ (k ()) Q E) :
    Lone throws c env w₀ ⟨T, g, now, new⟩ ((statement .commit).bind k) Q E := by
  refine lone_statement (fun _ => ⟨T.apply g.writes, .free, now, false⟩) (fun _ => True)
    (fun h => h.elim) (fun w _ h => h.elim) (fun w hw r w' hx => ?_) (fun _ _ => hk)
  simp only [exec] at hx
  cases hx
  rcases Table.commit_spec hw.requests with ⟨hur, hhr, hcr⟩
  rcases Table.commit_spec hw.sessions with ⟨hus, hhs, hcs⟩
  refine ⟨⟨?_, hhr, hhs, hw.otherRequests.trans hur, hw.otherSessions.trans hus, hw.devices,
    hw.users, hw.clock, fun hc => by simp only [Bool.false_eq_true] at hc⟩, trivial⟩
  rw [hw.requests_committed] at hcr
  rw [hw.sessions_committed] at hcs
  simp only [World.tables, World.record, World.setRequests, World.setSessions, hcr, hcs]
  rfl

/-- The transaction has committed nothing, and holds what `φ` says. -/
def InHand (c : CallId) (env : Env) (w₀ : World) (T : Tables) (φ : Grip → Timestamp → Prop)
    (w : World) : Prop :=
  ∃ g t n, φ g t ∧ Here c env w₀ ⟨T, g, t, n⟩ w

/-- A transaction around a program that ends with something in hand, or with an
    error. The error of the body is thrown again after the rollback. -/
theorem lone_transaction {β : Type} {body : Service β} {k : β → Service α}
    (R : β → Grip → Timestamp → Prop) (B : HttpException → Prop)
    (hbody : Lone throws c env w₀ ⟨T, .free, now, new⟩ body
      (fun b => InHand c env w₀ T (R b)) (fun e => InHand c env w₀ T (fun _ _ => B e)))
    (herror : ∀ e t w, B e → Here c env w₀ ⟨T, .free, t, false⟩ w → E e w)
    (hk : ∀ b g t, R b g t →
      Lone throws c env w₀ ⟨T.apply g.writes, .free, t, false⟩ (k b) Q E) :
    Lone throws c env w₀ ⟨T, .free, now, new⟩ ((transaction body).bind k) Q E := by
  rw [transaction_bind]
  refine lone_read () (.ran .begin) (fun w _ => rfl) ((hbody.onError (fun e => ?_)).bind
    (fun b => ?_))
  · exact .exists (fun g => .exists (fun t => .exists (fun n => .pure (fun hb =>
      lone_rollback (.throw (fun w _ => herror e t w hb))))))
  · exact .exists (fun g => .exists (fun t => .exists (fun n => .pure (fun hr =>
      lone_commit (hk b g t hr)))))

/-! ## Rows that have to be there -/

/-- A value computed from the result. -/
theorem lone_map {β : Type} {p : Service α} {f : α → β} {Q : β → World → Prop}
    (h : Lone throws c env w₀ st p (fun a => Q (f a)) E) :
    Lone throws c env w₀ st (f <$> p) Q E :=
  h.bind (fun _ => .ret (fun _ _ hq => hq))

/-- A query for a request, or the error. -/
theorem lone_requestOrFail {id : Uuid} {owner : Owner} {e : HttpException}
    {k : LoadedSupportRequest → Service α}
    (hnone : (∀ r, st.tables.requests id = some r → owner.ofRequest r = false) →
      ∀ w, Here c env w₀ st w → E e w)
    (hk : ∀ r, st.tables.requests id = some r → owner.ofRequest r = true →
      Lone throws c env w₀ st (k (w₀.loadRequest r)) Q E) :
    Lone throws c env w₀ st
      (((statement (.findRequest id owner)).bind (fun found => orFail found e)).bind k) Q E := by
  rw [Prog.bind_assoc]
  refine lone_findRequest (lone_orFail (fun hmissing => hnone (owned_eq_none.mp hmissing))
    (fun b hfound => ?_))
  rcases owned_eq_some.mp hfound with ⟨r, hr, ho, rfl⟩
  exact hk r hr ho

/-- A query for a session, or the error. -/
theorem lone_sessionOrFail {id : Uuid} {owner : Owner} {e : HttpException}
    {k : LoadedRemoteSession → Service α}
    (hnone : (∀ s, st.tables.sessions id = some s → owner.ofSession s = false) →
      ∀ w, Here c env w₀ st w → E e w)
    (hk : ∀ s, st.tables.sessions id = some s → owner.ofSession s = true →
      Lone throws c env w₀ st (k (w₀.loadSession s)) Q E) :
    Lone throws c env w₀ st
      (((statement (.findSession id owner)).bind (fun found => orFail found e)).bind k) Q E := by
  rw [Prog.bind_assoc]
  refine lone_findSession (lone_orFail (fun hmissing => hnone (owned_eq_none.mp hmissing))
    (fun b hfound => ?_))
  rcases owned_eq_some.mp hfound with ⟨s, hs, ho, rfl⟩
  exact hk s hs ho

theorem lone_lockRequestOrFail {id : Uuid} {owner : Owner} {e : HttpException}
    {k : SupportRequest → Service α}
    (hnone : (∀ r, T.requests id = some r → owner.ofRequest r = false) →
      ∀ w, Here c env w₀ ⟨T, .free, now, new⟩ w → E e w)
    (hk : ∀ r, T.requests id = some r → owner.ofRequest r = true →
      Lone throws c env w₀ ⟨T, .ofRequest id r false, now, new⟩ (k r) Q E) :
    Lone throws c env w₀ ⟨T, .free, now, new⟩
      (((statement (.lockRequest id owner)).bind (fun found => orFail found e)).bind k) Q E := by
  rw [Prog.bind_assoc]
  exact lone_lockRequest (fun hno => .throw (fun w _ => hnone hno w)) hk

theorem lone_lockSessionOrFail {id : Uuid} {owner : Owner} {e : HttpException}
    {k : RemoteSession → Service α}
    (hnone : (∀ s, T.sessions id = some s → owner.ofSession s = false) →
      ∀ w, Here c env w₀ ⟨T, .free, now, false⟩ w → E e w)
    (hk : ∀ s, T.sessions id = some s → owner.ofSession s = true →
      Lone throws c env w₀ ⟨T, .ofSession id s, now, false⟩ (k s) Q E) :
    Lone throws c env w₀ ⟨T, .free, now, new⟩
      (((statement (.lockSession id owner)).bind (fun found => orFail found e)).bind k) Q E := by
  rw [Prog.bind_assoc]
  exact lone_lockSession (fun hno => .throw (fun w _ => hnone hno w)) hk

end RemoteControl

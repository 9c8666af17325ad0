import RemoteControl.Theory.ClosedSessions
import RemoteControl.Theory.Notifications

/-!
# Repeated Activations

Any number of activations of one session, repeated or at the same time, and
among any closures. They all lock the session first, and what becomes of a
call is settled there: if the session is still open, the call succeeds, and
if it has been closed, it fails.

Two things have to come together for that. What a call finds when it locks
the session is kept by its method until it returns or throws
(`Reachable.granted`, `Reachable.turnedAway`), because nobody else changes a
locked row. That the call locks only once, and that it updates the session
only after it found it connecting, is read off its own entries
(`InSequence`). So a call that has updated the session was not turned away.

The trace of a call is the list of its own entries, each with the history
before it, and `readings` picks out those of one kind. Of a trace it is enough
to remember what has been locked and what has been updated (`Acted`), because
all other operations of an activation are free (`Op.IsFree`): they are allowed
anywhere, and they do not change what is remembered.

The rest is about the commits. A session is activated by one commit only
(`Inv.activated_once`), since the second would find `connectedAt` filled. The
call that has made it is the `Transition`, and everything that is said of the
others follows from their having committed no session.

## Main definitions

* `InSequence`: What an activation may do next.
* `LockedInTime`: The call locked the session before it was closed.
* `Activations`: The activations of a session, taken together.
* `LockedVersion`: The version of the session that a lock has returned.
* `Acted`, `Op.IsFree`: What a call has locked and updated, and what does not
  matter for it.
* `MadeOn`, `ChangedNothing`: The session was there before the call, and the
  call has changed nothing.
* `Transition`: The call that has activated the session.

## Theorems

* `Reachable.locks_once`: A call locks one row.
* `Reachable.not_refused`: A call that has updated the session does not fail.
* `activations_idempotent`: What the activations of a session come to.
* `activateLocked_sequence`, `activation_sequence`: An activation keeps to its
  order.
* `Reachable.locked_committed`: What a call has locked was committed.
* `Reachable.goes_through`: A call that has updated the session returns.
* `Inv.activated_once`: A session is activated by one commit.
* `Reachable.not_failed`, `Reachable.already_closed`: When an activation
  fails, and with what.
* `Reachable.transition`: The call that has activated a session.
-/

namespace RemoteControl

open Concurrency Machine

variable {calls : CallId → Operation} {throws : CallId → Emitter → Bool} {c : CallId}

/-! ## The sequence of its steps -/

/-- An entry of the kind that is looked for is among the readings. -/
theorem readings_own {P : Op → Bool} {o : Op} {e : Entry} {l : List Entry}
    {tr : List (List Entry)} (he : e.event = .ran o) (ho : P o = true) :
    readings P ((e :: l) :: tr) = (e :: l) :: readings P tr := by
  rw [readings, List.filter_cons_of_pos]
  · rfl
  · rw [List.head?_cons, Option.any_some, he]
    exact ho

/-- The operation locks a session. -/
def Op.isLock : Op → Bool
  | .lockSession _ _ => true
  | _ => false

/-- It updates one. -/
def Op.isUpdate : Op → Bool
  | .updateSession _ _ _ => true
  | _ => false

/-- It undoes what the transaction has written. -/
def Op.isRollback : Op → Bool
  | .rollback => true
  | _ => false

/-- The version of the session that its lock has returned. -/
def LockedVersion (c : CallId) (id : Uuid) (owner : Owner) (l : List Entry) (s : RemoteSession) :
    Prop :=
  owner.ofSession s = true ∧ ((replay l).sessions id = some s ∨ WrittenBy c id s l)

/-- A lock leaves its entry, and what it returns is what the session is then,
    committed or written by the call itself. -/
theorem Leaves.lockSession {id : Uuid} {owner : Owner} {found : Option RemoteSession}
    {m : List Entry} (h : Leaves throws c (.lockSession id owner) found m) :
    ∃ e l, m = e :: l ∧ e.event = .ran (.lockSession id owner) ∧
      ∀ s, found = some s → LockedVersion c id owner l s := by
  rcases h with ⟨env, w, w', hw, hx, rfl⟩
  rcases exec_lockSession hx with ⟨t, hlock, rfl⟩
  refine ⟨_, w.log, rfl, rfl, fun s hs => ?_⟩
  subst hs
  rcases Table.lock_sees hlock with ⟨howner, hcommitted | hheld⟩
  · refine ⟨howner, .inl ?_⟩
    rw [← hw.tables]
    exact hcommitted
  · exact ⟨howner, .inr (hw.held id c s hheld)⟩

/-- The session is locked once, and updated once at most, after it was found
    connecting. No other operation that may have to wait is issued. -/
def InSequence (c : CallId) (id : Uuid) (tr : List (List Entry)) : Op → Prop
  | .lockSession _ _ => readings Op.isLock tr = [] ∧ readings Op.isUpdate tr = []
  | .updateSession id' _ _ => id' = id ∧ readings Op.isUpdate tr = [] ∧
      ∃ e l owner s, readings Op.isLock tr = [e :: l] ∧ e.event = .ran (.lockSession id owner) ∧
        LockedVersion c id owner l s ∧ s.status = .connecting
  | .lockRequest _ _ => False
  | .updateRequest _ _ _ _ => False
  | .insertRequest _ => False
  | .insertSession _ => False
  | _ => True

/-- After the update no operation has to wait. -/
theorem InSequence.answered {id : Uuid} {tr : List (List Entry)} {o : Op} {env : Env} (w : World)
    (h : InSequence c id tr o) (hupdated : readings Op.isUpdate tr ≠ []) :
    (exec throws c env o w).isSome := by
  cases o with
  | lockSession id' owner => exact absurd h.2 hupdated
  | updateSession id' source changes => exact absurd h.2.1 hupdated
  | lockRequest id' owner => exact h.elim
  | updateRequest m id' source changes => exact h.elim
  | insertRequest draft => exact h.elim
  | insertSession draft => exact h.elim
  | _ => rfl

/-- The operation is in sequence anywhere, and undoes nothing. -/
def Op.IsFree : Op → Prop
  | .enter => True
  | .leave => True
  | .now => True
  | .isOnline _ => True
  | .begin => True
  | .commit => True
  | .findDevice _ => True
  | .emit _ => True
  | _ => False

/-- What the call has locked and updated so far, and that it has undone
    nothing. -/
structure Acted (locked updated : List (List Entry)) (tr : List (List Entry)) : Prop where
  locked : readings Op.isLock tr = locked
  updated : readings Op.isUpdate tr = updated
  kept : readings Op.isRollback tr = []

section Programs

variable {α : Type} {id : Uuid} {tr locked updated : List (List Entry)}

/-- Such an operation changes nothing of what is remembered. -/
theorem Acted.free {o : Op} {r : Resp o} {m : List Entry} (h : Acted locked updated tr)
    (hm : Leaves throws c o r m) (ho : o.IsFree) : Acted locked updated (m :: tr) := by
  have hnone : o.isLock = false ∧ o.isUpdate = false ∧ o.isRollback = false := by
    cases o <;> first | exact ⟨rfl, rfl, rfl⟩ | exact ho.elim
  exact ⟨(readings_other hm hnone.1).trans h.locked,
    (readings_other hm hnone.2.1).trans h.updated, (readings_other hm hnone.2.2).trans h.kept⟩

/-- And it may be issued at any time. -/
theorem Op.IsFree.inSequence {o : Op} (h : o.IsFree) (tr : List (List Entry)) :
    InSequence c id tr o := by
  cases o <;> trivial

/-- So a program of such operations keeps what is remembered. -/
theorem free_along {p : Service α} (hp : p.Uses Op.IsFree) (h : Acted locked updated tr) :
    p.Along (Leaves throws c) (InSequence c id) (fun tr _ => Acted locked updated tr)
      (fun _ _ => True) tr :=
  (Prog.Along.uses hp (fun _ _ _ _ ho hm h => Acted.free h hm ho)
    (fun _ tr ho _ => ho.inSequence tr) h).conseq (fun _ _ h => h) (fun _ _ _ => trivial)

/-- A check issues nothing. -/
theorem throwIf_free (reason : Bool) (e : HttpException) : (throwIf reason e).Uses Op.IsFree := by
  cases reason <;> trivial

/-- The device is read. -/
theorem withRelations_free (s : RemoteSession) (user : User) :
    (RemoteSessionsService.withRelations s user).Uses Op.IsFree := ⟨trivial, fun _ => trivial⟩

/-- An event is emitted. -/
theorem emit_free (e : Emission) : (emit e).Uses Op.IsFree :=
  ⟨trivial, fun threw => throwIf_free threw _⟩

/-- The errors of it are caught. -/
theorem logErrors_free {body : Service Unit} (h : body.Uses Op.IsFree) :
    (logErrors body).Uses Op.IsFree := .onError h (fun _ => trivial)

/-- The transaction of an activation. The session is locked first, and it is
    updated only if it was found connecting. -/
theorem activateLocked_sequence (id : Uuid) (user : User) (h : Acted [] [] tr) :
    (RemoteSessionsService.activateLocked id user).Along (Leaves throws c) (InSequence c id)
      (fun tr _ => readings Op.isRollback tr = []) (fun _ _ => True) tr := by
  refine .bind (Q := fun tr s => ∃ e l owner, Acted [e :: l] [] tr ∧
    e.event = .ran (.lockSession id owner) ∧ LockedVersion c id owner l s) ?_
    (fun tr locked hl => ?_)
  -- The lock is the first reading that the call makes of the session.
  · refine ⟨⟨h.locked, h.updated⟩, fun r m hm => ?_⟩
    rcases hm.lockSession with ⟨e, l, rfl, he, hversion⟩
    rcases (r : Option RemoteSession) with _ | s
    · trivial
    · refine ⟨e, l, _, ⟨?_, (readings_other hm rfl).trans h.updated,
        (readings_other hm rfl).trans h.kept⟩, he, hversion s rfl⟩
      rw [readings_own he rfl, h.locked]
  rcases hl with ⟨e, l, owner, hacted, he, hversion⟩
  -- A closed session is refused before anything is updated.
  by_cases hclosed : locked.status = .closed
  · simp only [hclosed, decide_true]
    trivial
  simp only [decide_eq_false hclosed]
  refine Prog.Along.bind (free_along (throwIf_free false _) hacted) (fun tr _ hacted => ?_)
  split
  -- An active one is answered as it is, without an update.
  -- It reads the device of the session, and returns.
  · refine (free_along ?_ hacted).conseq (fun _ _ h => h.kept) (fun _ _ _ => trivial)
    exact Prog.Uses.bind (withRelations_free _ _) (fun _ => trivial)
  · rename_i hactive
    -- Neither closed nor active, so the update finds what was locked.
    have hconnecting : locked.status = .connecting := connecting_of_live hclosed hactive
    refine ⟨trivial, fun t m hm => ?_⟩
    have htold := hacted.free hm trivial
    refine ⟨⟨rfl, htold.updated, e, l, owner, locked, htold.locked, he, hversion, hconnecting⟩,
      fun activated m' hm' => ?_⟩
    have hkept := (readings_other (P := Op.isRollback) hm' rfl).trans htold.kept
    refine (free_along ?_ ⟨rfl, rfl, hkept⟩).conseq (fun _ _ h => h.kept) (fun _ _ _ => trivial)
    exact Prog.Uses.bind (p := .await (.ret activated)) trivial (fun _ =>
      Prog.Uses.bind (throwIf_free _ _) (fun _ =>
        Prog.Uses.bind (withRelations_free _ _) (fun _ => trivial)))

/-- An activation, from its beginning to its return. -/
theorem activation_sequence (id : Uuid) (user : User) :
    (handle (.activateByTechnician id user)).Along (Leaves throws c) (InSequence c id)
      (fun tr _ => readings Op.isRollback tr = []) (fun _ _ => True) [] := by
  -- Once the transaction is over, the call writes no session and rolls nothing back.
  have hrest : ∀ {β : Type} {p : Service β} {tr : List (List Entry)}, p.Uses Op.IsFree →
      readings Op.isRollback tr = [] → p.Along (Leaves throws c) (InSequence c id)
        (fun tr _ => readings Op.isRollback tr = []) (fun _ _ => True) tr :=
    fun hp h => (free_along hp ⟨rfl, rfl, h⟩).conseq (fun _ _ h => h.kept) (fun _ _ _ => trivial)
  have hlocked : ∀ {tr : List (List Entry)}, Acted [] [] tr →
      (transaction (RemoteSessionsService.activateLocked id user)).Along (Leaves throws c)
        (InSequence c id) (fun tr _ => readings Op.isRollback tr = []) (fun _ _ => True) tr := by
    intro tr h
    exact transaction_along (fun _ => ⟨trivial, trivial, trivial⟩)
      (fun _ _ hm => activateLocked_sequence id user (h.free hm trivial))
      (fun _ _ _ _ hkept hm => (readings_other hm rfl).trans hkept) (fun _ _ _ _ _ _ => trivial)
  have hactivate : ∀ {tr : List (List Entry)}, Acted [] [] tr →
      (RemoteSessionsService.activateByTechnician id user).Along (Leaves throws c)
        (InSequence c id) (fun tr _ => readings Op.isRollback tr = []) (fun _ _ => True) tr := by
    intro tr h
    refine (hlocked h).bind (fun tr result hkept => hrest ?_ hkept)
    -- Only the call that has made the transition tells the ends.
    rcases result with ⟨s, activated⟩
    cases activated with
    | false => exact ⟨trivial, fun _ => trivial⟩
    | true =>
        exact .bind (.bind (logErrors_free (emit_free _)) (fun _ => logErrors_free (emit_free _)))
          (fun _ => ⟨trivial, fun _ => trivial⟩)
  refine ⟨trivial, fun _ m hm => ?_⟩
  have hentered : Acted [] [] [m] := Acted.free (o := .enter) ⟨rfl, rfl, rfl⟩ hm trivial
  have hbody : (Operation.activateByTechnician id user).body.Along (Leaves throws c)
      (InSequence c id) (fun tr _ => readings Op.isRollback tr = []) (fun _ _ => True) [m] :=
    (hactivate hentered).bind (fun _ _ hkept => hkept)
  -- Whether the method fails or returns, what is left is the mark of the return.
  refine (hbody.onError (fun tr e _ => ?_)).bind (fun tr r hkept => ?_)
  · exact ⟨trivial, fun _ _ _ => trivial⟩
  · exact hrest (p := (ask .leave).bind _) ⟨trivial, fun _ => trivial⟩ hkept

end Programs

/-- In every reachable system, the activations are where their traces lead. -/
theorem Reachable.sequenced {sys : Calls} (h : Reachable calls throws sys) :
    Traced Recorded (Leaves throws) (fun c w => marks c w.log)
      (fun c tr o => ∀ id user, calls c = .activateByTechnician id user → InSequence c id tr o)
      (fun c tr _ => ∀ id user, calls c = .activateByTechnician id user →
        readings Op.isRollback tr = [])
      (fun _ _ _ => True) sys := by
  refine h.traced (fun c => ?_)
  by_cases hop : ∃ id user, calls c = .activateByTechnician id user
  · rcases hop with ⟨id, user, hop⟩
    rw [hop]
    refine ((activation_sequence id user).mono (fun _ _ ho id' user' heq => ?_)).conseq
      (fun _ _ hr _ _ _ => hr) (fun _ _ _ => trivial)
    cases heq
    exact ho
  -- The other operations are not asked for anything.
  · exact ((Prog.along_trivial _ _).mono
      (fun _ _ _ id user hc => absurd ⟨id, user, hc⟩ hop)).conseq
      (fun _ _ _ id user hc => absurd ⟨id, user, hc⟩ hop) (fun _ _ _ => trivial)

/-! ## One call -/

section Calls

variable {sys : Calls} {id : Uuid} {user : User}

/-- The operation of an entry was in sequence for its call. -/
theorem Reachable.inSequence (h : Reachable calls throws sys)
    (hop : calls c = .activateByTechnician id user) {e : Entry} {l : List Entry} {o : Op}
    (hs : e :: l <:+ sys.shared.log) (hc : e.call = c) (he : e.event = .ran o) :
    InSequence c id (marks c l) o := by
  rcases h.sequenced.trail c _ _ (mark_suffix hs hc) with ⟨o', r, hleaves, hok⟩
  rcases hleaves.entry with ⟨e', l', heq, _, hran⟩
  rw [List.cons.injEq] at heq
  rw [← heq.1] at hran
  rw [hran o he]
  exact hok id user hop

/-- An entry of the call, among its readings. -/
theorem mem_readings_of_suffix {P : Op → Bool} {e : Entry} {l log : List Entry} {o : Op}
    (hs : e :: l <:+ log) (hc : e.call = c) (he : e.event = .ran o) (ho : P o = true) :
    e :: l ∈ readings P (marks c log) :=
  mem_readings.mpr ⟨mem_marks.mpr ⟨e, l, rfl, hs, hc⟩, e, l, o, rfl, he, ho⟩

/-- An activation locks a session once. -/
theorem Reachable.locks_once (h : Reachable calls throws sys)
    (hop : calls c = .activateByTechnician id user) {e e' : Entry} {l l' : List Entry}
    {k k' : Uuid} {owner owner' : Owner} (hs : e :: l <:+ sys.shared.log)
    (hs' : e' :: l' <:+ sys.shared.log) (hc : e.call = c) (hc' : e'.call = c)
    (he : e.event = .ran (.lockSession k owner)) (he' : e'.event = .ran (.lockSession k' owner')) :
    e = e' ∧ l = l' := by
  -- Before its first lock a call has made no lock.
  have hfirst : ∀ {e e' : Entry} {l l' : List Entry} {k k' : Uuid} {owner owner' : Owner},
      e :: l <:+ l' → e' :: l' <:+ sys.shared.log → e.call = c → e'.call = c →
      e.event = .ran (.lockSession k owner) → e'.event = .ran (.lockSession k' owner') → False := by
    intro e e' l l' k k' owner owner' hlt hs' hc hc' he he'
    have hread := mem_readings_of_suffix (P := Op.isLock) hlt hc he rfl
    rw [(h.inSequence hop hs' hc' he').1] at hread
    simp only [List.not_mem_nil] at hread
  -- Of two locks one would be the first, and the other would have come after it.
  rcases suffix_order hs hs' with hlt | hlt | heq
  · exact (hfirst hlt hs' hc hc' he he').elim
  · exact (hfirst hlt hs hc' hc he' he).elim
  · exact heq

/-- An activation writes nothing before it locks the session. -/
theorem Reachable.locked_committed (h : Reachable calls throws sys)
    (hop : calls c = .activateByTechnician id user) {e : Entry} {l : List Entry} {owner : Owner}
    {s : RemoteSession} (hs : e :: l <:+ sys.shared.log) (hc : e.call = c)
    (he : e.event = .ran (.lockSession id owner)) (hversion : LockedVersion c id owner l s) :
    (replay l).sessions id = some s := by
  refine hversion.2.resolve_right (fun hwritten => ?_)
  rcases hwritten with ⟨e', l', o, hs', hc', he', hw⟩
  have hok := h.inSequence hop (hs'.trans ((List.suffix_cons e l).trans hs)) hc' he'
  cases o with
  | updateSession id' source changes =>
      -- It had locked the session before, and so would have locked it twice.
      rcases hok with ⟨_, _, e₁, l₁, _, _, hlocked, _⟩
      have hread : e₁ :: l₁ ∈ readings Op.isLock (marks c l') := by
        rw [hlocked]
        exact List.mem_singleton_self _
      rcases mem_readings.mp hread with ⟨hmark, _⟩
      have hmore := (marks_suffix ((List.suffix_cons e' l').trans hs')).subset hmark
      have hagain : e₁ :: l₁ ∈ readings Op.isLock (marks c l) :=
        mem_readings.mpr ⟨hmore, (mem_readings.mp hread).2⟩
      rw [(h.inSequence hop hs hc he).1] at hagain
      simp only [List.not_mem_nil] at hagain
  | insertSession draft => exact hok
  | _ => exact hw

/-- How an activation that has returned has found the session. -/
theorem Reachable.granted (h : Reachable calls throws sys)
    (hop : calls c = .activateByTechnician id user) {r : Response} (hr : sys.threads c = .ret r) :
    ∃ dto, r = .remoteSession dto ∧ ShowsActivated id dto sys.shared ∧
      LockedOpen c id user sys.shared := by
  refine (h.ends (c := c) (G := fun r w => ∃ dto, r = .remoteSession dto ∧
    ShowsActivated id dto w ∧ LockedOpen c id user w) (B := fun _ _ => True) (fun r => ?_)
    (fun _ _ _ _ _ _ _ h => h) (fun before w₁ hi₁ => ?_)).1 r hr
  -- What the answer shows is not taken back by the other calls.
  · intro d w w' hi hi' hg hshows
    rcases hshows with ⟨dto, hdto, hactive, hlocked⟩
    exact ⟨dto, hdto, ShowsActivated.persistent d w w' hi hi' hg hactive,
      LockedAs.persistent d w w' hi hi' hg hlocked⟩
  · rw [hop]
    refine ((activateByTechnician_spec hop).conseq (fun _ _ h => h) (fun _ _ _ h => h)
      (fun _ _ _ h => ⟨h.1, trivial⟩)).bind (fun dto => .ret (fun w _ hw => ?_))
    exact ⟨hw.1, dto, rfl, hw.2⟩

/-- How an activation that has failed has found the session. -/
theorem Reachable.turnedAway (h : Reachable calls throws sys)
    (hop : calls c = .activateByTechnician id user) {e : HttpException}
    (he : sys.threads c = .throw e) : TurnedAway c id user e sys.shared := by
  refine (h.ends (c := c) (G := fun _ _ => True) (B := TurnedAway c id user)
    (fun _ _ _ _ _ _ _ h => h) (fun e => TurnedAway.persistent) (fun before w₁ hi₁ => ?_)).2 e he
  rw [hop]
  exact ((activateByTechnician_spec hop).conseq (fun _ _ h => h) (fun _ _ _ h => h)
    (fun _ _ _ h => h)).bind (fun dto => .ret (fun w _ hw => ⟨hw.1, trivial⟩))

/-- A call that has updated the session does not fail: it found the session
    connecting when it locked it. -/
theorem Reachable.not_refused (h : Reachable calls throws sys)
    (hop : calls c = .activateByTechnician id user) {e : Entry} {l : List Entry} {k : Uuid}
    {source : List RemoteSessionStatus} {changes : RemoteSessionChanges}
    (hs : e :: l <:+ sys.shared.log) (hc : e.call = c)
    (he : e.event = .ran (.updateSession k source changes)) (error : HttpException) :
    sys.threads c ≠ .throw error := by
  intro hthrow
  rcases h.inSequence hop hs hc he with ⟨_, _, e₁, l₁, owner, s, hlocked, he₁, hversion, hst⟩
  -- The update was made under the lock, which found the session connecting.
  have hread : e₁ :: l₁ ∈ readings Op.isLock (marks c l) := by
    rw [hlocked]
    exact List.mem_singleton_self _
  rcases mem_marks.mp (mem_readings.mp hread).1 with ⟨e₂, l₂, heq, hs₁, hc₁⟩
  rw [← (List.cons.inj heq).1] at hs₁ hc₁
  rw [← (List.cons.inj heq).2] at hs₁
  have hs₁' := hs₁.trans ((List.suffix_cons e l).trans hs)
  have hrow := h.locked_committed hop hs₁' hc₁ he₁ hversion
  -- A refusal says that the lock has found no session, or a closed one.
  rcases h.turnedAway hop hthrow with ⟨_, e', l', hs', hc', he', hfound⟩ |
    ⟨_, e', l', hs', hc', he', s', hs₂, _, hclosed⟩
  · rcases h.locks_once hop hs₁' hs' hc₁ hc' he₁ he' with ⟨rfl, rfl⟩
    rw [he₁] at he'
    cases he'
    exact hfound s hrow (of_decide_eq_true hversion.1)
  · rcases h.locks_once hop hs₁' hs' hc₁ hc' he₁ he' with ⟨rfl, rfl⟩
    rw [hrow, Option.some.injEq] at hs₂
    subst hs₂
    rw [hst] at hclosed
    simp only [reduceCtorEq] at hclosed

/-- A call that has updated the session undoes nothing, need not wait any
    more, and returns. -/
theorem Reachable.goes_through (h : Reachable calls throws sys)
    (hop : calls c = .activateByTechnician id user) {e : Entry} {l : List Entry} {k : Uuid}
    {source : List RemoteSessionStatus} {changes : RemoteSessionChanges}
    (hs : e :: l <:+ sys.shared.log) (hc : e.call = c)
    (he : e.event = .ran (.updateSession k source changes)) :
    readings Op.isRollback (marks c sys.shared.log) = [] ∧
      ∃ sys' r, Run (exec throws) anyTurn sys sys' ∧ sys'.threads c = .ret r := by
  have hupdated : readings Op.isUpdate (marks c sys.shared.log) ≠ [] :=
    List.ne_nil_of_mem (mem_readings_of_suffix hs hc he rfl)
  have hmore : ∀ (m : List Entry) (tr : List (List Entry)), readings Op.isUpdate tr ≠ [] →
      readings Op.isUpdate (m :: tr) ≠ [] := by
    intro m tr htr hnil
    rw [readings, List.filter_cons] at hnil
    split at hnil
    · simp only [reduceCtorEq] at hnil
    · exact htr hnil
  -- After the update the call never waits, so it can be run to its end.
  rcases h.sequenced.finishes (t := c) marked
    (Env.mk 0 (fun _ => true) 0 0) hmore (fun tr o w htr ho => (ho id user hop).answered w htr)
    hupdated (h.sound.suspended c) with ⟨sys', result, hrun, hover⟩
  have h' := h.run hrun
  have hlog := h.log_suffix hrun
  cases result with
  | error error => exact (h'.not_refused hop (hs.trans hlog) hc he error hover).elim
  | ok r =>
      have hkept := h'.sequenced.along c
      rw [hover] at hkept
      refine ⟨List.eq_nil_iff_forall_not_mem.mpr (fun m hm => ?_), sys', r, hrun, hover⟩
      -- Rolled back now, the call would have rolled back at its end, too.
      have hlater : m ∈ readings Op.isRollback (marks c sys'.shared.log) :=
        mem_readings.mpr ⟨(marks_suffix hlog).subset (mem_readings.mp hm).1,
          (mem_readings.mp hm).2⟩
      rw [hkept id user hop] at hlater
      exact List.not_mem_nil hlater

end Calls

/-! ## All of them together -/

section Together

/-- The call locked the session before any closure of it was committed. -/
def LockedInTime (c : CallId) (id : Uuid) (log : List Entry) : Prop :=
  ∃ e l owner s, e :: l <:+ log ∧ e.call = c ∧ e.event = .ran (.lockSession id owner) ∧
    (replay l).sessions id = some s ∧ owner.ofSession s = true ∧
    ∀ e' l', e' :: l' <:+ l → ¬ CommitsSession id .closed e'

/-- The session was there when the call was made. -/
def MadeOn (c : CallId) (id : Uuid) (log : List Entry) : Prop :=
  ∃ before s, (progress c log).entered = some before ∧ (replay before).sessions id = some s

/-- The call has changed no row, and told nobody. -/
def ChangedNothing (c : CallId) (log : List Entry) : Prop :=
  ∀ e l, e :: l <:+ log → e.call = c →
    replay (e :: l) = replay l ∧ ∀ em threw, e.event ≠ .emitted em threw

/-- The call is the one that has activated the session and tells the two ends.
    It has returned, or can still return. -/
structure Transition (calls : CallId → Operation) (throws : CallId → Emitter → Bool) (sys : Calls)
    (id : Uuid) (s : RemoteSession) (c : CallId) : Prop where
  activation : ∃ user, calls c = .activateByTechnician id user ∧ user.id = s.technicianId
  activates : ActivatedBy c id sys.shared.log
  notFailed : ∀ e, sys.threads c ≠ .throw e
  returns : ∃ sys' r, Run (exec throws) anyTurn sys sys' ∧ sys'.threads c = .ret r
  notifies : ∀ r, sys.threads c = .ret r →
    (progress c sys.shared.log).emissions.map Prod.fst =
      [⟨.device s.deviceId, .remoteSessionActive id⟩,
        ⟨.technician s.technicianId, .remoteSessionActive id⟩]
  only : ∀ d user, calls d = .activateByTechnician id user → d ≠ c →
    ¬ ActivatedBy d id sys.shared.log ∧
    ∀ e l em threw, e :: l <:+ sys.shared.log → e.call = d → e.event ≠ .emitted em threw

/-- The activations of the session `id`, whose row is now `s`. -/
structure Activations (calls : CallId → Operation) (throws : CallId → Emitter → Bool)
    (sys : Calls) (id : Uuid) (s : RemoteSession) : Prop where
  answer : ∀ c user r, calls c = .activateByTechnician id user → sys.threads c = .ret r →
    ∃ dto t, r = .remoteSession dto ∧ dto.status = .active ∧ dto.connectedAt = some t ∧
      s.connectedAt = some t ∧ ∀ ok sys', Run (exec throws) ok sys sys' →
        ∃ s', sys'.shared.tables.sessions id = some s' ∧ s'.connectedAt = some t
  succeeds : ∀ c user, calls c = .activateByTechnician id user → Over sys c →
    ((∃ r, sys.threads c = .ret r) ↔ LockedInTime c id sys.shared.log)
  fails : ∀ c user e, calls c = .activateByTechnician id user → user.id = s.technicianId →
    MadeOn c id sys.shared.log → sys.threads c = .throw e →
    e = RemoteSessionsService.alreadyClosed id ∧ ChangedNothing c sys.shared.log
  once : (∃ c user r, calls c = .activateByTechnician id user ∧ sys.threads c = .ret r) →
    ∃ c, Transition calls throws sys id s c
  goesThrough : ∀ c user, calls c = .activateByTechnician id user → ∀ e l k source changes,
    e :: l <:+ sys.shared.log → e.call = c → e.event = .ran (.updateSession k source changes) →
    (∀ error, sys.threads c ≠ .throw error) ∧
    ∀ e' l', e' :: l' <:+ sys.shared.log → e'.call = c → e'.event ≠ .ran .rollback
  request : ∀ c user, calls c = .activateByTechnician id user → ∀ e l,
    e :: l <:+ sys.shared.log → e.call = c → (replay (e :: l)).requests = (replay l).requests

variable {sys : Calls} {id : Uuid} {user : User} {w : World}

/-- A session is closed when a closure of it has been committed. -/
theorem closed_iff_committed (hi : Inv calls throws w) {l : List Entry} (hl : l <:+ w.log)
    {s : RemoteSession} (hs : (replay l).sessions id = some s) :
    s.status = .closed ↔ ∃ e' l', e' :: l' <:+ l ∧ CommitsSession id .closed e' := by
  constructor
  · intro hclosed
    rcases commit_of_session hi hl hs with ⟨e, l', ws, x, hsuffix, he, hx, hk, rfl⟩
    exact ⟨e, l', hsuffix, ws, he, x, hx, hk, hclosed⟩
  · rintro ⟨e, l', hsuffix, ws, he, x, hx, rfl, hclosed⟩
    have hrow := (hi.written (hsuffix.trans hl) he).2 x hx
    -- From that commit on the row has not changed.
    have hfinal := closed_final hi hsuffix hl hrow hclosed
    rw [hs, Option.some.injEq] at hfinal
    rw [hfinal]
    exact hclosed

/-- What an activation commits is the activated session, and no request. -/
theorem Explains.activates {T : Tables} {t : Timestamp} {ws : Writes}
    (hx : Explains T t (.activateByTechnician id user) ws) :
    ws.requests = [] ∧ ∀ x ∈ ws.sessions, x.key = id ∧ x.new.status = .active ∧
      x.new.technicianId = user.id ∧ ws.sessions = [x] := by
  cases hx with
  | activated _ _ s hs hu hst =>
      refine ⟨rfl, fun x hmem => ?_⟩
      rw [sessionWrites, List.mem_singleton] at hmem
      subst hmem
      exact ⟨rfl, rfl, hu, rfl⟩
  | repeated _ _ s hs hu hst =>
      exact ⟨rfl, fun x hmem => absurd hmem List.not_mem_nil⟩

/-- A session is activated once. -/
theorem Inv.activated_once (hi : Inv calls throws w) {e e' : Entry} {l l' : List Entry}
    (hs : e :: l <:+ w.log) (hs' : e' :: l' <:+ w.log) (he : CommitsSession id .active e)
    (he' : CommitsSession id .active e') : e = e' := by
  have hfirst : ∀ {e e' : Entry} {l l' : List Entry}, e :: l <:+ l' → e' :: l' <:+ w.log →
      CommitsSession id .active e → CommitsSession id .active e' → False := by
    rintro e e' l l' hlt hlater ⟨ws, hcommit, x, hx, rfl, hst⟩ hagain
    have hfirst := hlt.trans ((List.suffix_cons e' l').trans hlater)
    have hrow := (hi.written hfirst hcommit).2 x hx
    -- The first of the two has filled in `connectedAt`, which the second finds empty.
    have hnone := (not_connected_before hi hrow hlt hlater hagain).1
    have hwf := (hi.past (e :: l) hfirst).sessionWellFormed x.key x.new hrow
    rw [RemoteSession.WellFormed, hst, hnone] at hwf
    simp only [Option.isSome_none, Bool.false_eq_true, false_and] at hwf
  rcases suffix_order hs hs' with hlt | hlt | heq
  · exact (hfirst hlt hs' he he').elim
  · exact (hfirst hlt hs he' he).elim
  · exact heq.1

/-- What a call has committed is its only commit. -/
theorem Reachable.committed_of_entry (h : Reachable calls throws sys) {e : Entry} {l : List Entry}
    {ws : Writes} (hs : e :: l <:+ sys.shared.log) (hc : e.call = c)
    (he : e.event = .committed ws) : (progress c sys.shared.log).committed = some ws := by
  rcases suffix_split hs with ⟨l₁, hlog⟩
  have hhist := h.inv.history
  rw [hlog] at hhist ⊢
  refine committed_kept hhist ?_
  rw [progress_own hc, he]
  rfl

/-- What a call announces it has committed. -/
theorem Reachable.committed_of_emitted (h : Reachable calls throws sys) {e : Entry}
    {l : List Entry} {em : Emission} {threw : Bool} (hs : e :: l <:+ sys.shared.log)
    (hc : e.call = c) (he : e.event = .emitted em threw) :
    ∃ ws, (progress c sys.shared.log).committed = some ws ∧ em ∈ announcements (calls c) ws := by
  have hev := (h.inv.history.suffix hs).1.event
  simp only [he, hc] at hev
  rcases hev with ⟨_, ws, hws, hmem⟩
  rcases committed_entry hws with ⟨e', l', hs', hc', he'⟩
  exact ⟨ws, h.committed_of_entry (hs'.trans ((List.suffix_cons e l).trans hs)) hc' he', hmem⟩

/-- What an activation has committed, and what explains it. -/
theorem Reachable.activation_commit (h : Reachable calls throws sys)
    (hop : calls c = .activateByTechnician id user) {ws : Writes}
    (hcommitted : (progress c sys.shared.log).committed = some ws) :
    ws.requests = [] ∧ ∀ x ∈ ws.sessions, x.key = id ∧ x.new.status = .active ∧
      x.new.technicianId = user.id ∧ ws.sessions = [x] := by
  rcases committed_entry hcommitted with ⟨e, l, hs, hc, he⟩
  rcases h.inv.explained hs he with ⟨_, t, hexplains⟩
  rw [hc, hop] at hexplains
  exact hexplains.activates

/-- An activation that has told somebody has activated the session. -/
theorem Reachable.activated_of_emitted (h : Reachable calls throws sys)
    (hop : calls c = .activateByTechnician id user) {e : Entry} {l : List Entry} {em : Emission}
    {threw : Bool} (hs : e :: l <:+ sys.shared.log) (hc : e.call = c)
    (he : e.event = .emitted em threw) : ActivatedBy c id sys.shared.log := by
  -- Only a call that has committed a session has anything to announce.
  rcases h.committed_of_emitted hs hc he with ⟨ws, hcommitted, hmem⟩
  rw [hop, announcements, List.mem_flatMap] at hmem
  rcases hmem with ⟨x, hx, _⟩
  rcases (h.activation_commit hop hcommitted).2 x hx with ⟨hk, hst, _, _⟩
  rcases committed_entry hcommitted with ⟨e', l', hs', hc', he'⟩
  exact ⟨e', l', hs', hc', ws, he', x, hx, hk, hst⟩

/-- An activation that has failed has changed nothing. -/
theorem Reachable.changed_nothing (h : Reachable calls throws sys)
    (hop : calls c = .activateByTechnician id user) {error : HttpException}
    (hthrow : sys.threads c = .throw error) : ChangedNothing c sys.shared.log := by
  -- An activation catches the errors of its emissions, so it fails before it commits.
  have hnone : (progress c sys.shared.log).committed = none := by
    rcases h.raised hthrow with ⟨before, a, n, hat, _⟩ | ⟨_, hleaks, _⟩
    · rw [hat.progress]
      rfl
    · rw [hop] at hleaks
      exact hleaks.elim
  intro e l hs hc
  refine ⟨replay_note (fun ws he => ?_), fun em threw he => ?_⟩
  · have hcommitted := h.committed_of_entry hs hc he
    rw [hnone] at hcommitted
    simp only [reduceCtorEq] at hcommitted
  · rcases h.committed_of_emitted hs hc he with ⟨ws, hcommitted, _⟩
    rw [hnone] at hcommitted
    simp only [reduceCtorEq] at hcommitted

/-- An activation that has returned locked the session in time. -/
theorem Reachable.locked_in_time (h : Reachable calls throws sys)
    (hop : calls c = .activateByTechnician id user) {r : Response} (hr : sys.threads c = .ret r) :
    LockedInTime c id sys.shared.log := by
  rcases h.granted hop hr with ⟨dto, _, _, e, l, hs, hc, he, s, hrow, howner, hopen⟩
  have hl := (List.suffix_cons e l).trans hs
  refine ⟨e, l, _, s, hs, hc, he, hrow, decide_eq_true howner, fun e' l' hs' hclosing => ?_⟩
  exact hopen ((closed_iff_committed h.inv hl hrow).mpr ⟨e', l', hs', hclosing⟩)

/-- An activation that locked the session in time has not failed. -/
theorem Reachable.not_failed (h : Reachable calls throws sys)
    (hop : calls c = .activateByTechnician id user) (hin : LockedInTime c id sys.shared.log)
    (error : HttpException) : sys.threads c ≠ .throw error := by
  intro hthrow
  rcases hin with ⟨e, l, owner, s, hs, hc, he, hrow, howner, hnone⟩
  have hl := (List.suffix_cons e l).trans hs
  rcases h.turnedAway hop hthrow with ⟨_, e', l', hs', hc', he', hmissing⟩ |
    ⟨_, e', l', hs', hc', he', s', hrow', _, hclosed⟩
  -- The lock that was in time is the only lock of the call.
  · rcases h.locks_once hop hs hs' hc hc' he he' with ⟨rfl, rfl⟩
    rw [he] at he'
    cases he'
    exact hmissing s hrow (of_decide_eq_true howner)
  · rcases h.locks_once hop hs hs' hc hc' he he' with ⟨rfl, rfl⟩
    rw [hrow, Option.some.injEq] at hrow'
    subst hrow'
    rcases (closed_iff_committed h.inv hl hrow).mp hclosed with ⟨e₁, l₁, hs₁, hclosing⟩
    exact hnone e₁ l₁ hs₁ hclosing

/-- An activation by the technician of a session that was there when the call
    was made fails because the session was closed. -/
theorem Reachable.already_closed (h : Reachable calls throws sys)
    (hop : calls c = .activateByTechnician id user) (hon : MadeOn c id sys.shared.log)
    {s : RemoteSession} (hs : sys.shared.tables.sessions id = some s)
    (howner : user.id = s.technicianId) {error : HttpException}
    (hthrow : sys.threads c = .throw error) :
    error = RemoteSessionsService.alreadyClosed id := by
  rcases h.turnedAway hop hthrow with ⟨_, e, l, hlock, hc, he, hmissing⟩ | ⟨hclosed, _⟩
  · -- The row was there before the call, and so it was when the call locked it.
    rcases hon with ⟨before, s₀, hentered, hs₀⟩
    rcases entered_of_entry (h.inv.history.suffix hlock) with ⟨before', hb, hbefore⟩
    rw [hc] at hb
    have hsame : before' = before := by
      rcases hlock with ⟨l₁, hlog⟩
      have hhist := h.inv.history
      rw [← hlog] at hhist hentered
      have hkept := entered_kept hhist hb
      rw [hentered, Option.some.injEq] at hkept
      exact hkept.symm
    subst hsame
    have hl := (List.suffix_cons e l).trans hlock
    rcases (h.inv.grows_between hbefore hl).sessions id s₀ hs₀ with ⟨s₁, hs₁, _⟩
    rcases (h.inv.grows_since hl).sessions id s₁ hs₁ with ⟨s₂, hs₂, hkeeps⟩
    rw [hs, Option.some.injEq] at hs₂
    subst hs₂
    exact (hmissing s₁ hs₁ (hkeeps.technicianId.symm.trans howner.symm)).elim
  · exact hclosed

/-- The call that has activated a session is its only activation to do so. -/
theorem Reachable.transition (h : Reachable calls throws sys) {s : RemoteSession}
    (hs : sys.shared.tables.sessions id = some s) (ha : ActivatedBy c id sys.shared.log) :
    Transition calls throws sys id s c := by
  have hi := h.inv
  have hunique : ∀ d, ActivatedBy d id sys.shared.log → d = c := by
    intro d hd
    rcases hd with ⟨e, l, he, hc, hactive⟩
    rcases ha with ⟨e', l', he', hc', hactive'⟩
    rw [← hc, ← hc', hi.activated_once he he' hactive hactive']
  rcases ha with ⟨e, l, hlog, hc, ws, he, x, hx, hk, hst⟩
  -- The row is kept by everything that follows its commit.
  have hcommitted := h.committed_of_entry hlog hc he
  have hkept := hi.kept_since hlog he hx
  rw [hk] at hkept
  rcases hkept with ⟨s', hs', hkeeps⟩
  rw [hs, Option.some.injEq] at hs'
  subst hs'
  have hop : ∃ user, calls c = .activateByTechnician id user := by
    rcases hi.explained hlog he with ⟨_, t, hexplains⟩
    rw [hc] at hexplains
    rcases hexplains.activation_of_active hx hst with ⟨user, _, hop, _⟩
    exact ⟨user, by rw [hop, hk]⟩
  rcases hop with ⟨user, hop⟩
  rcases (h.activation_commit hop hcommitted).2 x hx with ⟨_, _, howner, honly⟩
  -- What it has committed, it has written by its update of the session.
  rcases h.changes_traced.inv.committed e l ws hlog he x hx with ⟨e₁, l₁, o, hs₁, hc₁, he₁, hw⟩
  have hs₁' := hs₁.trans ((List.suffix_cons e l).trans hlog)
  rw [hc] at hc₁
  have hupdated : ∃ k source changes, e₁.event = .ran (.updateSession k source changes) := by
    cases o with
    | updateSession k source changes => exact ⟨k, source, changes, he₁⟩
    | insertSession draft => exact (h.inSequence hop hs₁' hc₁ he₁).elim
    | _ => exact hw.elim
  rcases hupdated with ⟨k, source, changes, he₁⟩
  refine ⟨⟨user, hop, howner.symm.trans hkeeps.technicianId.symm⟩,
    ⟨e, l, hlog, hc, ws, he, x, hx, hk, hst⟩, h.not_refused hop hs₁' hc₁ he₁,
    (h.goes_through hop hs₁' hc₁ he₁).2, fun r hr => ?_, fun d user' hd hne => ?_⟩
  -- Having returned, it has made both emissions.
  · rcases h.returned hr with ⟨_, before, a, ws', hat, _⟩
    rw [hat.progress] at hcommitted ⊢
    have hws : ws' = ws := Option.some.inj hcommitted
    rw [hkeeps.deviceId, hkeeps.technicianId, ← hk]
    simp only [Progress.gone, announcing, attempts, hws, hop, announcements, honly,
      List.flatMap_cons, List.flatMap_nil, List.append_nil, List.map_cons, List.map_nil]
  -- Nobody else has activated the session, and so nobody else has told of it.
  · refine ⟨fun hactivated => hne (hunique d hactivated), fun e' l' em threw hs' hc' he' => ?_⟩
    exact hne (hunique d (h.activated_of_emitted hd hs' hc' he'))

/-- The activations of a session, repeated or concurrent, and among any
    closures: they agree on the time of activation, which is the one in the
    row from then on; each of them succeeds if it locks the session before it
    is closed, and otherwise fails with a conflict and changes nothing; one of
    those that succeed has made the transition and tells the ends; none is
    refused at its update; and none of them touches the request. -/
theorem activations_idempotent (h : Reachable calls throws sys) {s : RemoteSession}
    (hs : sys.shared.tables.sessions id = some s) : Activations calls throws sys id s where
  answer := by
    intro c user r hop hr
    rcases h.granted hop hr with ⟨dto, hdto, ⟨hst, t, s', ht, hs', hat⟩, _⟩
    rw [hs, Option.some.injEq] at hs'
    subst hs'
    refine ⟨dto, t, hdto, hst, ht, hat, fun ok sys' hrun => ?_⟩
    -- A filled `connectedAt` is kept by everything that follows.
    have hgrows := (h.run hrun).inv.grows_since (h.log_suffix hrun)
    rw [← h.inv.tables] at hgrows
    rcases hgrows.sessions id s hs with ⟨s', hs', hkeeps⟩
    exact ⟨s', hs', hkeeps.connectedAt t hat⟩
  succeeds := by
    -- A call that is over has returned or failed, and which of the two is decided by
    -- its lock.
    intro c user hop hover
    refine ⟨fun ⟨r, hr⟩ => h.locked_in_time hop hr, fun hin => ?_⟩
    exact hover.resolve_right (fun ⟨e, he⟩ => h.not_failed hop hin e he)
  fails := fun c user e hop howner hon he =>
    ⟨h.already_closed hop hon hs howner he, h.changed_nothing hop he⟩
  once := by
    rintro ⟨c, user, r, hop, hr⟩
    rcases h.granted hop hr with ⟨dto, _, ⟨_, t, s', _, hs', hat⟩, _⟩
    rw [h.inv.tables] at hs'
    -- The time that the answer shows was stored by some activation.
    rcases activation_of_connectedAt h.inv List.suffix_rfl hs' hat with
      ⟨e, l, ws, x, hlog, he, hx, hk, hst, _⟩
    exact ⟨e.call, h.transition hs ⟨e, l, hlog, rfl, ws, he, x, hx, hk, hst⟩⟩
  goesThrough := by
    intro c user hop e l k source changes hlog hc he
    refine ⟨h.not_refused hop hlog hc he, fun e' l' hs' hc' he' => ?_⟩
    have hread := mem_readings_of_suffix (P := Op.isRollback) hs' hc' he' rfl
    rw [(h.goes_through hop hlog hc he).1] at hread
    exact List.not_mem_nil hread
  request := by
    intro c user hop e l hlog hc
    -- Only a commit changes the rows, and that of an activation has no request in it.
    cases he : e.event with
    | committed ws =>
        have hnone := (h.activation_commit hop (h.committed_of_entry hlog hc he)).1
        simp only [replay, he, Tables.apply, hnone, applyWrites_nil]
    | _ => simp only [replay, he]

/-- A technician who reports the session active again and again, and closes
    it in between. -/
def retrying : CallId → Operation
  | 0 => .createForDevice tablet
  | 1 => .assign 10 agent
  | 2 => .acceptByDevice 10 tablet
  | 3 => .create 10 agent
  | 5 => .closeByTechnician 20 agent
  | _ => .activateByTechnician 20 agent

/-- The second activation begins while the first one holds the session, and
    the third comes after the closure. -/
def retried : List (CallId × Env) :=
  opening ++ turns 4 4 0 ++ turns 6 3 0 ++ turns 4 7 0 ++ turns 6 6 0 ++ turns 5 11 0 ++ turns 7 7 0

/-- In that run the first two answer alike, and the third has changed
    nothing. -/
theorem activations_idempotent_retried : ∃ sys dto dto', Reachable retrying quiet sys ∧
    sys.threads 4 = .ret (.remoteSession dto) ∧ sys.threads 6 = .ret (.remoteSession dto') ∧
    dto.connectedAt = dto'.connectedAt ∧ (∃ s c, Transition retrying quiet sys 20 s c) ∧
    ChangedNothing 7 sys.shared.log := by
  have hrun : ((follow (exec quiet) (boot retrying (fun _ => tablet) (fun _ => agent) 0)
      retried).any (fun sys => (sys.threads 4).returned.isSome && (sys.threads 6).returned.isSome &&
        (sys.threads 7).thrown.isSome &&
        (sys.shared.tables.sessions 20).any (fun s => decide (s.technicianId = agent.id)) &&
        ((progress 7 sys.shared.log).entered.any
          (fun before => ((replay before).sessions 20).isSome)))) = true := by
    decide +kernel
  rcases reachable_of_follow hrun with ⟨sys, hsys, hp⟩
  simp only [Bool.and_eq_true, Option.isSome_iff_exists, Option.any_eq_true,
    Prog.returned_eq_some, Prog.thrown_eq_some, decide_eq_true_eq] at hp
  rcases hp with ⟨⟨⟨⟨⟨r, hr⟩, r', hr'⟩, e, he⟩, s, hs, howner⟩, before, hentered, s₀, hs₀⟩
  have hall := activations_idempotent hsys hs
  rcases hall.answer 4 agent r rfl hr with ⟨dto, t, rfl, _, hdto, hat, _⟩
  rcases hall.answer 6 agent r' rfl hr' with ⟨dto', t', rfl, _, hdto', hat', _⟩
  refine ⟨sys, dto, dto', hsys, hr, hr', ?_, ?_, ?_⟩
  · rw [hdto, hdto', ← hat, hat']
  · rcases hall.once ⟨4, agent, _, rfl, hr⟩ with ⟨c, hc⟩
    exact ⟨s, c, hc⟩
  · exact (hall.fails 7 agent e rfl howner.symm ⟨before, s₀, hentered, hs₀⟩ he).2

end Together

end RemoteControl

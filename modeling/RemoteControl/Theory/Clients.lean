import RemoteControl.Theory.Notifications

/-!
# Clients Stay Current

A client reads its requests and its session once and from then on only
listens. Is that enough? A device follows its own requests and sessions, a
technician those it was assigned, and all technicians together follow the
queue. Every commit that changes what somebody follows is either made by a
call of its own, whose answer says so, or announced to it
(`Explains.sameFor`). An announcement comes after its commit, so a client
that has read the rows and has heard nothing since still has them as they are.

Each commit has a lemma (`Uninvolved.created` and so on), with the hypothesis
that the recipient is not the caller and is not told. What makes them true is
in the announcements: a change of a request that a technician has goes to that
technician, a change of the queue to all technicians, and a change by one side
of a session to the other. A request has no technician as long as it waits, so
nobody else can be following it then.

## Main definitions

* `Recipient.Follows`, `Recipient.FollowsSession`: The rows a client shows.
* `Operation.caller`: Who gets the answer of a call.
* `SameFor`: What it shows is the same in two states of the tables.
* `Uninvolved`: The commit is not the recipient's own, and it is not told.

## Theorems

* `Explains.sameFor`: A commit that is neither its own nor announced to it.
* `Reachable.announced_later`: What a commit calls for is emitted after it.
* `clients_stay_current`: A client that has heard nothing is up to date.
* `sameFor_requestWrites`, `sameFor_sessionWrites`, `sameFor_closureWrites`:
  Changes of rows that are not followed.
* `sameFor_change`: A change of a request, by what it takes to follow it.
-/

namespace RemoteControl

open Concurrency Machine

variable {calls : CallId → Operation} {c : CallId}

/-! ## Who follows what -/

namespace Recipient

/-- A device and a technician follow the requests that are theirs, and all
    technicians the requests that wait. -/
def Follows (p : Recipient) (r : SupportRequest) : Prop :=
  match p with
  | .device id => r.deviceId = id
  | .technician id => r.technicianId = some id
  | .allTechnicians => r.status = .waiting

def FollowsSession (p : Recipient) (s : RemoteSession) : Prop :=
  match p with
  | .device id => s.deviceId = id
  | .technician id => s.technicianId = id
  | .allTechnicians => False

end Recipient

/-- Who gets the answer of a call. -/
def Operation.caller : Operation → Recipient
  | .createForDevice device => .device device.id
  | .assign _ technician => .technician technician.id
  | .acceptByDevice _ device => .device device.id
  | .rejectByDevice _ device => .device device.id
  | .cancelByDevice _ device => .device device.id
  | .create _ user => .technician user.id
  | .activateByTechnician _ user => .technician user.id
  | .closeByTechnician _ user => .technician user.id
  | .closeByDevice _ device => .device device.id

/-- The rows that the recipient follows are the same. -/
structure SameFor (p : Recipient) (T T' : Tables) : Prop where
  requests : ∀ k r, p.Follows r → (T.requests k = some r ↔ T'.requests k = some r)
  sessions : ∀ k s, p.FollowsSession s → (T.sessions k = some s ↔ T'.sessions k = some s)

/-- Nothing has changed. -/
theorem SameFor.refl (p : Recipient) (T : Tables) : SameFor p T T :=
  ⟨fun _ _ _ => Iff.rfl, fun _ _ _ => Iff.rfl⟩

/-- Two changes that leave the same rows. -/
theorem SameFor.trans {p : Recipient} {T₁ T₂ T₃ : Tables} (h : SameFor p T₁ T₂)
    (h' : SameFor p T₂ T₃) : SameFor p T₁ T₃ :=
  ⟨fun k r hr => (h.requests k r hr).trans (h'.requests k r hr),
    fun k s hs => (h.sessions k s hs).trans (h'.sessions k s hs)⟩

/-! ## One commit -/

section Commits

variable {T : Tables} {t : Timestamp} {op : Operation} {ws : Writes} {p : Recipient}

/-- A change of a request that the recipient does not follow, before or after. -/
theorem sameFor_requestWrites {id : Uuid} {row : SupportRequest} (hnew : ¬ p.Follows row)
    (hold : ∀ r, T.requests id = some r → ¬ p.Follows r) :
    SameFor p T (T.apply (requestWrites T.requests id row)) := by
  refine ⟨fun k r hr => ?_, fun k s _ => by rw [apply_requestWrites_sessions]⟩
  rw [apply_requestWrites]
  by_cases hk : id = k
  · rw [if_pos hk, Option.some.injEq, ← hk]
    exact ⟨fun h => absurd hr (hold r h), fun h => absurd (h ▸ hr) hnew⟩
  · rw [if_neg hk]

/-- A change of a session that the recipient does not follow, before or after. -/
theorem sameFor_sessionWrites {id : Uuid} {row : RemoteSession} (hnew : ¬ p.FollowsSession row)
    (hold : ∀ s, T.sessions id = some s → ¬ p.FollowsSession s) :
    SameFor p T (T.apply (sessionWrites T.sessions id row)) := by
  refine ⟨fun k r _ => by rw [apply_sessionWrites_requests], fun k s hs => ?_⟩
  rw [apply_sessionWrites]
  by_cases hk : id = k
  · rw [if_pos hk, Option.some.injEq, ← hk]
    exact ⟨fun h => absurd hs (hold s h), fun h => absurd (h ▸ hs) hnew⟩
  · rw [if_neg hk]

/-- A closure changes a session and its request, which have the same owners. -/
theorem sameFor_closureWrites {id : Uuid} {s : RemoteSession} {r : SupportRequest}
    {endedBy : RemoteSessionEndedBy} (hs : T.sessions id = some s)
    (hr : T.requests s.supportRequestId = some r) (hst : r.status = .accepted)
    (hd : r.deviceId = s.deviceId) (hu : r.technicianId = some s.technicianId)
    (hdevice : p ≠ .device s.deviceId) (htechnician : p ≠ .technician s.technicianId) :
    SameFor p T (T.apply (closureWrites T id s r t endedBy)) := by
  -- The request is accepted before and completed after, so it is in nobody's queue.
  have hfollows : ¬ p.Follows r ∧ ¬ p.Follows ((completion t).apply r) := by
    cases p with
    | device d =>
        have hne : ¬ s.deviceId = d := fun h => hdevice (by rw [h])
        simp only [Recipient.Follows, SupportRequestTransition.apply, completion, hd, hne,
          not_false_eq_true, and_self]
    | technician u =>
        have hne : ¬ s.technicianId = u := fun h => htechnician (by rw [h])
        simp [Recipient.Follows, SupportRequestTransition.apply, completion, hu, hne]
    | allTechnicians =>
        simp only [Recipient.Follows, SupportRequestTransition.apply, completion, hst,
          reduceCtorEq, not_false_eq_true, and_self]
  -- A session stays with its device and its technician.
  have hsession : ¬ p.FollowsSession s := by
    cases p with
    | device d => exact fun h => hdevice (by rw [← h])
    | technician u => exact fun h => htechnician (by rw [← h])
    | allTechnicians => exact fun h => h
  have hclosed : ¬ p.FollowsSession ((closure t endedBy).apply s) := by
    cases p <;> exact hsession
  constructor
  · intro k r' hr'
    simp only [Tables.apply, closureWrites, applyWrites_single]
    by_cases hk : s.supportRequestId = k
    · rw [if_pos hk, ← hk, hr, Option.some.injEq, Option.some.injEq]
      exact ⟨fun h => absurd (h ▸ hr') hfollows.1, fun h => absurd (h ▸ hr') hfollows.2⟩
    · rw [if_neg hk]
  · intro k s' hs'
    simp only [Tables.apply, closureWrites, applyWrites_single]
    by_cases hk : id = k
    · rw [if_pos hk, ← hk, hs, Option.some.injEq, Option.some.injEq]
      exact ⟨fun h => absurd (h ▸ hs') hsession, fun h => absurd (h ▸ hs') hclosed⟩
    · rw [if_neg hk]

/-- A change of a request of another device, that no technician has been told
    of who follows it before or after. -/
theorem sameFor_change {id : Uuid} {r row : SupportRequest} (hr : T.requests id = some r)
    (hrow : row.deviceId = r.deviceId) (hdevice : p ≠ .device r.deviceId)
    (htechnician : ∀ u, r.technicianId = some u ∨ row.technicianId = some u → p ≠ .technician u)
    (hqueue : r.status = .waiting ∨ row.status = .waiting → p ≠ .allTechnicians) :
    SameFor p T (T.apply (requestWrites T.requests id row)) := by
  refine sameFor_requestWrites ?_ (fun r' hr' => ?_)
  · cases p with
    | device d => exact fun hd => hdevice (by rw [← hrow, hd])
    -- The technician before or after is not this one.
    | technician u => exact fun hu => htechnician u (.inr hu) rfl
    | allTechnicians => exact fun hs => hqueue (.inr hs) rfl
  · rw [hr, Option.some.injEq] at hr'
    subst hr'
    cases p with
    | device d => exact fun hd => hdevice (by rw [hd])
    | technician u => exact fun hu => htechnician u (.inl hu) rfl
    | allTechnicians => exact fun hs => hqueue (.inl hs) rfl

/-- The commit is not the recipient's own, and the recipient is not told of
    it. -/
structure Uninvolved (p : Recipient) (op : Operation) (ws : Writes) : Prop where
  caller : op.caller ≠ p
  silent : ∀ em ∈ announcements op ws, em.recipient ≠ p

/-- Whoever follows the queue is told of a new request. -/
theorem Uninvolved.created {device : Device} {id : Uuid} {createdAt : Timestamp}
    (h : Uninvolved p (.createForDevice device)
      (requestWrites T.requests id (newRequest device.id id createdAt)))
    (hfresh : T.requests id = none) :
    SameFor p T (T.apply (requestWrites T.requests id (newRequest device.id id createdAt))) := by
  have hqueue : Recipient.allTechnicians ≠ p := h.silent (queueUpdated id) List.mem_cons_self
  refine sameFor_requestWrites ?_ (fun r hr => by simp only [hfresh, reduceCtorEq] at hr)
  cases p with
  | device d => exact fun hd => h.caller (by rw [Operation.caller, ← hd, newRequest])
  | technician u => simp only [Recipient.Follows, newRequest, reduceCtorEq, not_false_eq_true]
  | allTechnicians => exact absurd rfl hqueue

/-- Nobody had the request before an assignment, and the technician who has it
    then is the one who calls. -/
theorem Uninvolved.assigned {id : Uuid} {technician : User} {r : SupportRequest}
    (h : Uninvolved p (.assign id technician)
      (requestWrites T.requests id ((assignment technician.id t).apply r)))
    (hr : T.requests id = some r) (hnobody : r.technicianId = none) :
    SameFor p T (T.apply (requestWrites T.requests id ((assignment technician.id t).apply r))) := by
  have hsilent := h.silent
  simp only [announcements, requestWrites, List.flatMap_cons, List.flatMap_nil,
    List.append_nil, List.mem_cons, List.not_mem_nil, or_false, forall_eq_or_imp,
    forall_eq] at hsilent
  refine sameFor_change hr rfl (fun hd => hsilent.1 hd.symm) (fun u hu hp => ?_)
    (fun _ hq => hsilent.2 hq.symm)
  rcases hu with hu | hu
  · rw [hnobody] at hu
    simp only [reduceCtorEq] at hu
  · simp only [SupportRequestTransition.apply, assignment, Option.some_or,
      Option.some.injEq] at hu
    exact h.caller (by rw [Operation.caller, hu, hp])

/-- The technician of a request is told of what the device does with it once
    it has left the queue. -/
theorem Uninvolved.changed {id : Uuid} {r row : SupportRequest}
    (h : Uninvolved p op (requestWrites T.requests id row)) (hr : T.requests id = some r)
    (hcaller : op.caller = .device r.deviceId) (hdevice : row.deviceId = r.deviceId)
    (htechnician : row.technicianId = r.technicianId)
    (hwaiting : r.status ≠ .waiting ∧ row.status ≠ .waiting)
    (htold : technicianUpdated ⟨id, T.requests id, row⟩ ⊆
      announcements op (requestWrites T.requests id row)) :
    SameFor p T (T.apply (requestWrites T.requests id row)) := by
  refine sameFor_change hr hdevice (fun hd => h.caller (hcaller.trans hd.symm)) (fun u hu => ?_)
    (fun hq => (hq.elim hwaiting.1 hwaiting.2).elim)
  rw [htechnician, or_self] at hu
  rintro rfl
  refine h.silent ⟨.technician u, .supportRequestUpdated id⟩ (htold ?_) rfl
  simp only [technicianUpdated, htechnician, hu, Option.toList_some, List.map_cons, List.map_nil,
    List.mem_singleton]

/-- Whoever follows the queue is told of a request that is withdrawn from it,
    and no technician has it yet. -/
theorem Uninvolved.withdrawn {id : Uuid} {device : Device} {r : SupportRequest}
    (h : Uninvolved p (.cancelByDevice id device)
      (requestWrites T.requests id ((cancellation t).apply r)))
    (hr : T.requests id = some r) (hd : r.deviceId = device.id) (hw : r.status = .waiting)
    (hnobody : r.technicianId = none) :
    SameFor p T (T.apply (requestWrites T.requests id ((cancellation t).apply r))) := by
  have hsilent := h.silent
  simp only [announcements, requestWrites, List.flatMap_cons, List.flatMap_nil,
    List.append_nil, cancelNotice, hr, Option.any_some, hw, decide_true, if_true,
    List.mem_singleton, forall_eq] at hsilent
  refine sameFor_change hr rfl (fun hp => h.caller (by rw [Operation.caller, ← hd, hp]))
    (fun u hu => ?_) (fun _ hq => hsilent hq.symm)
  have hu' : r.technicianId = some u := or_self_iff.mp hu
  rw [hnobody] at hu'
  simp only [reduceCtorEq] at hu'

/-- The device is told of a new session, and the technician opens it. -/
theorem Uninvolved.opened {id sid : Uuid} {user : User} {r : SupportRequest}
    {createdAt : Timestamp}
    (h : Uninvolved p (.create id user)
      (sessionWrites T.sessions sid (newSession r user.id sid createdAt)))
    (hfresh : T.sessions sid = none) :
    SameFor p T (T.apply (sessionWrites T.sessions sid (newSession r user.id sid createdAt))) := by
  have hsilent := h.silent
  simp only [announcements, sessionWrites, List.map_cons, List.map_nil, List.mem_singleton,
    forall_eq] at hsilent
  refine sameFor_sessionWrites ?_ (fun s hs => by simp only [hfresh, reduceCtorEq] at hs)
  cases p with
  | device d => exact fun hd => hsilent (by rw [← hd])
  | technician u => exact fun hu => h.caller (by rw [Operation.caller, ← hu, newSession])
  | allTechnicians => exact fun hp => hp

/-- Both sides are told of an activation. -/
theorem Uninvolved.activated {id : Uuid} {user : User} {s : RemoteSession}
    (h : Uninvolved p (.activateByTechnician id user)
      (sessionWrites T.sessions id ((activation t).apply s)))
    (hs : T.sessions id = some s) :
    SameFor p T (T.apply (sessionWrites T.sessions id ((activation t).apply s))) := by
  have hsilent := h.silent
  simp only [announcements, sessionWrites, List.flatMap_cons, List.flatMap_nil,
    List.append_nil, List.mem_cons, List.not_mem_nil, or_false, forall_eq_or_imp,
    forall_eq] at hsilent
  have hfollows : ¬ p.FollowsSession s := by
    cases p with
    | device d => exact fun hd => hsilent.1 (by rw [← hd]; rfl)
    | technician u => exact fun hu => hsilent.2 (by rw [← hu]; rfl)
    | allTechnicians => exact fun hp => hp
  refine sameFor_sessionWrites ?_ (fun s' hs' => ?_)
  · cases p <;> exact hfollows
  · rw [hs, Option.some.injEq] at hs'
    exact hs' ▸ hfollows

/-- One side closes a session, and the other is told. -/
theorem Uninvolved.closed {id : Uuid} {s : RemoteSession} {r : SupportRequest}
    {endedBy : RemoteSessionEndedBy} (h : Uninvolved p op (closureWrites T id s r t endedBy))
    (hc : Consistent T) (hs : T.sessions id = some s)
    (hr : T.requests s.supportRequestId = some r) (hst : r.status = .accepted)
    (hdevice : op.caller = .device s.deviceId ∨
      ∃ em ∈ announcements op (closureWrites T id s r t endedBy), em.recipient = .device s.deviceId)
    (htechnician : op.caller = .technician s.technicianId ∨
      ∃ em ∈ announcements op (closureWrites T id s r t endedBy),
        em.recipient = .technician s.technicianId) :
    SameFor p T (T.apply (closureWrites T id s r t endedBy)) := by
  have hinvolved : ∀ {q : Recipient}, op.caller = q ∨
      (∃ em ∈ announcements op (closureWrites T id s r t endedBy), em.recipient = q) → p ≠ q := by
    rintro q (hq | ⟨em, hem, hq⟩) rfl
    · exact h.caller hq
    · exact h.silent em hem hq
  -- The request of the session has the same owners.
  rcases hc.owned id s hs with ⟨r', hr', hd, htech, _⟩
  rw [hr, Option.some.injEq] at hr'
  subst hr'
  exact sameFor_closureWrites hs hr hst hd htech (hinvolved hdevice) (hinvolved htechnician)

/-- A commit that is not the recipient's own and of which it is not told
    leaves what it follows alone. -/
theorem Explains.sameFor (hx : Explains T t op ws) (hc : Consistent T) (h : Uninvolved p op ws) :
    SameFor p T (T.apply ws) := by
  -- As long as a request is waiting, no technician has it.
  have hnobody : ∀ {id : Uuid} {r : SupportRequest}, T.requests id = some r →
      r.status = .waiting → r.technicianId = none := by
    intro id r hr hw
    have hwf := hc.requestWellFormed id r hr
    rw [SupportRequest.WellFormed, hw] at hwf
    exact hwf.1
  cases hx with
  | created device id createdAt hactive hfresh hfree => exact h.created hfresh
  | assigned id technician r hr hs => exact h.assigned hr (hnobody hr hs)
  | accepted id device r hr hd hs =>
      refine h.changed hr (by rw [Operation.caller, hd]) rfl rfl ⟨by rw [hs]; decide, ?_⟩ ?_
      · simp only [SupportRequestTransition.apply, acceptance, ne_eq, reduceCtorEq,
          not_false_eq_true]
      · simp only [announcements, requestWrites, List.flatMap_cons, List.flatMap_nil,
          List.append_nil, List.Subset.refl]
  | rejected id device r hr hd hs =>
      refine h.changed hr (by rw [Operation.caller, hd]) rfl rfl ⟨by rw [hs]; decide, ?_⟩ ?_
      · simp only [SupportRequestTransition.apply, rejection, ne_eq, reduceCtorEq,
          not_false_eq_true]
      · simp only [announcements, requestWrites, List.flatMap_cons, List.flatMap_nil,
          List.append_nil, List.Subset.refl]
  | cancelled id device r hr hd hs hnone htime =>
      by_cases hw : r.status = .waiting
      · exact h.withdrawn hr hd hw (hnobody hr hw)
      · refine h.changed hr (by rw [Operation.caller, hd]) rfl rfl ⟨hw, ?_⟩ ?_
        · simp only [SupportRequestTransition.apply, cancellation, ne_eq, reduceCtorEq,
            not_false_eq_true]
        · simp only [announcements, requestWrites, List.flatMap_cons, List.flatMap_nil,
            List.append_nil, cancelNotice, hr, Option.any_some, hw, decide_false,
            Bool.false_eq_true, if_false, List.Subset.refl]
  | opened id user r sid createdAt hr hu hs hfresh hfree => exact h.opened hfresh
  | activated id user s hs hu hst => exact h.activated hs
  | repeated id user s hs hu hst => exact .refl p T
  | closedByTechnician id user s r hs hu hl hr hst ht =>
      exact h.closed hc hs hr hst (.inr ⟨_, List.mem_cons_self, rfl⟩)
        (.inl (by rw [Operation.caller, hu]))
  | closedByDevice id device s r hs hown hl hr hst ht =>
      exact h.closed hc hs hr hst (.inl (by rw [Operation.caller, hown]))
        (.inr ⟨_, List.mem_cons_self, rfl⟩)

end Commits

/-! ## Announcements come after their commit -/

/-- What a call has emitted is an entry of the history. -/
theorem emission_entry {l : List Entry} {em : Emission} {threw : Bool}
    (h : (em, threw) ∈ (progress c l).emissions) :
    ∃ e l', e :: l' <:+ l ∧ e.call = c ∧ e.event = .emitted em threw := by
  induction l with
  | nil => simp only [progress, Progress.start, List.not_mem_nil] at h
  | cons a l ih =>
      -- An entry that was there already.
      have hrest : (em, threw) ∈ (progress c l).emissions →
          ∃ e l', e :: l' <:+ a :: l ∧ e.call = c ∧ e.event = .emitted em threw := by
        intro hl
        rcases ih hl with ⟨e, l', hsuffix, he⟩
        exact ⟨e, l', hsuffix.trans (List.suffix_cons a l), he⟩
      by_cases ha : a.call = c
      · rw [progress_own ha] at h
        cases hev : a.event with
        | emitted em' threw' =>
            simp only [hev, Progress.add, List.mem_append, List.mem_singleton,
              Prod.mk.injEq] at h
            rcases h with h | ⟨rfl, rfl⟩
            · exact hrest h
            · exact ⟨a, l, List.suffix_rfl, ha, hev⟩
        | ran o =>
            -- The last entry may be of any kind, and only an emission counts.
            rw [hev] at h
            cases o <;> exact hrest h
        | _ =>
            rw [hev] at h
            exact hrest h
      · rw [progress_other ha] at h
        exact hrest h

/-- In a run in which nothing throws, what a commit calls for is emitted after
    it. -/
theorem Reachable.announced_later {sys : Calls} (h : Reachable calls quiet sys)
    (hdone : ∀ c, (progress c sys.shared.log).entered.isSome → Over sys c) {e : Entry}
    {l : List Entry} {ws : Writes} (hs : e :: l <:+ sys.shared.log)
    (he : e.event = .committed ws) {em : Emission} (hem : em ∈ announcements (calls e.call) ws) :
    ∃ e' l' threw, e :: l <:+ l' ∧ e' :: l' <:+ sys.shared.log ∧
      e'.event = .emitted em threw := by
  have hcommitted : (progress e.call (e :: l)).committed = some ws := by
    rw [progress_own rfl, he]
    rfl
  have hkept : (progress e.call sys.shared.log).committed = some ws := by
    rcases hs with ⟨l₁, hlog⟩
    have hhist := h.inv.history
    rw [← hlog] at hhist ⊢
    exact committed_kept hhist hcommitted
  have hmap := h.settled (hdone e.call)
  rw [hkept, Option.elim_some] at hmap
  rw [← hmap, List.mem_map] at hem
  rcases hem with ⟨⟨em', threw⟩, hmem, rfl⟩
  rcases emission_entry hmem with ⟨e', l', hs', hcall, hev⟩
  refine ⟨e', l', threw, ?_, hs', hev⟩
  have hl' : l' <:+ sys.shared.log := (List.suffix_cons e' l').trans hs'
  rcases List.suffix_or_suffix_of_suffix hs hl' with hlater | hbefore
  · exact hlater
  · rcases List.suffix_cons_iff.mp hbefore with heq | hearlier
    · rw [heq]
    · -- The emission has the commit before it, and a call commits once.
      have hok := (h.inv.history.suffix hs').1.event
      simp only [hev, hcall] at hok
      rcases hok with ⟨_, ws', hws', _⟩
      rcases hearlier with ⟨l₂, rfl⟩
      have hcommit := (h.inv.history.suffix hs).1.event
      simp only [he] at hcommit
      have hnone := hcommit.1
      rw [committed_kept (h.inv.history.suffix hs).2 hws'] at hnone
      simp only [reduceCtorEq] at hnone

/-! ## Clients -/

/-- A client that has read the rows and has been told nothing since, and whose
    own calls have changed nothing since, has the rows it follows as they are,
    in a run in which nothing throws and every call that was made is over. -/
theorem clients_stay_current {sys : Calls} (h : Reachable calls quiet sys)
    (hdone : ∀ c, (progress c sys.shared.log).entered.isSome → Over sys c)
    {since l : List Entry} (hlog : sys.shared.log = since ++ l) {p : Recipient}
    (hsilent : ∀ e ∈ since, ∀ em threw, e.event = .emitted em threw → em.recipient ≠ p)
    (hcaller : ∀ e ∈ since, ∀ ws, e.event = .committed ws → (calls e.call).caller ≠ p) :
    SameFor p (replay l) sys.shared.tables := by
  -- An entry above the point of the reading is one of those since.
  have hsince : ∀ e l', l <:+ l' → e :: l' <:+ sys.shared.log → e ∈ since := by
    rintro e l' ⟨l₁, rfl⟩ ⟨l₂, hl₂⟩
    rw [hlog, ← List.cons_append, ← List.append_assoc] at hl₂
    rw [← List.append_cancel_right hl₂]
    exact List.mem_append_right l₂ List.mem_cons_self
  have hl : l <:+ sys.shared.log := ⟨since, hlog.symm⟩
  rw [h.inv.tables]
  refine h.inv.since_induction (P := fun l' => SameFor p (replay l) (replay l')) (.refl p _)
    (fun e l' _ _ hsame ih => ?_) (fun e l' ws t hl' hs he hafter hcons hx ih => ?_) hl
    List.suffix_rfl
  -- An entry that commits nothing changes no row.
  · rw [hsame]
    exact ih
  · rw [hafter]
    refine ih.trans (hx.sameFor hcons ⟨hcaller e (hsince e l' hl' hs) ws he, fun em hem => ?_⟩)
    -- The emission that the commit calls for comes later, and so the client would have
    -- heard it.
    rcases h.announced_later hdone hs he hem with ⟨e', l₁, threw, hlater, hs', hev⟩
    refine hsilent e' (hsince e' l₁ ?_ hs') em threw hev
    exact (hl'.trans (List.suffix_cons e l')).trans hlater

/-- The entry is no emission to all technicians. -/
def Entry.sparesTheQueue (e : Entry) : Bool :=
  match e.event with
  | .emitted em _ => decide (em.recipient ≠ .allTechnicians)
  | _ => true

/-- From its opening to its closure a session leaves the queue alone. The last
    twenty entries have no emission to the queue among them. -/
theorem clients_stay_current_assistance : ∃ sys since l, Reachable assistance quiet sys ∧
    sys.shared.log = since ++ l ∧ since.length = 20 ∧
    SameFor .allTechnicians (replay l) sys.shared.tables := by
  have hrun : ((follow (exec quiet) (boot assistance (fun _ => tablet) (fun _ => agent) 0)
      (opening ++ turns 4 11 0 ++ turns 5 11 0)).any (fun sys =>
        sys.shared.log.all (fun e => (sys.threads e.call).returned.isSome) &&
        decide ((sys.shared.log.take 20).length = 20) &&
        (sys.shared.log.take 20).all Entry.sparesTheQueue)) = true := by
    decide +kernel
  rcases reachable_of_follow hrun with ⟨sys, hsys, hp⟩
  simp only [Bool.and_eq_true, List.all_eq_true, decide_eq_true_eq] at hp
  rcases hp with ⟨⟨hover, hlength⟩, hsilent⟩
  refine ⟨sys, sys.shared.log.take 20, sys.shared.log.drop 20, hsys,
    (List.take_append_drop 20 _).symm, hlength,
    clients_stay_current hsys (fun c hc => ?_) (List.take_append_drop 20 _).symm
      (fun e he em threw hev => ?_) (fun e _ ws _ h => ?_)⟩
  -- Every call with an entry has returned, and one without has not begun.
  · by_cases hentry : ∃ e ∈ sys.shared.log, e.call = c
    · rcases hentry with ⟨e, he, rfl⟩
      rcases Option.isSome_iff_exists.mp (hover e he) with ⟨r, hr⟩
      exact .inl ⟨r, Prog.returned_eq_some.mp hr⟩
    · rw [progress_of_no_entry (fun e he hcall => hentry ⟨e, he, hcall⟩)] at hc
      simp only [Progress.start, Option.isSome_none, Bool.false_eq_true] at hc
  · have hev' := hsilent e he
    simp only [Entry.sparesTheQueue, hev, decide_eq_true_eq] at hev'
    exact hev'
  · cases hop : assistance e.call <;> simp only [hop, Operation.caller, reduceCtorEq] at h

end RemoteControl

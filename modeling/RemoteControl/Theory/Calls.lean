import RemoteControl.Theory.Transactions

/-!
# How a Call Ends

The three ways one of the nine calls can end, as postconditions of its
method. It is done: it has committed, every emission its commit calls for was
attempted once and in order, and the answer shows the row. It has failed: it
has committed nothing, and there was a moment at which the machine refuses it
with the class of the error. Or an error of the transport came through: it
has committed, and the first emission, to a device, was the last.

Only three of the calls can end in the third way (`Operation.Leaks`), and
whether they do is decided by whether emitting to a device throws.

The other half of the module are the rules for the helpers of the two
services: a query together with the check that it found something, and the
row read again after the commit.

The answer of a call is described by the rows it shows and not as a value,
because the row that is read again after the commit may have gone on since. A
column that the commit filled is still filled with the same value, so the
response is that of some later version of the row (`ShowsRequest`). For an
activation that found the session active there is nothing written, and the
response shows the row that is there (`ShowsActive`).

## Main definitions

* `HttpException.outcome`: The class of an error.
* `Operation.Leaks`: The calls that let an error of the transport through.
* `Answers`: The response shows the row the commit wrote.
* `Done`, `Failed`, `Leaked`: The ends of a call.
* `ShowsRequest`, `ShowsSession`, `ShowsActive`: What a response shows.
* `attempts`: The emissions of a commit, each with whether it throws.
* `RefusedWith`: The error is one with which the machine refuses the call.

## Theorems

* `requestOrFail_then`, `sessionOrFail_then`, `lockRequestOrFail_then`,
  `lockSessionOrFail_then`: Queries with their check.
* `reread_then`: The row read again after the commit.
* `notifyTechnicianUpdated_then`, `notifyQueueUpdated_then`: Notifications.
* `Thrown.of_saw`: A call may fail when it saw a moment of refusal.
* `Answers.grows`: An answer stays right when the rows go on growing.
* `RefusedWith.of_saw`, `Done.of_sent`: How the two ends are reached.
-/

namespace RemoteControl

open Concurrency Machine

/-- The class of an error the caller is meant to see. -/
def HttpException.outcome : HttpException → Option Outcome
  | .forbidden _ => some .forbidden
  | .notFound _ => some .notFound
  | .conflict _ => some .conflict
  | _ => none

/-- The calls that send an event to the device with its errors uncaught. -/
def Operation.Leaks : Operation → Prop
  | .assign _ _ => True
  | .create _ _ => True
  | .closeByTechnician _ _ => True
  | _ => False

instance (op : Operation) : Decidable op.Leaks := by
  cases op <;> simp only [Operation.Leaks] <;> infer_instance

/-- The response shows a request that a commit wrote, as it was then or later. -/
def ShowsRequest (ws : Writes) (shown : LoadedSupportRequest → SupportRequestResponseDto)
    (r : Response) : Prop :=
  ∃ w ∈ ws.requests, ∃ l : LoadedSupportRequest, RequestKeeps w.new l.toSupportRequest ∧
    r = .supportRequest (shown l)

/-- The response shows a session with the status a commit gave it. -/
def ShowsSession (ws : Writes) (r : Response) : Prop :=
  ∃ w ∈ ws.sessions, ∃ (l : LoadedRemoteSession) (online : Bool),
    SessionKeeps l.toRemoteSession w.new ∧ l.status = w.new.status ∧
    r = .remoteSession (RemoteSessionResponseDto.fromEntity l online)

/-- The response shows a session that was active, and whose row is still there. -/
def ShowsActive (T : Tables) (id : Uuid) (r : Response) : Prop :=
  ∃ (l : LoadedRemoteSession) (online : Bool), l.status = .active ∧
    (∃ s, T.sessions id = some s ∧ SessionKeeps l.toRemoteSession s) ∧
    r = .remoteSession (RemoteSessionResponseDto.fromEntity l online)

/-- The normal answer of the call when it commits `ws`. -/
def Answers (T : Tables) (op : Operation) (ws : Writes) (r : Response) : Prop :=
  match op with
  | .assign _ _ => ∃ online, ShowsRequest ws (SupportRequestResponseDto.forTechnician · online) r
  | .createForDevice _ => ShowsRequest ws SupportRequestResponseDto.forDevice r
  | .acceptByDevice _ _ => ShowsRequest ws SupportRequestResponseDto.forDevice r
  | .rejectByDevice _ _ => ShowsRequest ws SupportRequestResponseDto.forDevice r
  | .cancelByDevice _ _ => ShowsRequest ws SupportRequestResponseDto.forDevice r
  | .create _ _ => ShowsSession ws r
  | .activateByTechnician id _ => ShowsSession ws r ∨ ws.sessions = [] ∧ ShowsActive T id r
  | .closeByTechnician _ _ => ShowsSession ws r
  | .closeByDevice _ _ => ShowsSession ws r

/-- A response that was right stays right. Only the repeated activation speaks of
    the rows, and there the session it shows is still there. -/
theorem Answers.grows {T T' : Tables} (hg : Grows T T') {op : Operation} {ws : Writes}
    {r : Response} (h : Answers T op ws r) : Answers T' op ws r := by
  cases op with
  | activateByTechnician id user =>
      rcases h with h | ⟨hws, l, online, hl, ⟨s, hs, hk⟩, hr⟩
      · exact .inl h
      · rcases hg.sessions id s hs with ⟨s', hs', hk'⟩
        exact .inr ⟨hws, l, online, hl, ⟨s', hs', hk.trans hk'⟩, hr⟩
  | _ => exact h

section Ends

variable (calls : CallId → Operation) (throws : CallId → Emitter → Bool) (c : CallId)
  (before : List Entry)

/-- The emissions of a commit, each with whether it throws. -/
def attempts (ws : Writes) : List (Emission × Bool) :=
  (announcements (calls c) ws).map (fun e => (e, throws c e.emitter))

/-- The call has committed, attempted every emission, and has this answer. -/
def Done (r : Response) (w : World) : Prop :=
  ((calls c).Leaks → throws c .emitToDevice = false) ∧
  ∃ a ws, At c (announcing before a ws (attempts calls throws c ws)) .free w ∧
    Answers w.tables (calls c) ws r

/-- The error is one with which the machine refuses the call. -/
def RefusedWith (e : HttpException) (w : World) : Prop :=
  ∃ cls, e.outcome = some cls ∧ Refused calls c cls w.log

/-- The call has committed nothing, and may fail with this error. -/
def Failed (e : HttpException) (w : World) : Prop :=
  ∃ a n, At c (working before a n) .free w ∧ RefusedWith calls c e w

/-- The call has committed, and an error of the transport came through. -/
def Leaked (e : HttpException) (w : World) : Prop :=
  e = .transportError ∧ (calls c).Leaks ∧ throws c .emitToDevice = true ∧
  ∃ a ws em rest, At c (announcing before a ws [(em, true)]) .free w ∧
    announcements (calls c) ws = em :: rest

/-- The ways a call ends in an error. -/
def Thrown (e : HttpException) (w : World) : Prop :=
  Failed calls c before e w ∨ Leaked calls throws c before e w

end Ends

variable {calls : CallId → Operation} {throws : CallId → Emitter → Bool} {c : CallId}
  {before : List Entry}

/-- A moment of refusal stays in the past. -/
theorem RefusedWith.persistent {e : HttpException} :
    (lifecycle calls throws).Persistent (RefusedWith calls c e) := by
  intro d w w' hi hi' hg h
  rcases h with ⟨cls, hcls, hr⟩
  exact ⟨cls, hcls, Refused.persistent d w w' hi hi' hg hr⟩

/-- A moment of refusal that the call saw is a reason for the error. -/
theorem RefusedWith.of_saw {w₀ w : World} {e : HttpException} {cls : Outcome}
    (he : e.outcome = some cls) (hs : Saw c w₀ w) (hi : Inv calls throws w₀)
    (href : ∀ online, (∀ b, (progress c w.log).asked = some b → online = b) →
      Refuses (calls c) online cls w₀.tables) : RefusedWith calls c e w :=
  ⟨cls, he, hs.refused hi href⟩

/-- The call fails with what it has seen, without having committed. -/
theorem Thrown.of_saw {a : Option Bool} {n : Bool} {w₀ w : World} {e : HttpException}
    {cls : Outcome} (ha : At c (working before a n) .free w) (he : e.outcome = some cls)
    (hs : Saw c w₀ w) (hi : Inv calls throws w₀)
    (href : ∀ online, (∀ b, (progress c w.log).asked = some b → online = b) →
      Refuses (calls c) online cls w₀.tables) : Thrown calls throws c before e w :=
  .inl ⟨a, n, ha, .of_saw he hs hi href⟩

/-- A call that has attempted all of its emissions and answers is done. -/
theorem Done.of_sent {a : Option Bool} {ws : Writes} {sent : List (Emission × Bool)}
    {r : Response} {w : World} (hquiet : (calls c).Leaks → throws c .emitToDevice = false)
    (ha : At c (announcing before a ws sent) .free w) (hsent : sent = attempts calls throws c ws)
    (hr : Answers w.tables (calls c) ws r) : Done calls throws c before r w := by
  rw [hsent] at ha
  exact ⟨hquiet, a, ws, ha, hr⟩

section Programs

variable {p : Progress} {g : Grip} {K : World → Prop} {α : Type}
  {Q : α → World → Prop} {E : HttpException → World → Prop}

/-! ## Queries with their check -/

/-- A query for a request, or the error. If there is none of the owner's, the call
    has seen so. -/
theorem requestOrFail_then {id : Uuid} {owner : Owner} {e : HttpException}
    {k : LoadedSupportRequest → Service α} (hp : p.Open)
    (hK : (lifecycle calls throws).Persistent K)
    (hnone : ∀ w₀ w, Inv calls throws w₀ → K w₀ →
      (∀ r, w₀.tables.requests id = some r → owner.ofRequest r = false) →
      At c p g w → Saw c w₀ w → E e w)
    (hsome : ∀ w₀ r, Inv calls throws w₀ → K w₀ → w₀.tables.requests id = some r →
      owner.ofRequest r = true →
      (lifecycle calls throws).Triple (exec throws) c (fun w => At c p g w ∧ Saw c w₀ w ∧ K w)
        (k (w₀.loadRequest r)) Q E) :
    (lifecycle calls throws).Triple (exec throws) c (fun w => At c p g w ∧ K w)
      (((statement (.findRequest id owner)).bind (orFail · e)).bind k) Q E := by
  rw [Prog.bind_assoc]
  refine findRequest_then hp hK (fun w₀ hi _ hk₀ => ?_)
  refine orFail_then (fun hmissing w _ hw => ?_) (fun b hfound => ?_)
  · exact hnone w₀ w hi hk₀ (owned_eq_none.mp hmissing) hw.1 hw.2.1
  · rcases owned_eq_some.mp hfound with ⟨r, hr, ho, rfl⟩
    exact hsome w₀ r hi hk₀ hr ho

/-- A query for a session, or the error. -/
theorem sessionOrFail_then {id : Uuid} {owner : Owner} {e : HttpException}
    {k : LoadedRemoteSession → Service α} (hp : p.Open)
    (hK : (lifecycle calls throws).Persistent K)
    (hnone : ∀ w₀ w, Inv calls throws w₀ → K w₀ →
      (∀ s, w₀.tables.sessions id = some s → owner.ofSession s = false) →
      At c p g w → Saw c w₀ w → E e w)
    (hsome : ∀ w₀ s, Inv calls throws w₀ → K w₀ → w₀.tables.sessions id = some s →
      owner.ofSession s = true →
      (lifecycle calls throws).Triple (exec throws) c (fun w => At c p g w ∧ Saw c w₀ w ∧ K w)
        (k (w₀.loadSession s)) Q E) :
    (lifecycle calls throws).Triple (exec throws) c (fun w => At c p g w ∧ K w)
      (((statement (.findSession id owner)).bind (orFail · e)).bind k) Q E := by
  rw [Prog.bind_assoc]
  refine findSession_then hp hK (fun w₀ hi _ hk₀ => ?_)
  refine orFail_then (fun hmissing w _ hw => ?_) (fun b hfound => ?_)
  · exact hnone w₀ w hi hk₀ (owned_eq_none.mp hmissing) hw.1 hw.2.1
  · rcases owned_eq_some.mp hfound with ⟨s, hs, ho, rfl⟩
    exact hsome w₀ s hi hk₀ hs ho

/-- The same with a lock. The row is in hand afterwards. -/
theorem lockRequestOrFail_then {id : Uuid} {owner : Owner} {e : HttpException}
    {k : SupportRequest → Service α} (hp : p.Open)
    (hK : (lifecycle calls throws).Persistent K)
    (hnone : ∀ w₀ w, Inv calls throws w₀ → K w₀ →
      (∀ r, w₀.tables.requests id = some r → owner.ofRequest r = false) →
      At c p .free w → Saw c w₀ w → E e w)
    (hsome : ∀ w₀ r, Inv calls throws w₀ → K w₀ → w₀.tables.requests id = some r →
      owner.ofRequest r = true →
      (lifecycle calls throws).Triple (exec throws) c
        (fun w => At c p (.ofRequest id r false) w ∧ Saw c w₀ w ∧ K w) (k r) Q E) :
    (lifecycle calls throws).Triple (exec throws) c (fun w => At c p .free w ∧ K w)
      (((statement (.lockRequest id owner)).bind (orFail · e)).bind k) Q E := by
  rw [Prog.bind_assoc]
  refine lockRequest_then hp hK (fun w₀ hi hk₀ hno => ?_) (fun w₀ r hi hk₀ hr ho => ?_)
  · exact .throw (fun w _ hw => hnone w₀ w hi hk₀ hno hw.1 hw.2.1)
  · exact hsome w₀ r hi hk₀ hr ho

/-- A session locked, or the error. That the statement ran is kept, too, because a
    closure tells from it when the session was still live. -/
theorem lockSessionOrFail_then {id : Uuid} {owner : Owner} {e : HttpException}
    {k : RemoteSession → Service α} (hp : p.Open)
    (hK : (lifecycle calls throws).Persistent K)
    (hnone : ∀ w₀ w, Inv calls throws w₀ → K w₀ →
      (∀ s, w₀.tables.sessions id = some s → owner.ofSession s = false) →
      At c p .free w → Ran c (.lockSession id owner) w₀ w → Saw c w₀ w → E e w)
    (hsome : ∀ w₀ s, Inv calls throws w₀ → K w₀ → w₀.tables.sessions id = some s →
      owner.ofSession s = true →
      (lifecycle calls throws).Triple (exec throws) c
        (fun w => At c p (.ofSession id s) w ∧
          (Ran c (.lockSession id owner) w₀ w ∧ Saw c w₀ w) ∧ K w) (k s) Q E) :
    (lifecycle calls throws).Triple (exec throws) c (fun w => At c p .free w ∧ K w)
      (((statement (.lockSession id owner)).bind (orFail · e)).bind k) Q E := by
  rw [Prog.bind_assoc]
  refine lockSession_then hp hK (fun w₀ hi hk₀ hno => ?_) (fun w₀ s hi hk₀ hs ho => ?_)
  · exact .throw (fun w _ hw => hnone w₀ w hi hk₀ hno hw.1 hw.2.1.1 hw.2.1.2)
  · exact hsome w₀ s hi hk₀ hs ho

/-- The row read again after the commit: it is there, with every column the commit
    left filled. No request is ever deleted, so this query cannot fail. -/
theorem reread_then {id : Uuid} {r : SupportRequest} {k : LoadedSupportRequest → Service α}
    (hp : p.Open) (hK : (lifecycle calls throws).Persistent K)
    (hthere : ∀ w, K w → ∃ r', w.tables.requests id = some r' ∧ RequestKeeps r r')
    (hk : ∀ (w₀ : World) r', RequestKeeps r r' →
      (lifecycle calls throws).Triple (exec throws) c (fun w => At c p g w ∧ K w)
        (k (w₀.loadRequest r')) Q E) :
    (lifecycle calls throws).Triple (exec throws) c (fun w => At c p g w ∧ K w)
      ((SupportRequestsService.findByIdOrFail id).bind k) Q E := by
  refine requestOrFail_then hp hK (fun w₀ w _ hk₀ hno _ _ => ?_) (fun w₀ r' _ hk₀ hr' _ => ?_)
  · rcases hthere w₀ hk₀ with ⟨r', hr', _⟩
    have hc := hno r' hr'
    simp only [Owner.ofRequest, Bool.true_eq_false] at hc
  · rcases hthere w₀ hk₀ with ⟨r'', hr'', hkeep⟩
    rw [hr', Option.some.injEq] at hr''
    subst hr''
    exact (hk w₀ r' hkeep).weaken (fun _ _ h => ⟨h.1, h.2.2⟩)

/-! ## Notifications -/

section Notifications

variable {a : Option Bool} {ws : Writes} {sent : List (Emission × Bool)}

/-- The technician of the request is told, and an error is only logged. -/
theorem notifyTechnicianUpdated_then {l : LoadedSupportRequest} {id technicianId : Uuid}
    {k : Unit → Service α} (hid : l.id = id) (ht : l.technicianId = some technicianId)
    (hmem : ⟨.technician technicianId, .supportRequestUpdated id⟩ ∈ announcements (calls c) ws)
    (hK : (lifecycle calls throws).Persistent K)
    (hk : (lifecycle calls throws).Triple (exec throws) c
      (fun w => At c (announcing before a ws (sent ++
        [(⟨.technician technicianId, .supportRequestUpdated id⟩, throws c .emitToTechnician)])) g w
        ∧ K w) (k ()) Q E) :
    (lifecycle calls throws).Triple (exec throws) c
      (fun w => At c (announcing before a ws sent) g w ∧ K w)
      ((SupportRequestsService.notifyTechnicianUpdated l).bind k) Q E := by
  subst hid
  simp only [SupportRequestsService.notifyTechnicianUpdated, ht]
  exact logErrors_then hmem hK hk

/-- All technicians are told, and an error is only logged. -/
theorem notifyQueueUpdated_then {l : LoadedSupportRequest} {id : Uuid}
    {k : Unit → Service α} (hid : l.id = id)
    (hmem : queueUpdated id ∈ announcements (calls c) ws)
    (hK : (lifecycle calls throws).Persistent K)
    (hk : (lifecycle calls throws).Triple (exec throws) c
      (fun w => At c (announcing before a ws (sent ++
        [(queueUpdated id, throws c .emitToAllTechnicians)])) g w ∧ K w) (k ()) Q E) :
    (lifecycle calls throws).Triple (exec throws) c
      (fun w => At c (announcing before a ws sent) g w ∧ K w)
      ((SupportRequestsService.notifyQueueUpdated l).bind k) Q E := by
  subst hid
  exact logErrors_then hmem hK hk

end Notifications

end Programs

end RemoteControl

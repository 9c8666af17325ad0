import RemoteControl.Theory.Misses
import RemoteControl.Theory.OwnSignals
import RemoteControl.Theory.Readiness

/-!
# Ownership

Devices and technicians ask for what is their own, and learn nothing of the
rest. In two states in which an owner has the same rows, and these have the
same device, technician and presence, a call of the owner's is answered alike,
however different the rows of the others are (`ownership_noninterference`). What
a call is answered was said as a function of the owner's rows alone, so all that
is left is to compare two replies that may differ in what is generated.

The same holds of the messages of a socket, whose answers follow from the
sessions of its owner and the sockets in their rooms.

For one call the statement is about two runs that need not have the same
length. They are not compared step by step: each is followed to its end on its
own (`call_lone`), where its answer is the reply of the rows. That these runs
come to an end is a part of the statement (`Confined.ends`), under the
condition that no other call is in the middle of something.

## Main definitions

* `Scene`: A reachable state and a call that is about to be made there.
* `Scene.Confined`, `Signaling.Confined`: What one call or message keeps to.
* `phone`, `crowd`, `paired`, `pairedInCrowd`: Two states of which one has
  another device in it.

## Theorems

* `Scene.reply_of_run`: The answer of a call.
* `ownership_noninterference`: Two states that are the same to an owner.
* `run_ends`, `confined`: What one call keeps to.
* `same_result`: The answers to one message.
-/

namespace RemoteControl

open Concurrency

/-- A reachable state with a call that holds no row there, and the
    surroundings in which it is going to run alone. -/
structure Scene where
  calls : CallId → Operation
  throws : CallId → Emitter → Bool
  sys : Calls
  c : CallId
  env : Env
  reachable : Reachable calls throws sys
  idle : ¬ Holding sys.shared c

namespace Scene

/-- What belongs to the owner. -/
def own (x : Scene) (owner : Owner) : OwnRows := x.sys.shared.ownRows x.env owner

/-- What a call is given that is new. -/
def generated (x : Scene) : Generated := x.sys.shared.generated x.env

/-- The call runs alone. It has no result when it has to wait for another
    call. -/
def run (x : Scene) (call : OwnerCall) : Option (Except HttpException Reply × World) :=
  call.body.runAlone (exec x.throws x.c x.env) x.sys.shared

/-- A call keeps to the rows of its owner. It changes no other row, it comes to
    an end unless another call is in the middle of something, and without a row
    of the owner's under its identifier it is answered that there is none. -/
structure Confined (x : Scene) (call : OwnerCall) : Prop where
  spares : ∀ res w, x.run call = some (res, w) →
    Spares call.owner x.sys.shared.tables w.tables
  ends : ¬ Impeded x.c x.env x.sys.shared → (x.run call).isSome = true
  misses : ∀ e, call.Misses (x.own call.owner) e →
    ∃ w, x.run call = some (.error e, w) ∧ w.tables = x.sys.shared.tables

variable (x : Scene) (call : OwnerCall)

/-- The call holds no request. -/
theorem holds_requests : x.sys.shared.requests.Holds x.c none :=
  fun k hk => x.idle (.inl ⟨k, hk⟩)

/-- Nor any session. -/
theorem holds_sessions : x.sys.shared.sessions.Holds x.c none :=
  fun k hk => x.idle (.inr ⟨k, hk⟩)

/-- Run alone, the call ends with the reply of the rows, or it has to wait. -/
theorem run_ends : (x.run call = none → Impeded x.c x.env x.sys.shared) ∧
    ∀ res w, x.run call = some (res, w) → EndsAs call.owner x.sys.shared
      ((x.own call.owner).reply x.generated (x.throws x.c) call) res w :=
  alone_ends (Φ := EndsAs call.owner x.sys.shared _) (call_lone x.reachable.inv call)
    (Here.start x.holds_requests x.holds_sessions)

/-- The answer of a call, from the rows of its owner. -/
theorem reply_of_run {res : Except HttpException Reply} {w : World}
    (h : x.run call = some (res, w)) :
    res = (x.own call.owner).reply x.generated (x.throws x.c) call :=
  ((x.run_ends call).2 res w h).1

/-- What a call keeps to, in any state. That it spares the others and what it
    answers are one case analysis (`run_ends`); that it comes to an end whenever
    nothing impedes it is the other half of it. -/
theorem confined : x.Confined call where
  spares := fun res w h => ((x.run_ends call).2 res w h).2
  ends := by
    intro himpeded
    cases hrun : x.run call with
    | none => exact absurd ((x.run_ends call).1 hrun) himpeded
    | some ended => rfl
  misses := fun _ h => misses_ends x.holds_requests x.holds_sessions h

end Scene

namespace Signaling

/-- A message changes no session, and is answered about a session that is not
    the owner's as if there were none. -/
structure Confined (v : Validator) (m : MessageId) (env : Env) (op : Operation) (socket : SocketId)
    (w : World) : Prop where
  spares : ∀ res w', (handle v op).runAlone (exec m env) w = some (res, w') →
    w'.state.sessions = w.state.sessions
  foreign : ∀ identity x, w.state.isConnected socket = true →
    w.state.identityOf socket = some identity → op.namedId v = some x →
    w.state.ownSessions socket (canonical x) = none →
    ∃ w', (handle v op).runAlone (exec m env) w =
      some (.ok (refusal (w.state.remoteSessionId socket) x op), w')

variable {v : Validator} {m : MessageId} {env : Env} {op : Operation} {socket : SocketId}

/-- What a message keeps to, in any state: signaling only reads the sessions, and
    what it reads goes through the owner's own view of them. -/
theorem confined (hop : op.client = some socket) (w : World) : Confined v m env op socket w where
  spares := by
    intro res w' hrun
    -- A socket that is not connected sends nothing.
    cases hc : w.state.isConnected socket with
    | false =>
        rw [handle_disconnected hop hc] at hrun
        cases hrun
    | true =>
        rcases same_answer (SameTo.refl socket w.state) hop hc with ⟨response, h, _⟩
        rcases h.run rfl with ⟨w'', hrun', hsessions⟩
        rw [hrun', Option.some.injEq, Prod.mk.injEq] at hrun
        rw [← hrun.2]
        exact hsessions
  foreign := by
    intro identity x hc hi hx hno
    rcases (handle_foreign hop hc hi hx hno).run rfl with ⟨w', hrun, _⟩
    exact ⟨w', hrun⟩

/-- The answers to one message in two states that are the same to its socket. -/
theorem same_result {w w' : World} (h : SameTo socket w.state w'.state)
    (hop : op.client = some socket) :
    ((handle v op).runAlone (exec m env) w).map Prod.fst =
      ((handle v op).runAlone (exec m env) w').map Prod.fst := by
  cases hc : w.state.isConnected socket with
  | false => rw [handle_disconnected hop hc, handle_disconnected hop (h.isConnected ▸ hc)]
  | true =>
      rcases same_answer h hop hc with ⟨response, hends, hends'⟩
      rcases hends.run rfl with ⟨u, hrun, _⟩
      rcases hends'.run rfl with ⟨u', hrun', _⟩
      rw [hrun, hrun', Option.map_some, Option.map_some]

end Signaling

/-- Two states that are the same to an owner are not told apart by its calls,
    nor by the messages of its sockets, and neither touch what belongs to
    others. -/
theorem ownership_noninterference :
    (∀ (x y : Scene) (call : OwnerCall), x.throws x.c = y.throws y.c →
      x.own call.owner = y.own call.owner →
      (∀ res w res' w', x.run call = some (res, w) → y.run call = some (res', w') →
        Alike x.generated y.generated res res') ∧ x.Confined call ∧ y.Confined call) ∧
    ∀ (v : Signaling.Validator) (m : Signaling.MessageId) (env : Signaling.Env)
      (op : Signaling.Operation) (socket : Signaling.SocketId) (w w' : Signaling.World),
      op.client = some socket → Signaling.SameTo socket w.state w'.state →
      ((Signaling.handle v op).runAlone (Signaling.exec m env) w).map Prod.fst =
        ((Signaling.handle v op).runAlone (Signaling.exec m env) w').map Prod.fst ∧
      Signaling.Confined v m env op socket w ∧ Signaling.Confined v m env op socket w' := by
  refine ⟨fun x y call hthrows hown => ⟨fun res w res' w' hx hy => ?_, x.confined call,
    y.confined call⟩, fun v m env op socket w w' hop hsame =>
      ⟨Signaling.same_result hsame hop, Signaling.confined hop w, Signaling.confined hop w'⟩⟩
  -- Both replies are to the same rows.
  rw [x.reply_of_run call hx, y.reply_of_run call hy, hown, hthrows]
  exact reply_alike _ call

/-! ## The theorem at work -/

/-- No call holds a row. -/
def World.unheld (w : World) : Bool :=
  w.requests.dom.all (fun k => (w.requests.row k).held.isNone) &&
    w.sessions.dom.all (fun k => (w.sessions.row k).held.isNone)

/-- The check looks at every row of the two tables. -/
theorem not_holding_of_unheld {w : World} (h : w.unheld = true) (d : CallId) : ¬ Holding w d := by
  simp only [World.unheld, Bool.and_eq_true, List.all_eq_true, Option.isNone_iff_eq_none] at h
  rintro (⟨k, u, hk⟩ | ⟨k, u, hk⟩)
  · by_cases hdom : k ∈ w.requests.dom
    · rw [h.1 k hdom] at hk
      cases hk
    · rw [w.requests.support k hdom] at hk
      cases hk
  · by_cases hdom : k ∈ w.sessions.dom
    · rw [h.2 k hdom] at hk
      cases hk
    · rw [w.sessions.support k hdom] at hk
      cases hk

/-- Whether an owner has the same rows in two states. -/
def sameOwnRows (w w' : World) (env : Env) (owner : Owner) : Bool :=
  (w.requests.dom ++ w'.requests.dom).all (fun k => decide
    ((w.ownRows env owner).requests k = (w'.ownRows env owner).requests k)) &&
  (w.sessions.dom ++ w'.sessions.dom).all (fun k => decide
    ((w.ownRows env owner).sessions k = (w'.ownRows env owner).sessions k))

/-- A row that is in neither table is nobody's, so the check covers all rows. -/
theorem ownRows_eq {w w' : World} {env : Env} {owner : Owner}
    (h : sameOwnRows w w' env owner = true) : w.ownRows env owner = w'.ownRows env owner := by
  simp only [sameOwnRows, Bool.and_eq_true, List.all_eq_true, decide_eq_true_eq,
    List.mem_append] at h
  have hnone : ∀ {u : World} {k : Uuid}, k ∉ u.requests.dom →
      (u.ownRows env owner).requests k = none := by
    intro u k hk
    refine ownRows_request_none (fun r hr => ?_)
    simp only [World.tables, Table.committed, u.requests.support k hk, Row.empty,
      reduceCtorEq] at hr
  have hnone' : ∀ {u : World} {k : Uuid}, k ∉ u.sessions.dom →
      (u.ownRows env owner).sessions k = none := by
    intro u k hk
    refine ownRows_session_none (fun s hs => ?_)
    simp only [World.tables, Table.committed, u.sessions.support k hk, Row.empty,
      reduceCtorEq] at hs
  have hrequests : (w.ownRows env owner).requests = (w'.ownRows env owner).requests := by
    funext k
    by_cases hk : k ∈ w.requests.dom ∨ k ∈ w'.requests.dom
    · exact h.1 k hk
    · rw [not_or] at hk
      rw [hnone hk.1, hnone hk.2]
  have hsessions : (w.ownRows env owner).sessions = (w'.ownRows env owner).sessions := by
    funext k
    by_cases hk : k ∈ w.sessions.dom ∨ k ∈ w'.sessions.dom
    · exact h.2 k hk
    · rw [not_or] at hk
      rw [hnone' hk.1, hnone' hk.2]
  exact congrArg₂ OwnRows.mk hrequests hsessions

/-- Another device. -/
def phone : Device :=
  { id := 5, publicId := "731904628", name := none, manufacturer := none, model := none
    androidVersion := none, appVersion := none, isActive := true }

/-- The phone asks for help as well. -/
def crowd : CallId → Operation
  | 7 => .createForDevice phone
  | c => assistance c

/-- The surroundings of a call that comes next. -/
def next : Env := { tick := 1, online := fun _ => true, newId := 40, createdAt := 0 }

/-- What is looked at in the two states: the phone's request is in one of them
    only, nobody is in the middle of something, and it makes no difference to
    the technician nor to the tablet. -/
def crowdCheck (w w' : World) : Bool :=
  w.unheld && w'.unheld && decide (w.requests.committed 30 = none) &&
    (w'.requests.committed 30).isSome && decide (next.newId ∉ w.requests.dom) &&
    decide (next.newId ∉ w.sessions.dom) && decide (next.newId ∉ w'.requests.dom) &&
    decide (next.newId ∉ w'.sessions.dom) && sameOwnRows w w' next (.technician agent.id) &&
    sameOwnRows w w' next (.device tablet.id)

namespace Signaling

/-- The device 1 with its socket 10, and its session with the technician 2. -/
def paired : State :=
  [Op.bind .device, .bind .technician, .commit ⟨sessionId, 1, 2, .active⟩,
    .connect 10 .device (some 1)].foldl effect State.init

/-- The session of the other device. -/
def otherSessionId : String := "8c2f7a10-5e44-4b1d-8f3e-1a90c6d2e7b5"

/-- There is another device as well, with a session of its own. -/
def pairedInCrowd : State :=
  [Op.commit ⟨otherSessionId, 5, 9, .active⟩, .connect 30 .device (some 5)].foldl effect paired

/-- The other session is not one of the socket's owner. -/
theorem same_in_crowd : SameTo 10 paired pairedInCrowd := by
  refine ⟨rfl, ?_, fun k row _ p => ⟨rfl, fun m => Iff.rfl⟩⟩
  funext k
  by_cases hk : k = otherSessionId
  · subst hk
    decide
  · have hsame : pairedInCrowd.sessions k = paired.sessions k := Function.update_of_ne hk _ _
    have hidentity : pairedInCrowd.identityOf 10 = paired.identityOf 10 := rfl
    simp only [State.ownSessions, hsame, hidentity]

end Signaling

/-- The technician opens its session and the tablet asks for a request that is
    not its own, in a state with the phone's request and in one without it. -/
theorem ownership_noninterference_crowd :
    (∃ (x y : Scene) (res res' : Except HttpException Reply) (w w' u u' : World),
      x.sys.shared.tables.requests 30 = none ∧
      (y.sys.shared.tables.requests 30).isSome = true ∧
      x.run (.activateByTechnician 20 agent) = some (res, w) ∧
      y.run (.activateByTechnician 20 agent) = some (res', w') ∧
      Alike x.generated y.generated res res' ∧
      x.run (.cancelByDevice 30 tablet) =
        some (.error (SupportRequestsService.requestNotFound 30), u) ∧
      y.run (.cancelByDevice 30 tablet) =
        some (.error (SupportRequestsService.requestNotFound 30), u')) ∧
    ((Signaling.handle Signaling.lenient (.join 10 Signaling.joinPayload)).runAlone
        (Signaling.exec 0 ⟨false⟩) ⟨Signaling.paired, []⟩).map Prod.fst =
      ((Signaling.handle Signaling.lenient (.join 10 Signaling.joinPayload)).runAlone
        (Signaling.exec 0 ⟨false⟩) ⟨Signaling.pairedInCrowd, []⟩).map Prod.fst := by
  refine ⟨?_, (ownership_noninterference.2 Signaling.lenient 0 ⟨false⟩ (.join 10
    Signaling.joinPayload) 10 ⟨Signaling.paired, []⟩ ⟨Signaling.pairedInCrowd, []⟩ rfl
    Signaling.same_in_crowd).1⟩
  have hrun : ((follow (exec quiet) (boot crowd (fun _ => tablet) (fun _ => agent) 0)
      opening).any (fun sys => (follow (exec quiet) (boot crowd (fun _ => tablet)
        (fun _ => agent) 0) (opening ++ turns 7 3 30)).any (fun sys' =>
          crowdCheck sys.shared sys'.shared))) = true := by
    decide +kernel
  rcases reachable_of_follow hrun with ⟨sys, hsys, hrun'⟩
  rcases reachable_of_follow hrun' with ⟨sys', hsys', hcheck⟩
  simp only [crowdCheck, Bool.and_eq_true, decide_eq_true_eq] at hcheck
  rcases hcheck with ⟨⟨⟨⟨⟨⟨⟨⟨⟨hfree, hfree'⟩, hnone⟩, hsome⟩, hr⟩, hs⟩, hr'⟩, hs'⟩, htech⟩, hdev⟩
  let x : Scene := ⟨crowd, quiet, sys, 4, next, hsys, not_holding_of_unheld hfree 4⟩
  let y : Scene := ⟨crowd, quiet, sys', 4, next, hsys', not_holding_of_unheld hfree' 4⟩
  have hboth := ownership_noninterference.1 x y (.activateByTechnician 20 agent) rfl
    (ownRows_eq htech)
  have hmissing := ownership_noninterference.1 x y (.cancelByDevice 30 tablet) rfl
    (ownRows_eq hdev)
  -- Nobody is in the way, so the calls come to an end.
  have hx : ¬ Impeded 4 next sys.shared := by
    rintro (⟨d, _, hd⟩ | hfresh)
    · exact not_holding_of_unheld hfree d hd
    · exact hfresh ⟨hr, hs⟩
  have hy : ¬ Impeded 4 next sys'.shared := by
    rintro (⟨d, _, hd⟩ | hfresh)
    · exact not_holding_of_unheld hfree' d hd
    · exact hfresh ⟨hr', hs'⟩
  rcases Option.isSome_iff_exists.mp (hboth.2.1.ends hx) with ⟨⟨res, w⟩, hw⟩
  rcases Option.isSome_iff_exists.mp (hboth.2.2.ends hy) with ⟨⟨res', w'⟩, hw'⟩
  have hno : (x.own (.device tablet.id)).requests 30 = none :=
    ownRows_request_none (fun r hr30 => by
      rw [show sys.shared.tables.requests 30 = none from hnone] at hr30
      cases hr30)
  have hno' : (y.own (.device tablet.id)).requests 30 = none :=
    (congrFun (congrArg OwnRows.requests (ownRows_eq hdev)) 30).symm.trans hno
  rcases hmissing.2.1.misses _ ⟨hno, rfl⟩ with ⟨u, hu, _⟩
  rcases hmissing.2.2.misses _ ⟨hno', rfl⟩ with ⟨u', hu', _⟩
  exact ⟨x, y, res, res', w, w', u, u', hnone, hsome, hw, hw', hboth.1 res w res' w' hw hw',
    hu, hu'⟩

end RemoteControl

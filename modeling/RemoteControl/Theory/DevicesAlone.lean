import RemoteControl.Concurrency.Completes
import RemoteControl.Concurrency.Sole
import RemoteControl.Theory.DeviceHistory

/-!
# A Device Call That Runs Alone

The statements of the device services for a call that gets every turn, from a
state in which nobody holds a row. The rows the call sees are then a value of
their own (`Scene`), and every statement makes another one of it. Outside of a
transaction the scene consists of the committed rows, and inside of one of
what the transaction sees.

A call that runs alone never waits, as nobody else holds a row. So a statement
is a function of the scene, and a program completes if each of its statements
does. `Completes` quantifies over the answers of the environment, of which
only one is restricted: the identifier of a new row has to be new.

The loops are folds over the list of identifiers. What a fold leaves follows
from general lemmas on updates of one row at a time: when the list has every
identifier that is in the table, no row is left that meets the condition.

## Main definitions

* `Scene`: The rows of the three tables, and the keys in use.
* `Here`: A state that looks like this to the only actor.
* `unsettledOf`, `activeOf`: The conditions of the two loops that revoke.
* `Credited`: The secret opens the only credential in force.

## Theorems

* `completes_statement`, `completes_ask`: An operation and what follows it.
* `revokePending_completes`, `lockEach_completes`, `revokeActive_completes`:
  The loops.
* `transaction_completes`: A transaction.
* `disconnectDevice_completes`: Closing the sockets of a device.
* `Here.insertEnrollment`, `Here.insertCredential`: An insertion under an
  identifier that is new.
* `issueCredential_completes`: A new credential is in force, and it is the
  only one.
-/

namespace RemoteControl.Devices

open Concurrency

/-- The rows of the three tables, and the keys that are in use. -/
structure Scene where
  devices : Uuid → Option Device
  enrollments : Uuid → Option DeviceEnrollment
  credentials : Uuid → Option DeviceCredential
  enrollmentIds : List Uuid
  credentialIds : List Uuid

/-- What the actor sees, while nobody else holds a row. -/
structure Here (a : Option CallId) (S : Scene) (w : World) : Prop where
  devices : w.devices.Sole a S.devices
  enrollments : w.enrollments.Sole a S.enrollments
  credentials : w.credentials.Sole a S.credentials
  enrollmentIds : w.enrollments.dom = S.enrollmentIds
  credentialIds : w.credentials.dom = S.credentialIds

/-- The rows that are there when nobody holds one. -/
def World.scene (w : World) : Scene :=
  { devices := w.devices.committed, enrollments := w.enrollments.committed
    credentials := w.credentials.committed, enrollmentIds := w.enrollments.dom
    credentialIds := w.credentials.dom }

/-- Nobody holds a row. This is so between the calls, when each runs alone. -/
structure Idle (w : World) : Prop where
  devices : ∀ k, (w.devices.row k).held = none
  enrollments : ∀ k, (w.enrollments.row k).held = none
  credentials : ∀ k, (w.credentials.row k).held = none

/-- Then the only actor sees the committed rows. -/
theorem Idle.here {w : World} (h : Idle w) : Here none w.scene w :=
  ⟨Table.sole_of_free h.devices, Table.sole_of_free h.enrollments,
    Table.sole_of_free h.credentials, rfl, rfl⟩

section Rules

variable {crypto : Crypto} {c : CallId} {ok : Env → Prop} {a : Option CallId} {S : Scene}
  {w w' : World} {α β : Type} {Q : α → World → Prop}

/-- An entry changes nothing the actor sees. -/
theorem Here.record (h : Here a S w) (ev : Event) : Here a S (w.record c ev) :=
  ⟨h.devices, h.enrollments, h.credentials, h.enrollmentIds, h.credentialIds⟩

/-! ## Programs -/

/-- A statement goes through and the rest completes from there. -/
theorem completes_statement {o : Op} {k : Resp o → Service α} :
    ((statement o).bind k).Completes (exec crypto c) ok Q w ↔ ∀ env, ok env → ∃ r w',
      exec crypto c env o w = some (r, w') ∧ (k r).Completes (exec crypto c) ok Q w' := Iff.rfl

/-- The same for what is answered at once. -/
theorem completes_ask {o : Op} {k : Resp o → Service α} :
    ((ask o).bind k).Completes (exec crypto c) ok Q w ↔ ∀ env, ok env → ∃ r w',
      exec crypto c env o w = some (r, w') ∧ (k r).Completes (exec crypto c) ok Q w' := Iff.rfl

/-- A value that was found is passed on. -/
theorem completes_found {b : β} {e : HttpException} {k : β → Service α} :
    ((orFail (some b) e).bind k).Completes (exec crypto c) ok Q w ↔
      (k b).Completes (exec crypto c) ok Q w := Iff.rfl

/-- A program, and what follows it. -/
theorem completes_then {p : Service β} {k : β → Service α} {P : β → World → Prop}
    (h : p.Completes (exec crypto c) ok P w)
    (hk : ∀ b w', P b w' → (k b).Completes (exec crypto c) ok Q w') :
    (p.bind k).Completes (exec crypto c) ok Q w :=
  completes_bind.mpr (h.mono hk)

/-- A transaction whose body keeps to itself. -/
theorem transaction_completes {body : Service α} {P : α → Scene → Prop} (h : Here none S w)
    (hbody : ∀ w', Here (some c) S w' → body.Completes (exec crypto c) ok
      (fun r w'' => ∃ S', Here (some c) S' w'' ∧ P r S') w') :
    (transaction body).Completes (exec crypto c) ok
      (fun r w' => ∃ S', Here none S' w' ∧ P r S') w := by
  unfold transaction
  refine completes_statement.mpr (fun env _ => ⟨_, _, rfl, ?_⟩)
  -- Inside the transaction it sees the same rows.
  have hbegin : Here (some c) S (w.record c (.ran .begin)) :=
    ⟨h.devices.begin c, h.enrollments.begin c, h.credentials.begin c, h.enrollmentIds,
      h.credentialIds⟩
  refine completes_then ((hbody _ hbegin).onError _) (fun r w' ⟨S', h', hr⟩ => ?_)
  refine completes_statement.mpr (fun env _ => ⟨_, _, rfl, S', ?_, hr⟩)
  -- They are committed with it.
  exact ⟨h'.devices.commit, h'.enrollments.commit, h'.credentials.commit, h'.enrollmentIds,
    h'.credentialIds⟩

/-! ## Enrollments -/

/-- The condition and the effect of `revokePendingEnrollments` on one row. -/
def unsettledOf (deviceId : Uuid) (e : DeviceEnrollment) : Bool :=
  decide (e.deviceId = deviceId) && e.isUnsettled

/-- A code that was revoked is not open. -/
theorem unsettledOf_revoked (deviceId : Uuid) (now : Timestamp) (e : DeviceEnrollment) :
    unsettledOf deviceId (e.revoke now) = false := by
  simp only [unsettledOf, DeviceEnrollment.revoke, DeviceEnrollment.isUnsettled,
    Option.isNone_some, Bool.and_false]

/-- The revocation of one code does not wait. -/
theorem Here.revokeEnrollment (h : Here (some c) S w) (env : Env) (id deviceId : Uuid)
    (now : Timestamp) :
    ∃ r w', exec crypto c env (.revokeEnrollment id deviceId now) w = some (r, w') ∧
      Here (some c) { S with
        enrollments := updateRow (unsettledOf deviceId) (fun e => e.revoke now)
          S.enrollments id } w' := by
  rcases h.enrollments.update id (unsettledOf deviceId) (fun e => e.revoke now)
    with ⟨t, ht, hsole, hdom⟩
  have ht' : w.enrollments.update (some c) id
      (fun e => decide (e.deviceId = deviceId) && e.isUnsettled)
      (fun e => { e with revokedAt := some now }) = some (_, t) := ht
  simp only [exec, runRevokeEnrollment, ht']
  exact ⟨_, _, rfl, h.devices, hsole, h.credentials, hdom.trans h.enrollmentIds, h.credentialIds⟩

/-- The loop that revokes codes is a fold over their identifiers. -/
theorem revokeEach_completes {deviceId : Uuid} {now : Timestamp} (ids : List Uuid)
    (h : Here (some c) S w) :
    (DeviceEnrollmentService.revokeEach deviceId now ids).Completes (exec crypto c) ok
      (fun _ w' => Here (some c) { S with
        enrollments := ids.foldl
          (updateRow (unsettledOf deviceId) (fun e => e.revoke now))
          S.enrollments } w') w := by
  induction ids generalizing S w with
  | nil => exact h
  | cons id ids ih =>
      refine completes_statement.mpr (fun env _ => ?_)
      rcases h.revokeEnrollment env id deviceId now with ⟨r, w', hx, hw'⟩
      exact ⟨r, w', hx, ih hw'⟩

/-- After `revokePendingEnrollments` no code of the device is open. -/
theorem revokePending_completes {deviceId : Uuid} {now : Timestamp} (h : Here (some c) S w) :
    (DeviceEnrollmentService.revokePendingEnrollments deviceId now).Completes (exec crypto c) ok
      (fun _ w' => ∃ f, Here (some c) { S with enrollments := f } w' ∧
        ∀ k e, f k = some e → unsettledOf deviceId e = false) w := by
  refine completes_statement.mpr (fun env _ => ⟨_, _, rfl, ?_⟩)
  refine (revokeEach_completes _ (h.record _)).mono
    (fun _ w' hw' => ⟨_, hw', updateRow_keys (unsettledOf_revoked deviceId now)
      (fun k e he hp => ?_)⟩)
  exact (h.enrollments.mem_keys (p := unsettledOf deviceId)).mpr ⟨e, he, hp⟩

/-- The lock of a code does not wait, and returns the row if it is pending. -/
theorem Here.lockEnrollment (h : Here (some c) S w) (env : Env) (id deviceId : Uuid)
    (now : Timestamp) :
    ∃ w', exec crypto c env (.lockEnrollment id deviceId now) w = some ((S.enrollments id).filter
        (fun e => decide (e.deviceId = deviceId) && e.isPending now), w') ∧
      Here (some c) S w' := by
  rcases h.enrollments.selectForUpdate id
    (fun e => decide (e.deviceId = deviceId) && e.isPending now) with ⟨t, ht, hsole, hdom⟩
  simp only [exec, ht]
  exact ⟨_, rfl, h.devices, hsole, h.credentials, hdom.trans h.enrollmentIds, h.credentialIds⟩

/-- The loop that locks codes returns the pending ones of the list. -/
theorem lockEach_completes {deviceId : Uuid} {now : Timestamp} (ids : List Uuid)
    (h : Here (some c) S w) :
    (DeviceEnrollmentService.lockEach deviceId now ids).Completes (exec crypto c) ok
      (fun rows w' => Here (some c) S w' ∧ rows = ids.flatMap (fun id =>
        ((S.enrollments id).filter
          (fun e => decide (e.deviceId = deviceId) && e.isPending now)).toList)) w := by
  induction ids generalizing w with
  | nil => exact ⟨h, rfl⟩
  | cons id ids ih =>
      refine completes_statement.mpr (fun env _ => ?_)
      rcases h.lockEnrollment env id deviceId now with ⟨w', hx, hw'⟩
      refine ⟨_, w', hx, completes_then (ih hw') (fun rest w'' hrest => ⟨hrest.1, ?_⟩)⟩
      rw [hrest.2, List.flatMap_cons]

/-- A code is inserted under an identifier that is new. -/
theorem Here.insertEnrollment (h : Here (some c) S w) (env : Env) (draft : DeviceEnrollmentDraft)
    (hnew : env.newId ∉ S.enrollmentIds) :
    ∃ w', exec crypto c env (.insertEnrollment draft) w =
        some (draft.toRow env.newId env.createdAt, w') ∧
      Here (some c) { S with
        enrollments := Function.update S.enrollments env.newId
          (some (draft.toRow env.newId env.createdAt))
        enrollmentIds := S.enrollmentIds ++ [env.newId] } w' := by
  rw [← h.enrollmentIds] at hnew
  rcases h.enrollments.insert ([] : List (UniqueIndex DeviceEnrollment Uuid))
    (draft.toRow env.newId env.createdAt) hnew (fun i hi => absurd hi List.not_mem_nil)
    with ⟨t, ht, hsole, hdom⟩
  simp only [exec, runInsertEnrollment, ht]
  exact ⟨_, rfl, h.devices, hsole, h.credentials, by rw [← h.enrollmentIds]; exact hdom,
    h.credentialIds⟩

/-- A code that was not used is used up. -/
theorem Here.consumeEnrollment (h : Here (some c) S w) (env : Env) (id : Uuid) (now : Timestamp) :
    ∃ w', exec crypto c env (.consumeEnrollment id now) w =
        some (((S.enrollments id).filter (fun e => e.usedAt.isNone)).isSome, w') ∧
      Here (some c) { S with
        enrollments := updateRow (fun e => e.usedAt.isNone) (fun e => e.use now)
          S.enrollments id } w' := by
  rcases h.enrollments.update id (fun e => e.usedAt.isNone) (fun e => e.use now)
    with ⟨t, ht, hsole, hdom⟩
  have ht' : w.enrollments.update (some c) id (fun e => e.usedAt.isNone)
      (fun e => { e with usedAt := some now }) = some (_, t) := ht
  simp only [exec, runUpdateEnrollment, ht']
  exact ⟨_, rfl, h.devices, hsole, h.credentials, hdom.trans h.enrollmentIds, h.credentialIds⟩

/-! ## Devices -/

/-- A device that is there is found. -/
theorem findDevice_completes {id : Uuid} {d : Device} (h : Here none S w)
    (hd : S.devices id = some d) :
    (statement (.findDevice id)).Completes (exec crypto c) ok
      (fun found w' => found = some d ∧ Here none S w' ∧ w'.sockets = w.sockets) w :=
  fun _ _ => ⟨_, _, rfl, by rw [h.devices.committed, hd], h.record _, rfl⟩

/-- A patch without a null for the column that admits none. -/
theorem Here.updateDevice (h : Here (some c) S w) (env : Env) (id : Uuid) {patch : DevicePatch}
    (hpatch : patch.isActive = none) :
    ∃ r w', exec crypto c env (.updateDevice id patch) w = some (.ok r, w') ∧
      Here (some c) { S with
        devices := updateRow (fun _ => true) (fun d => (patch.apply d).getD d) S.devices id }
        w' := by
  rcases h.devices.update id (fun _ => true) (fun d => (patch.apply d).getD d)
    with ⟨t, ht, hsole, _⟩
  simp only [exec, runUpdateDevice, hpatch, ht]
  exact ⟨_, _, rfl, hsole, h.enrollments, h.credentials, h.enrollmentIds, h.credentialIds⟩

/-- What an activation may change of a device. -/
theorem apply_keeps {patch : DevicePatch} (hpatch : patch.isActive = none) (d : Device) :
    ((patch.apply d).getD d).id = d.id ∧ ((patch.apply d).getD d).isActive = d.isActive := by
  simp only [DevicePatch.apply, hpatch, Option.getD_none, Option.getD_some, and_self]

/-! ## Credentials -/

/-- The credential is in force, and the device's. -/
def activeOf (deviceId : Uuid) (k : DeviceCredential) : Bool :=
  decide (k.deviceId = deviceId) && k.isActive

/-- A credential that was revoked is not in force. -/
theorem activeOf_revoked (deviceId : Uuid) (now : Timestamp) (k : DeviceCredential) :
    activeOf deviceId (k.revoke now) = false := by
  simp only [activeOf, DeviceCredential.revoke, DeviceCredential.isActive, Option.isNone_some,
    Bool.and_false]

/-- The revocation of one credential does not wait. -/
theorem Here.revokeCredential (h : Here (some c) S w) (env : Env) (id deviceId : Uuid)
    (now : Timestamp) :
    ∃ r w', exec crypto c env (.revokeCredential id deviceId now) w = some (r, w') ∧
      Here (some c) { S with
        credentials := updateRow (activeOf deviceId) (fun k => k.revoke now) S.credentials id }
        w' := by
  rcases h.credentials.update id (activeOf deviceId) (fun k => k.revoke now)
    with ⟨t, ht, hsole, hdom⟩
  have ht' : w.credentials.update (some c) id
      (fun k => decide (k.deviceId = deviceId) && k.isActive)
      (fun k => { k with revokedAt := some now }) = some (_, t) := ht
  simp only [exec, runUpdateCredential, ht']
  exact ⟨_, _, rfl, h.devices, h.enrollments, hsole, h.enrollmentIds,
    hdom.trans h.credentialIds⟩

/-- The loop that revokes credentials is a fold over their identifiers. -/
theorem revokeEachCredential_completes {deviceId : Uuid} {now : Timestamp} (ids : List Uuid)
    (h : Here (some c) S w) :
    (DeviceCredentialsService.revokeEach deviceId now ids).Completes (exec crypto c) ok
      (fun _ w' => Here (some c) { S with
        credentials := ids.foldl (updateRow (activeOf deviceId) (fun k => k.revoke now))
          S.credentials } w') w := by
  induction ids generalizing S w with
  | nil => exact h
  | cons id ids ih =>
      refine completes_statement.mpr (fun env _ => ?_)
      rcases h.revokeCredential env id deviceId now with ⟨r, w', hx, hw'⟩
      exact ⟨r, w', hx, ih hw'⟩

/-- After `revokeActiveCredentials` no credential of the device is in force. -/
theorem revokeActive_completes {deviceId : Uuid} {now : Timestamp} (h : Here (some c) S w) :
    (DeviceCredentialsService.revokeActiveCredentials deviceId now).Completes (exec crypto c) ok
      (fun _ w' => ∃ f, Here (some c) { S with credentials := f } w' ∧
        ∀ k x, f k = some x → activeOf deviceId x = false) w := by
  refine completes_statement.mpr (fun env _ => ⟨_, _, rfl, ?_⟩)
  refine (revokeEachCredential_completes _ (h.record _)).mono
    (fun _ w' hw' => ⟨_, hw', updateRow_keys (activeOf_revoked deviceId now) (fun k x hx hp => ?_)⟩)
  exact (h.credentials.mem_keys (p := activeOf deviceId)).mpr ⟨x, hx, hp⟩

/-- A new credential of a device that has none in force is not refused. -/
theorem no_clash {f : Uuid → Option DeviceCredential} {row : DeviceCredential}
    (hnone : ∀ k x, f k = some x → activeOf row.deviceId x = false) :
    ∀ i ∈ deviceCredentialIndexes, ∀ k x, f k = some x → i.clash row x = false := by
  intro i hi k x hx
  rw [List.mem_singleton.mp hi, Table.clash_eq_false]
  by_cases hrow : row.isActive = true
  · refine .inr (fun hkey => ?_)
    simp only [hrow, if_true] at hkey
    -- A row with the same key would be one in force.
    have hx' := hnone k x hx
    by_cases hactive : x.isActive = true
    · rw [if_pos hactive, Option.some.injEq] at hkey
      simp only [activeOf, hkey, hactive, decide_true, Bool.and_self, reduceCtorEq] at hx'
    · simp only [hactive, Bool.false_eq_true, if_false, reduceCtorEq] at hkey
  · exact .inl (if_neg hrow)

/-- The only credential in force is the one that is found. -/
theorem findActiveCredential_completes {deviceId : Uuid} {x : DeviceCredential} (h : Here none S w)
    (hx : OnlyRow (activeOf deviceId) S.credentials x.id x) :
    (statement (.findActiveCredential deviceId)).Completes (exec crypto c) ok
      (fun found w' => found = some x ∧ Here none S w' ∧ w'.sockets = w.sockets) w :=
  fun _ _ => ⟨_, _, rfl, h.credentials.scan_single hx, h.record _, rfl⟩

/-- A credential is inserted under an identifier that is new, and the index does
    not refuse it when the device has none in force. -/
theorem Here.insertCredential (h : Here (some c) S w) (env : Env) (draft : DeviceCredentialDraft)
    (hnew : env.newId ∉ S.credentialIds)
    (hnone : ∀ k x, S.credentials k = some x → activeOf draft.deviceId x = false) :
    ∃ w', exec crypto c env (.insertCredential draft) w =
        some (.ok (draft.toRow env.newId env.createdAt), w') ∧
      Here (some c) { S with
        credentials := Function.update S.credentials env.newId
          (some (draft.toRow env.newId env.createdAt))
        credentialIds := S.credentialIds ++ [env.newId] } w' := by
  rw [← h.credentialIds] at hnew
  rcases h.credentials.insert deviceCredentialIndexes (draft.toRow env.newId env.createdAt) hnew
    (no_clash hnone) with ⟨t, ht, hsole, hdom⟩
  simp only [exec, runInsertCredential, ht]
  exact ⟨_, rfl, h.devices, h.enrollments, hsole, h.enrollmentIds,
    by rw [← h.credentialIds]; exact hdom⟩

/-- The use of a credential is noted. -/
theorem Here.touchCredential (h : Here none S w) (env : Env) (id : Uuid) (now : Timestamp) :
    ∃ r w', exec crypto c env (.touchCredential id now) w = some (r, w') ∧
      Here none { S with
        credentials := updateRow (fun _ => true) (fun k => { k with lastUsedAt := some now })
          S.credentials id } w' := by
  rcases (h.credentials.begin c).update id (fun _ => true)
    (fun k => { k with lastUsedAt := some now }) with ⟨t, ht, hsole, hdom⟩
  simp only [exec, runTouchCredential, ht]
  exact ⟨_, _, rfl, h.devices, h.enrollments, hsole.commit, h.enrollmentIds,
    hdom.trans h.credentialIds⟩

/-- The secret opens the only credential of the device that is in force. -/
structure Credited (crypto : Crypto) (S : Scene) (deviceId : Uuid) (deviceSecret : String)
    (x : DeviceCredential) : Prop where
  single : OnlyRow (activeOf deviceId) S.credentials x.id x
  secret : DeviceCredentialsService.matchesSecret crypto deviceSecret x.secretHash = true

/-- The columns of a credential for this secret. -/
def draftFor (crypto : Crypto) (deviceId : Uuid) (deviceSecret : String) : DeviceCredentialDraft :=
  { deviceId, secretHash := DeviceCredentialsService.hashSecret crypto deviceSecret
    lastUsedAt := none, revokedAt := none }

/-- A new credential is the only one in force. -/
theorem credited_of_draft {f : Uuid → Option DeviceCredential} {deviceId : Uuid}
    (hnone : ∀ k x, f k = some x → activeOf deviceId x = false) (deviceSecret : String)
    (id : Uuid) (createdAt : Timestamp)
    (hS : S.credentials = Function.update f id
      (some ((draftFor crypto deviceId deviceSecret).toRow id createdAt))) :
    Credited crypto S deviceId deviceSecret
      ((draftFor crypto deviceId deviceSecret).toRow id createdAt) := by
  refine ⟨?_, decide_eq_true rfl⟩
  rw [hS]
  -- It is active, and no other one of the device is.
  refine OnlyRow.insert hnone ?_
  simp only [activeOf, draftFor, DeviceCredentialDraft.toRow, DeviceCredential.isActive,
    decide_true, Option.isNone_none, Bool.and_self]

/-- A credential is issued: after the revocation the device has none in force, so
    the insertion is not refused. -/
theorem issueCredential_completes {deviceId : Uuid} {now : Timestamp} (h : Here (some c) S w)
    (hok : ∀ env, ok env → env.newId ∉ S.credentialIds) :
    (DeviceCredentialsService.issueCredential crypto deviceId now).Completes (exec crypto c) ok
      (fun issued w' => ∃ S', Here (some c) S' w' ∧ S'.devices = S.devices ∧
        ∃ x, Credited crypto S' deviceId issued.deviceSecret x) w := by
  refine completes_then (revokeActive_completes h) (fun _ w₁ ⟨f, h₁, hnone⟩ => ?_)
  refine completes_ask.mpr (fun env₁ _ => ⟨_, _, rfl, ?_⟩)
  refine completes_statement.mpr (fun env henv => ?_)
  rcases Here.insertCredential (h₁.record _) env (draftFor crypto deviceId env₁.bytes)
    (hok env henv) hnone with ⟨w₂, hx, h₂⟩
  exact ⟨_, w₂, hx, _, h₂, rfl, _, credited_of_draft hnone env₁.bytes env.newId env.createdAt rfl⟩

/-! ## Sockets -/

/-- The end of a connection changes no row. -/
theorem handleDisconnect_completes (h : Here a S w) (client : CallId) :
    (DevicesGateway.handleDisconnect client).Completes (exec crypto c) ok
      (fun _ w' => Here a S w') w := by
  refine completes_ask.mpr (fun env _ => ⟨_, _, rfl, ?_⟩)
  cases (w.sockets client).device with
  | none => exact h.record _
  | some context =>
      refine completes_ask.mpr (fun env _ => ⟨_, _, rfl, ?_⟩)
      exact ⟨h.devices, h.enrollments, h.credentials, h.enrollmentIds, h.credentialIds⟩

/-- Nor does it to disconnect a list of sockets. -/
theorem disconnectEach_completes (sockets : List CallId) (h : Here a S w) :
    (DevicePresenceService.disconnectEach sockets).Completes (exec crypto c) ok
      (fun _ w' => Here a S w') w := by
  induction sockets generalizing w with
  | nil => exact h
  | cons socket sockets ih =>
      refine completes_then (P := fun _ w' => Here a S w') ?_ (fun _ w' hw' => ih hw')
      refine completes_ask.mpr (fun env _ => ⟨_, _, rfl, ?_⟩)
      -- The socket is closed, which is no row.
      have hclosed : Here a S ((closeSocket w socket (env.atOnce socket)).2.record c
          (.ran (.disconnect socket))) :=
        ⟨h.devices, h.enrollments, h.credentials, h.enrollmentIds, h.credentialIds⟩
      split
      · exact handleDisconnect_completes hclosed socket
      · exact hclosed

/-- Nor to close the sockets of a device. -/
theorem disconnectDevice_completes (h : Here a S w) (deviceId : Uuid) :
    (DevicePresenceService.disconnectDevice deviceId).Completes (exec crypto c) ok
      (fun _ w' => Here a S w') w := by
  refine completes_ask.mpr (fun env _ => ⟨_, _, rfl, ?_⟩)
  refine completes_then (P := fun _ w' => Here a S w') (disconnectEach_completes _ ?_)
    (fun _ w' hw' => hw')
  exact ⟨h.devices, h.enrollments, h.credentials, h.enrollmentIds, h.credentialIds⟩

end Rules

end RemoteControl.Devices

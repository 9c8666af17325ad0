import RemoteControl.Theory.DeviceRecords
import RemoteControl.Theory.Sockets

/-!
# What a Call of the Devices has Done

The events of a call, newest first, and what they are before each of the three
operations from which access to a device follows: the insertion of a code, the
insertion of a credential, and the signature of a token. All other operations
are routine, and a program that uses no others is dealt with at once
(`routine_along`).

The assertions of `Theory.DeviceCalls` are about what a call has come to know,
and forget the order. Here the whole list of its events is kept, so that a
program can be followed as it is written: after each operation there is one
event more, of which `Leaves` says what it tells about the answer. The other
calls do not matter, since they add nothing to this list.

Of the seven calls only three have to be followed closely, and of these only
the part before the operation in question. What comes after, or between, is
known to use routine operations only (`Prog.Uses`), and then it is enough that
the older events are still there and that no insertion or signature was added.

## Main definitions

* `own`: The events of a call.
* `Invites`, `Found`, `Admits`, `LogsIn`: What comes before a code, a
  credential and a token.
* `InOrder`: What a call has done before its next operation.
* `Returned`, `Failed`: What it has done when it is over.
* `Op.IsRoutine`, `Clean`: The operations from which no access follows, and a
  call that has used no others so far.
* `Keeps`: A program goes on in order from these events.
* `TurnedAway`: Why a login fails.

## Theorems

* `handle_along`: Every handler keeps to it.
* `orderly`, `returned`, `failed`: So does every run.
* `event_at`, `events_at`, `did_at`: The events of a call in the history.
* `routine_along`: A program that uses routine operations only.
* `createEnrollmentCode_along`, `activate_along`, `login_along`: The three
  calls that give access.
-/

namespace RemoteControl.Devices

open Concurrency

/-! ## Events -/

/-- What a call has left in the history. -/
def own (c : CallId) (l : List Entry) : List Event := (marksOf Entry.call c l).map Entry.event

section Own

variable {c : CallId} {e : Entry} {ev : Event} {l l' : List Entry}

/-- The newest entry is its own. -/
theorem own_self (h : e.call = c) : own c (e :: l) = e.event :: own c l := by
  rw [own, marksOf_own h, List.map_cons]
  rfl

/-- The newest entry is of another call. -/
theorem own_other (h : e.call ≠ c) : own c (e :: l) = own c l := by
  rw [own, marksOf_other h]
  rfl

/-- At an earlier point of the history a call has fewer events. -/
theorem own_suffix (h : l' <:+ l) : own c l' <:+ own c l := (marksOf_suffix h).map _

/-- Where in the history the newest event of a call is. -/
theorem event_at {tr : List Event} (h : own c l = ev :: tr) :
    ∃ l', (⟨c, ev⟩ : Entry) :: l' <:+ l ∧ own c l' = tr := by
  rcases List.map_eq_cons_iff.mp h with ⟨⟨d, ev'⟩, rest, hmarks, rfl, rfl⟩
  rcases marksOf_cons hmarks with ⟨l', hl', hrest, rfl⟩
  exact ⟨l', hl', congrArg (List.map Entry.event) hrest⟩

/-- The older events of a call are those before some point. -/
theorem events_at {newer older : List Event} (h : own c l = newer ++ older) :
    ∃ l', l' <:+ l ∧ own c l' = older := by
  rcases List.map_eq_append_iff.mp h with ⟨newer', older', hmarks, rfl, rfl⟩
  rcases marksOf_append hmarks with ⟨l', hl', holder⟩
  exact ⟨l', hl', congrArg (List.map Entry.event) holder⟩

/-- An event of the call is an entry of the history. -/
theorem did_at (h : ev ∈ own c l) : ∃ l', (⟨c, ev⟩ : Entry) :: l' <:+ l := by
  rcases List.mem_map.mp h with ⟨⟨d, ev'⟩, hmem, rfl⟩
  rcases mem_marksOf.mp hmem with ⟨hin, rfl⟩
  exact exists_suffix hin

/-- An entry of the history is an event of its call. -/
theorem did_of_mem (h : (⟨c, ev⟩ : Entry) ∈ l) : ev ∈ own c l :=
  List.mem_map.mpr ⟨_, mem_marksOf.mpr ⟨h, rfl⟩, rfl⟩

end Own

/-! ## What comes before -/

/-- The operations from which no access follows. -/
def Op.IsRoutine : Op → Prop
  | .insertEnrollment _ => False
  | .insertCredential _ => False
  | .signToken _ => False
  | _ => True

/-- None of the others so far. -/
def Clean (tr : List Event) : Prop := ∀ o, .ran o ∈ tr → o.IsRoutine

section InOrder

variable (crypto : Crypto)

/-- Before a code is stored, the device was read and was active, and the end
    of the validity was computed from the time. -/
structure Invites (deviceId : Uuid) (tr : List Event) (draft : DeviceEnrollmentDraft)
    (code : String) (d : Device) (now : Timestamp) : Prop where
  shown : .shownDevice d ∈ tr
  id : d.id = deviceId
  active : d.isActive = true
  told : .told now ∈ tr
  digits : ∃ n < 1000000, code = DeviceEnrollmentService.padCode n
  device : draft.deviceId = d.id
  hash : ∃ salt, draft.codeHash = crypto.hash code salt
  expires : draft.expiresAt = now + DeviceEnrollmentService.codeTtlMinutes * 60000

/-- The device was read and was active, and an enrollment of it was locked
    while it was pending, whose code was given. -/
structure Found (dto : ActivateDeviceDto) (tr : List Event) (d : Device) (e : DeviceEnrollment)
    (now : Timestamp) : Prop where
  shown : .shownDevice d ∈ tr
  publicId : d.publicId = dto.publicId
  active : d.isActive = true
  told : .told now ∈ tr
  found : .found e ∈ tr
  owned : e.deviceId = d.id
  pending : e.isPending now = true
  code : crypto.compare dto.code e.codeHash = true

/-- All of this comes before a credential is stored. -/
structure Admits (dto : ActivateDeviceDto) (tr : List Event) (draft : DeviceCredentialDraft)
    (deviceSecret : String) (d : Device) (e : DeviceEnrollment) (now : Timestamp) : Prop
    extends Found crypto dto tr d e now where
  device : draft.deviceId = d.id
  secret : draft.secretHash = DeviceCredentialsService.hashSecret crypto deviceSecret

/-- What a login goes by. -/
structure LogsIn (dto : DeviceLoginDto) (d : Device) (k : DeviceCredential) : Prop where
  id : d.id = dto.deviceId
  active : d.isActive = true
  owned : k.deviceId = d.id
  secret : DeviceCredentialsService.matchesSecret crypto dto.deviceSecret k.secretHash = true

/-- The payload of the token that a login signs. -/
def tokenFor (d : Device) (k : DeviceCredential) : DeviceJwtPayload :=
  { sub := d.id, tokenType := deviceTokenType, credentialId := k.id }

/-- What a call has done before its next operation. -/
def InOrder (call : Call) (tr : List Event) : Op → Prop
  | .insertEnrollment draft => Clean tr ∧ ∃ deviceId code d now,
    call = .createEnrollmentCode deviceId ∧ Invites crypto deviceId tr draft code d now
  | .insertCredential draft => Clean tr ∧ ∃ dto deviceSecret d e now,
    call = .activate dto ∧ Admits crypto dto tr draft deviceSecret d e now
  | .signToken payload => ∃ dto d k now used, call = .login dto ∧ LogsIn crypto dto d k ∧
    payload = tokenFor d k ∧ tr = [used, .told now, .shownCredential k, .shownDevice d]
  | _ => True

/-- What a login answers. -/
def loginResponse (d : Device) (token : String) : DeviceLoginResponse :=
  { id := d.id, publicId := d.publicId, name := d.name, isActive := d.isActive, token }

/-- The credential whose secret an activation hands out was stored. -/
def HandsOut (dto : ActivateDeviceDto) (tr : List Event) (a : DeviceActivationResponse) : Prop :=
  ∃ draft d e now, Admits crypto dto tr draft a.deviceSecret d e now ∧
    .ran (.insertCredential draft) ∈ tr ∧ a.deviceId = d.id ∧ a.publicId = d.publicId ∧
    a.name = d.name

/-- What a call has done that returned. -/
def Returned (call : Call) (tr : List Event) (r : Response) : Prop :=
  match call with
  | .createEnrollmentCode deviceId => ∃ draft code d now,
    Invites crypto deviceId tr draft code d now ∧ .ran (.insertEnrollment draft) ∈ tr ∧
    r = .enrollmentCode { deviceId := d.id, publicId := d.publicId, enrollmentCode := code
                          expiresAt := draft.expiresAt }
  | .activate dto => ∃ a, HandsOut crypto dto tr a ∧ r = .activation a
  | .login dto => ∃ d k now used iat, LogsIn crypto dto d k ∧
    tr = [.ran (.signToken (tokenFor d k)), used, .told now, .shownCredential k, .shownDevice d] ∧
    r = .token (loginResponse d (crypto.sign (tokenFor d k) iat))
  | _ => True

/-- Why a login turns away. -/
inductive TurnedAway (dto : DeviceLoginDto) : List Event → Prop where
  | unknown : TurnedAway dto [.ran (.findDevice dto.deviceId)]
  | inactive (d : Device) (hid : d.id = dto.deviceId) (h : d.isActive = false) :
      TurnedAway dto [.shownDevice d]
  | unactivated (d : Device) (hid : d.id = dto.deviceId) (h : d.isActive = true) :
      TurnedAway dto [.ran (.findActiveCredential d.id), .shownDevice d]
  | mismatch (d : Device) (k : DeviceCredential) (hid : d.id = dto.deviceId)
      (h : d.isActive = true) (howner : k.deviceId = d.id)
      (hno : DeviceCredentialsService.matchesSecret crypto dto.deviceSecret k.secretHash = false) :
      TurnedAway dto [.shownCredential k, .shownDevice d]

/-- What a call has done that threw. -/
def Failed (call : Call) (tr : List Event) (e : HttpException) : Prop :=
  match call with
  | .login dto => TurnedAway crypto dto tr ∧ e = DeviceAuthService.invalidCredentials
  | _ => True

end InOrder

/-! ## The handlers -/

variable {crypto : Crypto} {call : Call} {tr : List Event}

/-- Where the program goes from here, every operation is in order, and it ends
    in `Q` or `E`. -/
def Keeps {α : Type} (crypto : Crypto) (call : Call) (Q : List Event → α → Prop)
    (E : List Event → HttpException → Prop) (p : Service α) (tr : List Event) : Prop :=
  p.Along (Leaves crypto) (InOrder crypto call) Q E tr

section Keeps

variable {α β : Type} {Q : List Event → α → Prop} {E : List Event → HttpException → Prop}

/-- An operation that is answered at once, and what follows it. -/
theorem Keeps.ask {o : Op} {k : Resp o → Service α} (ho : InOrder crypto call tr o)
    (hk : ∀ r ev, Leaves crypto o r ev → Keeps crypto call Q E (k r) (ev :: tr)) :
    Keeps crypto call Q E ((Devices.ask o).bind k) tr := ⟨ho, hk⟩

/-- A statement, and what follows it. -/
theorem Keeps.statement {o : Op} {k : Resp o → Service α} (ho : InOrder crypto call tr o)
    (hk : ∀ r ev, Leaves crypto o r ev → Keeps crypto call Q E (k r) (ev :: tr)) :
    Keeps crypto call Q E ((Devices.statement o).bind k) tr := ⟨ho, hk⟩

/-- A program, and what follows it. -/
theorem Keeps.bind {p : Service α} {f : α → Service β} {Q' : List Event → β → Prop}
    (h : Keeps crypto call Q E p tr) (hf : ∀ tr a, Q tr a → Keeps crypto call Q' E (f a) tr) :
    Keeps crypto call Q' E (p.bind f) tr := Prog.Along.bind h hf

/-- What a program returns may be wrapped. -/
theorem Keeps.map {p : Service α} {f : α → β} {Q' : List Event → β → Prop}
    (h : Keeps crypto call (fun tr a => Q' tr (f a)) E p tr) :
    Keeps crypto call Q' E (f <$> p) tr := Keeps.bind h (fun _ _ hQ => hQ)

/-- A value that may be missing. -/
theorem Keeps.orFail {found : Option β} {e : HttpException} {k : β → Service α}
    (hnone : found = none → E tr e) (hk : ∀ b, found = some b → Keeps crypto call Q E (k b) tr) :
    Keeps crypto call Q E ((Devices.orFail found e).bind k) tr := by
  cases found with
  | none => exact hnone rfl
  | some b => exact hk b rfl

/-- A choice of the program is made by what it has read. -/
theorem Keeps.ite {P : Prop} [Decidable P] {p q : Service α} (hp : P → Keeps crypto call Q E p tr)
    (hq : ¬ P → Keeps crypto call Q E q tr) :
    Keeps crypto call Q E (if P then p else q) tr := by
  split
  · rename_i h
    exact hp h
  · rename_i h
    exact hq h

/-- A program between the two ends of a transaction, when nothing is said about
    errors. -/
theorem Keeps.transaction {body : Service β} {k : β → Service α} (Q' : List Event → β → Prop)
    (hbody : ∀ ev, Leaves crypto .begin () ev →
      Keeps crypto call Q' (fun _ _ => True) body (ev :: tr))
    (hk : ∀ tr b ev, Q' tr b → Leaves crypto .commit () ev →
      Keeps crypto call Q (fun _ _ => True) (k b) (ev :: tr)) :
    Keeps crypto call Q (fun _ _ => True) ((Devices.transaction body).bind k) tr := by
  have htransaction : Devices.transaction body = (Devices.statement .begin).bind (fun _ =>
      (body.onError (fun e => (Devices.statement .rollback).bind (fun _ => .throw e))).bind
        (fun b => (Devices.statement .commit).bind (fun _ => .ret b))) := rfl
  rw [htransaction, Prog.bind_assoc]
  refine Keeps.statement trivial (fun _ ev hev => ?_)
  rw [Prog.bind_assoc]
  refine Keeps.bind (Prog.Along.onError (hbody ev hev) (fun tr e _ => ?_)) (fun tr b hb => ?_)
  · -- The rollback after an error.
    exact Keeps.statement trivial (fun _ _ _ => trivial)
  · -- The commit after the body.
    rw [Prog.bind_assoc]
    exact Keeps.statement trivial (fun _ ev hev => hk tr b ev hb hev)

end Keeps

/-! ## Routine -/

/-- A routine operation is always in order. -/
theorem inOrder_routine {o : Op} (ho : o.IsRoutine) : InOrder crypto call tr o := by
  cases o
  case insertEnrollment => exact ho.elim
  case insertCredential => exact ho.elim
  case signToken => exact ho.elim
  all_goals trivial

/-- One more routine operation leaves it clean. -/
theorem Clean.cons {o : Op} {r : Resp o} {ev : Event} (h : Clean tr) (ho : o.IsRoutine)
    (hev : Leaves crypto o r ev) : Clean (ev :: tr) := by
  intro o' hmem
  rcases List.mem_cons.mp hmem with rfl | hmem
  -- An event that names an operation names the one that has left it.
  · rw [hev.ran]
    exact ho
  · exact h o' hmem

/-- Routine takes nothing back, and inserts and signs nothing. -/
theorem routine_along {α : Type} {p : Service α} (hp : p.Uses Op.IsRoutine) :
    Keeps crypto call (fun tr' _ => tr ⊆ tr' ∧ (Clean tr → Clean tr'))
      (fun tr' _ => tr ⊆ tr' ∧ (Clean tr → Clean tr')) p tr := by
  refine Prog.Along.uses (K := fun tr' => tr ⊆ tr' ∧ (Clean tr → Clean tr')) hp
    (fun o r ev tr' ho hev h => ?_) (fun o tr' ho _ => inOrder_routine ho)
    ⟨List.Subset.refl _, fun h => h⟩
  exact ⟨fun x hx => List.mem_cons_of_mem _ (h.1 hx), fun hclean => (h.2 hclean).cons ho hev⟩

section Uses

/-- A routine statement. -/
theorem routine_statement {o : Op} (ho : o.IsRoutine) : (statement o).Uses Op.IsRoutine :=
  ⟨ho, fun _ => trivial⟩

/-- A routine operation that is answered at once. -/
theorem routine_ask {o : Op} (ho : o.IsRoutine) : (ask o).Uses Op.IsRoutine :=
  ⟨ho, fun _ => trivial⟩

/-- To fail for a missing value is routine. -/
theorem routine_orFail {α : Type} (found : Option α) (e : HttpException) :
    (orFail found e).Uses Op.IsRoutine := by
  cases found <;> trivial

/-- A loop over the rows of a statement. -/
theorem routine_each {α : Type} {each : List α → Service Unit}
    (hnil : (each []).Uses Op.IsRoutine)
    (hcons : ∀ a as, (each as).Uses Op.IsRoutine → (each (a :: as)).Uses Op.IsRoutine) :
    ∀ as, (each as).Uses Op.IsRoutine := by
  intro as
  induction as with
  | nil => exact hnil
  | cons a as ih => exact hcons a as ih

/-- To revoke open codes is routine: it makes none. -/
theorem revokePendingEnrollments_routine (deviceId : Uuid) (now : Timestamp) :
    (DeviceEnrollmentService.revokePendingEnrollments deviceId now).Uses Op.IsRoutine :=
  .bind (routine_statement (by trivial)) (routine_each trivial
    (fun _ _ h => .bind (routine_statement (by trivial)) (fun _ => h)))

/-- To revoke credentials is routine. -/
theorem revokeActiveCredentials_routine (deviceId : Uuid) (now : Timestamp) :
    (DeviceCredentialsService.revokeActiveCredentials deviceId now).Uses Op.IsRoutine :=
  .bind (routine_statement (by trivial)) (routine_each trivial
    (fun _ _ h => .bind (routine_statement (by trivial)) (fun _ => h)))

/-- So is the update of the device by an activation. -/
theorem updateTechnicalInfo_routine (deviceId : Uuid) (technicalInfo : DevicePatch) :
    (DeviceEnrollmentService.updateTechnicalInfo deviceId technicalInfo).Uses Op.IsRoutine := by
  unfold DeviceEnrollmentService.updateTechnicalInfo
  split
  · trivial
  · refine .bind (routine_statement (by trivial)) (fun saved => ?_)
    cases saved <;> trivial

/-- So is the comparison for show. -/
theorem burnVerificationTime_routine (code : String) :
    (DeviceEnrollmentService.burnVerificationTime code).Uses Op.IsRoutine :=
  .bind (routine_statement (by trivial)) (fun _ =>
    .bind (routine_statement (by trivial)) (fun _ => trivial))

/-- So is counting a failed attempt. -/
theorem registerFailedAttempts_routine (now : Timestamp) : ∀ pending : List DeviceEnrollment,
    (DeviceEnrollmentService.registerFailedAttempts now pending).Uses Op.IsRoutine :=
  routine_each trivial (fun _ _ h => .bind (routine_statement (by trivial)) (fun _ => h))

/-- So is the end of a connection. -/
theorem handleDisconnect_routine (client : CallId) :
    (DevicesGateway.handleDisconnect client).Uses Op.IsRoutine := by
  refine .bind (routine_ask (by trivial)) (fun context => ?_)
  cases context with
  | none => trivial
  | some context => exact .bind (routine_ask (by trivial)) (fun _ => trivial)

/-- So is disconnecting a socket. -/
theorem disconnectSocket_routine (socket : CallId) :
    (disconnectSocket socket).Uses Op.IsRoutine := by
  refine .bind (routine_ask (by trivial)) (fun fires => ?_)
  split
  · exact handleDisconnect_routine socket
  · trivial

/-- So is closing the sockets of a device. -/
theorem disconnectDevice_routine (deviceId : Uuid) :
    (DevicePresenceService.disconnectDevice deviceId).Uses Op.IsRoutine := by
  have heach : ∀ sockets, (DevicePresenceService.disconnectEach sockets).Uses Op.IsRoutine :=
    routine_each trivial (fun _ _ h => .bind (disconnectSocket_routine _) (fun _ => h))
  exact .bind (routine_ask (by trivial)) (fun sockets => .bind (heach sockets) (fun _ => trivial))

/-- An administrative update gives no access, whatever it changes. -/
theorem update_routine (id : Uuid) (dto : DevicePatch) :
    (DevicesService.update id dto).Uses Op.IsRoutine := by
  have hresponse : ∀ device, (DevicesService.toResponse device).Uses Op.IsRoutine :=
    fun device => .bind (routine_ask (by trivial)) (fun _ => trivial)
  -- The device is read twice, once before the changes and once by the repository.
  refine .bind (.bind (routine_statement (by trivial)) (fun _ => trivial)) (fun device => ?_)
  refine .bind (routine_orFail _ _) (fun device => .bind (.bind (routine_statement (by trivial))
    (fun row => ?_)) (fun updated => ?_))
  · cases row with
    | none => trivial
    | some row =>
        refine (?_ : (DevicesService.saveChanges device (device.diff row)).Uses Op.IsRoutine)
        unfold DevicesService.saveChanges
        split
        · trivial
        · refine .bind (routine_statement (by trivial)) (fun _ => .bind (.onError (.bind
            (routine_statement (by trivial)) (fun saved => ?_)) (fun _ => ?_)) (fun _ => ?_))
          · cases saved <;> trivial
          · exact .bind (routine_statement (by trivial)) (fun _ => trivial)
          · exact .bind (routine_statement (by trivial)) (fun _ => trivial)
  · split
    · exact hresponse _
    · exact .bind (disconnectDevice_routine _) (fun _ => hresponse _)

/-- To let a token through signs no other. -/
theorem authorizePayload_routine (payload : DeviceJwtPayload) :
    (DeviceAuthService.authorizePayload payload).Uses Op.IsRoutine := by
  unfold DeviceAuthService.authorizePayload
  split
  · trivial
  · refine .bind (routine_statement (by trivial)) (fun device => ?_)
    refine .bind (routine_orFail _ _) (fun device => ?_)
    split
    · trivial
    · refine .bind (routine_statement (by trivial)) (fun credential => ?_)
      split <;> trivial

/-- A request with a token. -/
theorem authorize_routine (token : String) :
    (DeviceJwtStrategy.authenticate token).Uses Op.IsRoutine := by
  refine .bind (routine_statement (by trivial)) (fun payload => ?_)
  refine .bind (routine_orFail _ _) (fun payload => ?_)
  exact .bind (authorizePayload_routine _) (fun _ => trivial)

/-- A connection, from the handshake to the registration. -/
theorem connect_routine (client : CallId) (token : Option String) :
    (DevicesGateway.connect client token).Uses Op.IsRoutine := by
  refine .bind (.onError (.bind ?_ (fun _ => trivial)) (fun _ => trivial)) (fun accepted =>
    .bind trivial (fun _ => ?_))
  · refine .bind (routine_orFail _ _) (fun token => .bind (.bind (routine_statement (by trivial))
      (fun payload => .bind (routine_orFail _ _) authorizePayload_routine)) (fun _ => ?_))
    exact routine_ask (by trivial)
  · split
    · refine .bind (routine_ask (by trivial)) (fun opened => ?_)
      split
      · refine .bind (routine_ask (by trivial)) (fun context => ?_)
        cases context with
        | none => exact disconnectSocket_routine client
        | some context =>
            refine .bind trivial (fun _ => .bind (routine_ask (by trivial)) (fun _ =>
              .bind (routine_ask (by trivial)) (fun (disconnected : Bool) => ?_)))
            cases disconnected with
            | true => exact .bind (routine_ask (by trivial)) (fun _ => trivial)
            | false => exact routine_ask (by trivial)
      · trivial
    · trivial

/-- A disconnection. -/
theorem onDisconnect_routine (client : CallId) :
    (DevicesGateway.onDisconnect client).Uses Op.IsRoutine := by
  refine .bind (routine_ask (by trivial)) (fun fires => ?_)
  split
  · exact handleDisconnect_routine client
  · trivial

end Uses

/-! ## The calls -/

/-- A call begins clean. -/
theorem clean_nil : Clean [] := fun _ h => absurd h List.not_mem_nil

/-- What came before stays, with more events. -/
theorem Invites.mono {deviceId : Uuid} {tr' : List Event} {draft : DeviceEnrollmentDraft}
    {code : String} {d : Device} {now : Timestamp}
    (h : Invites crypto deviceId tr draft code d now) (hsub : tr ⊆ tr') :
    Invites crypto deviceId tr' draft code d now :=
  { h with shown := hsub h.shown, told := hsub h.told }

/-- Likewise for the locked enrollment. -/
theorem Found.mono {dto : ActivateDeviceDto} {tr' : List Event} {d : Device} {e : DeviceEnrollment}
    {now : Timestamp} (h : Found crypto dto tr d e now) (hsub : tr ⊆ tr') :
    Found crypto dto tr' d e now :=
  { h with shown := hsub h.shown, told := hsub h.told, found := hsub h.found }

/-- Likewise for what comes before a credential. -/
theorem Admits.mono {dto : ActivateDeviceDto} {tr' : List Event} {draft : DeviceCredentialDraft}
    {deviceSecret : String} {d : Device} {e : DeviceEnrollment} {now : Timestamp}
    (h : Admits crypto dto tr draft deviceSecret d e now) (hsub : tr ⊆ tr') :
    Admits crypto dto tr' draft deviceSecret d e now :=
  { h.toFound.mono hsub with device := h.device, secret := h.secret }

/-- A request for a code. Up to the transaction its events are known one by one;
    inside of it the open codes are revoked first, which is routine. -/
theorem createEnrollmentCode_along {deviceId : Uuid} :
    Keeps crypto (.createEnrollmentCode deviceId)
      (Returned crypto (.createEnrollmentCode deviceId)) (fun _ _ => True)
      (handle crypto c (.createEnrollmentCode deviceId)) [] := by
  refine Keeps.map (Keeps.bind (Q := fun tr (d : Device) => tr = [.shownDevice d] ∧
    d.id = deviceId) ?_ ?_)
  · refine Keeps.statement trivial (fun (found : Option Device) ev hev => ?_)
    cases found with
    | none => trivial
    | some d => exact ⟨by rw [hev.1]; rfl, hev.2 d rfl⟩
  rintro tr d ⟨rfl, hid⟩
  refine Keeps.ite (fun _ => trivial) (fun hactive => ?_)
  rw [Bool.not_eq_false] at hactive
  refine Keeps.bind (Q := fun tr code => ∃ n < 1000000, code = DeviceEnrollmentService.padCode n ∧
    tr = [.ran (.randomInt 0 1000000), .shownDevice d]) ?_ ?_
  · refine Keeps.ask trivial (fun (n : Nat) ev hev => ?_)
    rcases hev with ⟨rfl, m, rfl⟩
    exact ⟨0 + m % (1000000 - 0), by omega, rfl, rfl⟩
  rintro tr code ⟨n, hn, rfl, rfl⟩
  -- The code is made and hashed after the time was read.
  refine Keeps.ask trivial (fun (now : Timestamp) ev hev => ?_)
  cases hev
  refine Keeps.statement trivial (fun (codeHash : String) ev hev => ?_)
  rcases hev with ⟨rfl, salt, rfl⟩
  -- What is inserted is known from here on.
  let tr : List Event := [.ran (.bcryptHash (DeviceEnrollmentService.padCode n)), .told now,
    .ran (.randomInt 0 1000000), .shownDevice d]
  let draft : DeviceEnrollmentDraft :=
    { deviceId := d.id, codeHash := crypto.hash (DeviceEnrollmentService.padCode n) salt
      expiresAt := now + DeviceEnrollmentService.codeTtlMinutes * 60000, usedAt := none
      revokedAt := none }
  have hinvites : Invites crypto deviceId tr draft (DeviceEnrollmentService.padCode n) d now :=
    ⟨by simp only [tr, List.mem_cons, true_or, or_true], hid, hactive,
      by simp only [tr, List.mem_cons, true_or, or_true], ⟨n, hn, rfl⟩, rfl, ⟨salt, rfl⟩, rfl⟩
  have hclean : Clean tr := by
    intro o ho
    simp only [tr, List.mem_cons, Event.ran.injEq, reduceCtorEq, List.not_mem_nil, or_false,
      false_or] at ho
    rcases ho with rfl | rfl <;> trivial
  refine Keeps.transaction (fun tr' _ => tr ⊆ tr' ∧ .ran (.insertEnrollment draft) ∈ tr')
    (fun ev hev => ?_) (fun tr' row ev h _ => ?_)
  · refine Keeps.bind (Prog.Along.conseq (routine_along (revokePendingEnrollments_routine _ _))
      (fun _ _ h => h) (fun _ _ _ => trivial)) (fun tr' _ h => ?_)
    -- What was there at the beginning of the transaction is still there.
    have hsub : tr ⊆ tr' := fun x hx => h.1 (List.mem_cons_of_mem _ hx)
    refine Keeps.statement ⟨h.2 (hclean.cons (o := .begin) trivial hev), deviceId, _, d, now, rfl,
      hinvites.mono hsub⟩ (fun row ev hev => ?_)
    cases hev
    exact ⟨fun x hx => List.mem_cons_of_mem _ (hsub hx), List.mem_cons_self⟩
  · exact ⟨draft, _, d, now, hinvites.mono (fun x hx => List.mem_cons_of_mem _ (h.1 hx)),
      List.mem_cons_of_mem _ h.2, rfl⟩

/-- The rows that `lockEach` comes back with were found, and were pending. -/
theorem lockEach_along {deviceId : Uuid} {now : Timestamp} (ids : List Uuid) :
    Keeps crypto call (fun tr' rows => tr ⊆ tr' ∧ (Clean tr → Clean tr') ∧
        ∀ e ∈ rows, .found e ∈ tr' ∧ e.deviceId = deviceId ∧ e.isPending now = true)
      (fun _ _ => True) (DeviceEnrollmentService.lockEach deviceId now ids) tr := by
  induction ids generalizing tr with
  | nil => exact ⟨List.Subset.refl _, fun h => h, fun _ h => absurd h List.not_mem_nil⟩
  | cons id ids ih =>
      -- The first row, and then the rest of them.
      refine Keeps.statement trivial (fun (found : Option DeviceEnrollment) ev hev => ?_)
      refine Keeps.bind ih (fun tr' rows h => ?_)
      rcases h with ⟨hsub, hclean, hrows⟩
      refine ⟨fun x hx => hsub (List.mem_cons_of_mem _ hx),
        fun h => hclean (h.cons (o := .lockEnrollment id deviceId now) trivial hev),
        fun e he => ?_⟩
      rcases List.mem_append.mp he with he | he
      -- It is the row of this statement, or one of the others.
      · rw [Option.mem_toList] at he
        subst he
        exact ⟨hsub (by rw [hev.1]; exact List.mem_cons_self), hev.2 e rfl⟩
      · exact hrows e he

/-- The rows of `findPendingEnrollments` were all locked by it. -/
theorem findPendingEnrollments_along {deviceId : Uuid} {now : Timestamp} :
    Keeps crypto call (fun tr' rows => tr ⊆ tr' ∧ (Clean tr → Clean tr') ∧
        ∀ e ∈ rows, .found e ∈ tr' ∧ e.deviceId = deviceId ∧ e.isPending now = true)
      (fun _ _ => True) (DeviceEnrollmentService.findPendingEnrollments deviceId now) tr := by
  refine Keeps.statement trivial (fun (ids : List Uuid) ev hev => ?_)
  refine Prog.Along.conseq (lockEach_along ids) (fun tr' rows h => ?_) (fun _ _ _ => trivial)
  exact ⟨fun x hx => h.1 (List.mem_cons_of_mem _ hx),
    fun hclean => h.2.1 (hclean.cons (o := .pendingEnrollments deviceId now) trivial hev), h.2.2⟩

/-- The code is that of the enrollment that `findMatching` comes back with. -/
theorem findMatching_along {code : String} (pending : List DeviceEnrollment) :
    Keeps crypto call (fun tr' found => tr ⊆ tr' ∧ (Clean tr → Clean tr') ∧
        ∀ e, found = some e → e ∈ pending ∧ crypto.compare code e.codeHash = true)
      (fun _ _ => True) (DeviceEnrollmentService.findMatching code pending) tr := by
  induction pending generalizing tr with
  | nil => exact ⟨List.Subset.refl _, fun h => h, fun _ h => absurd h (Option.some_ne_none _).symm⟩
  | cons candidate rest ih =>
      refine Keeps.statement trivial (fun (matched : Bool) ev hev => ?_)
      have hstep : Clean tr → Clean (ev :: tr) :=
        fun h => h.cons (o := .bcryptCompare code candidate.codeHash) trivial hev
      refine Keeps.ite (fun hmatched => ?_) (fun _ => ?_)
      -- The first match ends the search.
      · refine ⟨List.subset_cons_self _ _, hstep, fun e he => ?_⟩
        cases he
        exact ⟨List.mem_cons_self, hev.2.symm.trans hmatched⟩
      · refine Prog.Along.conseq ih (fun tr' found h => ?_) (fun _ _ _ => trivial)
        rcases h with ⟨hsub, hclean, hfound⟩
        refine ⟨fun x hx => hsub (List.mem_cons_of_mem _ hx), fun h => hclean (hstep h),
          fun e he => ?_⟩
        exact ⟨List.mem_cons_of_mem _ (hfound e he).1, (hfound e he).2⟩

/-- What an activation hands out was stored, with more events. -/
theorem HandsOut.mono {dto : ActivateDeviceDto} {tr' : List Event}
    {a : DeviceActivationResponse} (h : HandsOut crypto dto tr a) (hsub : tr ⊆ tr') :
    HandsOut crypto dto tr' a := by
  rcases h with ⟨draft, d, e, now, hadmits, hmem, hfields⟩
  exact ⟨draft, d, e, now, hadmits.mono hsub, hsub hmem, hfields⟩

/-- The new credential. Its draft is made from the secret that was just drawn. -/
theorem issueCredential_along {dto : ActivateDeviceDto} {d : Device} {e : DeviceEnrollment}
    {now : Timestamp} (hclean : Clean tr) (h : Found crypto dto tr d e now) :
    Keeps crypto (.activate dto) (fun tr' issued => ∃ draft,
        Admits crypto dto tr' draft issued.deviceSecret d e now ∧
        .ran (.insertCredential draft) ∈ tr') (fun _ _ => True)
      (DeviceCredentialsService.issueCredential crypto d.id now) tr := by
  refine Keeps.bind (Prog.Along.conseq (routine_along (revokeActiveCredentials_routine _ _))
    (fun _ _ h => h) (fun _ _ _ => trivial)) (fun tr₁ _ h₁ => ?_)
  refine Keeps.ask trivial (fun (deviceSecret : String) ev hev => ?_)
  have hsub : tr ⊆ ev :: tr₁ := fun x hx => List.mem_cons_of_mem _ (h₁.1 hx)
  let draft : DeviceCredentialDraft :=
    { deviceId := d.id, secretHash := DeviceCredentialsService.hashSecret crypto deviceSecret
      lastUsedAt := none, revokedAt := none }
  have hadmits : Admits crypto dto (ev :: tr₁) draft deviceSecret d e now :=
    { h.mono hsub with device := rfl, secret := rfl }
  have hclean₁ : Clean (ev :: tr₁) :=
    (h₁.2 hclean).cons (o := .randomBytes DeviceCredentialsService.secretBytes) trivial hev
  refine Keeps.statement ⟨hclean₁, dto, deviceSecret, d, e, now, rfl, hadmits⟩
    (fun (saved : Except PostgresError DeviceCredential) ev' hev' => ?_)
  cases hev'
  -- Refused by the index, and then the transaction is rolled back.
  cases saved with
  | error error => trivial
  | ok credential =>
      exact ⟨draft, hadmits.mono (List.subset_cons_self _ _), List.mem_cons_self⟩

/-- An activation with the right code, from the consumption of the enrollment
    on. -/
theorem consume_along {dto : ActivateDeviceDto} {d : Device} {e : DeviceEnrollment}
    {now : Timestamp} (hclean : Clean tr) (h : Found crypto dto tr d e now) :
    Keeps crypto (.activate dto) (fun tr' activation => ∀ a, activation = some a →
        HandsOut crypto dto tr' a) (fun _ _ => True)
      (DeviceEnrollmentService.consume crypto dto d now e) tr := by
  refine Keeps.statement trivial (fun (consumed : Bool) ev hev => ?_)
  refine Keeps.ite (fun _ => fun a ha => absurd ha (Option.some_ne_none a).symm) (fun _ => ?_)
  refine Keeps.bind (Prog.Along.conseq (routine_along (updateTechnicalInfo_routine _ _))
    (fun _ _ h => h) (fun _ _ _ => trivial)) (fun tr₁ _ h₁ => ?_)
  -- The device may have been updated meanwhile, which is routine.
  have hsub : tr ⊆ tr₁ := fun x hx => h₁.1 (List.mem_cons_of_mem _ hx)
  have hclean₁ : Clean tr₁ :=
    h₁.2 (hclean.cons (o := .consumeEnrollment e.id now) trivial hev)
  refine Keeps.bind (issueCredential_along hclean₁ (h.mono hsub)) (fun tr' issued h' => ?_)
  rcases h' with ⟨draft, hadmits, hmem⟩
  rintro a ha
  cases ha
  exact ⟨draft, d, e, now, hadmits, hmem, rfl, rfl, rfl⟩

/-- A way of failing hands out nothing. -/
theorem nothing_along {dto : ActivateDeviceDto} {p : Service Unit} (hp : p.Uses Op.IsRoutine) :
    Keeps crypto (.activate dto) (fun tr' (activation : Option DeviceActivationResponse) =>
        ∀ a, activation = some a → HandsOut crypto dto tr' a) (fun _ _ => True)
      (p.bind (fun _ => .ret none)) tr :=
  Keeps.bind (Prog.Along.conseq (routine_along hp) (fun _ _ h => h) (fun _ _ _ => trivial))
    (fun _ _ _ a ha => absurd ha (Option.some_ne_none a).symm)

/-- An activation that has the pending enrollments in hand. -/
theorem tryCode_along {dto : ActivateDeviceDto} {d : Device} {now : Timestamp}
    {pending : List DeviceEnrollment} (hclean : Clean tr) (hshown : .shownDevice d ∈ tr)
    (hpublic : d.publicId = dto.publicId) (hactive : d.isActive = true) (htold : .told now ∈ tr)
    (hpending : ∀ e ∈ pending, .found e ∈ tr ∧ e.deviceId = d.id ∧ e.isPending now = true) :
    Keeps crypto (.activate dto) (fun tr' activation => ∀ a, activation = some a →
        HandsOut crypto dto tr' a) (fun _ _ => True)
      (DeviceEnrollmentService.tryCode crypto dto d now pending) tr := by
  -- Without a pending code there is nothing to match.
  cases pending with
  | nil => exact nothing_along (burnVerificationTime_routine dto.code)
  | cons e pending =>
      refine Keeps.bind (findMatching_along (e :: pending)) (fun tr₁ found h₁ => ?_)
      rcases h₁ with ⟨hsub, hkeeps, hfound⟩
      cases found with
      | none => exact nothing_along (registerFailedAttempts_routine now (e :: pending))
      | some matched =>
          rcases hfound matched rfl with ⟨hmem, hcode⟩
          rcases hpending matched hmem with ⟨hlocked, howned, hpend⟩
          exact consume_along (hkeeps hclean) ⟨hsub hshown, hpublic, hactive, hsub htold,
            hsub hlocked, howned, hpend, hcode⟩

/-- The transaction of an activation. Whatever goes wrong, it hands out
    nothing. -/
theorem runActivation_along {dto : ActivateDeviceDto} (hclean : Clean tr) :
    Keeps crypto (.activate dto) (fun tr' activation => ∀ a, activation = some a →
        HandsOut crypto dto tr' a) (fun _ _ => True)
      (DeviceEnrollmentService.runActivation crypto dto) tr := by
  refine Keeps.ask trivial (fun (now : Timestamp) ev hev => ?_)
  cases hev
  refine Keeps.statement trivial (fun (found : Option Device) ev hev => ?_)
  have htold : Clean (.told now :: tr) :=
    hclean.cons (o := .now) trivial (show Leaves crypto .now now (.told now) from rfl)
  have hclean₁ : Clean (ev :: .told now :: tr) :=
    htold.cons (o := .findDeviceByPublicId dto.publicId) trivial hev
  -- The device was found by its number and is active, or the activation fails.
  split
  · exact nothing_along (burnVerificationTime_routine dto.code)
  · rename_i d hdevice
    rw [Option.filter_eq_some_iff] at hdevice
    rcases hdevice with ⟨rfl, hactive⟩
    refine Keeps.bind findPendingEnrollments_along (fun tr₁ pending h₁ => ?_)
    rcases h₁ with ⟨hsub, hkeeps, hpending⟩
    refine tryCode_along (hkeeps hclean₁) (hsub ?_) (hev.2 d rfl) hactive (hsub ?_) hpending
    · rw [hev.1]
      exact List.mem_cons_self
    · exact List.mem_cons_of_mem _ List.mem_cons_self

/-- An activation. What its transaction promises is handed out after the commit. -/
theorem activate_along {dto : ActivateDeviceDto} :
    Keeps crypto (.activate dto) (Returned crypto (.activate dto)) (fun _ _ => True)
      (handle crypto c (.activate dto)) [] := by
  refine Keeps.map (Keeps.transaction (fun tr' activation => ∀ a, activation = some a →
    HandsOut crypto dto tr' a) (fun ev hev => runActivation_along ?_)
    (fun tr' activation ev h _ => Keeps.orFail (fun _ => trivial) (fun a ha => ?_)))
  · exact clean_nil.cons (o := .begin) trivial hev
  · refine Keeps.bind (Prog.Along.conseq (routine_along (disconnectDevice_routine _))
      (fun _ _ h => h) (fun _ _ _ => trivial)) (fun tr₁ _ h₁ => ?_)
    exact ⟨a, (h a ha).mono (fun x hx => h₁.1 (List.mem_cons_of_mem _ hx)), rfl⟩

/-- A login whose device and credential are known. -/
theorem loginWith_along {dto : DeviceLoginDto} {d : Device} {k : DeviceCredential}
    (hid : d.id = dto.deviceId) (hactive : d.isActive = true) (howner : k.deviceId = d.id) :
    Keeps crypto (.login dto) (fun tr r => Returned crypto (.login dto) tr (.token r))
      (Failed crypto (.login dto)) (DeviceAuthService.loginWith crypto dto d k)
      [.shownCredential k, .shownDevice d] := by
  refine Keeps.ite (fun hno => ⟨.mismatch d k hid hactive howner hno, rfl⟩) (fun hmatch => ?_)
  rw [Bool.not_eq_false] at hmatch
  have hlogs : LogsIn crypto dto d k := ⟨hid, hactive, howner, hmatch⟩
  refine Keeps.ask trivial (fun (now : Timestamp) ev hev => ?_)
  cases hev
  refine Keeps.statement trivial (fun _ used _ => ?_)
  refine Keeps.ask ⟨dto, d, k, now, used, rfl, hlogs, rfl, rfl⟩ (fun token ev hev => ?_)
  rcases hev with ⟨rfl, iat, rfl⟩
  exact ⟨d, k, now, used, iat, hlogs, rfl, rfl⟩

/-- The login of a device. Each of its refusals names what it had read until then. -/
theorem login_along {dto : DeviceLoginDto} :
    Keeps crypto (.login dto) (Returned crypto (.login dto)) (Failed crypto (.login dto))
      (handle crypto c (.login dto)) [] := by
  refine Keeps.map (Keeps.statement trivial (fun (found : Option Device) ev hev => ?_))
  -- Its first read finds no device, an inactive one, or an active one.
  cases found with
  | none =>
      cases hev.1
      exact ⟨.unknown, rfl⟩
  | some d =>
      have hid : d.id = dto.deviceId := hev.2 d rfl
      cases hev.1
      split
      · rename_i hinactive
        refine ⟨.inactive d hid ?_, rfl⟩
        rw [Option.filter_eq_none_iff] at hinactive
        exact Bool.eq_false_iff.mpr (hinactive d rfl)
      · rename_i d' hdevice
        rw [Option.filter_eq_some_iff] at hdevice
        rcases hdevice with ⟨hsame, hactive⟩
        cases hsame
        refine Keeps.statement trivial (fun (found : Option DeviceCredential) ev hev => ?_)
        -- Its second read finds no credential in force, or one.
        cases found with
        | none =>
            cases hev.1
            exact ⟨.unactivated d hid hactive, rfl⟩
        | some k =>
            have howner : k.deviceId = d.id := hev.2 k rfl
            cases hev.1
            exact loginWith_along hid hactive howner

/-- A call from which no access follows. -/
theorem rest_along {α : Type} {p : Service α} {f : α → Response} (hp : p.Uses Op.IsRoutine)
    (hQ : ∀ tr r, Returned crypto call tr r) (hE : ∀ tr e, Failed crypto call tr e) :
    Keeps crypto call (Returned crypto call) (Failed crypto call) (f <$> p) [] :=
  Keeps.map (Prog.Along.conseq (routine_along hp) (fun tr _ _ => hQ tr _) (fun tr _ _ => hE tr _))

/-- Every handler keeps to the order. -/
theorem handle_along : Keeps crypto call (Returned crypto call) (Failed crypto call)
    (handle crypto c call) [] := by
  cases call with
  | createEnrollmentCode deviceId => exact createEnrollmentCode_along
  | activate dto => exact activate_along
  | update id dto =>
      exact rest_along (update_routine id dto) (fun _ _ => trivial) (fun _ _ => trivial)
  | login dto => exact login_along
  | authorize token =>
      exact rest_along (authorize_routine token) (fun _ _ => trivial) (fun _ _ => trivial)
  | connect token =>
      exact rest_along (connect_routine c token) (fun _ _ => trivial) (fun _ _ => trivial)
  | disconnect client =>
      exact rest_along (onDisconnect_routine client) (fun _ _ => trivial) (fun _ _ => trivial)

/-! ## Runs -/

section Runs

variable {calls : CallId → Call} {fleet : List Device} {sys : Calls} {c : CallId}

/-- Each operation adds one event to those of its call, which says what it was
    answered, and none to those of the others. -/
theorem marked : Marked (exec crypto) (Consistent fleet) (fun _ => Leaves crypto)
    (fun c (w : World) => own c w.log) where
  inv := fun _ _ _ _ _ _ hx h => exec_consistent h hx
  own := by
    intro c env o w r w' hx h
    rcases exec_leaves h hx with ⟨ev, hlog, hleaves, _⟩
    refine ⟨ev, hleaves, ?_⟩
    rw [hlog]
    exact own_self rfl
  others := by
    intro c d env o w r w' hx hd
    rcases exec_records hx with ⟨ev, hrec⟩
    rw [hrec.log]
    exact own_other (fun h => hd h.symm)

/-- In every reachable system each call goes on in order from the events it has
    left. -/
theorem traced (h : Reachable crypto calls fleet sys) :
    Traced (Consistent fleet) (fun _ => Leaves crypto) (fun c (w : World) => own c w.log)
      (fun c => InOrder crypto (calls c)) (fun c => Returned crypto (calls c))
      (fun c => Failed crypto (calls c)) sys :=
  (Traced.start (init_consistent fleet) (fun _ => rfl) (fun _ => handle_along)).run marked h

/-- Every operation of a run was in order that is named in the history. -/
theorem orderly (h : Reachable crypto calls fleet sys) {o : Op} {l : List Entry}
    (he : (⟨c, .ran o⟩ : Entry) :: l <:+ sys.shared.log) :
    InOrder crypto (calls c) (own c l) o := by
  have hown : Event.ran o :: own c l <:+ own c sys.shared.log := by
    rw [← own_self (e := ⟨c, .ran o⟩) rfl]
    exact own_suffix he
  rcases (traced h).trail c _ _ hown with ⟨o', r, hleaves, hok⟩
  rw [hleaves.ran]
  exact hok

/-- What a call has done that returned. -/
theorem returned (h : Reachable crypto calls fleet sys) {r : Response}
    (hret : sys.threads c = .ret r) : Returned crypto (calls c) (own c sys.shared.log) r := by
  have halong := (traced h).along c
  rw [hret] at halong
  exact halong

/-- What a call has done that threw. -/
theorem failed (h : Reachable crypto calls fleet sys) {e : HttpException}
    (hthrow : sys.threads c = .throw e) : Failed crypto (calls c) (own c sys.shared.log) e := by
  have halong := (traced h).along c
  rw [hthrow] at halong
  exact halong

end Runs

end RemoteControl.Devices

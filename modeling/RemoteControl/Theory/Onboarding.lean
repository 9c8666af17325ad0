import RemoteControl.Concurrency.Turns
import RemoteControl.Theory.DevicesAlone
import RemoteControl.Theory.Tokens

/-!
# Onboarding

A device can always be brought into service. Whatever codes, credentials and
sockets it has from before, if it is active then an administrator who makes a
code for it, the activation with that code, the login with the secret that the
activation answers with and a request or a connection with the token that the
login answers with all succeed when they are made one after the other, as long
as the code and the token are used in time. None of the calls waits, provided
that nobody holds a row when the first one begins, and each of them leaves
nobody holding one.

What carries over from a call to the next is a condition on single rows: that
the code belongs to the only open enrollment of the device (`Enrolling`), and
that the secret belongs to its only credential in force (`Credited`).

Every method is followed from a scene with nothing held to another one, by the
rules of `Theory.DevicesAlone`. Where the source branches, the condition of
the scene decides: there is one pending code and it matches, there is one
credential in force and the secret opens it. What remains of the answer and of
the scene is then all that the next call needs.

The calls are not one program. Between two of them the environment chooses the
call that comes next, so the promise of a call contains the promise about the
calls after it (`CodeServes`, `SecretServes`, `TokenServes`), each for any
state in which the one before may have ended.

## Main definitions

* `Enrolling`: The code opens the only open enrollment.
* `Serves`: What it means that a call succeeds when it has all the turns.
* `TokenServes`, `SecretServes`, `CodeServes`: What a token, a secret and a code
  are good for.
* `Known`: The device, under its identifier and its number.
* `Ready`: The device is active, and the secret opens its credential.
* `LetIn`: The socket is known to be the device's.
* `CodeServes`, `SecretServes`, `TokenServes`: What a code, a secret and a
  token are good for.

## Theorems

* `createEnrollmentCode_completes`, `activate_completes`, `login_completes`,
  `authorizePayload_completes`, `connect_completes`: The calls.
* `serves_of_completes`: From programs to runs of the system.
* `device_onboarding`: The whole way.
* `tokenServes`, `secretServes`, `codeServes`: They are good for it.
-/

namespace RemoteControl.Devices

open Concurrency

section Calls

variable {crypto : Crypto} {c : CallId} {ok : Env → Prop} {S : Scene} {w : World} {d : Device}
  {ttl : Nat} {t : Timestamp}

/-! ## A code -/

/-- The code opens the only enrollment of the device that is still open. -/
structure Enrolling (crypto : Crypto) (S : Scene) (deviceId : Uuid) (made : EnrollmentCodeResponse)
    (e : DeviceEnrollment) : Prop where
  single : OnlyRow (unsettledOf deviceId) S.enrollments e.id e
  code : crypto.compare made.enrollmentCode e.codeHash = true
  expiresAt : e.expiresAt = made.expiresAt

/-- The transaction: the open codes are revoked, and a new one is saved. -/
theorem newEnrollment_completes {deviceId : Uuid} {codeHash : String} {expiresAt now : Timestamp}
    (h : Here none S w) (hok : ∀ env, ok env → env.newId ∉ S.enrollmentIds) :
    (transaction (do
      DeviceEnrollmentService.revokePendingEnrollments deviceId now
      statement (.insertEnrollment
        { deviceId, codeHash, expiresAt, usedAt := none, revokedAt := none }))).Completes
      (exec crypto c) ok (fun e w' => ∃ S', Here none S' w' ∧ S'.devices = S.devices ∧
        OnlyRow (unsettledOf deviceId) S'.enrollments e.id e ∧ e.codeHash = codeHash ∧
        e.expiresAt = expiresAt) w := by
  refine transaction_completes h (fun w₁ h₁ => ?_)
  refine completes_then (revokePending_completes h₁) (fun _ w₂ ⟨f, h₂, hnone⟩ => ?_)
  refine completes_statement.mpr (fun env henv => ?_)
  rcases h₂.insertEnrollment env
    { deviceId, codeHash, expiresAt, usedAt := none, revokedAt := none } (hok env henv)
    with ⟨w₃, hx, h₃⟩
  refine ⟨_, w₃, hx, _, h₃, rfl, OnlyRow.insert hnone ?_, rfl, rfl⟩
  simp only [unsettledOf, DeviceEnrollmentDraft.toRow, DeviceEnrollment.isUnsettled, decide_true,
    Option.isNone_none, Bool.and_self]

/-- The device is found. -/
theorem findEntity_completes (h : Here none S w) (hd : S.devices d.id = some d) :
    (DevicesService.findEntity d.id).Completes (exec crypto c) ok
      (fun found w' => found = d ∧ Here none S w') w := by
  refine completes_then (findDevice_completes h hd) (fun found w₁ ⟨hfound, h₁, hs₁⟩ => ?_)
  subst hfound
  exact ⟨rfl, h₁⟩

/-- A code for an active device, with any number that is drawn and any salt. -/
theorem createEnrollmentCode_completes (hcompare : crypto.AcceptsHashed) (h : Here none S w)
    (hd : S.devices d.id = some d) (hactive : d.isActive = true)
    (hok : ∀ env, ok env → env.newId ∉ S.enrollmentIds) :
    (DeviceEnrollmentService.createEnrollmentCode d.id).Completes (exec crypto c) ok
      (fun made w' => made.publicId = d.publicId ∧ ∃ S', Here none S' w' ∧
        S'.devices = S.devices ∧ ∃ e, Enrolling crypto S' d.id made e) w := by
  refine completes_then (findEntity_completes h hd) (fun found w₁ ⟨hfound, h₁⟩ => ?_)
  subst hfound
  rw [if_neg (by rw [hactive]; exact Bool.noConfusion)]
  refine completes_ask.mpr (fun env₁ _ => ⟨_, _, rfl, ?_⟩)
  refine completes_ask.mpr (fun env₂ _ => ⟨_, _, rfl, ?_⟩)
  refine completes_statement.mpr (fun env₃ _ => ⟨_, _, rfl, ?_⟩)
  refine completes_then (newEnrollment_completes (((h₁.record _).record _).record _) hok)
    (fun e w₂ ⟨S', h₂, hS', hs, hhash, hexp⟩ => ?_)
  refine ⟨rfl, S', h₂, hS', e, hs, ?_, hexp⟩
  rw [hhash, hcompare]

/-! ## An activation -/

/-- The device, the only one with its public identifier. -/
abbrev Known (S : Scene) (d : Device) : Prop :=
  OnlyRow (fun d' : Device => decide (d'.publicId = d.publicId)) S.devices d.id d

/-- The only open code is pending until it expires, and it is the only one that
    is. -/
theorem Enrolling.isPending {made : EnrollmentCodeResponse} {e : DeviceEnrollment} {now : Timestamp}
    (h : Enrolling crypto S d.id made e) (hnow : now < made.expiresAt) :
    OnlyRow (fun e => decide (e.deviceId = d.id) && e.isPending now) S.enrollments e.id e := by
  refine h.single.narrow ?_ (fun e' he' => ?_)
  · have hmeets := h.single.meets
    simp only [unsettledOf, Bool.and_eq_true] at hmeets
    simp only [DeviceEnrollment.isPending, hmeets.1, hmeets.2, h.expiresAt, hnow, decide_true,
      Bool.and_self]
  · simp only [DeviceEnrollment.isPending, Bool.and_eq_true] at he'
    simp only [unsettledOf, he'.1, he'.2.1, Bool.and_self]

/-- The activation finds the code, and locks it. -/
theorem findPendingEnrollments_completes {made : EnrollmentCodeResponse} {e : DeviceEnrollment}
    {now : Timestamp} (h : Here (some c) S w) (he : Enrolling crypto S d.id made e)
    (hnow : now < made.expiresAt) :
    (DeviceEnrollmentService.findPendingEnrollments d.id now).Completes (exec crypto c) ok
      (fun pending w' => pending = [e] ∧ Here (some c) S w') w := by
  have hs := he.isPending hnow
  refine completes_statement.mpr (fun env _ => ⟨_, _, rfl, ?_⟩)
  rw [pendingKeys, h.enrollments.keys_single hs, List.mergeSort_singleton]
  refine (lockEach_completes [e.id] (h.record _)).mono (fun pending w' ⟨hw', hp⟩ => ⟨?_, hw'⟩)
  rw [hp, List.flatMap_singleton, hs.row, Option.filter_some, if_pos hs.meets, Option.toList_some]

/-- The code it finds is the one that was given. -/
theorem findMatching_completes {code : String} {e : DeviceEnrollment} (h : Here (some c) S w)
    (hcode : crypto.compare code e.codeHash = true) :
    (DeviceEnrollmentService.findMatching code [e]).Completes (exec crypto c) ok
      (fun found w' => found = some e ∧ Here (some c) S w') w := by
  refine completes_statement.mpr (fun env _ => ⟨_, _, rfl, ?_⟩)
  rw [if_pos hcode]
  exact ⟨rfl, h.record _⟩

/-- The technical information is written, if there is any. -/
theorem updateTechnicalInfo_completes {patch : DevicePatch} (h : Here (some c) S w)
    (hd : S.devices d.id = some d) (hpatch : patch.isActive = none) :
    (DeviceEnrollmentService.updateTechnicalInfo d.id patch).Completes (exec crypto c) ok
      (fun _ w' => ∃ f, Here (some c) { S with devices := f } w' ∧
        ∃ d', f d.id = some d' ∧ d'.id = d.id ∧ d'.isActive = d.isActive) w := by
  unfold DeviceEnrollmentService.updateTechnicalInfo
  split
  · exact ⟨S.devices, h, d, hd, rfl, rfl⟩
  · refine completes_statement.mpr (fun env _ => ?_)
    rcases h.updateDevice env d.id hpatch with ⟨r, w', hx, hw'⟩
    refine ⟨_, w', hx, _, hw', (patch.apply d).getD d, ?_, (apply_keeps hpatch d).1,
      (apply_keeps hpatch d).2⟩
    simp only [updateRow, Function.update_self, hd, Option.map_some, if_true]

/-- The device is active, and the secret opens its only credential in force. -/
structure Ready (crypto : Crypto) (S : Scene) (deviceId : Uuid) (deviceSecret : String)
    (x : DeviceCredential) : Prop where
  device : ∃ d, S.devices deviceId = some d ∧ d.id = deviceId ∧ d.isActive = true
  credential : Credited crypto S deviceId deviceSecret x

/-- The code is used up, and a credential is issued. -/
theorem consume_completes {dto : ActivateDeviceDto} {e : DeviceEnrollment} {now : Timestamp}
    (h : Here (some c) S w) (hd : S.devices d.id = some d) (hactive : d.isActive = true)
    (he : S.enrollments e.id = some e) (hunused : e.usedAt = none)
    (hok : ∀ env, ok env → env.newId ∉ S.credentialIds) :
    (DeviceEnrollmentService.consume crypto dto d now e).Completes (exec crypto c) ok
      (fun activation w' => ∃ S', Here (some c) S' w' ∧ ∃ answer, activation = some answer ∧
        answer.deviceId = d.id ∧ ∃ x, Ready crypto S' d.id answer.deviceSecret x) w := by
  refine completes_statement.mpr (fun env _ => ?_)
  rcases h.consumeEnrollment env e.id now with ⟨w₁, hx, h₁⟩
  refine ⟨_, w₁, hx, ?_⟩
  -- It was not used before, so the update goes through.
  rw [he, Option.filter_some, hunused]
  refine completes_then (updateTechnicalInfo_completes h₁ hd rfl) (fun _ w₂ ⟨f, h₂, hf⟩ => ?_)
  refine completes_then (issueCredential_completes h₂ hok)
    (fun issued w₃ ⟨S', h₃, hS', x, hx⟩ => ?_)
  rcases hf with ⟨d', hd', hid, hactive'⟩
  refine ⟨S', h₃, _, rfl, rfl, x, ⟨d', ?_, hid, hactive'.trans hactive⟩, hx⟩
  rw [hS']
  exact hd'

/-- What the transaction of an activation comes to when the code is the right one. -/
theorem runActivation_completes {dto : ActivateDeviceDto} {made : EnrollmentCodeResponse}
    {e : DeviceEnrollment} (h : Here (some c) S w) (hd : Known S d) (hactive : d.isActive = true)
    (he : Enrolling crypto S d.id made e) (hpublic : dto.publicId = d.publicId)
    (hcode : dto.code = made.enrollmentCode)
    (hok : ∀ env, ok env → env.time < made.expiresAt ∧ env.newId ∉ S.credentialIds) :
    (DeviceEnrollmentService.runActivation crypto dto).Completes (exec crypto c) ok
      (fun activation w' => ∃ S', Here (some c) S' w' ∧ ∃ answer, activation = some answer ∧
        answer.deviceId = d.id ∧ ∃ x, Ready crypto S' d.id answer.deviceSecret x) w := by
  refine completes_ask.mpr (fun env henv => ⟨_, _, rfl, ?_⟩)
  refine completes_statement.mpr (fun env₁ _ => ⟨_, _, rfl, ?_⟩)
  rw [hpublic, show (w.record c (.told env.time)).devices = w.devices from rfl,
    h.devices.scan_single hd, Option.filter_some, if_pos hactive]
  refine completes_then (findPendingEnrollments_completes ((h.record _).record _) he
    (hok env henv).1) (fun pending w₁ ⟨hpending, h₁⟩ => ?_)
  subst hpending
  -- The code was made for this enrollment.
  have hmatch : crypto.compare dto.code e.codeHash = true := by
    rw [hcode]
    exact he.code
  refine completes_then (findMatching_completes h₁ hmatch) (fun found w₂ ⟨hfound, h₂⟩ => ?_)
  subst hfound
  -- An open code was not used.
  have hunused : e.usedAt = none := by
    have hmeets := he.single.meets
    simp only [unsettledOf, DeviceEnrollment.isUnsettled, Bool.and_eq_true,
      Option.isNone_iff_eq_none] at hmeets
    exact hmeets.2.1
  exact consume_completes h₂ hd.row hactive he.single.row hunused (fun env henv => (hok env henv).2)

/-- The activation, with the connections of the device closed after it. -/
theorem activate_completes {dto : ActivateDeviceDto} {made : EnrollmentCodeResponse}
    {e : DeviceEnrollment} (h : Here none S w) (hd : Known S d) (hactive : d.isActive = true)
    (he : Enrolling crypto S d.id made e) (hpublic : dto.publicId = d.publicId)
    (hcode : dto.code = made.enrollmentCode)
    (hok : ∀ env, ok env → env.time < made.expiresAt ∧ env.newId ∉ S.credentialIds) :
    (DeviceEnrollmentService.activate crypto dto).Completes (exec crypto c) ok
      (fun answer w' => answer.deviceId = d.id ∧ ∃ S', Here none S' w' ∧
        ∃ x, Ready crypto S' d.id answer.deviceSecret x) w := by
  refine completes_then (transaction_completes h (fun w₁ h₁ =>
    runActivation_completes h₁ hd hactive he hpublic hcode hok))
    (fun activation w₂ ⟨S', h₂, answer, hanswer, hid, hready⟩ => ?_)
  subst hanswer
  refine completes_found.mpr ?_
  refine completes_then (disconnectDevice_completes h₂ answer.deviceId) (fun _ w₃ h₃ => ?_)
  exact ⟨hid, S', h₃, hready⟩

/-! ## A login -/

/-- The login of the device. To note the use of its credential does not change
    which one is in force. -/
theorem loginWith_completes {deviceSecret : String} {x : DeviceCredential} (h : Here none S w)
    (hx : Ready crypto S d.id deviceSecret x) (hok : ∀ env, ok env → t ≤ env.time) :
    (DeviceAuthService.loginWith crypto { deviceId := d.id, deviceSecret } d x).Completes
      (exec crypto c) ok (fun grant w' => ∃ S', Here none S' w' ∧
        (∃ x', Ready crypto S' d.id deviceSecret x' ∧ x'.id = x.id) ∧
        ∃ iat, t ≤ iat ∧ grant.token = crypto.sign
          { sub := d.id, tokenType := deviceTokenType, credentialId := x.id } iat) w := by
  unfold DeviceAuthService.loginWith
  rw [if_neg (by rw [hx.credential.secret]; exact Bool.noConfusion)]
  refine completes_ask.mpr (fun env₁ _ => ⟨_, _, rfl, ?_⟩)
  refine completes_statement.mpr (fun env₂ _ => ?_)
  rcases Here.touchCredential (h.record _) env₂ x.id env₁.time with ⟨r, w₁, hx₁, h₁⟩
  refine ⟨r, w₁, hx₁, ?_⟩
  refine completes_ask.mpr (fun env₃ henv₃ => ⟨_, _, rfl, ?_⟩)
  have hmeets : activeOf d.id { x with lastUsedAt := some env₁.time } = true :=
    hx.credential.single.meets
  exact ⟨_, h₁.record _, ⟨{ x with lastUsedAt := some env₁.time }, ⟨hx.device,
    hx.credential.single.update hmeets, hx.credential.secret⟩, rfl⟩, env₃.time, hok env₃ henv₃, rfl⟩

/-- The login finds the device and its credential. -/
theorem login_completes {deviceId : Uuid} {deviceSecret : String} {x : DeviceCredential}
    (h : Here none S w) (hx : Ready crypto S deviceId deviceSecret x)
    (hok : ∀ env, ok env → t ≤ env.time) :
    (DeviceAuthService.login crypto { deviceId, deviceSecret }).Completes (exec crypto c) ok
      (fun grant w' => ∃ S', Here none S' w' ∧ (∃ x', Ready crypto S' deviceId deviceSecret x' ∧
        x'.id = x.id) ∧ ∃ iat, t ≤ iat ∧ grant.token = crypto.sign
          { sub := deviceId, tokenType := deviceTokenType, credentialId := x.id } iat) w := by
  rcases hx.device with ⟨d, hd, hid, hactive⟩
  subst hid
  refine completes_then (findDevice_completes h hd) (fun found w₁ ⟨hfound, h₁, hs₁⟩ => ?_)
  subst hfound
  rw [Option.filter_some, if_pos hactive]
  refine completes_then (findActiveCredential_completes h₁ hx.credential.single)
    (fun found w₂ ⟨hfound, h₂, _⟩ => ?_)
  subst hfound
  exact loginWith_completes h₂ hx hok

/-! ## With the token -/

/-- A token is accepted up to the whole second in which it expires. -/
theorem verifyToken_completes {payload : DeviceJwtPayload} {iat : Timestamp}
    (hverify : crypto.AcceptsSigned ttl) (h : Here none S w)
    (hok : ∀ env, ok env → env.time / 1000 < iat / 1000 + ttl) :
    (statement (.verifyToken (crypto.sign payload iat))).Completes (exec crypto c) ok
      (fun found w' => found = some payload ∧ Here none S w' ∧ w'.sockets = w.sockets) w := by
  intro env henv
  refine ⟨_, _, rfl, ?_, h.record _, rfl⟩
  exact hverify payload iat env.time (hok env henv)

/-- The payload agrees with the device and with its credential. -/
theorem authorizePayload_completes {deviceId : Uuid} {deviceSecret : String} {x : DeviceCredential}
    (h : Here none S w) (hx : Ready crypto S deviceId deviceSecret x) :
    (DeviceAuthService.authorizePayload
      { sub := deviceId, tokenType := deviceTokenType, credentialId := x.id }).Completes
      (exec crypto c) ok (fun answer w' => answer.device.id = deviceId ∧
        w'.sockets = w.sockets) w := by
  rcases hx.device with ⟨d, hd, hid, hactive⟩
  unfold DeviceAuthService.authorizePayload
  rw [if_neg (fun hne => hne rfl)]
  refine completes_then (findDevice_completes h hd) (fun found w₁ ⟨hfound, h₁, hs₁⟩ => ?_)
  subst hfound
  refine completes_found.mpr ?_
  rw [if_neg (by rw [hactive]; exact Bool.noConfusion), hid]
  refine completes_then (findActiveCredential_completes h₁ hx.credential.single)
    (fun answer w₂ ⟨hanswer, _, hs₂⟩ => ?_)
  subst hanswer
  rw [Option.filter_some, if_pos (decide_eq_true rfl)]
  exact ⟨hid, hs₂.trans hs₁⟩

/-- A token that was signed for the credential in force. -/
theorem authenticateToken_completes {deviceId : Uuid} {deviceSecret : String} {x : DeviceCredential}
    {iat : Timestamp} (hverify : crypto.AcceptsSigned ttl) (h : Here none S w)
    (hx : Ready crypto S deviceId deviceSecret x)
    (hok : ∀ env, ok env → env.time / 1000 < iat / 1000 + ttl) :
    (DeviceAuthService.authenticateToken (crypto.sign
      { sub := deviceId, tokenType := deviceTokenType, credentialId := x.id } iat)).Completes
      (exec crypto c) ok (fun answer w' => answer.device.id = deviceId ∧
        w'.sockets = w.sockets) w := by
  refine completes_then (verifyToken_completes hverify h hok) (fun found w₁ ⟨hfound, h₁, hs₁⟩ => ?_)
  subst hfound
  refine completes_found.mpr ((authorizePayload_completes h₁ hx).mono (fun answer w₂ h₂ => ?_))
  exact ⟨h₂.1, h₂.2.trans hs₁⟩

/-- A request with the token. -/
theorem authenticate_completes {deviceId : Uuid} {deviceSecret : String} {x : DeviceCredential}
    {iat : Timestamp} (hverify : crypto.AcceptsSigned ttl) (h : Here none S w)
    (hx : Ready crypto S deviceId deviceSecret x)
    (hok : ∀ env, ok env → env.time / 1000 < iat / 1000 + ttl) :
    (DeviceJwtStrategy.authenticate (crypto.sign
      { sub := deviceId, tokenType := deviceTokenType, credentialId := x.id } iat)).Completes
      (exec crypto c) ok (fun device _ => device.id = deviceId) w := by
  refine completes_then (verifyToken_completes hverify h hok) (fun found w₁ ⟨hfound, h₁, _⟩ => ?_)
  subst hfound
  refine completes_found.mpr ?_
  exact completes_then (authorizePayload_completes h₁ hx) (fun answer w₂ h₂ => h₂.1)

/-! ## A connection -/

/-- The socket is known to be the device's, and has not been closed. -/
structure LetIn (client : CallId) (deviceId : Uuid) (w : World) : Prop where
  device : ((w.sockets client).device.map DeviceSocketContext.deviceId) = some deviceId
  opened : (w.sockets client).disconnected = false

/-- The middleware lets the socket in. -/
theorem authenticateSocket_completes {deviceId : Uuid} {deviceSecret token : String}
    {x : DeviceCredential} {iat : Timestamp} (hverify : crypto.AcceptsSigned ttl)
    (h : Here none S w) (hx : Ready crypto S deviceId deviceSecret x)
    (htoken : token = crypto.sign
      { sub := deviceId, tokenType := deviceTokenType, credentialId := x.id } iat)
    (hnonempty : 0 < token.length) (hok : ∀ env, ok env → env.time / 1000 < iat / 1000 + ttl)
    (hopen : (w.sockets c).disconnected = false) :
    (DevicesGateway.authenticate (some token)).Completes (exec crypto c) ok
      (fun _ w' => LetIn c deviceId w') w := by
  unfold DevicesGateway.authenticate DevicesGateway.extractToken
  rw [Option.filter_some, if_pos (decide_eq_true hnonempty), htoken]
  refine completes_found.mpr ?_
  refine completes_then (authenticateToken_completes hverify h hx hok)
    (fun answer w₁ ⟨hid, hs₁⟩ => ?_)
  intro env _
  refine ⟨_, _, rfl, ?_, ?_⟩
  · simp only [World.record, World.setSocket, Function.update_self, Option.map_some, hid]
  · simp only [World.record, World.setSocket, Function.update_self, hs₁, hopen]

/-- A device is online once a socket of it is registered. -/
theorem isOnline_register (connections : Connections) (deviceId : Uuid) (socketId : CallId) :
    DevicePresenceService.isOnline
      (DevicePresenceService.register connections deviceId socketId) deviceId = true := by
  unfold DevicePresenceService.isOnline DevicePresenceService.register
  cases connections deviceId <;> simp only [Function.update_self, Option.isSome_some]

/-- What a socket that was let in comes to. -/
theorem handleConnection_completes {deviceId : Uuid} (h : LetIn c deviceId w)
    (hconnected : (w.sockets c).connected = true) :
    (DevicesGateway.handleConnection c).Completes (exec crypto c) ok
      (fun _ w' => LetIn c deviceId w' ∧ (w'.sockets c).connected = true ∧
        DevicePresenceService.isOnline w'.connections deviceId = true) w := by
  rcases Option.map_eq_some_iff.mp h.device with ⟨context, hcontext, hid⟩
  refine completes_ask.mpr (fun env _ => ⟨_, _, rfl, ?_⟩)
  rw [hcontext]
  refine completes_ask.mpr (fun env₁ _ => ⟨_, _, rfl, ?_⟩)
  refine completes_ask.mpr (fun env₂ _ => ⟨_, _, rfl, ?_⟩)
  -- It has not been closed meanwhile.
  simp only [World.record, h.opened, Bool.false_eq_true]
  refine fun env₃ _ => ⟨_, _, rfl, ⟨h.device, h.opened⟩, hconnected, ?_⟩
  rw [hid]
  exact isOnline_register _ _ _

/-- A connection with the token. It lasts until somebody closes it, and then the
    device is online. -/
theorem connect_completes {deviceId : Uuid} {deviceSecret token : String}
    {x : DeviceCredential} {iat : Timestamp} (hverify : crypto.AcceptsSigned ttl)
    (h : Here none S w) (hx : Ready crypto S deviceId deviceSecret x)
    (htoken : token = crypto.sign
      { sub := deviceId, tokenType := deviceTokenType, credentialId := x.id } iat)
    (hnonempty : 0 < token.length) (hok : ∀ env, ok env → env.time / 1000 < iat / 1000 + ttl)
    (hopen : (w.sockets c).disconnected = false) :
    (DevicesGateway.connect c (some token)).Completes (exec crypto c) ok
      (fun _ w' => LetIn c deviceId w' ∧ (w'.sockets c).connected = true ∧
        DevicePresenceService.isOnline w'.connections deviceId = true) w := by
  unfold DevicesGateway.connect
  have haccepted := authenticateSocket_completes hverify h hx htoken hnonempty hok hopen
  have hok' : ((DevicesGateway.authenticate (some token)).bind (fun _ => .ret true)).Completes
      (exec crypto c) ok (fun accepted w' => accepted = true ∧ LetIn c deviceId w') w :=
    -- The middleware throws nothing.
    completes_then haccepted (fun _ w₁ h₁ => ⟨rfl, h₁⟩)
  refine completes_then (hok'.onError _) (fun accepted w₁ ⟨haccepted, h₁⟩ => ?_)
  subst haccepted
  refine completes_ask.mpr (fun env _ => ?_)
  simp only [exec, h₁.opened, Bool.false_eq_true, if_false]
  refine ⟨_, _, rfl, handleConnection_completes ⟨?_, ?_⟩ ?_⟩
  · simp only [World.record, World.setSocket, Function.update_self, h₁.device]
  · simp only [World.record, World.setSocket, Function.update_self]
  · simp only [World.record, World.setSocket, Function.update_self]

end Calls

/-! ## In the system -/

section System

variable {crypto : Crypto} {calls : CallId → Call} {c : CallId} {ok : Env → Prop} {x : Calls}
  {ttl : Nat}

/-- Nobody has given the call a turn. -/
def Unbegun (crypto : Crypto) (calls : CallId → Call) (x : Calls) (c : CallId) : Prop :=
  x.threads c = .await (handle crypto c (calls c))

/-- If it is given all the turns, with environments like these, the call never
    has to wait, can be brought to its end, and ends with an answer that is
    good where it ends. -/
def Serves (crypto : Crypto) (ok : Env → Prop) (x : Calls) (c : CallId)
    (Q : Response → Calls → Prop) : Prop :=
  (∀ env, ok env → ∃ y, Run (exec crypto) (onlyTurns ok c) x y ∧ ∃ r, y.threads c = .ret r) ∧
    ∀ y, Run (exec crypto) (onlyTurns ok c) x y →
      (∃ r, y.threads c = .ret r ∧ Q r y) ∨
        ∀ env, ok env → (y.turn (exec crypto) c env).isSome

/-- A program that completes from the present state is a call that succeeds with
    all the turns. -/
theorem serves_of_completes {P : Response → World → Prop} {Q : Response → Calls → Prop}
    (hx : Unbegun crypto calls x c)
    (h : (handle crypto c (calls c)).Completes (exec crypto c) ok P x.shared)
    (hQ : ∀ r y, P r y.shared → Q r y) : Serves crypto ok x c Q := by
  have hthread : (x.threads c).Completes (exec crypto c) ok P x.shared := by
    rw [hx]
    exact h
  have hsuspended : (x.threads c).Suspended := by
    rw [hx]
    trivial
  refine ⟨fun env henv => hthread.exists_run hsuspended ⟨env, henv⟩, fun y hrun => ?_⟩
  exact (hthread.goes_on hsuspended hrun).imp_left
    (fun ⟨r, hr, hP⟩ => ⟨r, hr, hQ r y hP⟩)

/-- The methods of the calls, wrapped for the answer. -/
theorem completes_map {α : Type} {p : Service α} {f : α → Response} {P : α → World → Prop}
    {P' : Response → World → Prop} {w : World} (h : p.Completes (exec crypto c) ok P w)
    (hP : ∀ a w', P a w' → P' (f a) w') :
    (f <$> p : Service Response).Completes (exec crypto c) ok P' w :=
  completes_then h hP

/-- A request or a connection with the token is let through, within the time
    the token is good for. -/
def TokenServes (crypto : Crypto) (ttl : Nat) (calls : CallId → Call) (deviceId : Uuid)
    (t : Timestamp) (token : String) (x : Calls) : Prop :=
  (∀ c, Unbegun crypto calls x c → calls c = .authorize token →
    Serves crypto (fun env => env.time / 1000 < t / 1000 + ttl) x c
      (fun r _ => ∃ device, r = .authorized device ∧ device.id = deviceId)) ∧
  ∀ c, Unbegun crypto calls x c → calls c = .connect (some token) → 0 < token.length →
    (x.shared.sockets c).disconnected = false →
    Serves crypto (fun env => env.time / 1000 < t / 1000 + ttl) x c
      (fun _ y => LetIn c deviceId y.shared ∧ (y.shared.sockets c).connected = true ∧
        DevicePresenceService.isOnline y.shared.connections deviceId = true)

/-- A login with the secret succeeds, and its token is good. -/
def SecretServes (crypto : Crypto) (ttl : Nat) (calls : CallId → Call) (deviceId : Uuid)
    (deviceSecret : String) (x : Calls) : Prop :=
  ∀ c t, Unbegun crypto calls x c → calls c = .login { deviceId, deviceSecret } →
    Serves crypto (fun env => t ≤ env.time) x c (fun r y => ∃ grant, r = .token grant ∧
      TokenServes crypto ttl calls deviceId t grant.token y)

/-- An activation with the code succeeds as long as the code is valid, and its
    secret is good. -/
def CodeServes (crypto : Crypto) (ttl : Nat) (calls : CallId → Call) (deviceId : Uuid)
    (made : EnrollmentCodeResponse) (x : Calls) : Prop :=
  ∀ c dto, Unbegun crypto calls x c → calls c = .activate dto → dto.publicId = made.publicId →
    dto.code = made.enrollmentCode →
    Serves crypto (fun env => env.time < made.expiresAt ∧ env.newId ∉ x.shared.credentials.dom)
      x c (fun r y => ∃ answer, r = .activation answer ∧ answer.deviceId = deviceId ∧
        SecretServes crypto ttl calls deviceId answer.deviceSecret y)

/-- The token is good for a request and for a connection. -/
theorem tokenServes {S : Scene} {deviceId : Uuid} {deviceSecret token : String}
    {k : DeviceCredential} {t iat : Timestamp} (hverify : crypto.AcceptsSigned ttl)
    (h : Here none S x.shared) (hk : Ready crypto S deviceId deviceSecret k) (ht : t ≤ iat)
    (htoken : token = crypto.sign
      { sub := deviceId, tokenType := deviceTokenType, credentialId := k.id } iat) :
    TokenServes crypto ttl calls deviceId t token x := by
  have hok : ∀ env : Env, env.time / 1000 < t / 1000 + ttl → env.time / 1000 < iat / 1000 + ttl :=
    fun env henv => Nat.lt_of_lt_of_le henv (Nat.add_le_add_right (Nat.div_le_div_right ht) ttl)
  refine ⟨fun c hc hcall => ?_, fun c hc hcall hnonempty hopen => ?_⟩
  · refine serves_of_completes (P := fun r _ => ∃ device, r = .authorized device ∧
      device.id = deviceId) hc ?_ (fun r y hr => hr)
    rw [hcall, htoken]
    exact completes_map (authenticate_completes hverify h hk hok)
      (fun device w' hid => ⟨device, rfl, hid⟩)
  · refine serves_of_completes (P := fun _ w' => LetIn c deviceId w' ∧
      (w'.sockets c).connected = true ∧
      DevicePresenceService.isOnline w'.connections deviceId = true) hc ?_ (fun r y hr => hr)
    rw [hcall]
    exact completes_map (connect_completes hverify h hk htoken hnonempty hok hopen)
      (fun _ w' hw' => hw')

/-- The secret is good for a login, and its token is good. -/
theorem secretServes {S : Scene} {deviceId : Uuid} {deviceSecret : String} {k : DeviceCredential}
    (hverify : crypto.AcceptsSigned ttl) (h : Here none S x.shared)
    (hk : Ready crypto S deviceId deviceSecret k) :
    SecretServes crypto ttl calls deviceId deviceSecret x := by
  intro c t hc hcall
  refine serves_of_completes (P := fun r w' => ∃ grant, r = .token grant ∧ ∃ S', Here none S' w' ∧
    (∃ k', Ready crypto S' deviceId deviceSecret k' ∧ k'.id = k.id) ∧
    ∃ iat, t ≤ iat ∧ grant.token = crypto.sign
      { sub := deviceId, tokenType := deviceTokenType, credentialId := k.id } iat) hc ?_ ?_
  · rw [hcall]
    exact completes_map (login_completes h hk (fun env henv => henv))
      (fun grant w' hw' => ⟨grant, rfl, hw'⟩)
  · rintro r y ⟨grant, hr, S', h', ⟨k', hk', hid⟩, iat, ht, htoken⟩
    refine ⟨grant, hr, tokenServes hverify h' hk' ht ?_⟩
    rw [hid, htoken]

/-- The code is good for an activation, and its secret is good. -/
theorem codeServes {S : Scene} {d : Device} {made : EnrollmentCodeResponse} {e : DeviceEnrollment}
    (hverify : crypto.AcceptsSigned ttl) (h : Here none S x.shared) (hd : Known S d)
    (hactive : d.isActive = true) (he : Enrolling crypto S d.id made e)
    (hmade : made.publicId = d.publicId) : CodeServes crypto ttl calls d.id made x := by
  intro c dto hc hcall hpublic hcode
  refine serves_of_completes (P := fun r w' => ∃ answer, r = .activation answer ∧
    answer.deviceId = d.id ∧ ∃ S', Here none S' w' ∧
      ∃ k, Ready crypto S' d.id answer.deviceSecret k) hc ?_ ?_
  · rw [hcall]
    refine completes_map (activate_completes h hd hactive he (hpublic.trans hmade) hcode
      (fun env henv => ⟨henv.1, ?_⟩)) (fun answer w' hw' => ⟨answer, rfl, hw'⟩)
    rw [← h.credentialIds]
    exact henv.2
  · rintro r y ⟨answer, hr, hid, S', h', k, hk⟩
    exact ⟨answer, hr, hid, secretServes hverify h' hk⟩

/-- An active device can be brought into service: if nobody holds a row, a
    code can be made for it, and the device can be activated with the code,
    log in with the secret, and come in with the token. -/
theorem device_onboarding (hcompare : crypto.AcceptsHashed) (hverify : crypto.AcceptsSigned ttl)
    (hidle : Idle x.shared) {d : Device} (hd : x.shared.devices.committed d.id = some d)
    (hactive : d.isActive = true)
    (hunique : ∀ k d', x.shared.devices.committed k = some d' → d'.publicId = d.publicId →
      k = d.id)
    (hc : Unbegun crypto calls x c) (hcall : calls c = .createEnrollmentCode d.id) :
    Serves crypto (fun env => env.newId ∉ x.shared.enrollments.dom) x c (fun r y =>
      ∃ made, r = .enrollmentCode made ∧ CodeServes crypto ttl calls d.id made y) := by
  -- There is no other device with its number.
  have hknown : Known x.shared.scene d :=
    ⟨hd, decide_eq_true rfl, fun k d' hk hp => hunique k d' hk (of_decide_eq_true hp)⟩
  refine serves_of_completes (P := fun r w' => ∃ made, r = .enrollmentCode made ∧
    made.publicId = d.publicId ∧ ∃ S', Here none S' w' ∧ S'.devices = x.shared.scene.devices ∧
      ∃ e, Enrolling crypto S' d.id made e) hc ?_ ?_
  · rw [hcall]
    exact completes_map (createEnrollmentCode_completes hcompare hidle.here hd hactive
      (fun env henv => henv)) (fun made w' hw' => ⟨made, rfl, hw'⟩)
  · rintro r y ⟨made, hr, hmade, S', h', hS', e, he⟩
    refine ⟨made, hr, codeServes hverify h' ?_ hactive he hmade⟩
    unfold Known
    rw [hS']
    exact hknown

end System

/-- The tablet, which has been brought into service, is to be once more. -/
def secondOnboarding : CallId → Call
  | 4 => .createEnrollmentCode 7
  | c => firstLogin c

/-- No row of the table is held, to be evaluated. -/
def unheld {V : Type} (t : Table Uuid V CallId) : Bool :=
  t.dom.all (fun k => (t.row k).held.isNone)

/-- The check looks at every row of the table. -/
theorem held_of_unheld {V : Type} {t : Table Uuid V CallId} (h : unheld t = true) (k : Uuid) :
    (t.row k).held = none := by
  refine Table.held_of_dom (fun k hk => ?_) k
  rw [unheld, List.all_eq_true] at h
  exact Option.isNone_iff_eq_none.mp (h k hk)

/-- The tablet gets another code, although it has a credential. -/
theorem device_onboarding_second : ∃ x y made,
    Reachable spelledCrypto secondOnboarding [tablet] x ∧
    (x.shared.credentials.committed 100).isSome = true ∧
    Run (exec spelledCrypto) (onlyTurns (fun env => env.newId ∉ x.shared.enrollments.dom) 4) x y ∧
    y.threads 4 = .ret (.enrollmentCode made) ∧
    CodeServes spelledCrypto 3600 secondOnboarding 7 made y := by
  have hrun : ((follow (exec spelledCrypto) (boot spelledCrypto secondOnboarding [tablet])
      (turns 0 13 123 50 ++ turns 1 19 0 100)).any (fun x =>
        (x.shared.credentials.committed 100).isSome && unheld x.shared.devices &&
          unheld x.shared.enrollments && unheld x.shared.credentials &&
          decide (x.shared.devices.committed 7 = some tablet) &&
          decide (x.shared.devices.dom = [7]) &&
          decide (60 ∉ x.shared.enrollments.dom))) = true := by
    decide +kernel
  rw [Option.any_eq_true] at hrun
  rcases hrun with ⟨x, hx, hp⟩
  simp only [Bool.and_eq_true, decide_eq_true_eq] at hp
  rcases hp with ⟨⟨⟨⟨⟨⟨hcredential, hdevices⟩, henrollments⟩, hcredentials⟩, hd⟩, hdom⟩, hnew⟩
  have hreach : Reachable spelledCrypto secondOnboarding [tablet] x := run_of_follow _ _ x hx
  have hidle : Idle x.shared :=
    ⟨held_of_unheld hdevices, held_of_unheld henrollments, held_of_unheld hcredentials⟩
  have hc : Unbegun spelledCrypto secondOnboarding x 4 := by
    refine follow_invariant (S := {0, 1}) (P := fun z => Unbegun spelledCrypto secondOnboarding z 4)
      (by decide) hx rfl (fun a b t env ht ha hturn => ?_)
    rcases turn_cases hturn with ⟨_, _, _, _, _, rfl⟩
    have hne : (4 : CallId) ≠ t := by
      rintro rfl
      exact absurd ht (by decide)
    exact (Function.update_of_ne hne _ _).trans ha
  have hunique : ∀ k d', x.shared.devices.committed k = some d' →
      d'.publicId = tablet.publicId → k = tablet.id := by
    intro k d' hk _
    rw [← Table.auto_view] at hk
    have hmem := Table.mem_dom_of_view hk
    rw [hdom] at hmem
    exact List.mem_singleton.mp hmem
  rcases device_onboarding (fun _ _ => decide_eq_true rfl) spelledCrypto_acceptsSigned hidle
    (d := tablet) hd
    rfl hunique hc rfl with ⟨hends, hall⟩
  rcases hends { time := 10, random := 0, bytes := "", salt := 0, newId := 60, createdAt := 2
                 atOnce := fun _ => true } hnew with ⟨y, hy, r, hr⟩
  rcases hall y hy with ⟨r', hr', made, hmade, hserves⟩ | hgoes
  · rw [hmade] at hr'
    exact ⟨x, y, made, hreach, hcredential, hy, hr', hserves⟩
  · have hsome := hgoes { time := 10, random := 0, bytes := "", salt := 0, newId := 60
                          createdAt := 2, atOnce := fun _ => true } hnew
    simp only [System.turn, hr, Option.isSome_none, Bool.false_eq_true] at hsome

end RemoteControl.Devices

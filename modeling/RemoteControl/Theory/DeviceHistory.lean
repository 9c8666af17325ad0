import RemoteControl.Concurrency.RelyGuarantee
import RemoteControl.Core.DeviceServices

/-!
# Histories of the Devices

The invariant of the interleaved device services, and what each call
guarantees to the others. As for the lifecycle of an assistance, both speak
about the history. The committed rows and the registered sockets are those it
leads to, and every entry was in order when it was added (`EntryOk`).

`Explains` lists what a commit may write. An activation that found pending
enrollments either fails on all of them, or consumes the one whose code was
given, revokes the active credential of the device and issues another. A call
for a new code revokes open enrollments and adds one. An administrative
update writes the columns in which the row it read last differs from the one
it wants, and a login notes when the credential was used.

`EntryOk` is what one entry has to be, given the history before it, and it is
all that the calls promise each other. The invariant says no more than that
the state is the one the history leads to. So an entry keeps it if it is in
order and the state changes as the entry tells (`Inv.step`), and whatever else
holds of all reachable states is proved of histories, by induction on the
list.

A row is kept under its identifier, and is never taken out of its table. Both
are properties of what commits write, and hold along a history for this
reason.

## Main definitions

* `Progress`, `progress`: How far a call has come.
* `DeviceEnrollment.HasCode`, `DeviceEnrollment.fail`: The code behind a
  hash, and a failed attempt.
* `Activates`, `IssuesCode`, `Explains`: What a commit may write.
* `Progress.Accepts`: When a token is let through.
* `EntryOk`, `History`: The entries are in order.
* `replayConnections`: The registered sockets a history leads to.
* `Inv`, `Guar`, `deviceRules`: The rules of the device calls.
* `MayClose`: Whose connections a call may close.
* `Keyed`: Rows are kept under their identifiers.

## Theorems

* `Inv.step`: An entry that is in order keeps the invariant.
* `History.at`: An entry was in order where it was added.
* `History.keyed`: Rows are kept under their identifiers.
* `progress_own`, `progress_other`: An entry counts for its own call only.
* `Explains.keyed`: A commit writes a row under its identifier.
* `enrollment_kept`, `History.enrollment_exists`, `History.device_exists`:
  Rows stay.
-/

namespace RemoteControl.Devices

open Concurrency

/-! ## How far a call has come -/

/-- What the entries of a call amount to: the time it was told, the payload of
    its token, the devices and the credential it was shown, the enrollments it
    is going to visit, those it has passed, the pending ones it has locked,
    the identity of its socket, what it committed, whether it has registered
    its socket, and which device's sockets it has closed. -/
structure Progress where
  now : Option Timestamp
  payload : Option DeviceJwtPayload
  devices : List Device
  credential : Option DeviceCredential
  listed : List Uuid
  passed : List Uuid
  found : List DeviceEnrollment
  context : Option DeviceSocketContext
  committed : Option Writes
  registered : Bool
  closed : Option Uuid

/-- A call has not done anything yet. -/
def Progress.start : Progress :=
  { now := none, payload := none, devices := [], credential := none, listed := [], passed := []
    found := [], context := none, committed := none, registered := false, closed := none }

/-- What one more entry of the call adds. -/
def Progress.add (p : Progress) : Event → Progress
  | .told now => { p with now := some now }
  | .verified payload => { p with payload := some payload }
  | .listed ids => { p with listed := ids }
  | .passed id => { p with passed := p.passed ++ [id] }
  | .found e => { p with found := p.found ++ [e] }
  | .shownDevice d => { p with devices := p.devices ++ [d] }
  | .shownCredential k => { p with credential := some k }
  | .authenticated context => { p with context := some context }
  | .committed ws => { p with committed := some ws }
  | .registered _ => { p with registered := true }
  | .closed deviceId => { p with closed := some deviceId }
  | _ => p

/-- How far a call has come: its own entries, the oldest first. -/
def progress (c : CallId) : List Entry → Progress
  | [] => Progress.start
  | e :: l => if e.call = c then (progress c l).add e.event else progress c l

/-- An entry of the call adds its event. -/
theorem progress_own (c : CallId) (ev : Event) (l : List Entry) :
    progress c (⟨c, ev⟩ :: l) = (progress c l).add ev := by
  simp only [progress, if_true]

/-- An entry of another call adds nothing. -/
theorem progress_other {c : CallId} {e : Entry} {l : List Entry} (h : e.call ≠ c) :
    progress c (e :: l) = progress c l := by
  simp only [progress, if_neg h]

/-! ## What a commit may write -/

/-- The enrollment was made for this code. -/
def DeviceEnrollment.HasCode (crypto : Crypto) (e : DeviceEnrollment) (code : String) : Prop :=
  ∃ salt, e.codeHash = crypto.hash code salt

/-- One failed attempt more. The last one that is tolerated revokes. -/
def DeviceEnrollment.fail (e : DeviceEnrollment) (now : Timestamp) : DeviceEnrollment :=
  { e with
    failedAttempts := e.failedAttempts + 1
    revokedAt := if DeviceEnrollmentService.maxFailedAttempts ≤ e.failedAttempts + 1
      then some now else e.revokedAt }

/-- The code is used up. -/
def DeviceEnrollment.use (e : DeviceEnrollment) (now : Timestamp) : DeviceEnrollment :=
  { e with usedAt := some now }

/-- The code is revoked. -/
def DeviceEnrollment.revoke (e : DeviceEnrollment) (now : Timestamp) : DeviceEnrollment :=
  { e with revokedAt := some now }

/-- The credential is revoked. -/
def DeviceCredential.revoke (k : DeviceCredential) (now : Timestamp) : DeviceCredential :=
  { k with revokedAt := some now }

/-- The writes start from the rows that are committed. -/
structure Current (T : Tables) (ws : Writes) : Prop where
  devices : ∀ w ∈ ws.devices, T.devices w.key = w.old
  enrollments : ∀ w ∈ ws.enrollments, T.enrollments w.key = w.old
  credentials : ∀ w ∈ ws.credentials, T.credentials w.key = w.old

/-- The columns of the patch are written to the device, if it has any. -/
def DevicePatch.WrittenTo (patch : DevicePatch) (id : Uuid) (ws : List (Write Uuid Device)) :
    Prop :=
  (patch.isEmpty = true ∧ ws = []) ∨
    ∃ d d', d.id = id ∧ patch.apply d = some d' ∧ ∀ w, w ∈ ws ↔ w = ⟨id, some d, d'⟩

/-- What an activation may commit that found the right code. It consumes the
    enrollment `e` and issues the credential `k`. -/
structure Activates (crypto : Crypto) (dto : ActivateDeviceDto) (p : Progress)
    (now : Timestamp) (device : Device) (e : DeviceEnrollment) (k : DeviceCredential)
    (ws : Writes) : Prop where
  time : p.now = some now
  shown : p.devices = [device]
  active : device.isActive = true
  found : e ∈ p.found
  code : crypto.compare dto.code e.codeHash = true
  owned : e.deviceId = device.id
  enrollments : ∀ w, w ∈ ws.enrollments ↔ w = ⟨e.id, some e, e.use now⟩
  issued : ⟨k.id, none, k⟩ ∈ ws.credentials
  unrevoked : k.isActive = true
  owner : k.deviceId = device.id
  secret : ∃ deviceSecret, k.secretHash = DeviceCredentialsService.hashSecret crypto deviceSecret
  credentials : ∀ w ∈ ws.credentials, w = ⟨k.id, none, k⟩ ∨ ∃ r : DeviceCredential,
    r.isActive = true ∧ r.deviceId = device.id ∧ w = ⟨r.id, some r, r.revoke now⟩
  devices : (DeviceEnrollmentService.buildTechnicalInfo dto).WrittenTo device.id ws.devices

/-- What a call for a new code may commit: the enrollment `e`, and the end of
    every enrollment it has visited and not passed. -/
structure IssuesCode (crypto : Crypto) (deviceId : Uuid) (p : Progress) (now : Timestamp)
    (e : DeviceEnrollment) (ws : Writes) : Prop where
  found : p.found = []
  issued : ⟨e.id, none, e⟩ ∈ ws.enrollments
  owner : e.deviceId = deviceId
  unsettled : e.isUnsettled = true
  attempts : e.failedAttempts = 0
  code : ∃ code, e.HasCode crypto code
  visited : ∀ id ∈ p.listed, id ∈ p.passed ∨ ∃ w ∈ ws.enrollments, w.key = id
  enrollments : ∀ w ∈ ws.enrollments, w = ⟨e.id, none, e⟩ ∨
    ∃ r : DeviceEnrollment, r.isUnsettled = true ∧ r.deviceId = deviceId ∧ r.id ∈ p.listed ∧
      w = ⟨r.id, some r, r.revoke now⟩
  devices : ws.devices = []
  credentials : ws.credentials = []

/-- What a call may commit, given how far it has come. -/
inductive Explains (crypto : Crypto) (call : Call) (p : Progress) (ws : Writes) : Prop where
  | nothing (dto : ActivateDeviceDto) (hcall : call = .activate dto) (hfound : p.found = [])
      (hdevices : ws.devices = []) (henrollments : ws.enrollments = [])
      (hcredentials : ws.credentials = [])
  | failed (dto : ActivateDeviceDto) (now : Timestamp) (hcall : call = .activate dto)
      (hnow : p.now = some now)
      (hwrong : ∀ e ∈ p.found, crypto.compare dto.code e.codeHash = false)
      (henrollments : ∀ w, w ∈ ws.enrollments ↔ ∃ e ∈ p.found, w = ⟨e.id, some e, e.fail now⟩)
      (hdevices : ws.devices = []) (hcredentials : ws.credentials = [])
  | activated (dto : ActivateDeviceDto) (now : Timestamp) (device : Device)
      (e : DeviceEnrollment) (k : DeviceCredential) (hcall : call = .activate dto)
      (h : Activates crypto dto p now device e k ws)
  | issued (deviceId : Uuid) (now : Timestamp) (e : DeviceEnrollment)
      (hcall : call = .createEnrollmentCode deviceId) (h : IssuesCode crypto deviceId p now e ws)
  | patched (id : Uuid) (dto : DevicePatch) (d row : Device) (hcall : call = .update id dto)
      (hfound : p.found = []) (hshown : p.devices = [d, row]) (hid : d.id = id)
      (hchanges : ((dto.overlay d).diff row).isEmpty = false)
      (hdevices : ((dto.overlay d).diff row).WrittenTo id ws.devices)
      (henrollments : ws.enrollments = []) (hcredentials : ws.credentials = [])
  | touched (dto : DeviceLoginDto) (now : Timestamp) (hcall : call = .login dto)
      (hfound : p.found = []) (hdevices : ws.devices = []) (henrollments : ws.enrollments = [])
      (hcredentials : ∀ w ∈ ws.credentials, ∃ k : DeviceCredential,
        w = ⟨k.id, some k, { k with lastUsedAt := some now }⟩)

/-! ## Entries in order -/

/-- The connection a device call closes: that of the device an activation
    has issued a credential for, or of the device of an update. -/
def MayClose (call : Call) (p : Progress) (deviceId : Uuid) : Prop :=
  match call with
  | .activate _ => ∃ ws, p.committed = some ws ∧
      ∃ w ∈ ws.credentials, w.old = none ∧ w.new.deviceId = deviceId
  | .update id _ => id = deviceId
  | _ => False

/-- The token a call comes with. -/
def Call.token : Call → Option String
  | .authorize token => some token
  | .connect token => DevicesGateway.extractToken token
  | _ => none

/-- What a call was shown lets its token through. -/
structure Progress.Accepts (p : Progress) (d : Device) (k : DeviceCredential) : Prop where
  payload : p.payload = some { sub := d.id, tokenType := deviceTokenType, credentialId := k.id }
  device : p.devices = [d]
  active : d.isActive = true
  credential : p.credential = some k
  owner : k.deviceId = d.id

/-- What a call may add to the history. -/
def EntryOk (crypto : Crypto) (calls : CallId → Call) (fleet : List Device) (l : List Entry)
    (e : Entry) : Prop :=
  match e.event with
  | .ran _ => True
  | .told _ => (progress e.call l).now = none ∧ (progress e.call l).found = [] ∧
      (progress e.call l).committed = none
  | .verified payload => ∃ token now, (calls e.call).token = some token ∧
      crypto.verify token now = some payload
  | .listed ids => ∃ deviceId, calls e.call = .createEnrollmentCode deviceId ∧
      ∀ id, id ∈ ids ↔ ∃ row, (replay fleet l).enrollments id = some row ∧
        row.deviceId = deviceId ∧ row.isUnsettled = true
  | .passed id => ∃ deviceId row, calls e.call = .createEnrollmentCode deviceId ∧
      (replay fleet l).enrollments id = some row ∧
      (row.deviceId = deviceId → row.isUnsettled = false)
  | .found row => (progress e.call l).committed = none ∧
      (replay fleet l).enrollments row.id = some row ∧
      (∀ row' ∈ (progress e.call l).found, row'.id ≠ row.id ∧ row'.deviceId = row.deviceId) ∧
      ∃ dto now, calls e.call = .activate dto ∧ (progress e.call l).now = some now ∧
        row.isPending now = true
  | .shownDevice d => (replay fleet l).devices d.id = some d
  | .shownCredential k => (replay fleet l).credentials k.id = some k ∧ k.isActive = true
  | .authenticated context => (∃ token, calls e.call = .connect token) ∧
      (progress e.call l).registered = false ∧ ∃ d k, (progress e.call l).Accepts d k ∧
        context = { deviceId := d.id, credentialId := k.id, publicId := d.publicId }
  | .committed ws => (progress e.call l).committed = none ∧
      Current (replay fleet l) ws ∧ Explains crypto (calls e.call) (progress e.call l) ws
  | .registered deviceId => (progress e.call l).registered = false ∧
      ∃ context, (progress e.call l).context = some context ∧ context.deviceId = deviceId
  | .unregistered _ _ => True
  | .closed deviceId => MayClose (calls e.call) (progress e.call l) deviceId

/-- Every entry was in order where it was added. -/
def History (crypto : Crypto) (calls : CallId → Call) (fleet : List Device) :
    List Entry → Prop
  | [] => True
  | e :: l => EntryOk crypto calls fleet l e ∧ History crypto calls fleet l

/-- What an entry does to the registered sockets. -/
def Entry.connections (e : Entry) (connections : Connections) : Connections :=
  match e.event with
  | .registered deviceId => DevicePresenceService.register connections deviceId e.call
  | .unregistered deviceId s => (DevicePresenceService.unregister connections deviceId s).2
  | .closed deviceId => (DevicePresenceService.take connections deviceId).2
  | _ => connections

/-- The registered sockets a history leads to. -/
def replayConnections : List Entry → Connections
  | [] => fun _ => none
  | e :: l => e.connections (replayConnections l)

/-- What came before an entry is a history, too. -/
theorem History.suffix {crypto : Crypto} {calls : CallId → Call} {fleet : List Device}
    {l l' : List Entry} (h : History crypto calls fleet l) (hs : l' <:+ l) :
    History crypto calls fleet l' := by
  induction l with
  | nil =>
      rw [List.suffix_nil.mp hs]
      trivial
  | cons e l ih =>
      rcases List.suffix_cons_iff.mp hs with rfl | hs
      · exact h
      · exact ih h.2 hs

/-- An entry was in order where it was added. -/
theorem History.at {crypto : Crypto} {calls : CallId → Call} {fleet : List Device}
    {l l₂ l₁ : List Entry} {e : Entry} (h : History crypto calls fleet l)
    (hl : l = l₂ ++ e :: l₁) : EntryOk crypto calls fleet l₁ e :=
  (h.suffix ⟨l₂, hl.symm⟩ : History crypto calls fleet (e :: l₁)).1

/-! ## The rules -/

section Rules

variable (crypto : Crypto) (calls : CallId → Call) (fleet : List Device)

/-- What holds of the state at every moment. -/
structure Inv (w : World) : Prop where
  tables : w.tables = replay fleet w.log
  history : History crypto calls fleet w.log
  distinct : w.credentials.DistinctHowever deviceCredentialIndexes
  contexts : ∀ s, (w.sockets s).device = (progress s w.log).context
  connections : w.connections = replayConnections w.log

/-- What a call promises the others about each of its operations: it adds one
    entry, and it leaves the rows they hold alone. -/
structure Guar (c : CallId) (w w' : World) : Prop where
  entry : ∃ ev, w'.log = ⟨c, ev⟩ :: w.log
  devices : Table.Untouched (some c) w.devices w'.devices
  enrollments : Table.Untouched (some c) w.enrollments w'.enrollments
  credentials : Table.Untouched (some c) w.credentials w'.credentials

/-- The rules the device calls agree on. -/
def deviceRules : Rules Op World CallId where
  inv := Inv crypto calls fleet
  guar := Guar
  issue := fun _ _ _ => True

end Rules

variable {crypto : Crypto} {calls : CallId → Call} {fleet : List Device}

/-- An entry that is in order keeps the invariant, when the state is the one
    it leads to. -/
theorem Inv.step {c : CallId} {ev : Event} {w w' : World} (h : Inv crypto calls fleet w)
    (hlog : w'.log = ⟨c, ev⟩ :: w.log) (hok : EntryOk crypto calls fleet w.log ⟨c, ev⟩)
    (htables : w'.tables = replay fleet (⟨c, ev⟩ :: w.log))
    (hdistinct : w'.credentials.DistinctHowever deviceCredentialIndexes)
    (hcontexts : ∀ s, (w'.sockets s).device = (progress s (⟨c, ev⟩ :: w.log)).context)
    (hconnections : w'.connections = Entry.connections ⟨c, ev⟩ w.connections) :
    Inv crypto calls fleet w' := by
  refine ⟨by rw [hlog, htables], ?_, hdistinct, by rw [hlog]; exact hcontexts, ?_⟩
  -- The entry was checked, and the rest of the history was before.
  · rw [hlog]
    exact ⟨hok, h.history⟩
  · rw [hlog, hconnections, h.connections]
    rfl

/-! ## Rows across a commit -/

/-- Of a commit, the devices are changed by the writes of devices. -/
@[simp] theorem apply_devices (T : Tables) (ws : Writes) :
    (T.apply ws).devices = applyWrites ws.devices T.devices := rfl

/-- Likewise the enrollments. -/
@[simp] theorem apply_enrollments (T : Tables) (ws : Writes) :
    (T.apply ws).enrollments = applyWrites ws.enrollments T.enrollments := rfl

/-- Likewise the credentials. -/
@[simp] theorem apply_credentials (T : Tables) (ws : Writes) :
    (T.apply ws).credentials = applyWrites ws.credentials T.credentials := rfl

/-- Rows are kept under their identifiers. -/
structure Keyed (T : Tables) : Prop where
  devices : ∀ id d, T.devices id = some d → d.id = id
  enrollments : ∀ id e, T.enrollments id = some e → e.id = id
  credentials : ∀ id k, T.credentials id = some k → k.id = id

/-- Patching a device leaves its identifier alone. -/
theorem DevicePatch.apply_id {patch : DevicePatch} {d d' : Device} (h : patch.apply d = some d') :
    d'.id = d.id := by
  simp only [DevicePatch.apply] at h
  split at h
  · simp only [reduceCtorEq] at h
  · simp only [Option.some.injEq] at h
    rw [← h]

/-- A patch applies to any device, unless it has a null where there is none. -/
theorem DevicePatch.apply_total {patch : DevicePatch} (h : patch.isActive ≠ some none)
    (d : Device) : ∃ d', patch.apply d = some d' := by
  simp only [DevicePatch.apply]
  cases hactive : patch.isActive with
  | none => exact ⟨_, rfl⟩
  | some value => cases value with
    | none => exact absurd hactive h
    | some _ => exact ⟨_, rfl⟩

/-- The patched device is written under its own identifier. -/
theorem DevicePatch.WrittenTo.keyed {patch : DevicePatch} {id : Uuid}
    {ws : List (Write Uuid Device)} (h : patch.WrittenTo id ws) :
    ∀ w ∈ ws, w.new.id = w.key := by
  intro w hw
  rcases h with ⟨_, rfl⟩ | ⟨d, d', hid, happly, hws⟩
  · simp only [List.not_mem_nil] at hw
  · rw [(hws w).mp hw]
    exact (DevicePatch.apply_id happly).trans hid

/-- The rows a commit writes are written under their identifiers. -/
theorem Explains.keyed {call : Call} {p : Progress} {ws : Writes}
    (h : Explains crypto call p ws) :
    (∀ w ∈ ws.devices, w.new.id = w.key) ∧ (∀ w ∈ ws.enrollments, w.new.id = w.key) ∧
      ∀ w ∈ ws.credentials, w.new.id = w.key := by
  have hempty : ∀ {K V : Type} {l : List (Write K V)} {P : Write K V → Prop}, l = [] →
      ∀ w ∈ l, P w := by
    rintro K V l P rfl w hw
    simp only [List.not_mem_nil] at hw
  cases h with
  | nothing _ _ _ hd he hc => exact ⟨hempty hd, hempty he, hempty hc⟩
  | failed dto now _ _ _ he hd hc =>
      refine ⟨hempty hd, fun w hw => ?_, hempty hc⟩
      rcases (he w).mp hw with ⟨e, _, rfl⟩
      rfl
  | activated dto now device e k _ h =>
      refine ⟨h.devices.keyed, fun w hw => ?_, fun w hw => ?_⟩
      · rw [(h.enrollments w).mp hw]
        rfl
      · rcases h.credentials w hw with rfl | ⟨r, _, _, rfl⟩ <;> rfl
  | issued deviceId now e _ h =>
      refine ⟨hempty h.devices, fun w hw => ?_, hempty h.credentials⟩
      rcases h.enrollments w hw with rfl | ⟨r, _, _, _, rfl⟩ <;> rfl
  | patched id dto d row _ _ _ _ _ hd he hc => exact ⟨hd.keyed, hempty he, hempty hc⟩
  | touched dto now _ _ hd he hc =>
      refine ⟨hempty hd, hempty he, fun w hw => ?_⟩
      rcases hc w hw with ⟨k, rfl⟩
      rfl

/-- A row that is written under its identifier is found there. -/
theorem keyed_applyWrites {V : Type} {ws : List (Write Uuid V)} {f : Uuid → Option V}
    {ident : V → Uuid} (hf : ∀ id v, f id = some v → ident v = id)
    (hws : ∀ w ∈ ws, ident w.new = w.key) (id : Uuid) (v : V)
    (h : applyWrites ws f id = some v) : ident v = id := by
  rcases applyWrites_cases ws f id with heq | ⟨w, hw, hk, heq⟩
  · rw [heq] at h
    exact hf id v h
  · rw [heq, Option.some.injEq] at h
    rw [← h, hws w hw, hk]

/-- Rows are kept under their identifiers, all along a history. -/
theorem History.keyed {l : List Entry} (h : History crypto calls fleet l) :
    Keyed (replay fleet l) := by
  induction l with
  | nil =>
      -- The devices of the start are found by their identifiers, and the other tables
      -- are empty.
      refine ⟨fun id d hd => ?_, fun id e he => ?_, fun id k hk => ?_⟩
      · have hfind : fleet.find? (fun d => decide (d.id = id)) = some d := hd
        exact key_of_find? hfind
      · simp only [replay, Tables.initial, reduceCtorEq] at he
      · simp only [replay, Tables.initial, reduceCtorEq] at hk
  | cons e l ih =>
      have hl := ih h.2
      rcases e with ⟨c, ev⟩
      cases ev with
      | committed ws =>
          -- A commit writes its rows under their identifiers.
          rcases (h.1.2.2 : Explains _ _ _ _).keyed with ⟨hd, he, hk⟩
          exact ⟨keyed_applyWrites hl.devices hd, keyed_applyWrites hl.enrollments he,
            keyed_applyWrites hl.credentials hk⟩
      | _ => exact hl

/-- Enrollments are never removed. -/
theorem enrollment_kept {l₂ l : List Entry} (h : History crypto calls fleet (l₂ ++ l)) {id : Uuid}
    {e : DeviceEnrollment} (he : (replay fleet l).enrollments id = some e) :
    ∃ e', (replay fleet (l₂ ++ l)).enrollments id = some e' := by
  induction l₂ with
  | nil => exact ⟨e, he⟩
  | cons x l₂ ih =>
      rcases ih h.2 with ⟨e', he'⟩
      rcases x with ⟨c, ev⟩
      cases ev with
      | committed ws =>
          -- The commit may write the enrollment, but does not remove it.
          rcases applyWrites_cases ws.enrollments (replay fleet (l₂ ++ l)).enrollments id with
            heq | ⟨w, _, _, heq⟩
          · exact ⟨e', heq.trans he'⟩
          · exact ⟨w.new, heq⟩
      | _ => exact ⟨e', he'⟩

/-- An enrollment that was listed is still there. -/
theorem History.enrollment_exists {l : List Entry} (h : History crypto calls fleet l) {c : CallId}
    {id : Uuid} (hid : id ∈ (progress c l).listed) :
    ∃ row, (replay fleet l).enrollments id = some row := by
  induction l with
  | nil => simp only [progress, Progress.start, List.not_mem_nil] at hid
  | cons x l ih =>
      have hbefore : (∃ row, (replay fleet l).enrollments id = some row) →
          ∃ row, (replay fleet (x :: l)).enrollments id = some row :=
        fun ⟨row, hrow⟩ => enrollment_kept (show History _ _ _ ([x] ++ l) from h) hrow
      rcases x with ⟨c', ev⟩
      by_cases hc : c' = c
      · subst hc
        rw [progress_own] at hid
        cases ev with
        -- The list was read from the table: what is in it was there.
        | listed ids =>
            rcases h.1 with ⟨_, _, hids⟩
            rcases (hids id).mp hid with ⟨row, hrow, _⟩
            exact ⟨row, hrow⟩
        | _ => exact hbefore (ih h.2 hid)
      · rw [progress_other (e := ⟨c', ev⟩) hc] at hid
        exact hbefore (ih h.2 hid)

/-- Devices are never removed: one that was shown is still there. -/
theorem History.device_exists {l : List Entry} (h : History crypto calls fleet l) {c : CallId}
    {d : Device} (hd : ⟨c, .shownDevice d⟩ ∈ l) :
    ∃ d', (replay fleet l).devices d.id = some d' := by
  induction l with
  | nil => simp only [List.not_mem_nil] at hd
  | cons e l ih =>
      rcases List.mem_cons.mp hd with rfl | hd
      · exact ⟨d, h.1⟩
      · rcases ih h.2 hd with ⟨d', hd'⟩
        rcases e with ⟨c', ev⟩
        cases ev with
        | committed ws =>
            -- The commit may write the device, but does not remove it.
            rcases applyWrites_cases ws.devices (replay fleet l).devices d.id with
              heq | ⟨w, _, _, heq⟩
            · exact ⟨d', heq.trans hd'⟩
            · exact ⟨w.new, heq⟩
        | _ => exact ⟨d', hd'⟩

end RemoteControl.Devices

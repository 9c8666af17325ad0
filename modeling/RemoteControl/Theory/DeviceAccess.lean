import RemoteControl.Theory.DeviceTraces
import RemoteControl.Theory.Tokens

/-!
# How a Device Gets in

The way from an administrator's request for a code to what is done in the name
of a device, whatever else the services do meanwhile. A code is made for an
active device, an activation with this code stores the hash of a secret, a
login with this secret gets a token, and whoever is let through has shown one.
Each link is an entry of the history, before the one that needs it.

The credential of a device is the one that was issued last (`lastIssued`), as
whatever revokes a credential issues another. So a login can be told from the
history alone (`login_exact`).

Three things are followed along a history. A device has a credential in force
as soon as one was issued, and it is the last one (`lastIssued_inForce`). The
events of a login that is over are known (`Theory.DeviceTraces`), and at the
entry of each read the tables are those that the history replays. And a row is
as its INSERT made it, up to what may be changed later, so whatever a login is
shown leads back to the draft of an activation, and the code it matched to the
draft of a call for a code.

The hash of a secret is compared by its value, so two secrets with one hash
cannot be told apart by the source, and are not told apart here. Of bcrypt no
more is assumed than that a code of six digits is matched by itself only.

## Main definitions

* `lastIssued`: The credential that was issued last for a device.
* `Opens`, `ReadsAt`: What a login goes by, and when it reads it.
* `Invited`, `Admitted`, `SignedFor`: The links of the way in.
* `Genuine`: No token was accepted that was not signed before.
* `Event.ReadsDevice`, `Event.ReadsCredential`: The events of the two reads,
  whatever they found.

## Theorems

* `login_exact`: Every login of a device that is over was decided so.
* `access_traced`: What is behind a request or a connection of a device.
* `lastIssued_inForce`, `inForce_iff`: The credential in force is the one that
  was issued last.
* `turnedAway_reads`, `logsIn_reads`: What a login had read that failed, or
  that succeeded.
* `invited_of_row`, `admitted_of_row`: What is behind an enrollment, and a
  credential, in the table.
* `signedFor_of_signed`, `accepted_signed`: What is behind a token that was
  signed, and shown.
-/

namespace RemoteControl.Devices

open Concurrency Encoding

variable {crypto : Crypto} {calls : CallId → Call} {fleet : List Device} {sys : Calls}
  {c : CallId} {l : List Entry}

/-! ## The last credential -/

/-- The credential of the device that a commit has issued. -/
def Writes.issued (ws : Writes) (deviceId : Uuid) : Option DeviceCredential :=
  (ws.credentials.find? (fun w => w.old.isNone && decide (w.new.deviceId = deviceId))).map Write.new

/-- The credential that was issued last for the device, and by which call. -/
def lastIssued (deviceId : Uuid) : List Entry → Option (CallId × DeviceCredential)
  | [] => none
  | e :: l => match e.event with
    | .committed ws => match ws.issued deviceId with
      | some k => some (e.call, k)
      | none => lastIssued deviceId l
    | _ => lastIssued deviceId l

/-- Only a commit can issue a credential. -/
theorem lastIssued_note {ev : Event} (hev : ¬ ev.IsCommit) (deviceId : Uuid) :
    lastIssued deviceId (⟨c, ev⟩ :: l) = lastIssued deviceId l := by
  cases ev <;> first | rfl | exact absurd trivial hev

/-- A commit that issues one for the device replaces what was last; any other
    leaves it. -/
theorem lastIssued_commit {ws : Writes} (deviceId : Uuid) :
    lastIssued deviceId (⟨c, .committed ws⟩ :: l) =
      ((ws.issued deviceId).map (c, ·)).or (lastIssued deviceId l) := by
  simp only [lastIssued]
  cases ws.issued deviceId <;> rfl

/-- A credential that is issued is written without an old row. -/
theorem issued_eq_some {ws : Writes} {deviceId : Uuid} {k : DeviceCredential}
    (h : ws.issued deviceId = some k) : ∃ w ∈ ws.credentials, w.old = none ∧ w.new = k ∧
      k.deviceId = deviceId := by
  rw [Writes.issued, Option.map_eq_some_iff] at h
  rcases h with ⟨w, hfind, rfl⟩
  have hw := List.find?_some hfind
  rw [Bool.and_eq_true, Option.isNone_iff_eq_none, decide_eq_true_eq] at hw
  exact ⟨w, List.mem_of_find?_eq_some hfind, hw.1, rfl, hw.2⟩

/-- A commit that issues none for the device inserts none for it. -/
theorem issued_eq_none {ws : Writes} {deviceId : Uuid} (h : ws.issued deviceId = none) :
    ∀ w ∈ ws.credentials, w.old = none → w.new.deviceId ≠ deviceId := by
  intro w hw hold hdevice
  rw [Writes.issued, Option.map_eq_none_iff, List.find?_eq_none] at h
  refine h w hw ?_
  rw [Bool.and_eq_true, Option.isNone_iff_eq_none, decide_eq_true_eq]
  exact ⟨hold, hdevice⟩

/-- An activation issues one credential, and revokes the others. A revocation, and
    the note of a use, write a row that was there before. -/
theorem Explains.issued_only {call : Call} {p : Progress} {ws : Writes} {deviceId : Uuid}
    {k : DeviceCredential} (h : Explains crypto call p ws) (hk : ws.issued deviceId = some k) :
    k.isActive = true ∧ ∀ w ∈ ws.credentials, w.old = none → w = ⟨k.id, none, k⟩ := by
  rcases issued_eq_some hk with ⟨w, hw, hold, hnew, _⟩
  cases h.credentialChange hw with
  | issued dto now device e k' hcall hact hwrite =>
      rw [hwrite] at hnew
      cases hnew
      refine ⟨hact.unrevoked, fun w' hw' hold' => ?_⟩
      rcases hact.credentials w' hw' with rfl | ⟨r, _, _, rfl⟩
      · rfl
      · cases hold'
  | revoked _ _ _ _ _ r _ _ _ _ hwrite =>
      rw [hwrite] at hold
      cases hold
  | touched _ _ r _ hwrite =>
      rw [hwrite] at hold
      cases hold

/-- A commit that issues no credential for a device revokes none of it. -/
theorem Explains.issued_none {call : Call} {p : Progress} {ws : Writes} {deviceId : Uuid}
    (h : Explains crypto call p ws) (hnone : ws.issued deviceId = none)
    {w : Write Uuid DeviceCredential} (hw : w ∈ ws.credentials) {k : DeviceCredential}
    (hold : w.old = some k) (hdevice : k.deviceId = deviceId) :
    w.new.isActive = k.isActive ∧ w.new.deviceId = k.deviceId ∧
      w.new.secretHash = k.secretHash := by
  have hkept : w.new.secretHash = k.secretHash := by
    rcases h.overwrites_credential hw with ⟨_, hno, _⟩ | ⟨k', hsome, hhash, _⟩
    · rw [hold] at hno
      cases hno
    · rw [hold, Option.some.injEq] at hsome
      rw [hsome]
      exact hhash
  refine ⟨?_, h.credential_owner hw hold, hkept⟩
  rcases h.revokes hw hold with hsame | ⟨_, _, device, _, k', hact, howner⟩
  · exact hsame
  · -- It would have been revoked by an activation, which issues another one.
    refine absurd ?_ (issued_eq_none hnone _ hact.issued rfl)
    exact hact.owner.trans (howner.symm.trans hdevice)

/-- A device that has a credential was issued one. -/
theorem lastIssued_of_row (h : History crypto calls fleet l) {deviceId id : Uuid}
    {k : DeviceCredential} (hk : (replay fleet l).credentials id = some k)
    (hdevice : k.deviceId = deviceId) : ∃ x, lastIssued deviceId l = some x := by
  refine h.induction (P := fun l => ∀ id k, (replay fleet l).credentials id = some k →
    k.deviceId = deviceId → ∃ x, lastIssued deviceId l = some x) ?_ ?_ ?_ id k hk hdevice
  -- In the beginning there are no credentials.
  · intro id k hk
    simp only [replay, Tables.initial, reduceCtorEq] at hk
  · intro c ev l _ _ hev ih
    rw [replay_of_note hev, lastIssued_note hev]
    exact ih
  -- A row of this commit is new, and then issued, or it is an old one of the same
  -- device.
  · intro c ws l _ _ hcur hexp ih id k hk hdevice
    rw [lastIssued_commit]
    cases hissued : ws.issued deviceId with
    | some k' => exact ⟨_, rfl⟩
    -- It was not issued here, so it was there before, and was the device's then.
    | none =>
        rw [Option.map_none, Option.none_or]
        rcases applyWrites_current hcur.credentials id with ⟨_, heq⟩ | ⟨w, hw, hkey, hrow, hnew⟩
        · exact ih id k (heq.symm.trans hk) hdevice
        · have hsame : w.new = k := Option.some.inj (hnew.symm.trans hk)
          cases hold : w.old with
          | none => exact absurd (hsame ▸ hdevice) (issued_eq_none hissued w hw hold)
          | some k₀ =>
              refine ih id k₀ (hrow.trans hold) ?_
              rw [← hexp.credential_owner hw hold, hsame]
              exact hdevice

/-- The credential that was issued last is in force. -/
theorem lastIssued_inForce (h : History crypto calls fleet l) {deviceId : Uuid}
    {x : CallId × DeviceCredential} (hx : lastIssued deviceId l = some x) :
    ∃ k, (replay fleet l).credentials x.2.id = some k ∧ k.isActive = true ∧
      k.deviceId = deviceId ∧ k.secretHash = x.2.secretHash := by
  refine h.induction (P := fun l => ∀ x, lastIssued deviceId l = some x →
    ∃ k, (replay fleet l).credentials x.2.id = some k ∧ k.isActive = true ∧
      k.deviceId = deviceId ∧ k.secretHash = x.2.secretHash) ?_ ?_ ?_ x hx
  · intro x hx
    simp only [lastIssued, reduceCtorEq] at hx
  · intro c ev l _ _ hev ih
    rw [replay_of_note hev, lastIssued_note hev]
    exact ih
  · intro c ws l _ _ hcur hexp ih x hx
    rw [lastIssued_commit] at hx
    cases hissued : ws.issued deviceId with
    | some k =>
        rw [hissued, Option.map_some, Option.some_or, Option.some.injEq] at hx
        subst hx
        rcases issued_eq_some hissued with ⟨w, hw, hold, hnew, hdevice⟩
        rcases hexp.issued_only hissued with ⟨hactive, honly⟩
        refine ⟨k, ?_, hactive, hdevice, rfl⟩
        have hkey : w.key = k.id := congrArg Write.key (honly w hw hold)
        rcases applyWrites_current hcur.credentials k.id with ⟨hno, _⟩ | ⟨w', hw', hkey', hrow, heq⟩
        · exact absurd hkey (hno w hw)
        · -- The row was not there, so what is written to it was inserted.
          have hnone : w'.old = none := by
            rw [← hrow, ← hkey, hcur.credentials w hw, hold]
          rw [honly w' hw' hnone] at heq
          exact heq
    | none =>
        rw [hissued, Option.map_none, Option.none_or] at hx
        rcases ih x hx with ⟨k, hk, hactive, hdevice, hhash⟩
        rcases applyWrites_current hcur.credentials x.2.id with ⟨_, heq⟩ | ⟨w, hw, _, hrow, heq⟩
        · exact ⟨k, heq.trans hk, hactive, hdevice, hhash⟩
        · have hold : w.old = some k := hrow.symm.trans hk
          rcases hexp.issued_none hissued hw hold hdevice with ⟨ha, hd, hs⟩
          exact ⟨w.new, heq, ha.trans hactive, hd.trans hdevice, hs.trans hhash⟩

/-- The credential in force is the one that was issued last. -/
theorem inForce_iff (h : History crypto calls fleet l)
    (hone : OneInForce (replay fleet l)) {deviceId : Uuid} {k : DeviceCredential}
    (hk : (replay fleet l).credentials k.id = some k) (hactive : k.isActive = true)
    (hdevice : k.deviceId = deviceId) : ∃ x, lastIssued deviceId l = some x ∧
      x.2.id = k.id ∧ x.2.secretHash = k.secretHash := by
  rcases lastIssued_of_row h hk hdevice with ⟨x, hx⟩
  rcases lastIssued_inForce h hx with ⟨k', hk', hactive', hdevice', hhash⟩
  have hid : k.id = x.2.id :=
    hone _ _ _ _ hk hk' hactive hactive' (hdevice.trans hdevice'.symm)
  rw [← hid, hk, Option.some.injEq] at hk'
  subst hk'
  exact ⟨x, hx, hid.symm, hhash.symm⟩

/-! ## Logins -/

/-- A hash in the table is the hash of some secret, so it matches where it is
    equal. -/
theorem matchesSecret_iff {k : DeviceCredential}
    (h : ∃ secret, k.secretHash = DeviceCredentialsService.hashSecret crypto secret)
    (deviceSecret : String) :
    DeviceCredentialsService.matchesSecret crypto deviceSecret k.secretHash = true ↔
      k.secretHash = DeviceCredentialsService.hashSecret crypto deviceSecret := by
  rcases h with ⟨secret, hsecret⟩
  rw [hsecret]
  constructor
  · exact fun hmatch => (matchesSecret_hash hmatch).symm
  · intro hsame
    rw [hsame, DeviceCredentialsService.matchesSecret, decide_eq_true_eq]

/-- What a login goes by that reads the device after the one history, and the
    credential after the other. -/
structure Opens (crypto : Crypto) (fleet : List Device) (dto : DeviceLoginDto) (l₁ l₂ : List Entry)
    (d : Device) (a : CallId) (k : DeviceCredential) : Prop where
  device : (replay fleet l₁).devices dto.deviceId = some d
  active : d.isActive = true
  last : lastIssued d.id l₂ = some (a, k)
  secret : k.secretHash = DeviceCredentialsService.hashSecret crypto dto.deviceSecret

/-- The event of a read of the device, which was there or not. -/
def Event.ReadsDevice (deviceId : Uuid) : Event → Prop
  | .ran (.findDevice id) => id = deviceId
  | .shownDevice d => d.id = deviceId
  | _ => False

/-- The event of a read of the credential in force of the device. -/
def Event.ReadsCredential (deviceId : Uuid) : Event → Prop
  | .ran (.findActiveCredential id) => id = deviceId
  | .shownCredential k => k.deviceId = deviceId
  | _ => False

/-- The login has read the device after the one history, and the credential
    after the other. It does not go on to the credential if the device was not
    there or not active, and then the two are the same. -/
structure ReadsAt (fleet : List Device) (log : List Entry) (c : CallId) (deviceId : Uuid)
    (l₁ l₂ : List Entry) : Prop where
  device : ∃ ev, (⟨c, ev⟩ : Entry) :: l₁ <:+ log ∧ ev.ReadsDevice deviceId
  credential : (∃ ev, (⟨c, ev⟩ : Entry) :: l₂ <:+ log ∧ ev.ReadsCredential deviceId) ∨
    (l₂ = l₁ ∧ ∀ d, (replay fleet l₁).devices deviceId = some d → d.isActive = false)
  order : l₁ <:+ l₂

/-- What was issued last was issued by a commit of the history. -/
theorem lastIssued_at {deviceId : Uuid} {a : CallId} {k : DeviceCredential}
    (h : lastIssued deviceId l = some (a, k)) :
    ∃ ws l', (⟨a, .committed ws⟩ : Entry) :: l' <:+ l ∧ ws.issued deviceId = some k := by
  induction l with
  | nil => simp only [lastIssued, reduceCtorEq] at h
  | cons e l ih =>
      rcases e with ⟨c, ev⟩
      -- If this entry does not issue it, an earlier one does.
      have hbefore : lastIssued deviceId l = some (a, k) → ∃ ws l',
          (⟨a, .committed ws⟩ : Entry) :: l' <:+ ⟨c, ev⟩ :: l ∧ ws.issued deviceId = some k := by
        intro h
        rcases ih h with ⟨ws, l', hl', hissued⟩
        exact ⟨ws, l', hl'.trans (List.suffix_cons _ _), hissued⟩
      by_cases hev : ev.IsCommit
      · cases ev with
        | committed ws =>
            rw [lastIssued_commit] at h
            cases hissued : ws.issued deviceId with
            | none =>
                rw [hissued, Option.map_none, Option.none_or] at h
                exact hbefore h
            | some k' =>
                rw [hissued, Option.map_some, Option.some_or, Option.some.injEq, Prod.mk.injEq] at h
                rcases h with ⟨rfl, rfl⟩
                exact ⟨ws, l, List.suffix_rfl, hissued⟩
        | _ => exact absurd hev (fun hc => hc)
      · rw [lastIssued_note hev] at h
        exact hbefore h

/-- The activation that issued a credential has answered with its secret, if it
    has answered. -/
theorem issued_answer (h : Reachable crypto calls fleet sys) (hl : l <:+ sys.shared.log)
    {deviceId : Uuid} {a : CallId} {k : DeviceCredential}
    (hlast : lastIssued deviceId l = some (a, k)) {r : Response} (hret : sys.threads a = .ret r) :
    ∃ resp, r = .activation resp ∧ resp.deviceId = deviceId ∧
      k.secretHash = DeviceCredentialsService.hashSecret crypto resp.deviceSecret := by
  rcases lastIssued_at hlast with ⟨ws, l', hl', hissued⟩
  have hhistory := h.history
  have hat := hhistory.suffix (hl'.trans hl)
  rcases hat.1 with ⟨_, _, hexp⟩
  rcases issued_eq_some hissued with ⟨w, hw, hold, hnew, hdevice⟩
  rcases hexp.issues ⟨w, hw, hold, hnew ▸ hdevice⟩ with ⟨dto, _, _, _, _, hcall, _, _⟩
  -- It has committed nothing else.
  have hcommitted : (progress a sys.shared.log).committed = some ws := by
    rcases hl'.trans hl with ⟨newer, hnewer⟩
    rw [← hnewer] at hhistory ⊢
    refine committed_kept hhistory ?_
    rw [progress_own]
    rfl
  have hans := h.done hret
  have hcall' : calls a = .activate dto := hcall
  rw [hcall'] at hans
  cases r with
  | activation resp =>
      rcases hans with ⟨_, ws', _, hws', ⟨k', hk', hdevice', hhash⟩, _⟩
      rw [hcommitted, Option.some.injEq] at hws'
      subst hws'
      have hsame := (hexp.issued_only hissued).2 _ hk' rfl
      rw [Write.mk.injEq] at hsame
      rcases hsame with ⟨_, _, rfl⟩
      exact ⟨resp, rfl, hdevice'.symm.trans hdevice, hhash⟩
  | enrollmentCode | device | token | authorized | done =>
      simp only [Answers, reduceCtorEq, false_and, exists_false, or_false] at hans

/-- The credential a call was shown is the one that was issued last. -/
theorem credential_last (h : Reachable crypto calls fleet sys) {deviceId : Uuid}
    {k : DeviceCredential} (hl : (⟨c, .shownCredential k⟩ : Entry) :: l <:+ sys.shared.log)
    (howner : k.deviceId = deviceId) : ∃ x, lastIssued deviceId l = some x ∧ x.2.id = k.id ∧
      x.2.secretHash = k.secretHash := by
  have hhistory := h.history.suffix hl
  exact inForce_iff hhistory.2 (oneInForce h ((List.suffix_cons _ _).trans hl)) hhistory.1.1
    hhistory.1.2 howner

/-- Both reads are entries of the history, so what came before them is a part of
    it. -/
theorem ReadsAt.suffix {log l₁ l₂ : List Entry} {deviceId : Uuid}
    (h : ReadsAt fleet log c deviceId l₁ l₂) : l₂ <:+ log := by
  rcases h.credential with ⟨ev, hl₂, _⟩ | ⟨rfl, _⟩
  · exact (List.suffix_cons _ _).trans hl₂
  · rcases h.device with ⟨ev, hl₁, _⟩
    exact (List.suffix_cons _ _).trans hl₁

/-- The two reads of a login, from what it has left in the history. -/
theorem readsAt_of_own (fleet : List Device) (newer : List Event) {ev₁ ev₂ : Event}
    {rest : List Event} {deviceId : Uuid} (hown : own c l = newer ++ ev₂ :: ev₁ :: rest)
    (hev₁ : ev₁.ReadsDevice deviceId) (hev₂ : ev₂.ReadsCredential deviceId) :
    ∃ l₁ l₂, ReadsAt fleet l c deviceId l₁ l₂ ∧
      (⟨c, ev₁⟩ : Entry) :: l₁ <:+ l ∧ (⟨c, ev₂⟩ : Entry) :: l₂ <:+ l := by
  rcases events_at hown with ⟨l₃, hl₃, hown₃⟩
  rcases event_at hown₃ with ⟨l₂, hl₂, hown₂⟩
  rcases event_at hown₂ with ⟨l₁, hl₁, _⟩
  have hl₂' := hl₂.trans hl₃
  have hl₁' := hl₁.trans ((List.suffix_cons _ _).trans hl₂')
  exact ⟨l₁, l₂, ⟨⟨ev₁, hl₁', hev₁⟩, .inl ⟨ev₂, hl₂', hev₂⟩, (List.suffix_cons _ _).trans hl₁⟩,
    hl₁', hl₂'⟩

/-- A login that is turned away had nothing to go by when it read. -/
theorem turnedAway_reads (h : Reachable crypto calls fleet sys) {dto : DeviceLoginDto}
    (hturned : TurnedAway crypto dto (own c sys.shared.log)) : ∃ l₁ l₂,
      ReadsAt fleet sys.shared.log c dto.deviceId l₁ l₂ ∧
      ¬ ∃ d a k, Opens crypto fleet dto l₁ l₂ d a k := by
  have hhistory := h.history
  generalize hown : own c sys.shared.log = tr at hturned
  cases hturned with
  -- There was no device: the login goes no further, and its two moments are one.
  | unknown =>
      rcases event_at hown with ⟨l, hl, _⟩
      have hmiss : (replay fleet l).devices dto.deviceId = none := missed h hl
      refine ⟨l, l, ⟨⟨_, hl, rfl⟩, .inr ⟨rfl, fun d hd => ?_⟩, List.suffix_rfl⟩, ?_⟩
      · rw [hmiss] at hd
        cases hd
      · rintro ⟨d, a, k, hopens⟩
        rw [hopens.device] at hmiss
        cases hmiss
  -- It was not active: likewise.
  | inactive d hid hinactive =>
      rcases event_at hown with ⟨l, hl, _⟩
      have hrow : (replay fleet l).devices d.id = some d := (hhistory.suffix hl).1
      rw [hid] at hrow
      refine ⟨l, l, ⟨⟨_, hl, hid⟩, .inr ⟨rfl, fun d' hd' => ?_⟩, List.suffix_rfl⟩, ?_⟩
      · rw [hrow, Option.some.injEq] at hd'
        rw [← hd']
        exact hinactive
      · rintro ⟨d', a, k, hopens⟩
        rw [hopens.device, Option.some.injEq] at hrow
        rw [← hrow, hopens.active] at hinactive
        cases hinactive
  -- It had no credential in force.
  | unactivated d hid hactive =>
      rcases readsAt_of_own fleet [] hown hid hid with ⟨l₁, l₂, hreads, hl₁, hl₂⟩
      refine ⟨l₁, l₂, hreads, ?_⟩
      rintro ⟨d', a, k, hopens⟩
      have hrow : (replay fleet l₁).devices d.id = some d := (hhistory.suffix hl₁).1
      rw [hid, hopens.device, Option.some.injEq] at hrow
      subst hrow
      -- What was issued last would have been found.
      rcases lastIssued_inForce (hhistory.suffix hreads.suffix) hopens.last with
        ⟨k', hk', hforce, howner, _⟩
      have hmiss : ∀ id k, (replay fleet l₂).credentials id = some k → k.deviceId = d'.id →
          k.isActive = false := missed h hl₂
      rw [hmiss _ k' hk' howner] at hforce
      cases hforce
  -- It had one, with the hash of another secret.
  | mismatch d k hid hactive howner hno =>
      rcases readsAt_of_own fleet [] hown hid (howner.trans hid) with ⟨l₁, l₂, hreads, hl₁, hl₂⟩
      refine ⟨l₁, l₂, hreads, ?_⟩
      rintro ⟨d', a, k', hopens⟩
      have hrow : (replay fleet l₁).devices d.id = some d := (hhistory.suffix hl₁).1
      rw [hid, hopens.device, Option.some.injEq] at hrow
      subst hrow
      -- The credential it was shown is the one that was issued last.
      rcases credential_last h hl₂ howner with ⟨x, hx, _, hhash⟩
      rw [hopens.last, Option.some.injEq] at hx
      subst hx
      have hhashed := credential_hashed (hhistory.suffix hreads.suffix) (hhistory.suffix hl₂).1.1
      rw [(matchesSecret_iff hhashed dto.deviceSecret).mpr (hhash.symm.trans hopens.secret)] at hno
      cases hno

/-- A login that succeeds had the last credential to go by when it read. -/
theorem logsIn_reads (h : Reachable crypto calls fleet sys) {dto : DeviceLoginDto} {d : Device}
    {k : DeviceCredential} {now : Timestamp} {used : Event} (hlogs : LogsIn crypto dto d k)
    (hown : own c sys.shared.log = [.ran (.signToken (tokenFor d k)), used, .told now,
      .shownCredential k, .shownDevice d]) : ∃ l₁ l₂,
      ReadsAt fleet sys.shared.log c dto.deviceId l₁ l₂ ∧
      ∃ a k', Opens crypto fleet dto l₁ l₂ d a k' ∧ k'.id = k.id := by
  have hhistory := h.history
  rcases readsAt_of_own fleet [.ran (.signToken (tokenFor d k)), used, .told now] hown hlogs.id
    (hlogs.owned.trans hlogs.id) with ⟨l₁, l₂, hreads, hl₁, hl₂⟩
  have hrow : (replay fleet l₁).devices d.id = some d := (hhistory.suffix hl₁).1
  -- The row it was shown is that of the credential that was issued last.
  rcases credential_last h hl₂ hlogs.owned with ⟨⟨a, k'⟩, hx, hid, hhash⟩
  have hhashed := credential_hashed (hhistory.suffix hreads.suffix) (hhistory.suffix hl₂).1.1
  refine ⟨l₁, l₂, hreads, a, k', ⟨hlogs.id ▸ hrow, hlogs.active, hx, ?_⟩, hid⟩
  exact hhash.trans ((matchesSecret_iff hhashed dto.deviceSecret).mp hlogs.secret)

/-- Every login of a device that is over was decided at two moments, when it
    read the device and when it read the credential: it succeeds if the device
    was active, and the secret is the one whose hash was stored by the
    activation that was the last one of the device. That activation has
    answered with this secret, up to what the hash tells apart, if it has
    answered. -/
theorem device_login_exact (h : Reachable crypto calls fleet sys) {dto : DeviceLoginDto}
    (hc : calls c = .login dto) {result : Except HttpException Response}
    (hover : sys.threads c = .over result) : ∃ l₁ l₂,
      ReadsAt fleet sys.shared.log c dto.deviceId l₁ l₂ ∧
      ((∃ d a k, Opens crypto fleet dto l₁ l₂ d a k ∧ ∃ iat, result =
          .ok (.token (loginResponse d (crypto.sign (tokenFor d k) iat)))) ∨
        (¬ ∃ d a k, Opens crypto fleet dto l₁ l₂ d a k) ∧
          result = .error DeviceAuthService.invalidCredentials) ∧
      ∀ d a k, Opens crypto fleet dto l₁ l₂ d a k → ∀ r, sys.threads a = .ret r →
        ∃ resp, r = .activation resp ∧ resp.deviceId = d.id ∧
          k.secretHash = DeviceCredentialsService.hashSecret crypto resp.deviceSecret := by
  -- What the activation has answered is the same whichever way the login ends.
  have hanswer : ∀ {l₁ l₂ : List Entry}, l₂ <:+ sys.shared.log →
      ∀ d a k, Opens crypto fleet dto l₁ l₂ d a k → ∀ r, sys.threads a = .ret r →
      ∃ resp, r = .activation resp ∧ resp.deviceId = d.id ∧
        k.secretHash = DeviceCredentialsService.hashSecret crypto resp.deviceSecret :=
    fun hl₂ d a k hopens r hret => issued_answer h hl₂ hopens.last hret
  cases result with
  | error e =>
      have hend := failed h hover
      rw [hc] at hend
      rcases hend with ⟨hturned, rfl⟩
      rcases turnedAway_reads h hturned with ⟨l₁, l₂, hreads, hno⟩
      exact ⟨l₁, l₂, hreads, .inr ⟨hno, rfl⟩, hanswer hreads.suffix⟩
  | ok r =>
      have hend := returned h hover
      rw [hc] at hend
      rcases hend with ⟨d, k, now, used, iat, hlogs, hown, rfl⟩
      rcases logsIn_reads h hlogs hown with ⟨l₁, l₂, hreads, a, k', hopens, hid⟩
      refine ⟨l₁, l₂, hreads, .inl ⟨d, a, k', hopens, iat, ?_⟩, hanswer hreads.suffix⟩
      rw [tokenFor, tokenFor, hid]

/-- The login of the tablet after its activation. -/
theorem device_login_exact_firstLogin : ∃ sys l₁ l₂ d a k,
    Reachable spelledCrypto firstLogin [tablet] sys ∧
    Opens spelledCrypto [tablet] { deviceId := 7, deviceSecret := "secret" } l₁ l₂ d a k := by
  have hrun : ((follow (exec spelledCrypto) (boot spelledCrypto firstLogin [tablet])
      (turns 0 13 123 50 ++ turns 1 19 0 100 ++ turns 2 7 0 0)).any (fun sys =>
        (sys.threads 2).returned.isSome)) = true := by
    decide +kernel
  rcases reachable_of_follow hrun with ⟨sys, hreach, hp⟩
  rcases Option.isSome_iff_exists.mp hp with ⟨r, hret⟩
  have hover : sys.threads 2 = .over (.ok r) := Prog.returned_eq_some.mp hret
  rcases device_login_exact hreach rfl hover with
    ⟨l₁, l₂, _, ⟨d, a, k, hopens, _⟩ | ⟨_, herror⟩, _⟩
  · exact ⟨sys, l₁, l₂, d, a, k, hreach, hopens⟩
  · cases herror

/-! ## The way in -/

/-- The call has committed an enrollment made from the draft. -/
def KeepsEnrollment (l : List Entry) (i : CallId) (draft : DeviceEnrollmentDraft) : Prop :=
  CommittedWith (fun ws => ∃ w ∈ ws.enrollments, w.old = none ∧ w.new.MadeFrom draft) l i

/-- The call has committed a credential made from the draft. -/
def KeepsCredential (l : List Entry) (a : CallId) (draft : DeviceCredentialDraft) : Prop :=
  CommittedWith (fun ws => ∃ w ∈ ws.credentials, w.old = none ∧ w.new.MadeFrom draft) l a

/-- A code for the device, and the end of its validity: a call for a code has
    inserted its hash and committed it, and has answered with the code, if it
    has answered. -/
def Invited (crypto : Crypto) (calls : CallId → Call) (sys : Calls) (l : List Entry)
    (deviceId : Uuid) (code : String) (expiresAt : Timestamp) : Prop :=
  ∃ i draft d now, calls i = .createEnrollmentCode deviceId ∧
    (⟨i, .ran (.insertEnrollment draft)⟩ : Entry) ∈ l ∧ KeepsEnrollment l i draft ∧
    Invites crypto deviceId (own i l) draft code d now ∧ draft.expiresAt = expiresAt ∧
    ∀ r, sys.threads i = .ret r → ∃ publicId,
      r = .enrollmentCode { deviceId, publicId, enrollmentCode := code, expiresAt }

/-- The hash of a secret of the device: an activation with a code for it has
    inserted the hash and committed it, and has answered with a secret that
    has this hash, if it has answered. -/
def Admitted (crypto : Crypto) (calls : CallId → Call) (sys : Calls) (l : List Entry)
    (deviceId : Uuid) (secretHash : String) : Prop :=
  ∃ a dto draft deviceSecret d e now k, calls a = .activate dto ∧
    (⟨a, .ran (.insertCredential draft)⟩ : Entry) :: k <:+ l ∧ KeepsCredential l a draft ∧
    Admits crypto dto (own a k) draft deviceSecret d e now ∧ d.id = deviceId ∧
    draft.secretHash = secretHash ∧ Invited crypto calls sys k deviceId dto.code e.expiresAt ∧
    ∀ r, sys.threads a = .ret r → ∃ resp, r = .activation resp ∧ resp.deviceId = deviceId ∧
      DeviceCredentialsService.hashSecret crypto resp.deviceSecret = secretHash

/-- What a token of a device was signed for: a login with a secret of it. -/
def SignedFor (crypto : Crypto) (calls : CallId → Call) (sys : Calls) (l : List Entry)
    (payload : DeviceJwtPayload) : Prop :=
  ∃ c dto d x k, calls c = .login dto ∧ (⟨c, .ran (.signToken payload)⟩ : Entry) :: k <:+ l ∧
    LogsIn crypto dto d x ∧ payload = tokenFor d x ∧ .shownDevice d ∈ own c k ∧
    .shownCredential x ∈ own c k ∧ Admitted crypto calls sys k d.id x.secretHash

/-- No token was accepted that the service had not signed before. -/
def Genuine (l : List Entry) : Prop :=
  ∀ c payload k, (⟨c, .verified payload⟩ : Entry) :: k <:+ l →
    ∃ c', (⟨c', .ran (.signToken payload)⟩ : Entry) ∈ k

/-- A call inserts one row at most. -/
theorem inserts_once {o o' : Op} {l₁ l₂ : List Entry} (h₁ : (⟨c, .ran o⟩ : Entry) :: l₁ <:+ l)
    (h₂ : (⟨c, .ran o'⟩ : Entry) :: l₂ <:+ l) (hclean₁ : Clean (own c l₁))
    (hclean₂ : Clean (own c l₂)) (ho : ¬ o.IsRoutine) (ho' : ¬ o'.IsRoutine) : o = o' := by
  rcases suffix_trichotomy h₁ h₂ with hs | hs | heq
  · exact absurd (hclean₂ o (did_of_mem (mem_of_suffix hs))) ho
  · exact absurd (hclean₁ o' (did_of_mem (mem_of_suffix hs))) ho'
  · exact Event.ran.inj (congrArg Entry.event (List.cons.inj heq).1)

/-- Two codes with the same hash are the same. -/
theorem code_of_hash (hcompare : crypto.ComparesExactly) {code code' : String} {salt : Nat}
    (h : crypto.compare code (crypto.hash code' salt) = true) : code = code' := by
  rw [hcompare, decide_eq_true_eq] at h
  exact h

/-- What was known at some point of the history is known later. -/
theorem Invited.mono {k : List Entry} {deviceId : Uuid} {code : String} {expiresAt : Timestamp}
    (h : Invited crypto calls sys k deviceId code expiresAt) (hl : History crypto calls fleet l)
    (hk : k <:+ l) : Invited crypto calls sys l deviceId code expiresAt := by
  rcases h with ⟨i, draft, d, now, hcall, hmem, hkeeps, hinvites, hexpires, hanswer⟩
  exact ⟨i, draft, d, now, hcall, hk.subset hmem, committedWith_mono hl hk hkeeps,
    hinvites.mono (own_suffix hk).subset, hexpires, hanswer⟩

/-- What was admitted at some point of the history is admitted later. -/
theorem Admitted.mono {k : List Entry} {deviceId : Uuid} {secretHash : String}
    (h : Admitted crypto calls sys k deviceId secretHash) (hl : History crypto calls fleet l)
    (hk : k <:+ l) : Admitted crypto calls sys l deviceId secretHash := by
  rcases h with ⟨a, dto, draft, deviceSecret, d, e, now, k', hcall, hk', hkeeps, hrest⟩
  exact ⟨a, dto, draft, deviceSecret, d, e, now, k', hcall, hk'.trans hk,
    committedWith_mono hl hk hkeeps, hrest⟩

/-- An enrollment that is in the table was inserted and committed by one call. -/
theorem drafted_of_row (h : Reachable crypto calls fleet sys) (hl : l <:+ sys.shared.log)
    {id : Uuid} {e : DeviceEnrollment} (he : (replay fleet l).enrollments id = some e) :
    ∃ i draft, (⟨i, .ran (.insertEnrollment draft)⟩ : Entry) ∈ l ∧ KeepsEnrollment l i draft ∧
      e.MadeFrom draft := by
  have hhistory := h.history.suffix hl
  -- Its row was written new by some commit.
  rcases hhistory.enrollment_inserted he with
    ⟨i, ws, k, hk, w, hw, hold, hdevice, hhash, hexpires⟩
  -- What a commit writes new was made from a draft that the call has inserted before.
  rcases (inserted h (hk.trans hl)).1 w hw hold with ⟨draft, hmem, hmade⟩
  refine ⟨i, draft, ((List.suffix_cons _ _).trans hk).subset hmem,
    committedWith_of_entry hhistory hk ⟨w, hw, hold, hmade⟩, ?_⟩
  exact ⟨hdevice.symm.trans hmade.1, hhash.symm.trans hmade.2.1, hexpires.symm.trans hmade.2.2⟩

/-- A credential that is in the table was inserted and committed by one call. -/
theorem issued_of_row (h : Reachable crypto calls fleet sys) (hl : l <:+ sys.shared.log)
    {id : Uuid} {x : DeviceCredential} (hx : (replay fleet l).credentials id = some x) :
    ∃ a draft, (⟨a, .ran (.insertCredential draft)⟩ : Entry) ∈ l ∧ KeepsCredential l a draft ∧
      x.MadeFrom draft := by
  have hhistory := h.history.suffix hl
  rcases hhistory.credential_inserted hx with ⟨a, ws, k, hk, w, hw, hold, hdevice, hhash⟩
  rcases (inserted h (hk.trans hl)).2 w hw hold with ⟨draft, hmem, hmade⟩
  refine ⟨a, draft, ((List.suffix_cons _ _).trans hk).subset hmem,
    committedWith_of_entry hhistory hk ⟨w, hw, hold, hmade⟩, ?_⟩
  exact ⟨hdevice.symm.trans hmade.1, hhash.symm.trans hmade.2⟩

/-- The code of an enrollment that is in the table. -/
theorem invited_of_row (hcompare : crypto.ComparesExactly) (h : Reachable crypto calls fleet sys)
    (hl : l <:+ sys.shared.log) {id : Uuid} {e : DeviceEnrollment}
    (he : (replay fleet l).enrollments id = some e) {code : String}
    (hcode : crypto.compare code e.codeHash = true) :
    Invited crypto calls sys l e.deviceId code e.expiresAt := by
  rcases drafted_of_row h hl he with ⟨i, draft, hmem, hkeeps, hdevice, hhash, hexpires⟩
  rcases exists_suffix hmem with ⟨k, hk⟩
  rcases orderly h (hk.trans hl) with ⟨hclean, deviceId, code', d, now, hcall, hinvites⟩
  rcases hinvites.hash with ⟨salt, hsalt⟩
  rw [hhash, hsalt] at hcode
  have hsame : code = code' := code_of_hash hcompare hcode
  subst hsame
  have howner : e.deviceId = deviceId :=
    hdevice.trans (hinvites.device.trans hinvites.id)
  rw [howner, hexpires]
  refine ⟨i, draft, d, now, hcall, hmem, hkeeps, hinvites.mono (own_suffix
    ((List.suffix_cons _ _).trans hk)).subset, rfl, fun r hret => ?_⟩
  -- What was answered is what was inserted.
  have hend := returned h hret
  rw [hcall] at hend
  rcases hend with ⟨draft', code', d', now', hinvites', hmem', rfl⟩
  rcases did_at hmem' with ⟨k', hk'⟩
  rcases orderly h hk' with ⟨hclean', _⟩
  have hone := inserts_once (hk.trans hl) hk' hclean hclean' (fun hc => hc) (fun hc => hc)
  cases hone
  rcases hinvites'.hash with ⟨salt', hsalt'⟩
  rw [hsalt'] at hsalt
  have hcodes : code' = code := by
    have hsame : crypto.compare code' (crypto.hash code salt) = true := by
      rw [← hsalt, hcompare, decide_eq_true_eq]
    exact code_of_hash hcompare hsame
  rw [hcodes, hinvites'.id]
  exact ⟨_, rfl⟩

/-- The secret of a credential that is in the table. -/
theorem admitted_of_row (hcompare : crypto.ComparesExactly) (h : Reachable crypto calls fleet sys)
    (hl : l <:+ sys.shared.log) {id : Uuid} {x : DeviceCredential}
    (hx : (replay fleet l).credentials id = some x) :
    Admitted crypto calls sys l x.deviceId x.secretHash := by
  rcases issued_of_row h hl hx with ⟨a, draft, hmem, hkeeps, hdevice, hhash⟩
  rcases exists_suffix hmem with ⟨k, hk⟩
  rcases orderly h (hk.trans hl) with ⟨hclean, dto, deviceSecret, d, e, now, hcall, hadmits⟩
  have howner : x.deviceId = d.id := hdevice.trans hadmits.device
  have hkl := (List.suffix_cons _ _).trans (hk.trans hl)
  refine ⟨a, dto, draft, deviceSecret, d, e, now, k, hcall, hk, hkeeps, hadmits, howner.symm,
    hhash.symm, ?_, fun r hret => ?_⟩
  · -- The enrollment was in the table when it was locked.
    rcases did_at hadmits.found with ⟨k', hk'⟩
    have hrow := (h.history.suffix (hk'.trans hkl)).1.2.1
    have hbefore := (List.suffix_cons _ _).trans hk'
    rw [howner, ← hadmits.owned]
    exact (invited_of_row hcompare h (hbefore.trans hkl) hrow hadmits.code).mono
      (h.history.suffix hkl) hbefore
  · have hend := returned h hret
    rw [hcall] at hend
    rcases hend with ⟨resp, ⟨draft', d', e', now', hadmits', hmem', hid', _⟩, rfl⟩
    rcases did_at hmem' with ⟨k', hk'⟩
    rcases orderly h hk' with ⟨hclean', _⟩
    have hone := inserts_once (hk.trans hl) hk' hclean hclean' (fun hc => hc) (fun hc => hc)
    cases hone
    refine ⟨resp, rfl, ?_, ?_⟩
    · rw [hid', howner, ← hadmits.device, hadmits'.device]
    · rw [hhash, hadmits'.secret]

/-- A token that was signed was signed for a login. -/
theorem signedFor_of_signed (hcompare : crypto.ComparesExactly)
    (h : Reachable crypto calls fleet sys) (hl : l <:+ sys.shared.log)
    {payload : DeviceJwtPayload} (hmem : (⟨c, .ran (.signToken payload)⟩ : Entry) ∈ l) :
    SignedFor crypto calls sys l payload := by
  rcases exists_suffix hmem with ⟨k, hk⟩
  rcases orderly h (hk.trans hl) with ⟨dto, d, x, now, used, hcall, hlogs, rfl, hown⟩
  have hkl := (List.suffix_cons _ _).trans (hk.trans hl)
  have hshown : .shownDevice d ∈ own c k := by
    rw [hown]
    simp only [List.mem_cons, true_or, or_true]
  have hcredential : .shownCredential x ∈ own c k := by
    rw [hown]
    simp only [List.mem_cons, true_or, or_true]
  refine ⟨c, dto, d, x, k, hcall, hk, hlogs, rfl, hshown, hcredential, ?_⟩
  -- The credential was in the table when it was read.
  rcases did_at hcredential with ⟨k', hk'⟩
  have hrow := (h.history.suffix (hk'.trans hkl)).1.1
  have hbefore := (List.suffix_cons _ _).trans hk'
  rw [← hlogs.owned]
  exact (admitted_of_row hcompare h (hbefore.trans hkl) hrow).mono (h.history.suffix hkl) hbefore

/-- Who is let through has shown a token that was signed for a login. -/
theorem accepted_signed (hcompare : crypto.ComparesExactly) (h : Reachable crypto calls fleet sys)
    (hg : Genuine sys.shared.log) (hl : l <:+ sys.shared.log) {d : Device} {x : DeviceCredential}
    (hacc : (progress c l).Accepts d x) : ∃ k,
      (⟨c, .verified (tokenFor d x)⟩ : Entry) :: k <:+ sys.shared.log ∧
      SignedFor crypto calls sys k (tokenFor d x) := by
  -- What it has accepted was verified by one of its own entries.
  have hentry : ∃ k, (⟨c, .verified (tokenFor d x)⟩ : Entry) :: k <:+ l := by
    refine entry_of_progress (P := fun p => p.payload = some (tokenFor d x))
      (Option.some_ne_none _).symm (fun p ev hp => ?_) hacc.payload
    cases ev with
    | verified payload => exact .inr (by rw [Option.some.inj hp])
    | _ => exact .inl hp
  rcases hentry with ⟨k, hk⟩
  rcases hg c _ k (hk.trans hl) with ⟨c', hsigned⟩
  exact ⟨k, hk.trans hl,
    signedFor_of_signed hcompare h ((List.suffix_cons _ _).trans (hk.trans hl)) hsigned⟩

/-- Where the access of a device comes from, if no token is accepted that the
    service has not signed. Whoever is let through as a device, with a request
    or with a connection, has shown a token that was signed for a login with a
    secret. The hash of the secret was stored by an activation of this device
    with a code, which has committed it, and the code was made for this device,
    was committed, and had not expired when the activation started. At each of
    these moments the device was active when it was read. -/
theorem access_traced (hcompare : crypto.ComparesExactly) (h : Reachable crypto calls fleet sys)
    (hg : Genuine sys.shared.log) :
    (∀ c d, sys.threads c = .ret (.authorized d) → ∃ payload k, payload.sub = d.id ∧
      (⟨c, .verified payload⟩ : Entry) :: k <:+ sys.shared.log ∧
      SignedFor crypto calls sys k payload) ∧
    (∀ c context, (sys.shared.sockets c).device = some context → ∃ payload k,
      payload.sub = context.deviceId ∧ payload.credentialId = context.credentialId ∧
      (⟨c, .verified payload⟩ : Entry) :: k <:+ sys.shared.log ∧
      SignedFor crypto calls sys k payload) := by
  constructor
  · intro c d hret
    rcases h.done hret with ⟨_, x, _, hacc⟩
    rcases accepted_signed hcompare h hg List.suffix_rfl hacc with ⟨k, hk, hsigned⟩
    exact ⟨tokenFor d x, k, rfl, hk, hsigned⟩
  · intro c context hcontext
    -- The identity was set when the token had been let through.
    rw [h.inv.contexts c] at hcontext
    have hentry : ∃ l, (⟨c, .authenticated context⟩ : Entry) :: l <:+ sys.shared.log := by
      refine entry_of_progress (P := fun p => p.context = some context)
        (Option.some_ne_none _).symm (fun p ev hp => ?_) hcontext
      cases ev with
      | authenticated context' => exact .inr (by rw [Option.some.inj hp])
      | _ => exact .inl hp
    rcases hentry with ⟨l, hl⟩
    rcases (h.history.suffix hl).1 with ⟨_, _, d, x, hacc, rfl⟩
    rcases accepted_signed hcompare h hg ((List.suffix_cons _ _).trans hl) hacc with
      ⟨k, hk, hsigned⟩
    exact ⟨tokenFor d x, k, rfl, rfl, hk, hsigned⟩

/-- The entry signs this. -/
def Entry.signs (e : Entry) (payload : DeviceJwtPayload) : Bool :=
  match e.event with
  | .ran (.signToken payload') => decide (payload' = payload)
  | _ => false

/-- The condition of `Genuine`, to be evaluated. -/
def genuine : List Entry → Bool
  | [] => true
  | e :: l => (match e.event with
    | .verified payload => l.any (fun d => d.signs payload)
    | _ => true) && genuine l

/-- The check looks for a signature before every token that is accepted. -/
theorem genuine_of_check (h : genuine l = true) : Genuine l := by
  induction l with
  | nil => exact fun c payload k hk => absurd (List.suffix_nil.mp hk) (List.cons_ne_nil _ _)
  | cons e l ih =>
      rw [genuine, Bool.and_eq_true] at h
      intro c payload k hk
      rcases List.suffix_cons_iff.mp hk with heq | hk
      -- The newest entry: its payload was signed further down.
      · rw [List.cons.injEq] at heq
        rcases heq with ⟨rfl, rfl⟩
        rcases List.any_eq_true.mp h.1 with ⟨⟨c', ev⟩, hd, hsigns⟩
        unfold Entry.signs at hsigns
        split at hsigns
        · rename_i payload' hev
          rw [decide_eq_true_eq] at hsigns
          subst hsigns
          cases hev
          exact ⟨c', hd⟩
        · cases hsigns
      · exact ih h.2 c payload k hk

/-- The tablet logs in, and shows its token. -/
def firstAccess : CallId → Call
  | 3 => .authorize (spelledCrypto.sign
      { sub := 7, tokenType := deviceTokenType, credentialId := 100 } 10)
  | c => firstLogin c

/-- The tablet shows the token of its login, and is let through. -/
theorem access_traced_firstAccess : ∃ sys d payload k,
    Reachable spelledCrypto firstAccess [tablet] sys ∧
    sys.threads 3 = .ret (.authorized d) ∧ payload.sub = d.id ∧
    (⟨3, .verified payload⟩ : Entry) :: k <:+ sys.shared.log ∧
    SignedFor spelledCrypto firstAccess sys k payload := by
  have hrun : ((follow (exec spelledCrypto) (boot spelledCrypto firstAccess [tablet])
      (turns 0 13 123 50 ++ turns 1 19 0 100 ++ turns 2 7 0 0 ++ turns 3 7 0 0)).any (fun sys =>
        genuine sys.shared.log &&
          decide ((sys.threads 3).returned = some (.authorized tablet)))) = true := by
    decide +kernel
  rcases reachable_of_follow hrun with ⟨sys, hreach, hp⟩
  rw [Bool.and_eq_true, decide_eq_true_eq, Prog.returned_eq_some] at hp
  rcases (access_traced (fun _ _ _ => rfl) hreach (genuine_of_check hp.1)).1 3 tablet hp.2 with
    ⟨payload, k, hsub, hk, hsigned⟩
  exact ⟨sys, tablet, payload, k, hreach, hp.2, hsub, hk, hsigned⟩

end RemoteControl.Devices

import RemoteControl.Theory.DeviceOperations

/-!
# The Device Calls

The methods of the device services, verified one by one: from its beginning,
a call ends with what its response promises (`Answers`), or thrown.

The loops of the source go over rows. The rows a loop has dealt with are the
rows in hand (`heldRows`), so its invariant is a grip, and one more turn of
the loop is one more row in it.

Each proof follows the source of its method from the top, one statement at a
time, by the rules of `Theory.DeviceOperations`: `foo_then` is the rule for
the method `foo` with a continuation. What a rule asks for before a statement
that writes is that the row is free, or held and as it was seen; what it gives
back is the progress of the call with one event more, and the grip with one
row more.

At a commit the rows in hand have to be explained by the progress alone
(`Committable`), as the commit is judged by `Explains` from its history. When
a transaction is rolled back its grip is dropped and only the progress
remains, so the postcondition of an error speaks of nothing else.

## Main definitions

* `Answers`, `Threw`: What a response, or an error, says about the call.
* `Committable`: The rows in hand are explained.
* `Revocable`, `Supersedable`, `Pending`: The rows that the three loops go
  over.
* `Visited`: How far the revocation of the codes has come.
* `failedSoFar`, `usedOnly`: What an activation has written to the pending
  codes.

## Theorems

* `createEnrollmentCode_spec`, `activate_spec`, `update_spec`, `login_spec`,
  `authorize_spec`, `connect_spec`, `onDisconnect_spec`: The calls.
* `handle_spec`: Any of them.
* `revokeCredentials_then`, `revokeEnrollments_then`, `lockEach_then`: The
  loops over rows.
* `registerFailedAttempts_then`: The loop that counts a failed attempt.
* `committable_nothing`, `committable_failed`, `committable_activated`,
  `committable_issued`: What may be committed.
* `runActivation_spec`: The transaction of an activation.
* `authenticateToken_spec`: A token is let through if its credential is the
  one in force.
-/

namespace RemoteControl.Devices

open Concurrency

variable {crypto : Crypto} {calls : CallId → Call} {fleet : List Device} {c : CallId}

/-- The commit issued the credential that the activation hands out. -/
def IssuedFor (crypto : Crypto) (ws : Writes) (a : DeviceActivationResponse) : Prop :=
  ∃ k : DeviceCredential, ⟨k.id, none, k⟩ ∈ ws.credentials ∧ k.deviceId = a.deviceId ∧
    k.secretHash = DeviceCredentialsService.hashSecret crypto a.deviceSecret

/-- The identity of the socket is that of the token that was let through. -/
def Progress.Identifies (p : Progress) (context : DeviceSocketContext) : Prop :=
  ∃ d k, p.Accepts d k ∧
    context = { deviceId := d.id, credentialId := k.id, publicId := d.publicId }

/-- The socket has an identity if its token was let through, and only then. -/
def Progress.Decides (p : Progress) : Prop :=
  match p.context with
  | none => ∀ d k, ¬ p.Accepts d k
  | some context => p.Identifies context

/-- What the response of a call says about how far it has come. -/
def Answers (crypto : Crypto) (call : Call) (p : Progress) : Response → Prop
  | .enrollmentCode r => ∃ ws e, call = .createEnrollmentCode r.deviceId ∧
      p.committed = some ws ∧ ⟨e.id, none, e⟩ ∈ ws.enrollments ∧ e.deviceId = r.deviceId ∧
      e.expiresAt = r.expiresAt ∧ e.HasCode crypto r.enrollmentCode
  | .activation a => ∃ dto ws, call = .activate dto ∧ p.committed = some ws ∧
      IssuedFor crypto ws a ∧ p.closed = some a.deviceId
  | .device r => ∃ dto, call = .update r.id dto ∧ (r.isActive ≠ some true → p.closed = some r.id)
  | .token r => ∃ dto d k now, call = .login dto ∧ p.devices = [d] ∧ d.isActive = true ∧
      p.credential = some k ∧ k.deviceId = d.id ∧
      DeviceCredentialsService.matchesSecret crypto dto.deviceSecret k.secretHash = true ∧
      r.token = crypto.sign
        { sub := d.id, tokenType := deviceTokenType, credentialId := k.id } now
  | .authorized d => ∃ token k, call = .authorize token ∧ p.Accepts d k
  | .done => (∃ token, call = .connect token ∧ p.Decides) ∨ ∃ client, call = .disconnect client

/-- A code that the activation has locked is the one it was given. -/
def Progress.Matches (crypto : Crypto) (p : Progress) (dto : ActivateDeviceDto) : Prop :=
  ∃ e ∈ p.found, crypto.compare dto.code e.codeHash = true

/-- A call that throws has issued no credential, and its token was not let
    through. A connection does not throw. An activation that has nothing
    committed has failed with the right code in hand: whoever guesses wrong is
    refused only after the attempt was counted. -/
structure Threw (crypto : Crypto) (call : Call) (p : Progress) : Prop where
  credentials : ∀ ws, p.committed = some ws → ws.credentials = []
  refused : ∀ token, call = .authorize token → ∀ d k, ¬ p.Accepts d k
  caught : ∀ token, call ≠ .connect token
  counted : ∀ dto, call = .activate dto → p.committed = none → p.Matches crypto dto

/-- The call has ended with this response. -/
def Done (crypto : Crypto) (calls : CallId → Call) (c : CallId) (r : Response) (w : World) : Prop :=
  ∃ p, Answers crypto (calls c) p r ∧ At c p .free w

/-- The call has ended with an error. -/
def Thrown (crypto : Crypto) (calls : CallId → Call) (c : CallId) (_ : HttpException) (w : World) :
    Prop :=
  ∃ p, Threw crypto (calls c) p ∧ At c p .free w

/-- The call comes with a token. -/
def Call.BearsToken : Call → Prop
  | .authorize _ => True
  | .connect _ => True
  | _ => False

/-- A call that has committed nothing has issued nothing, and without a token none
    was let through. -/
theorem threw_of_open {call : Call} {p : Progress} (h : p.committed = none)
    (hcall : ¬ call.BearsToken) (hmatch : ∀ dto, call = .activate dto → p.Matches crypto dto) :
    Threw crypto call p := by
  refine ⟨fun ws hws => ?_, fun token hauth => ?_, fun token hconnect => ?_,
    fun dto hactivate _ => hmatch dto hactivate⟩
  · rw [h] at hws
    simp only [reduceCtorEq] at hws
  · rw [hauth] at hcall
    exact absurd trivial hcall
  · rw [hconnect] at hcall
    exact absurd trivial hcall

section Programs

variable {p : Progress} {g : Grip} {α : Type} {Q : α → World → Prop}
  {E : HttpException → World → Prop}

/-! ## Credentials -/

/-- The active credentials of a device, each once. -/
structure Revocable (deviceId : Uuid) (rows : List DeviceCredential) : Prop where
  nodup : (rows.map DeviceCredential.id).Nodup
  row : ∀ x ∈ rows, x.deviceId = deviceId ∧ x.isActive = true

/-- The grip with these credentials revoked. -/
def Grip.revoking (g : Grip) (now : Timestamp) (rows : List DeviceCredential) : Grip :=
  { g with credentials := heldRows DeviceCredential.id rows (fun x => some (x.revoke now)) }

/-- The loop that revokes: every row it has found active is in hand, and the ids
    still to come are apart from these. -/
theorem revokeCredentials_then {ids : List Uuid} {rows : List DeviceCredential} {deviceId : Uuid}
    {now : Timestamp} {k : Unit → Service α} (hids : ids.Nodup)
    (hrows : Revocable deviceId rows) (hapart : ∀ x ∈ rows, x.id ∉ ids)
    (hk : ∀ rows, Revocable deviceId rows → (deviceRules crypto calls fleet).Triple (exec crypto) c
      (At c p (g.revoking now rows)) (k ()) Q E) :
    (deviceRules crypto calls fleet).Triple (exec crypto) c (At c p (g.revoking now rows))
      ((DeviceCredentialsService.revokeEach deviceId now ids).bind k) Q E := by
  induction ids generalizing rows with
  | nil => exact hk rows hrows
  | cons id ids ih =>
      rw [show (DeviceCredentialsService.revokeEach deviceId now (id :: ids)).bind k =
        (statement (.revokeCredential id deviceId now)).bind
          (fun _ => (DeviceCredentialsService.revokeEach deviceId now ids).bind k)
        from Prog.bind_assoc _ _ _]
      rw [List.nodup_cons] at hids
      have hfree : ∀ x ∈ rows, x.id ≠ id := fun x hx hc =>
        hapart x hx (by rw [hc]; exact List.mem_cons_self)
      have hrest : ∀ x ∈ rows, x.id ∉ ids := fun x hx hc =>
        hapart x hx (List.mem_cons_of_mem _ hc)
      -- The statement finds no active row under this id, or revokes it and holds it.
      refine revokeCredential_then (heldRows_eq_none.mpr hfree) (ih hids.2 hrows hrest)
        (fun x hid hd ha => ?_)
      subst hid
      rw [show (g.revoking now rows).setCredential x.id ⟨some x, some (x.revoke now)⟩ =
          g.revoking now (rows ++ [x]) by
        simp only [Grip.revoking, Grip.setCredential, heldRows_append hfree]]
      refine ih hids.2 ⟨nodup_keys_append hrows.nodup hfree, ?_⟩ ?_
      · exact List.forall_mem_append.mpr ⟨hrows.row, List.forall_mem_singleton.mpr ⟨hd, ha⟩⟩
      · exact List.forall_mem_append.mpr ⟨hrest, List.forall_mem_singleton.mpr hids.1⟩

/-- A credential is issued: the active ones of the device are revoked, and a
    new one is saved. -/
theorem issueCredential_then {deviceId : Uuid} {now : Timestamp}
    {k : IssuedDeviceCredential → Service α} (hfree : g.credentials = fun _ => none)
    (herr : ∀ e w g', At c p g' w → E e w)
    (hk : ∀ issued rows x, Revocable deviceId rows → x.deviceId = deviceId → x.isActive = true →
      x.secretHash = DeviceCredentialsService.hashSecret crypto issued.deviceSecret →
      (deviceRules crypto calls fleet).Triple (exec crypto) c
        (At c p ((g.revoking now rows).setCredential x.id ⟨none, some x⟩)) (k issued) Q E) :
    (deviceRules crypto calls fleet).Triple (exec crypto) c (At c p g)
      ((DeviceCredentialsService.issueCredential crypto deviceId now).bind k) Q E := by
  -- The transaction holds no credential before the loop.
  have hstart : g = g.revoking now [] := by
    rcases g with ⟨gd, ge, gc⟩
    simp only [Grip.revoking, heldRows_nil] at hfree ⊢
    rw [hfree]
  rw [hstart]
  unfold DeviceCredentialsService.issueCredential DeviceCredentialsService.revokeActiveCredentials
  simp only [Prog.bind_eq, Prog.bind_assoc]
  refine plain_then trivial (fun ids => ids.Nodup) (fun w env ids w' _ _ hx => ?_)
    (fun ids hids => ?_)
  · cases hx
    exact Table.keys_nodup _ _ _
  refine revokeCredentials_then hids ⟨List.nodup_nil, List.forall_mem_nil _⟩
    (List.forall_mem_nil _) (fun rows hrows => ?_)
  -- The new secret, and the row with its hash.
  refine plainAsk_then trivial (fun _ => True) (fun _ _ _ _ _ _ _ => trivial) (fun secret _ => ?_)
  refine insertCredential_then (fun error => ?_) (fun id createdAt hnone => ?_)
  · exact .throw (fun w _ ha => herr _ w _ ha)
  · exact hk _ rows (DeviceCredentialDraft.toRow _ id createdAt) hrows rfl rfl rfl

/-! ## New codes -/

/-- The open enrollments of a device, each once. -/
structure Supersedable (deviceId : Uuid) (rows : List DeviceEnrollment) : Prop where
  nodup : (rows.map DeviceEnrollment.id).Nodup
  row : ∀ e ∈ rows, e.deviceId = deviceId ∧ e.isUnsettled = true

/-- The grip with these enrollments revoked. -/
def Grip.superseding (g : Grip) (now : Timestamp) (rows : List DeviceEnrollment) : Grip :=
  { g with enrollments := heldRows DeviceEnrollment.id rows (fun e => some (e.revoke now)) }

/-- How far a call is that has passed these enrollments, too. -/
def Progress.passing (p : Progress) (ids : List Uuid) : Progress :=
  { p with passed := p.passed ++ ids }

/-- The listed enrollments are still to be visited, or were passed, or are
    among the rows that were revoked, and there are no others. -/
structure Visited (listed ids past : List Uuid) (rows : List DeviceEnrollment) : Prop where
  all : ∀ id ∈ listed, id ∈ ids ∨ id ∈ past ∨ ∃ e ∈ rows, e.id = id
  left : ∀ id ∈ ids, id ∈ listed
  revoked : ∀ e ∈ rows, e.id ∈ listed

/-- The loop that revokes the open codes. An id whose row is not open any more is
    passed over, and that is noted: nothing else tells later that the code was
    settled before. -/
theorem revokeEnrollments_then {ids : List Uuid} (past : List Uuid) {rows : List DeviceEnrollment}
    {deviceId : Uuid} {now : Timestamp} {k : Unit → Service α}
    (hcall : calls c = .createEnrollmentCode deviceId) (hids : ids.Nodup)
    (hrows : Supersedable deviceId rows) (hapart : ∀ e ∈ rows, e.id ∉ ids)
    (hvisited : Visited p.listed ids past rows)
    (hk : ∀ past rows, Supersedable deviceId rows → Visited p.listed [] past rows →
      (deviceRules crypto calls fleet).Triple (exec crypto) c
        (At c (p.passing past) (g.superseding now rows)) (k ()) Q E) :
    (deviceRules crypto calls fleet).Triple (exec crypto) c
      (At c (p.passing past) (g.superseding now rows))
      ((DeviceEnrollmentService.revokeEach deviceId now ids).bind k) Q E := by
  induction ids generalizing rows past with
  | nil => exact hk past rows hrows hvisited
  | cons id ids ih =>
      rw [show (DeviceEnrollmentService.revokeEach deviceId now (id :: ids)).bind k =
        (statement (.revokeEnrollment id deviceId now)).bind
          (fun _ => (DeviceEnrollmentService.revokeEach deviceId now ids).bind k)
        from Prog.bind_assoc _ _ _]
      rw [List.nodup_cons] at hids
      have hfree : ∀ e ∈ rows, e.id ≠ id := fun e he hc =>
        hapart e he (by rw [hc]; exact List.mem_cons_self)
      have hrest : ∀ e ∈ rows, e.id ∉ ids := fun e he hc =>
        hapart e he (List.mem_cons_of_mem _ hc)
      refine revokeEnrollment_then hcall (hvisited.left id List.mem_cons_self)
        (heldRows_eq_none.mpr hfree) ?_ (fun e hid hd hu => ?_)
      -- The code is settled already, and is passed over.
      · rw [show (p.passing past).add (.passed id) = p.passing (past ++ [id]) by
          simp only [Progress.passing, Progress.add, List.append_assoc]]
        refine ih (past ++ [id]) hids.2 hrows hrest ⟨fun x hx => ?_,
          fun x hx => hvisited.left x (List.mem_cons_of_mem _ hx), hvisited.revoked⟩
        rcases hvisited.all x hx with hx | hx | hx
        · rcases List.mem_cons.mp hx with rfl | hx
          · -- This is the id that was just passed.
            exact .inr (.inl (List.mem_append_right _ (List.mem_singleton.mpr rfl)))
          · exact .inl hx
        · exact .inr (.inl (List.mem_append_left _ hx))
        · exact .inr (.inr hx)
      -- The code is revoked, and from now on held.
      · subst hid
        rw [show (g.superseding now rows).setEnrollment e.id ⟨some e, some (e.revoke now)⟩ =
            g.superseding now (rows ++ [e]) by
          simp only [Grip.superseding, Grip.setEnrollment, heldRows_append hfree]]
        refine ih past hids.2 ⟨nodup_keys_append hrows.nodup hfree, ?_⟩ ?_ ⟨fun x hx => ?_,
          fun x hx => hvisited.left x (List.mem_cons_of_mem _ hx), ?_⟩
        · exact List.forall_mem_append.mpr ⟨hrows.row, List.forall_mem_singleton.mpr ⟨hd, hu⟩⟩
        · exact List.forall_mem_append.mpr ⟨hrest, List.forall_mem_singleton.mpr hids.1⟩
        · rcases hvisited.all x hx with hx | hx | ⟨e', he', hx⟩
          · rcases List.mem_cons.mp hx with rfl | hx
            · -- This is the row that was just revoked.
              exact .inr (.inr ⟨e, List.mem_append_right _ (List.mem_singleton.mpr rfl), rfl⟩)
            · exact .inl hx
          · exact .inr (.inl hx)
          · exact .inr (.inr ⟨e', List.mem_append_left _ he', hx⟩)
        · exact List.forall_mem_append.mpr ⟨hvisited.revoked,
            List.forall_mem_singleton.mpr (hvisited.left _ List.mem_cons_self)⟩

/-- The transaction of a new code: the open enrollments are revoked, and the
    new one is saved. -/
theorem supersede_then {draft : DeviceEnrollmentDraft} {deviceId : Uuid} {now : Timestamp}
    {k : DeviceEnrollment → Service α} (hcall : calls c = .createEnrollmentCode deviceId)
    (hpassed : p.passed = []) (hfree : g.enrollments = fun _ => none)
    (hk : ∀ ids past rows id createdAt, Supersedable deviceId rows → Visited ids [] past rows →
      (∀ e ∈ rows, e.id ≠ id) → (deviceRules crypto calls fleet).Triple (exec crypto) c
        (At c ((p.add (.listed ids)).passing past) ((g.superseding now rows).setEnrollment id
          ⟨none, some (draft.toRow id createdAt)⟩)) (k (draft.toRow id createdAt)) Q E) :
    (deviceRules crypto calls fleet).Triple (exec crypto) c (At c p g)
      ((DeviceEnrollmentService.revokePendingEnrollments deviceId now).bind
        (fun _ => (statement (.insertEnrollment draft)).bind k)) Q E := by
  have hstart : g = g.superseding now [] := by
    rcases g with ⟨gd, ge, gc⟩
    simp only [Grip.superseding, heldRows_nil] at hfree ⊢
    rw [hfree]
  unfold DeviceEnrollmentService.revokePendingEnrollments
  simp only [Prog.bind_eq, Prog.bind_assoc]
  refine unsettledEnrollments_then hcall hfree (fun ids hids => ?_)
  have hnone : p.add (.listed ids) = (p.add (.listed ids)).passing [] := by
    simp only [Progress.passing, Progress.add, hpassed, List.append_nil]
  rw [hstart, hnone]
  -- Every listed code is still to be visited.
  refine revokeEnrollments_then [] hcall hids ⟨List.nodup_nil, List.forall_mem_nil _⟩
    (List.forall_mem_nil _) ⟨fun x hx => .inl hx, fun x hx => hx, List.forall_mem_nil _⟩
    (fun past rows hrows hvisited => ?_)
  exact insertEnrollment_then (fun id createdAt hnone =>
    hk ids past rows id createdAt hrows hvisited (heldRows_eq_none.mp hnone))

/-! ## Locking the pending enrollments -/

/-- The enrollments an activation has in hand, each once. -/
structure Pending (deviceId : Uuid) (now : Timestamp) (rows : List DeviceEnrollment) : Prop where
  nodup : (rows.map DeviceEnrollment.id).Nodup
  row : ∀ e ∈ rows, e.deviceId = deviceId ∧ e.isPending now = true

/-- How far an activation is that has found these enrollments. -/
def Progress.having (p : Progress) (rows : List DeviceEnrollment) : Progress :=
  { p with found := rows }

/-- The grip with these enrollments, and with what was written to each. -/
def Grip.having (g : Grip) (rows : List DeviceEnrollment)
    (written : DeviceEnrollment → Option DeviceEnrollment) : Grip :=
  { g with enrollments := heldRows DeviceEnrollment.id rows written }

/-- The loop that locks the pending codes. A row it finds is held as it was found,
    and is written to only afterwards. -/
theorem lockEach_then {ids : List Uuid} {rows : List DeviceEnrollment} {deviceId : Uuid}
    {now : Timestamp} {dto : ActivateDeviceDto} {k : List DeviceEnrollment → Service α}
    (hcall : calls c = .activate dto) (hopen : p.committed = none) (hnow : p.now = some now)
    (hids : ids.Nodup) (hrows : Pending deviceId now rows) (hapart : ∀ e ∈ rows, e.id ∉ ids)
    (hk : ∀ new, Pending deviceId now (rows ++ new) →
      (deviceRules crypto calls fleet).Triple (exec crypto) c
        (At c (p.having (rows ++ new)) (g.having (rows ++ new) (fun _ => none))) (k new) Q E) :
    (deviceRules crypto calls fleet).Triple (exec crypto) c
      (At c (p.having rows) (g.having rows (fun _ => none)))
      ((DeviceEnrollmentService.lockEach deviceId now ids).bind k) Q E := by
  induction ids generalizing rows k with
  | nil =>
      have hend := hk []
      rw [List.append_nil] at hend
      exact hend hrows
  | cons id ids ih =>
      rw [show (DeviceEnrollmentService.lockEach deviceId now (id :: ids)).bind k =
        (statement (.lockEnrollment id deviceId now)).bind
          (fun found => (DeviceEnrollmentService.lockEach deviceId now ids).bind
            (fun rest => k (found.toList ++ rest)))
        by
          rw [DeviceEnrollmentService.lockEach]
          simp only [Prog.bind_eq, Prog.bind_assoc, Prog.pure_eq, Prog.ret_bind]]
      rw [List.nodup_cons] at hids
      have hfree : ∀ e ∈ rows, e.id ≠ id := fun e he hc =>
        hapart e he (by rw [hc]; exact List.mem_cons_self)
      have hrest : ∀ e ∈ rows, e.id ∉ ids := fun e he hc =>
        hapart e he (List.mem_cons_of_mem _ hc)
      -- A code that has been settled meanwhile is not found, and not locked.
      refine lockEnrollment_then hcall hopen hnow
        (fun e he => ⟨hfree e he, (hrows.row e he).1⟩) (heldRows_eq_none.mpr hfree) ?_
        (fun e hid hd hp => ?_)
      · exact ih hids.2 hrows hrest (fun new hnew => hk new hnew)
      · subst hid
        have happend : Function.update (heldRows DeviceEnrollment.id rows (fun _ => none)) e.id
            (some ⟨some e, none⟩) = heldRows DeviceEnrollment.id (rows ++ [e]) (fun _ => none) :=
          heldRows_append hfree
        rw [show (g.having rows (fun _ => none)).setEnrollment e.id ⟨some e, none⟩ =
            g.having (rows ++ [e]) (fun _ => none) by
          simp only [Grip.having, Grip.setEnrollment, happend]]
        refine ih hids.2 ⟨nodup_keys_append hrows.nodup hfree, ?_⟩ ?_ (fun new hnew => ?_)
        · exact List.forall_mem_append.mpr ⟨hrows.row, List.forall_mem_singleton.mpr ⟨hd, hp⟩⟩
        · exact List.forall_mem_append.mpr ⟨hrest, List.forall_mem_singleton.mpr hids.1⟩
        -- The rest of the loop finds its rows after this one.
        · have hend := hk (e :: new)
          rw [show rows ++ e :: new = rows ++ [e] ++ new by
            rw [List.append_assoc, List.singleton_append]] at hend
          exact hend hnew

/-! ## Trying a code -/

/-- The loop that compares. It stops at the first match, and without one every
    code was wrong. -/
theorem findMatching_then {code : String} {rows : List DeviceEnrollment}
    {k : Option DeviceEnrollment → Service α}
    (hnone : (∀ e ∈ rows, crypto.compare code e.codeHash = false) →
      (deviceRules crypto calls fleet).Triple (exec crypto) c (At c p g) (k none) Q E)
    (hsome : ∀ e ∈ rows, crypto.compare code e.codeHash = true →
      (deviceRules crypto calls fleet).Triple (exec crypto) c (At c p g) (k (some e)) Q E) :
    (deviceRules crypto calls fleet).Triple (exec crypto) c (At c p g)
      ((DeviceEnrollmentService.findMatching code rows).bind k) Q E := by
  induction rows with
  | nil => exact hnone (List.forall_mem_nil _)
  | cons e rows ih =>
      rw [show (DeviceEnrollmentService.findMatching code (e :: rows)).bind k =
        (statement (.bcryptCompare code e.codeHash)).bind (fun matched : Bool =>
          (if matched = true then Prog.ret (some e)
            else DeviceEnrollmentService.findMatching code rows).bind k)
        from Prog.bind_assoc _ _ _]
      refine plain_then trivial (fun matched => matched = crypto.compare code e.codeHash)
        (fun w env r w' _ _ hx => ?_) (fun matched hmatched => ?_)
      · cases hx
        rfl
      · rw [hmatched]
        -- The first code that matches, or none of them.
        cases hcmp : crypto.compare code e.codeHash with
        | true => exact hsome e List.mem_cons_self hcmp
        | false =>
            exact ih (fun hrows => hnone (List.forall_mem_cons.mpr ⟨hcmp, hrows⟩))
              (fun e' he' => hsome e' (List.mem_cons_of_mem _ he'))

/-- What a failed attempt has written once the loop is past these rows. -/
def failedSoFar (now : Timestamp) (past : List DeviceEnrollment) (e : DeviceEnrollment) :
    Option DeviceEnrollment :=
  if e ∈ past then some (e.fail now) else none

/-- The loop that counts the attempt on each code. The codes before are written,
    the codes after are only held. -/
theorem registerFailedAttempts_then {now : Timestamp} (past : List DeviceEnrollment)
    {rows : List DeviceEnrollment}
    {k : Unit → Service α} (hn : ((past ++ rows).map DeviceEnrollment.id).Nodup)
    (hk : (deviceRules crypto calls fleet).Triple (exec crypto) c
      (At c p (g.having (past ++ rows) (failedSoFar now (past ++ rows)))) (k ()) Q E) :
    (deviceRules crypto calls fleet).Triple (exec crypto) c
      (At c p (g.having (past ++ rows) (failedSoFar now past)))
      ((DeviceEnrollmentService.registerFailedAttempts now rows).bind k) Q E := by
  induction rows generalizing past with
  | nil =>
      rw [List.append_nil] at hk ⊢
      exact hk
  | cons e rows ih =>
      have hmem : e ∈ past ++ e :: rows := List.mem_append_right _ List.mem_cons_self
      -- The ids are different, so the row is not among those before it.
      have hnot : e ∉ past := by
        intro he
        rw [List.map_append, List.nodup_append] at hn
        exact hn.2.2 _ (List.mem_map_of_mem he) _ (List.mem_map_of_mem List.mem_cons_self) rfl
      have hsplit : past ++ e :: rows = past ++ [e] ++ rows := by
        rw [List.append_assoc, List.singleton_append]
      rw [show (DeviceEnrollmentService.registerFailedAttempts now (e :: rows)).bind k =
        (statement (.updateEnrollment e.id (e.failedAttempts + 1)
          (if decide (DeviceEnrollmentService.maxFailedAttempts ≤ e.failedAttempts + 1) = true
            then some now else none))).bind
          (fun _ => (DeviceEnrollmentService.registerFailedAttempts now rows).bind k)
        from Prog.bind_assoc _ _ _]
      -- The row is locked, and not written yet.
      have hheld : heldRows DeviceEnrollment.id (past ++ e :: rows) (failedSoFar now past) e.id =
          some ⟨some e, none⟩ := by
        rw [heldRows_of_mem hn hmem, failedSoFar, if_neg hnot]
      refine heldEnrollment_then (q := fun _ => true) (f := fun e' => { e' with
          failedAttempts := e.failedAttempts + 1
          revokedAt := (if decide (DeviceEnrollmentService.maxFailedAttempts ≤
            e.failedAttempts + 1) = true then some now else none).or e'.revokedAt })
        true hheld rfl (fun w env r w' hx => ⟨r, hx, fun hr => hr⟩) ?_
      -- What the statement writes is the row with one failed attempt more.
      have hfail : ({ e with
          failedAttempts := e.failedAttempts + 1
          revokedAt := (if decide (DeviceEnrollmentService.maxFailedAttempts ≤
            e.failedAttempts + 1) = true then some now else none).or e.revokedAt } :
          DeviceEnrollment) = e.fail now := by
        rw [DeviceEnrollment.fail]
        by_cases hmax : DeviceEnrollmentService.maxFailedAttempts ≤ e.failedAttempts + 1
        · simp only [hmax, decide_true, if_true, Option.some_or]
        · simp only [hmax, decide_false, Bool.false_eq_true, if_false, Option.none_or]
      have hwritten : Function.update (failedSoFar now past) e (some (e.fail now)) =
          failedSoFar now (past ++ [e]) := by
        funext x
        by_cases hx : x = e
        · rw [hx, Function.update_self, failedSoFar, if_pos (List.mem_append_right _
            (List.mem_singleton.mpr rfl))]
        · rw [Function.update_of_ne hx]
          simp only [failedSoFar, List.mem_append, List.mem_singleton, hx, or_false]
      rw [hfail, show (g.having (past ++ e :: rows) (failedSoFar now past)).setEnrollment e.id
          ⟨some e, some (e.fail now)⟩ =
            g.having (past ++ [e] ++ rows) (failedSoFar now (past ++ [e])) by
        simp only [Grip.having, Grip.setEnrollment, heldRows_write hn hmem, hwritten, ← hsplit]]
      rw [hsplit] at hn hk
      exact ih (past ++ [e]) hn hk

/-- The rows in hand are explained, and a credential is among them if the
    transaction has an activation to show for it. -/
structure Committable (crypto : Crypto) (call : Call) (activation : Option DeviceActivationResponse)
    (p : Progress) (g : Grip) : Prop where
  isOpen : p.committed = none
  explained : ∀ ws, g.Writes ws → Explains crypto call p ws
  issues : ∀ ws, g.Writes ws → match activation with
    | none => ws.credentials = []
    | some a => IssuedFor crypto ws a

/-- Without a row in hand nothing is written. -/
theorem writes_nil {K V : Type} {l : List (Write K V)} {f : K → Option (Held V)}
    (h : ∀ w, w ∈ l ↔ f w.key = some ⟨w.old, some w.new⟩) (hf : f = fun _ => none) : l = [] := by
  rw [List.eq_nil_iff_forall_not_mem]
  intro w hw
  rw [h w, hf] at hw
  simp only [reduceCtorEq] at hw

/-- An activation that finds no device, or no code, may commit nothing at all. -/
theorem committable_nothing {call : Call} {dto : ActivateDeviceDto} (hcall : call = .activate dto)
    (hopen : p.committed = none) (hfound : p.found = [])
    (hd : g.devices = fun _ => none) (he : g.enrollments = fun _ => none)
    (hc : g.credentials = fun _ => none) : Committable crypto call none p g :=
  ⟨hopen, fun _ hws => .nothing dto hcall hfound (writes_nil hws.devices hd)
    (writes_nil hws.enrollments he) (writes_nil hws.credentials hc),
    fun _ hws => writes_nil hws.credentials hc⟩

/-- A failed attempt on every pending enrollment. -/
theorem committable_failed {dto : ActivateDeviceDto} {deviceId : Uuid} {now : Timestamp}
    {rows : List DeviceEnrollment} (hopen : p.committed = none) (hnow : p.now = some now)
    (hrows : Pending deviceId now rows)
    (hwrong : ∀ e ∈ rows, crypto.compare dto.code e.codeHash = false) :
    Committable crypto (.activate dto) none (p.having rows)
      (Grip.free.having rows (failedSoFar now rows)) := by
  refine ⟨hopen, fun ws hws => ?_, fun ws hws => writes_nil hws.credentials rfl⟩
  refine .failed dto now rfl hnow hwrong (fun w => ?_) (writes_nil hws.devices rfl)
    (writes_nil hws.credentials rfl)
  -- Each row in hand is written once, and the commit writes no others.
  rw [hws.enrollments w, show (Grip.free.having rows (failedSoFar now rows)).enrollments =
    heldRows DeviceEnrollment.id rows (failedSoFar now rows) from rfl,
    heldRows_eq_write hrows.nodup]
  constructor
  · rintro ⟨e, he, u, hu, rfl⟩
    rw [failedSoFar, if_pos he, Option.some.injEq] at hu
    exact ⟨e, he, by rw [hu]⟩
  · rintro ⟨e, he, rfl⟩
    have hmem : e ∈ rows := he
    exact ⟨e, hmem, _, by rw [failedSoFar, if_pos hmem], rfl⟩

/-- What a successful activation has written to the pending enrollments. -/
def usedOnly (now : Timestamp) (e : DeviceEnrollment) :
    DeviceEnrollment → Option DeviceEnrollment :=
  Function.update (fun _ => none) e (some (e.use now))

/-- The technical information of an activation is among the rows in hand, if
    it has any. -/
def InfoHeld (info : DevicePatch) (id : Uuid) (gd : Uuid → Option (Held Device)) : Prop :=
  (info.isEmpty = true ∧ gd = fun _ => none) ∨ ∃ d d', d.id = id ∧ info.apply d = some d' ∧
    gd = Function.update (fun _ => none) id (some ⟨some d, some d'⟩)

/-- What the rows in hand say of the device holds of the commit. -/
theorem InfoHeld.written {info : DevicePatch} {id : Uuid} {gd : Uuid → Option (Held Device)}
    (h : InfoHeld info id gd) {l : List (Write Uuid Device)}
    (hl : ∀ w, w ∈ l ↔ gd w.key = some ⟨w.old, some w.new⟩) : info.WrittenTo id l := by
  rcases h with ⟨hempty, hgd⟩ | ⟨d, d', hid, happly, hgd⟩
  · exact .inl ⟨hempty, writes_nil hl hgd⟩
  · refine .inr ⟨d, d', hid, happly, fun w => ?_⟩
    rw [hl w, hgd, update_eq_write]
    simp only [reduceCtorEq, and_false, or_false]

/-- The grip of an activation that has consumed an enrollment, revoked some
    credentials and issued one. -/
def Grip.activating (gd : Uuid → Option (Held Device)) (rows : List DeviceEnrollment)
    (now : Timestamp) (e : DeviceEnrollment) (revoked : List DeviceCredential)
    (x : DeviceCredential) : Grip :=
  (Grip.revoking { devices := gd, enrollments := heldRows DeviceEnrollment.id rows (usedOnly now e)
                   credentials := fun _ => none } now revoked).setCredential x.id ⟨none, some x⟩

/-- The transaction of a successful activation may commit. Each of its three
    tables is accounted for: the code that matched, the old credentials and the
    new one, and the device. -/
theorem committable_activated {dto : ActivateDeviceDto} {device : Device} {now : Timestamp}
    {rows : List DeviceEnrollment} {e : DeviceEnrollment} {revoked : List DeviceCredential}
    {x : DeviceCredential} {gd : Uuid → Option (Held Device)} {a : DeviceActivationResponse}
    (hopen : p.committed = none) (hnow : p.now = some now) (hshown : p.devices = [device])
    (hdevice : device.isActive = true) (hrows : Pending device.id now rows)
    (he : e ∈ rows) (hcode : crypto.compare dto.code e.codeHash = true)
    (hgd : InfoHeld (DeviceEnrollmentService.buildTechnicalInfo dto) device.id gd)
    (hrevoked : Revocable device.id revoked) (hx : x.deviceId = device.id)
    (hactive : x.isActive = true) (ha : a.deviceId = device.id)
    (hsecret : x.secretHash = DeviceCredentialsService.hashSecret crypto a.deviceSecret) :
    Committable crypto (.activate dto) (some a) (p.having rows)
      (Grip.activating gd rows now e revoked x) := by
  -- The new credential is among what is written.
  have hissued : ∀ ws, (Grip.activating gd rows now e revoked x).Writes ws →
      ⟨x.id, none, x⟩ ∈ ws.credentials :=
    fun ws hws => (hws.credentials ⟨x.id, none, x⟩).mpr (update_eq_write.mpr (.inl rfl))
  refine ⟨hopen, fun ws hws => ?_, fun ws hws => ⟨x, hissued ws hws, by rw [ha, hx], hsecret⟩⟩
  refine .activated dto now device e x rfl
    { time := hnow, shown := hshown, active := hdevice, found := he, code := hcode
      owned := (hrows.row e he).1, enrollments := fun w => ?_, issued := hissued ws hws
      unrevoked := hactive, owner := hx, secret := ⟨_, hsecret⟩, credentials := fun w hw => ?_
      devices := hgd.written hws.devices }
  · rw [hws.enrollments w]
    -- Of the codes that are held only the one that matched is written.
    refine (heldRows_eq_write hrows.nodup).trans ⟨?_, ?_⟩
    · rintro ⟨v, hv, u, hu, rfl⟩
      by_cases hve : v = e
      · rw [hve, usedOnly, Function.update_self, Option.some.injEq] at hu
        rw [hve, ← hu]
      · rw [usedOnly, Function.update_of_ne hve] at hu
        simp only [reduceCtorEq] at hu
    · rintro rfl
      exact ⟨e, he, _, by rw [usedOnly, Function.update_self], rfl⟩
  -- The other credentials that are written are those that were revoked.
  · rcases update_eq_write.mp ((hws.credentials w).mp hw) with rfl | ⟨_, hold⟩
    · exact .inl rfl
    · rcases (heldRows_eq_write hrevoked.nodup).mp hold with ⟨r, hr, u, hu, rfl⟩
      rw [Option.some.injEq] at hu
      exact .inr ⟨r, (hrevoked.row r hr).2, (hrevoked.row r hr).1, by rw [← hu]⟩

/-- The information of the request is written to the device, if there is any. -/
theorem updateTechnicalInfo_then {seen : Device} {info : DevicePatch} {k : Unit → Service α}
    (hseen : seen ∈ p.devices) (hfree : g.devices = fun _ => none)
    (herr : ∀ e w g', At c p g' w → E e w)
    (hk : ∀ gd, InfoHeld info seen.id gd → (deviceRules crypto calls fleet).Triple (exec crypto) c
      (At c p { g with devices := gd }) (k ()) Q E) :
    (deviceRules crypto calls fleet).Triple (exec crypto) c (At c p g)
      ((DeviceEnrollmentService.updateTechnicalInfo seen.id info).bind k) Q E := by
  unfold DeviceEnrollmentService.updateTechnicalInfo
  -- Without any information in the request the device is left alone.
  by_cases hempty : info.isEmpty = true
  · rw [if_pos hempty]
    exact hk g.devices (.inl ⟨hempty, hfree⟩)
  · rw [if_neg hempty]
    simp only [Prog.bind_eq, Prog.bind_assoc]
    refine updateDevice_then hfree hseen rfl (fun error => ?_) (fun d d' hid happly => ?_)
    · exact .throw (fun w _ ha => herr _ w g ha)
    · refine hk (Function.update g.devices seen.id (some ⟨some d, some d'⟩))
        (.inr ⟨d, d', hid, happly, ?_⟩)
      rw [hfree]

/-- The code that matched is used up, the device gets its information and a new
    credential is issued. All this is in hand when the transaction commits. -/
theorem consume_then {dto : ActivateDeviceDto} {device : Device} {now : Timestamp}
    {rows : List DeviceEnrollment} {e : DeviceEnrollment} (hcall : calls c = .activate dto)
    (hopen : p.committed = none) (hnow : p.now = some now) (hshown : p.devices = [device])
    (hdevice : device.isActive = true) (hrows : Pending device.id now rows)
    (he : e ∈ rows) (hcode : crypto.compare dto.code e.codeHash = true) :
    (deviceRules crypto calls fleet).Triple (exec crypto) c
      (At c (p.having rows) (Grip.free.having rows (fun _ => none)))
      (DeviceEnrollmentService.consume crypto dto device now e)
      (fun a w => ∃ p' g', Committable crypto (calls c) a p' g' ∧ At c p' g' w)
      (fun _ w => ∃ p' g', (p'.committed = none ∧ p'.Matches crypto dto) ∧ At c p' g' w) := by
  have hheld : heldRows DeviceEnrollment.id rows (fun _ => none) e.id = some ⟨some e, none⟩ :=
    heldRows_of_mem hrows.nodup he
  -- The code was pending when it was locked, so it has not been used.
  have hused : e.usedAt.isNone = true := by
    have hp := (hrows.row e he).2
    simp only [DeviceEnrollment.isPending, DeviceEnrollment.isUnsettled, Bool.and_eq_true] at hp
    exact hp.1.1
  unfold DeviceEnrollmentService.consume
  simp only [Prog.bind_eq]
  refine heldEnrollment_then (q := fun e => e.usedAt.isNone) (f := fun e => e.use now) true hheld
    hused (fun w env r w' hx => ⟨r, hx, fun hr => hr⟩) ?_
  rw [show (Grip.free.having rows (fun _ => none)).setEnrollment e.id ⟨some e, some (e.use now)⟩ =
      Grip.free.having rows (usedOnly now e) by
    simp only [Grip.having, Grip.setEnrollment, heldRows_write hrows.nodup he, usedOnly]]
  -- A failure on the way leaves the transaction open, to be rolled back.
  have hfailed : ∀ (_ : HttpException) w g', At c (p.having rows) g' w →
      ∃ p' g', (p'.committed = none ∧ p'.Matches crypto dto) ∧ At c p' g' w :=
    fun _ _ g' ha => ⟨p.having rows, g', ⟨hopen, e, he, hcode⟩, ha⟩
  have hseen : device ∈ (p.having rows).devices := by
    rw [Progress.having, hshown]
    exact List.mem_singleton.mpr rfl
  refine updateTechnicalInfo_then hseen rfl hfailed (fun gd hgd => ?_)
  refine issueCredential_then rfl hfailed (fun issued revoked x hrevoked hx hactive hsecret => ?_)
  refine .ret (fun w _ ha => ⟨_, _, ?_, ha⟩)
  rw [hcall]
  exact committable_activated hopen hnow hshown hdevice hrows he hcode hgd hrevoked hx hactive rfl
    hsecret

/-- The comparison for show has no effect. -/
theorem burnVerificationTime_then {code : String} {k : Unit → Service α}
    (hk : (deviceRules crypto calls fleet).Triple (exec crypto) c (At c p g) (k ()) Q E) :
    (deviceRules crypto calls fleet).Triple (exec crypto) c (At c p g)
      ((DeviceEnrollmentService.burnVerificationTime code).bind k) Q E := by
  unfold DeviceEnrollmentService.burnVerificationTime
  simp only [Prog.bind_eq, Prog.bind_assoc]
  refine plain_then trivial (fun _ => True) (fun _ _ _ _ _ _ _ => trivial) (fun _ _ => ?_)
  exact plain_then trivial (fun _ => True) (fun _ _ _ _ _ _ _ => trivial) (fun _ _ => hk)

/-- An activation with the pending enrollments in hand. -/
theorem tryCode_then {dto : ActivateDeviceDto} {device : Device} {now : Timestamp}
    {rows : List DeviceEnrollment} (hcall : calls c = .activate dto) (hopen : p.committed = none)
    (hnow : p.now = some now) (hshown : p.devices = [device]) (hdevice : device.isActive = true)
    (hrows : Pending device.id now rows) :
    (deviceRules crypto calls fleet).Triple (exec crypto) c
      (At c (p.having rows) (Grip.free.having rows (fun _ => none)))
      (DeviceEnrollmentService.tryCode crypto dto device now rows)
      (fun a w => ∃ p' g', Committable crypto (calls c) a p' g' ∧ At c p' g' w)
      (fun _ w => ∃ p' g', (p'.committed = none ∧ p'.Matches crypto dto) ∧ At c p' g' w) := by
  cases rows with
  | nil =>
      refine burnVerificationTime_then (.ret (fun w _ ha => ⟨_, _, ?_, ha⟩))
      exact committable_nothing hcall hopen rfl rfl rfl rfl
  | cons e rows =>
      unfold DeviceEnrollmentService.tryCode
      simp only [Prog.bind_eq]
      refine findMatching_then (fun hwrong => ?_) (fun e' he' hcode => ?_)
      -- A wrong code counts against every code that was pending.
      · have hstart : (fun _ => none) = failedSoFar now [] := by
          funext x
          rw [failedSoFar, if_neg List.not_mem_nil]
        rw [hstart]
        refine registerFailedAttempts_then [] hrows.nodup (.ret (fun w _ ha => ?_))
        exact ⟨_, _, by rw [hcall]; exact committable_failed hopen hnow hrows hwrong, ha⟩
      · exact consume_then hcall hopen hnow hshown hdevice hrows he' hcode

/-- The transaction of an activation. It may end with nothing, with failed
    attempts, or with a new credential, and all three are committed; it is rolled
    back only after a code has matched. -/
theorem runActivation_spec {dto : ActivateDeviceDto} (hcall : calls c = .activate dto) :
    (deviceRules crypto calls fleet).Triple (exec crypto) c (At c .start .free)
      (DeviceEnrollmentService.runActivation crypto dto)
      (fun a w => ∃ p' g', Committable crypto (calls c) a p' g' ∧ At c p' g' w)
      (fun _ w => ∃ p' g', (p'.committed = none ∧ p'.Matches crypto dto) ∧ At c p' g' w) := by
  unfold DeviceEnrollmentService.runActivation
  simp only [Prog.bind_eq]
  refine newDate_then rfl rfl rfl (fun now => ?_)
  refine findDeviceByPublicId_then rfl (fun found => ?_)
  cases hactive : found.filter Device.isActive with
  | none =>
      -- An unknown or inactive device takes as long as one with a code.
      refine burnVerificationTime_then (.ret (fun w _ ha => ⟨_, _, ?_, ha⟩))
      cases found <;> exact committable_nothing hcall rfl rfl rfl rfl rfl
  | some device =>
      rcases Option.filter_eq_some_iff.mp hactive with ⟨hfound, hdevice⟩
      rw [hfound]
      unfold DeviceEnrollmentService.findPendingEnrollments
      simp only [Prog.bind_eq, Prog.bind_assoc]
      refine plain_then trivial (fun ids => ids.Nodup) (fun w env ids w' _ _ hx => ?_)
        (fun ids hids => ?_)
      · cases hx
        exact (List.mergeSort_perm _ _).nodup_iff.mpr (Table.keys_nodup _ _ _)
      -- The loop begins with no code locked.
      have hempty : Pending device.id now [] := ⟨List.nodup_nil, List.forall_mem_nil _⟩
      refine lockEach_then (p := (Progress.start.add (.told now)).shown (some device)) (g := .free)
        hcall rfl rfl hids hempty (List.forall_mem_nil _) (fun rows hrows => ?_)
      exact tryCode_then (p := (Progress.start.add (.told now)).shown (some device)) hcall rfl rfl
        rfl hdevice hrows

/-! ## The calls -/

/-- An activation. The transaction goes first, and its outcome decides what is
    left to do. -/
theorem activate_spec {dto : ActivateDeviceDto} (hcall : calls c = .activate dto) :
    (deviceRules crypto calls fleet).Triple (exec crypto) c (At c .start .free)
      (DeviceEnrollmentService.activate crypto dto)
      (fun a => Done crypto calls c (.activation a)) (Thrown crypto calls c) := by
  have htoken : ¬ (calls c).BearsToken := by
    rw [hcall]
    exact fun h => h
  -- A transaction that is rolled back had the right code in hand.
  have hrolledBack : ∀ e p' w, (p'.committed = none ∧ p'.Matches crypto dto) →
      At c p' .free w → Thrown crypto calls c e w := by
    rintro e p' w ⟨hopen, hmatch⟩ ha
    refine ⟨p', threw_of_open hopen htoken (fun dto' hdto => ?_), ha⟩
    rw [hcall, Call.activate.injEq] at hdto
    rw [← hdto]
    exact hmatch
  unfold DeviceEnrollmentService.activate
  simp only [Prog.bind_eq]
  refine transaction_then (Committable crypto (calls c))
    (fun _ p' => p'.committed = none ∧ p'.Matches crypto dto)
    (runActivation_spec hcall) (fun _ _ _ h => h.isOpen) (fun _ _ _ ws h hws => h.explained ws hws)
    (fun a p' g' ws h hws => ?_) hrolledBack
  have hissues := h.issues ws hws
  cases a with
  -- The failed attempts are committed, and only then is the call refused.
  | none =>
      refine .throw (fun w _ ha => ⟨_, ⟨fun ws' hws' => ?_, fun token hauth => ?_,
        fun token hconnect => ?_, fun dto' _ hnone => ?_⟩, ha⟩)
      · simp only [Progress.add, Option.some.injEq] at hws'
        rw [← hws']
        exact hissues
      · rw [hcall] at hauth
        simp only [reduceCtorEq] at hauth
      · rw [hcall] at hconnect
        simp only [reduceCtorEq] at hconnect
      · simp only [Progress.add, reduceCtorEq] at hnone
  | some a =>
      -- The sockets are closed for the credentials it has just revoked.
      have hmay : MayClose (calls c) (p'.add (.committed ws)) a.deviceId := by
        rw [hcall]
        rcases hissues with ⟨x, hx, hd, _⟩
        exact ⟨ws, rfl, _, hx, rfl, hd⟩
      exact disconnectDevice_then hmay (fun _ =>
        .ret (fun w _ ha => ⟨_, ⟨dto, ws, hcall, rfl, hissues, rfl⟩, ha⟩))

/-- The transaction of a new code may commit. -/
theorem committable_issued {device : Device} {now : Timestamp} {rows : List DeviceEnrollment}
    {draft : DeviceEnrollmentDraft} {id : Uuid} {createdAt : Timestamp} {code : String}
    {ws : Writes} (hws : ((Grip.free.superseding now rows).setEnrollment id
      ⟨none, some (draft.toRow id createdAt)⟩).Writes ws)
    (hfound : p.found = []) (hrows : Supersedable device.id rows)
    (hvisited : Visited p.listed [] p.passed rows) (hnew : ∀ e ∈ rows, e.id ≠ id)
    (hdraft : draft = { deviceId := device.id, codeHash := draft.codeHash
                        expiresAt := draft.expiresAt, usedAt := none, revokedAt := none })
    (hcode : (draft.toRow id createdAt).HasCode crypto code) :
    IssuesCode crypto device.id p now (draft.toRow id createdAt) ws := by
  -- The transaction has written the new code, and the codes that it revoked.
  have hwritten : ∀ w, w ∈ ws.enrollments ↔ w = ⟨id, none, draft.toRow id createdAt⟩ ∨
      (w.key ≠ id ∧ ∃ r ∈ rows, w = ⟨r.id, some r, r.revoke now⟩) := by
    intro w
    refine (hws.enrollments w).trans (update_eq_write.trans ?_)
    rw [show (Grip.free.superseding now rows).enrollments w.key = heldRows DeviceEnrollment.id rows
      (fun e => some (e.revoke now)) w.key from rfl, heldRows_eq_write hrows.nodup]
    simp only [Option.some.injEq, exists_eq_left']
  refine
    { found := hfound, issued := (hwritten _).mpr (.inl rfl), owner := by rw [hdraft]; rfl
      unsettled := by rw [hdraft]; rfl
      attempts := rfl, code := ⟨code, hcode⟩, visited := fun x hx => ?_,
      enrollments := fun w hw => ?_
      devices := writes_nil hws.devices rfl, credentials := writes_nil hws.credentials rfl }
  · rcases hvisited.all x hx with hx | hx | ⟨e, he, hx⟩
    · simp only [List.not_mem_nil] at hx
    · exact .inl hx
    · exact .inr ⟨_, (hwritten ⟨e.id, some e, e.revoke now⟩).mpr (.inr ⟨hnew e he, e, he, rfl⟩), hx⟩
  · rcases (hwritten w).mp hw with rfl | ⟨_, r, hr, rfl⟩
    · exact .inl rfl
    · exact .inr ⟨r, (hrows.row r hr).2, (hrows.row r hr).1, hvisited.revoked r hr, rfl⟩

/-- A request for a code. The code is made before the transaction, which then
    stores its hash. -/
theorem createEnrollmentCode_spec {deviceId : Uuid}
    (hcall : calls c = .createEnrollmentCode deviceId) :
    (deviceRules crypto calls fleet).Triple (exec crypto) c (At c .start .free)
      (DeviceEnrollmentService.createEnrollmentCode deviceId)
      (fun r => Done crypto calls c (.enrollmentCode r)) (Thrown crypto calls c) := by
  have hthrown : ∀ {e : HttpException} {p' : Progress} {w : World}, p'.committed = none →
      At c p' .free w → Thrown crypto calls c e w :=
    fun hp ha => ⟨_, threw_of_open hp (by rw [hcall]; exact fun h => h)
      (fun dto' hdto => by rw [hcall] at hdto; cases hdto), ha⟩
  unfold DeviceEnrollmentService.createEnrollmentCode DevicesService.findEntity
  simp only [Prog.bind_eq, Prog.bind_assoc]
  refine findDevice_then (fun found hid => ?_)
  refine orFail_then (fun hnone w _ ha => ?_) (fun device hdevice => ?_)
  · rw [hnone] at ha
    exact hthrown rfl ha
  -- The device that was found is the one that was asked for.
  have hsame : device.id = deviceId := hid device hdevice
  rw [hdevice]
  split
  · exact .throw (fun w _ ha => hthrown rfl ha)
  unfold DeviceEnrollmentService.generateCode
  simp only [Prog.bind_eq, Prog.bind_assoc]
  -- The code is any number of six digits, and what is stored is its hash.
  refine plainAsk_then trivial (fun _ => True) (fun _ _ _ _ _ _ _ => trivial) (fun n _ => ?_)
  refine newDate_then rfl rfl rfl (fun now => ?_)
  refine plain_then trivial
    (fun codeHash => ∃ salt, codeHash = crypto.hash (DeviceEnrollmentService.padCode n) salt)
    (fun w env codeHash w' _ _ hx => ?_) (fun codeHash hcode => ?_)
  · cases hx
    exact ⟨_, rfl⟩
  refine transaction_then
    (fun e p' g' => p'.committed = none ∧ ∀ ws, g'.Writes ws →
      IssuesCode crypto device.id p' now e ws ∧
        e.expiresAt = now + DeviceEnrollmentService.codeTtlMinutes * 60000 ∧
        e.HasCode crypto (DeviceEnrollmentService.padCode n))
    (fun _ p' => p'.committed = none) ?_ (fun _ _ _ h => h.1)
    (fun e p' g' ws h hws => ?_) (fun e p' g' ws h hws => ?_)
    (fun e p' w hp ha => hthrown hp ha)
  -- In the transaction: the old codes are revoked, and the new one is inserted.
  · refine supersede_then (by rw [hcall, hsame]) rfl rfl
      (fun ids past rows id createdAt hrows hvisited hnew => .ret (fun w _ ha => ⟨_, _,
        ⟨rfl, fun ws hws => ⟨committable_issued hws rfl hrows ?_ hnew rfl hcode, rfl, hcode⟩⟩, ha⟩))
    exact hvisited
  · -- What was written is explained by the progress, and says whose code it is.
    rw [hcall, ← hsame]
    exact .issued device.id now e rfl (h.2 ws hws).1
  · rcases h.2 ws hws with ⟨hissues, hexp, hhas⟩
    refine .ret (fun w _ ha => ⟨_, ⟨ws, e, ?_, rfl, hissues.issued, hissues.owner, hexp, hhas⟩, ha⟩)
    rw [hcall, hsame]

/-- The update of a device, in its own transaction. -/
theorem saveChanges_then {id : Uuid} {dto : DevicePatch} {d row : Device}
    {k : PreloadedDevice → Service α} (hcall : calls c = .update id dto)
    (hopen : p.committed = none) (hfound : p.found = []) (hshown : p.devices = [d, row])
    (hid : d.id = id) (hfail : ∀ e w, At c p .free w → E e w)
    (hk : ∀ p', (deviceRules crypto calls fleet).Triple (exec crypto) c (At c p' .free)
      (k (dto.overlay d)) Q E) :
    (deviceRules crypto calls fleet).Triple (exec crypto) c (At c p .free)
      ((DevicesService.saveChanges (dto.overlay d) ((dto.overlay d).diff row)).bind k) Q E := by
  unfold DevicesService.saveChanges
  split
  -- Nothing differs from what was read, so nothing is written.
  · exact hk p
  rename_i hchanges
  rw [Bool.not_eq_true] at hchanges
  refine transaction_then
    (fun b p' g' => b = dto.overlay d ∧ p' = p ∧
      ∀ ws, g'.Writes ws → Explains crypto (calls c) p' ws)
    (fun _ p' => p' = p) ?_ (fun _ _ _ h => by rw [h.2.1]; exact hopen)
    (fun _ _ _ ws h hws => h.2.2 ws hws) (fun b p' g' ws h _ => by rw [h.1]; exact hk _)
    (fun e p' w hp ha => hfail e w (by rw [← hp]; exact ha))
  simp only [Prog.bind_eq]
  have hseen : d ∈ p.devices := by
    rw [hshown]
    exact List.mem_cons_self
  -- The patch goes on top of whatever the row is by now.
  refine updateDevice_then rfl hseen rfl (fun error => ?_) (fun cur new hcur happly => ?_)
  · exact .throw (fun w _ ha => ⟨_, _, rfl, ha⟩)
  · refine .ret (fun w _ ha => ⟨_, _, ⟨rfl, rfl, fun ws hws => ?_⟩, ha⟩)
    rw [hcall]
    refine .patched id dto d row rfl hfound hshown hid hchanges
      (.inr ⟨cur, new, hcur.trans hid, happly, fun x => ?_⟩)
      (writes_nil hws.enrollments rfl) (writes_nil hws.credentials rfl)
    refine (hws.devices x).trans (update_eq_write.trans ?_)
    rw [← hid]
    simp only [Grip.free, reduceCtorEq, and_false, or_false]
    exact Iff.rfl

/-- The update of a device. TypeORM reads the row again before it saves, and saves
    nothing if the device has gone; the response is built from the first read
    either way. -/
theorem update_spec {id : Uuid} {dto : DevicePatch} (hcall : calls c = .update id dto) :
    (deviceRules crypto calls fleet).Triple (exec crypto) c (At c .start .free)
      (DevicesService.update id dto) (fun r => Done crypto calls c (.device r))
      (Thrown crypto calls c) := by
  have hthrown : ∀ {e : HttpException} {p' : Progress} {w : World}, p'.committed = none →
      At c p' .free w → Thrown crypto calls c e w :=
    fun hp ha => ⟨_, threw_of_open hp (by rw [hcall]; exact fun h => h)
      (fun dto' hdto => by rw [hcall] at hdto; cases hdto), ha⟩
  unfold DevicesService.update DevicesService.preload DevicesService.save
  simp only [Prog.bind_eq, Prog.bind_assoc]
  refine findDevice_then (fun found hid => ?_)
  cases found with
  | none => exact .throw (fun w _ ha => hthrown rfl ha)
  | some d =>
      have hsame : d.id = id := hid d rfl
      -- What is left when the device has been saved.
      have hrest : ∀ p', (deviceRules crypto calls fleet).Triple (exec crypto) c (At c p' .free)
          (if (dto.overlay d).isActive = some true then DevicesService.toResponse (dto.overlay d)
            else (DevicePresenceService.disconnectDevice id).bind
              (fun _ => DevicesService.toResponse (dto.overlay d)))
          (fun r => Done crypto calls c (.device r)) (Thrown crypto calls c) := by
        -- The sockets are closed unless the device is active, and the response follows.
        intro p'
        have hresponse : ∀ p'' : Progress,
            ((dto.overlay d).isActive ≠ some true → p''.closed = some id) →
            (deviceRules crypto calls fleet).Triple (exec crypto) c (At c p'' .free)
              (DevicesService.toResponse (dto.overlay d))
              (fun r => Done crypto calls c (.device r)) (Thrown crypto calls c) := by
          intro p'' hclosed
          refine plainAsk_then trivial (fun _ => True) (fun _ _ _ _ _ _ _ => trivial)
            (fun online _ => .ret (fun w _ ha => ⟨p'', ⟨dto, ?_, ?_⟩, ha⟩))
          · rw [hcall, ← hsame]
            rfl
          · intro hactive
            rw [hclosed hactive, ← hsame]
            rfl
        split
        · rename_i hactive
          exact hresponse p' (fun hc => absurd hactive hc)
        · refine disconnectDevice_then ?_ (fun _ => hresponse _ (fun _ => rfl))
          rw [hcall]
          rfl
      refine findDevice_then (fun row _ => ?_)
      cases row with
      | none => exact hrest _
      | some row =>
          exact saveChanges_then hcall rfl rfl rfl hsame (fun _ w ha => hthrown rfl ha) hrest

/-! ## Authentication -/

/-- A call whose token was not let through. -/
def Refused (c : CallId) (w : World) : Prop :=
  ∃ p : Progress, p.committed = none ∧ p.context = none ∧ (∀ d k, ¬ p.Accepts d k) ∧
    At c p .free w

/-- A call whose token was let through. -/
def Accepted (c : CallId) (d : Device) (credentialId : Uuid) (w : World) : Prop :=
  ∃ p x, p.Accepts d x ∧ credentialId = x.id ∧ p.registered = false ∧ p.committed = none ∧
    At c p .free w

/-- The checks of a verified payload: each one that fails refuses the call, and
    its progress then has no match of payload, device and credential. -/
theorem authorizePayload_spec {payload : DeviceJwtPayload} :
    (deviceRules crypto calls fleet).Triple (exec crypto) c
      (At c (Progress.start.add (.verified payload)) .free)
      (DeviceAuthService.authorizePayload payload)
      (fun a => Accepted c a.device a.credentialId) (fun _ => Refused c) := by
  unfold DeviceAuthService.authorizePayload
  simp only [Prog.bind_eq]
  split
  · rename_i htype
    -- A token of another type.
    refine .throw (fun w _ ha => ⟨_, rfl, rfl, fun d k h => htype ?_, ha⟩)
    rw [Option.some.inj h.payload]
  rename_i htype
  rw [ne_eq, not_not] at htype
  refine findDevice_then (fun found hid => ?_)
  cases found with
  | none =>
      refine .throw (fun w _ ha => ⟨_, rfl, rfl, fun d k h => ?_, ha⟩)
      have hnone : ([] : List Device) = [d] := h.device
      simp only [List.ne_cons_self] at hnone
  | some device =>
      simp only [orFail, Prog.ret_bind]
      split
      · rename_i hinactive
        refine .throw (fun w _ ha => ⟨_, rfl, rfl, fun d k h => ?_, ha⟩)
        -- The device is not active.
        have hsame : device = d := (List.cons.inj h.device).1
        rw [hsame, h.active] at hinactive
        simp only [Bool.true_eq_false] at hinactive
      rename_i hactive
      rw [Bool.not_eq_false] at hactive
      refine findActiveCredential_then (fun credential hown => ?_)
      cases hmatch : credential.filter (fun k => decide (k.id = payload.credentialId)) with
      | none =>
          refine .throw (fun w _ ha => ⟨_, ?_, ?_, fun d k h => ?_, ha⟩)
          · cases credential <;> rfl
          · cases credential <;> rfl
          · -- The credential that was shown is not that of the token.
            cases credential with
            | none =>
                have hnone : (none : Option DeviceCredential) = some k := h.credential
                simp only [reduceCtorEq] at hnone
            | some x =>
                have hx : x = k := Option.some.inj h.credential
                have hpayload := Option.some.inj h.payload
                rw [Option.filter_eq_none_iff] at hmatch
                refine hmatch x rfl (decide_eq_true ?_)
                rw [hx, hpayload]
      | some x =>
          -- All of it agrees, so the token is let through.
          rcases Option.filter_eq_some_iff.mp hmatch with ⟨hx, hid'⟩
          rw [decide_eq_true_eq] at hid'
          rw [hx]
          refine .ret (fun w _ ha => ⟨_, x, ⟨?_, rfl, hactive, rfl, hown x hx⟩, rfl, rfl, rfl, ha⟩)
          rw [hid', hid device rfl, ← htype]
          rfl

/-- Without a payload there is nothing to let through. -/
theorem refused_of_unverified {w : World} (h : At c .start .free w) : Refused c w := by
  refine ⟨_, rfl, rfl, fun d k hacc => ?_, h⟩
  have hnone : (none : Option DeviceJwtPayload) = some _ := hacc.payload
  simp only [reduceCtorEq] at hnone

/-- A token that does not verify is refused before anything is read. -/
theorem authenticateToken_spec {token : String} (htoken : (calls c).token = some token) :
    (deviceRules crypto calls fleet).Triple (exec crypto) c (At c .start .free)
      (DeviceAuthService.authenticateToken token)
      (fun a => Accepted c a.device a.credentialId) (fun _ => Refused c) := by
  unfold DeviceAuthService.authenticateToken
  simp only [Prog.bind_eq]
  refine verifyToken_then htoken (fun payload => ?_)
  cases payload with
  | none => exact .throw (fun w _ ha => refused_of_unverified ha)
  | some payload => exact authorizePayload_spec

/-- A request with a token. -/
theorem authorize_spec {token : String} (hcall : calls c = .authorize token) :
    (deviceRules crypto calls fleet).Triple (exec crypto) c (At c .start .free)
      (DeviceJwtStrategy.authenticate token)
      (fun d => Done crypto calls c (.authorized d)) (Thrown crypto calls c) := by
  -- To be refused is all that a token without access can come to.
  have hthrown : ∀ (e : HttpException) (w : World), Refused c w → Thrown crypto calls c e w := by
    rintro e w ⟨p, hopen, _, hrefused, ha⟩
    refine ⟨p, ⟨fun ws hws => ?_, fun _ _ => hrefused, fun token hc => ?_, fun dto hc => ?_⟩, ha⟩
    · rw [hopen] at hws
      simp only [reduceCtorEq] at hws
    · rw [hcall] at hc
      simp only [reduceCtorEq] at hc
    · rw [hcall] at hc
      simp only [reduceCtorEq] at hc
  unfold DeviceJwtStrategy.authenticate DeviceJwtStrategy.validate DeviceAuthService.validateToken
  simp only [Prog.bind_eq]
  refine verifyToken_then (by rw [hcall]; rfl) (fun payload => ?_)
  cases payload with
  | none => exact .throw (fun w _ ha => hthrown _ w (refused_of_unverified ha))
  | some payload =>
      simp only [orFail, Prog.ret_bind]
      refine .bind (authorizePayload_spec.conseq (fun _ _ h => h) (fun _ _ _ h => h)
        (fun e w _ h => hthrown e w h)) (fun a => .ret (fun w _ h => ?_))
      rcases h with ⟨p, x, hacc, _, _, _, ha⟩
      exact ⟨p, ⟨token, x, hcall, hacc⟩, ha⟩

/-- The login of a device. It takes four answers of the environment, and writes
    only the time of use. -/
theorem login_spec {dto : DeviceLoginDto} (hcall : calls c = .login dto) :
    (deviceRules crypto calls fleet).Triple (exec crypto) c (At c .start .free)
      (DeviceAuthService.login crypto dto)
      (fun r => Done crypto calls c (.token r)) (Thrown crypto calls c) := by
  have hthrown : ∀ {e : HttpException} {p' : Progress} {w : World}, p'.committed = none →
      At c p' .free w → Thrown crypto calls c e w :=
    fun hp ha => ⟨_, threw_of_open hp (by rw [hcall]; exact fun h => h)
      (fun dto' hdto => by rw [hcall] at hdto; cases hdto), ha⟩
  unfold DeviceAuthService.login
  simp only [Prog.bind_eq]
  refine findDevice_then (fun found hid => ?_)
  -- An unknown device and an inactive one are refused in the same way.
  cases hactive : found.filter Device.isActive with
  | none =>
      refine .throw (fun w _ ha => ?_)
      cases found <;> exact hthrown rfl ha
  | some device =>
      rcases Option.filter_eq_some_iff.mp hactive with ⟨hfound, hdevice⟩
      rw [hfound]
      refine findActiveCredential_then (fun credential hown => ?_)
      cases credential with
      | none => exact .throw (fun w _ ha => hthrown rfl ha)
      | some x =>
          simp only [DeviceAuthService.loginWith]
          split
          · exact .throw (fun w _ ha => hthrown rfl ha)
          rename_i hmatch
          rw [Bool.not_eq_false] at hmatch
          refine newDate_then rfl rfl rfl (fun now => ?_)
          -- The use of the credential is noted; the answer does not depend on it.
          refine touchCredential_then hcall rfl rfl rfl (fun _ ws => ?_)
          refine plainAsk_then trivial (fun token => ∃ now, token = crypto.sign
            { sub := device.id, tokenType := deviceTokenType, credentialId := x.id } now)
            (fun w env token w' _ _ hx => ?_) (fun token hsigned => .ret (fun w _ ha => ?_))
          · cases hx
            exact ⟨_, rfl⟩
          · rcases hsigned with ⟨iat, hsigned⟩
            exact ⟨_, ⟨dto, device, x, iat, hcall, rfl, hdevice, rfl, hown x rfl, hmatch, hsigned⟩,
              ha⟩

/-! ## Connections -/

/-- The note of the identity does not bear on what was let through. -/
theorem Progress.Accepts.add_authenticated {d : Device} {x : DeviceCredential}
    (h : p.Accepts d x) (context : DeviceSocketContext) :
    (p.add (.authenticated context)).Accepts d x :=
  ⟨h.payload, h.device, h.active, h.credential, h.owner⟩

/-- The registration does not either. -/
theorem Progress.Accepts.add_registered {d : Device} {x : DeviceCredential}
    (h : p.Accepts d x) (deviceId : Uuid) : (p.add (.registered deviceId)).Accepts d x :=
  ⟨h.payload, h.device, h.active, h.credential, h.owner⟩

/-- A socket with an identity is one whose token was let through. -/
theorem decides_of_identifies {context : DeviceSocketContext} (hcontext : p.context = some context)
    (h : p.Identifies context) : p.Decides := by
  simp only [Progress.Decides, hcontext]
  exact h

/-- A socket that is authenticated, and not registered yet. -/
def Authenticated (c : CallId) (w : World) : Prop :=
  ∃ p context, p.context = some context ∧ p.Identifies context ∧ p.registered = false ∧
    At c p .free w

/-- The middleware of a connection. It stores the identity on the socket after the
    token was let through. -/
theorem authenticate_spec {token : Option String} (hcall : calls c = .connect token) :
    (deviceRules crypto calls fleet).Triple (exec crypto) c (At c .start .free)
      (DevicesGateway.authenticate token) (fun _ => Authenticated c) (fun _ => Refused c) := by
  unfold DevicesGateway.authenticate
  refine orFail_then (fun _ w _ ha => refused_of_unverified ha) (fun raw hraw => ?_)
  refine .bind (authenticateToken_spec (by rw [hcall]; exact hraw)) (fun a => ?_)
  -- What was let through is opened up: the progress, the credential, and the socket
  -- still to be registered.
  refine .exists (fun p => .exists (fun x => .pure (fun hacc => .pure (fun hid => .pure
    (fun hregistered => .pure (fun hopen => ?_))))))
  exact setSocketData_then (k := .ret) hcall hregistered hacc (by rw [hid]) (.ret (fun w _ ha =>
    ⟨p.add (.authenticated _), _, rfl, ⟨_, x, hacc.add_authenticated _, by rw [hid]⟩, hregistered,
      ha⟩))

/-- A socket that is let in joins its room and is registered, and is unregistered
    again if it has closed meanwhile. -/
theorem handleConnection_spec {token : Option String} (hcall : calls c = .connect token) :
    (deviceRules crypto calls fleet).Triple (exec crypto) c (Authenticated c)
      (DevicesGateway.handleConnection c)
      (fun _ => Done crypto calls c .done) (fun _ _ => False) := by
  refine .exists (fun p => .exists (fun context => .pure (fun hcontext => .pure
    (fun hidentity => .pure (fun hregistered => ?_)))))
  have hdone : ∀ w, At c (p.add (.registered context.deviceId)) .free w →
      Done crypto calls c .done w := by
    rcases hidentity with ⟨d, x, hacc, hsame⟩
    exact fun w ha => ⟨_, .inl ⟨token, hcall,
      decides_of_identifies (p := p.add (.registered context.deviceId)) hcontext
        ⟨d, x, hacc.add_registered _, hsame⟩⟩, ha⟩
  unfold DevicesGateway.handleConnection
  simp only [Prog.bind_eq]
  -- The identity it reads is the one the middleware has stored.
  refine plainAsk_then trivial (fun found => found = some context)
    (fun w env found w' hi ha hx => ?_) (fun found hfound => ?_)
  · cases hx
    rw [hi.contexts c, ha.progress]
    exact hcontext
  rw [hfound]
  refine pause_then (register_then hregistered hcontext rfl ?_)
  refine plainAsk_then trivial (fun _ => True) (fun _ _ _ _ _ _ _ => trivial) (fun gone _ => ?_)
  cases gone with
  -- Closed while it was waiting, so it is taken out again.
  | true => exact unregister_then (fun _ => .ret (fun w _ ha => hdone w ha))
  | false =>
      exact plainAsk_then (k := .ret) trivial (fun _ => True) (fun _ _ _ _ _ _ _ => trivial)
        (fun _ _ => .ret (fun w _ ha => hdone w ha))

/-- A connection, from the handshake on. It never throws, as the middleware turns
    errors into refusals. -/
theorem connect_spec {token : Option String} (hcall : calls c = .connect token) :
    (deviceRules crypto calls fleet).Triple (exec crypto) c (At c .start .free)
      (DevicesGateway.connect c token)
      (fun _ => Done crypto calls c .done) (fun _ _ => False) := by
  -- The middleware catches what authentication throws, and turns it into a refusal.
  have haccepted : (deviceRules crypto calls fleet).Triple (exec crypto) c (At c .start .free)
      (((DevicesGateway.authenticate token).bind (fun _ => .ret true)).onError
        (fun _ => .ret false))
      (fun accepted w => if accepted = true then Authenticated c w else Refused c w)
      (fun _ _ => False) := by
    refine .onError (.bind (authenticate_spec hcall) (fun _ => .ret (fun w _ ha => ?_)))
      (fun _ => .ret (fun w _ ha => ?_))
    · rw [if_pos rfl]
      exact ha
    · rw [if_neg Bool.false_ne_true]
      exact ha
  unfold DevicesGateway.connect
  refine .bind (haccepted.conseq (fun _ _ h => h) (fun _ _ _ h => h) (fun _ _ _ h => h.elim))
    (fun accepted => ?_)
  cases accepted with
  -- Refused: the socket never gets an identity.
  | false =>
      simp only [Bool.false_eq_true, if_false]
      refine .exists (fun p => .pure (fun _ => .pure (fun hcontext => .pure (fun hrefused =>
        pause_then (.ret (fun w _ ha => ⟨p, .inl ⟨token, hcall, ?_⟩, ha⟩))))))
      simp only [Progress.Decides, hcontext]
      exact hrefused
  | true =>
      simp only [if_true]
      refine .exists (fun p => .exists (fun context => .pure (fun hcontext => .pure
        (fun hidentity => .pure (fun hregistered => pause_then ?_)))))
      refine plainAsk_then trivial (fun _ => True) (fun _ _ _ _ _ _ _ => trivial)
        (fun opened _ => ?_)
      cases opened with
      | false =>
          exact .ret (fun w _ ha => ⟨p, .inl ⟨token, hcall,
            decides_of_identifies hcontext hidentity⟩, ha⟩)
      | true =>
          exact (handleConnection_spec hcall).weaken (fun w _ ha =>
            ⟨p, context, hcontext, hidentity, hregistered, ha⟩)

/-- A disconnection. What it does depends on whether the socket had been let in. -/
theorem onDisconnect_spec {client : CallId} (hcall : calls c = .disconnect client) :
    (deviceRules crypto calls fleet).Triple (exec crypto) c (At c .start .free)
      (DevicesGateway.onDisconnect client)
      (fun _ => Done crypto calls c .done) (Thrown crypto calls c) := by
  have hdone : ∀ {p' : Progress} {w : World}, At c p' .free w → Done crypto calls c .done w :=
    fun ha => ⟨_, .inr ⟨client, hcall⟩, ha⟩
  unfold DevicesGateway.onDisconnect
  refine plainAsk_then trivial (fun _ => True) (fun _ _ _ _ _ _ _ => trivial) (fun fires _ => ?_)
  cases fires with
  | false => exact .ret (fun w _ ha => hdone ha)
  | true =>
      unfold DevicesGateway.handleDisconnect
      refine plainAsk_then trivial (fun _ => True) (fun _ _ _ _ _ _ _ => trivial)
        (fun context _ => ?_)
      cases context with
      -- A socket that was never let in is not registered.
      | none => exact .ret (fun w _ ha => hdone ha)
      | some context => exact unregister_then (fun _ => .ret (fun w _ ha => hdone ha))

/-- Every call keeps the rules, and ends done or thrown. -/
theorem handle_spec (crypto : Crypto) (calls : CallId → Call) (fleet : List Device) (c : CallId) :
    (deviceRules crypto calls fleet).Triple (exec crypto) c (At c .start .free)
      (handle crypto c (calls c)) (Done crypto calls c) (Thrown crypto calls c) := by
  cases hcall : calls c with
  | createEnrollmentCode deviceId =>
      exact .bind (createEnrollmentCode_spec hcall) (fun _ => .ret (fun _ _ h => h))
  | activate dto => exact .bind (activate_spec hcall) (fun _ => .ret (fun _ _ h => h))
  | update id dto => exact .bind (update_spec hcall) (fun _ => .ret (fun _ _ h => h))
  | login dto => exact .bind (login_spec hcall) (fun _ => .ret (fun _ _ h => h))
  | authorize token => exact .bind (authorize_spec hcall) (fun _ => .ret (fun _ _ h => h))
  | connect token =>
      exact .bind ((connect_spec hcall).conseq (fun _ _ h => h) (fun _ _ _ h => h)
        (fun _ _ _ h => h.elim)) (fun _ => .ret (fun _ _ h => h))
  | disconnect client => exact .bind (onDisconnect_spec hcall) (fun _ => .ret (fun _ _ h => h))

end Programs

end RemoteControl.Devices

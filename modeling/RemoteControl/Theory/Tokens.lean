import RemoteControl.Theory.Enrollment

/-!
# Device Tokens

A device trades the secret of its credential for a token, and the token for
access. Both times the device and its credential are read without a lock, one
after the other, while an activation may be revoking the credential. So a
login can sign a token for a credential that is revoked already.

Such a token is of no use. Whoever comes with a token has the credential read
again, and a credential that was revoked stays so (`revoked_kept`), whatever
is activated, deactivated or enrolled later.

Requests and connections let a token through on the same terms, because they
run the same program but for the error they answer with
(`strategy_authenticates`).

Two facts about the history of a credential are all that is needed of the
database. What is stored of its secret is a hash, from its insertion on
(`credential_hashed`), and once it is revoked it stays so (`revoked_kept`).
Both are inductions over the commits, of which `overwrites_credential` says
what they may write. The rest is about single calls: who is let through has
read an active device and a credential in force, whatever became of the two
rows later.

## Main definitions

* `LetsIn`: What the reads of a call have found.
* `Ended`: A call that is over.

## Theorems

* `revoked_kept`: A credential that was revoked stays so.
* `credential_hashed`: What is stored of a secret.
* `token_revocation_final`: Tokens, from login to revocation.
-/

namespace RemoteControl.Devices

open Concurrency Encoding

/-- The device was active when the call read it, and the credential was in
    force, and that of the device, when the call read that. -/
structure LetsIn (fleet : List Device) (log : List Entry) (c : CallId) (d : Device)
    (k : DeviceCredential) : Prop where
  device : ∃ l, ⟨c, .shownDevice d⟩ :: l <:+ log ∧ (replay fleet l).devices d.id = some d
  active : d.isActive = true
  credential : ∃ l, ⟨c, .shownCredential k⟩ :: l <:+ log ∧
    (replay fleet l).credentials k.id = some k
  unrevoked : k.isActive = true
  owner : k.deviceId = d.id

/-- The call has returned or thrown. -/
def Ended (sys : Calls) (c : CallId) : Prop :=
  (∃ r, sys.threads c = .ret r) ∨ ∃ e, sys.threads c = .throw e

variable {crypto : Crypto} {calls : CallId → Call} {fleet : List Device} {c : CallId}

/-! ## Credentials -/

/-- A credential keeps the hash of its secret, and is not put in force again. Of
    the commits that write a credential, an activation inserts one and revokes
    another, and a use updates when it was last used. -/
theorem Explains.overwrites_credential {call : Call} {p : Progress} {ws : Writes}
    (h : Explains crypto call p ws) {w : Write Uuid DeviceCredential} (hw : w ∈ ws.credentials) :
    (∃ secret, w.old = none ∧
        w.new.secretHash = DeviceCredentialsService.hashSecret crypto secret) ∨
      ∃ k, w.old = some k ∧ w.new.secretHash = k.secretHash ∧
        (k.isActive = false → w.new.isActive = false) := by
  cases h.credentialChange hw with
  | issued _ _ _ _ k _ hact hwrite =>
      rcases hact.secret with ⟨secret, hsecret⟩
      rw [hwrite]
      exact .inl ⟨secret, rfl, hsecret⟩
  | revoked _ _ _ _ _ r _ _ hactive _ hwrite =>
      rw [hwrite]
      exact .inr ⟨r, rfl, rfl, fun hr => absurd (hactive.symm.trans hr) (by decide)⟩
  | touched _ _ r _ hwrite =>
      rw [hwrite]
      exact .inr ⟨r, rfl, rfl, fun hk => hk⟩

/-- A credential that is not in force is not put in force again. By induction over
    what came later: most entries write nothing, and a commit that writes the row
    keeps it revoked. -/
theorem revoked_kept {l₂ l : List Entry} (h : History crypto calls fleet (l₂ ++ l)) {id : Uuid}
    {k : DeviceCredential} (hk : (replay fleet l).credentials id = some k)
    (hrevoked : k.isActive = false) :
    ∃ k', (replay fleet (l₂ ++ l)).credentials id = some k' ∧ k'.isActive = false := by
  refine h.since_induction
    (P := fun l => ∃ k', (replay fleet l).credentials id = some k' ∧ k'.isActive = false)
    ⟨k, hk, hrevoked⟩ (fun c ev l' _ _ hev ih => ?_) (fun c ws l' _ _ hcur hexp ih => ?_)
  · rw [replay_of_note hev]
    exact ih
  rcases ih with ⟨k', hk', hrevoked'⟩
  rcases applyWrites_current hcur.credentials id with ⟨_, heq⟩ | ⟨w, hw, _, hold, hnew⟩
  · exact ⟨k', heq.trans hk', hrevoked'⟩
  · refine ⟨w.new, hnew, ?_⟩
    rcases hexp.overwrites_credential hw with ⟨_, hnone, _⟩ | ⟨k₀, hsome, _, hkeep⟩
    · -- There is a row, so none is inserted.
      have hboth := hk'.symm.trans (hold.trans hnone)
      simp only [reduceCtorEq] at hboth
    · rw [← Option.some.inj (hk'.symm.trans (hold.trans hsome))] at hkeep
      exact hkeep hrevoked'

/-- A commit writes one row to a credential. Two writes of one commit to the same
    row are the same write. An activation has two writes, of which one inserts a
    row and the other updates one, so they are to different rows. -/
theorem Explains.credential_once {call : Call} {p : Progress} {ws : Writes}
    (h : Explains crypto call p ws) {w w' : Write Uuid DeviceCredential}
    (hw : w ∈ ws.credentials) (hw' : w' ∈ ws.credentials) (hold : w.old = w'.old) :
    w.new = w'.new := by
  have hempty : ws.credentials = [] → False := by
    intro hnil
    rw [hnil] at hw
    exact List.not_mem_nil hw
  cases h with
  | nothing _ _ _ _ _ hnil => exact (hempty hnil).elim
  | failed _ _ _ _ _ _ _ hnil => exact (hempty hnil).elim
  | patched _ _ _ _ _ _ _ _ _ _ _ hnil => exact (hempty hnil).elim
  | issued _ _ _ _ hiss => exact (hempty hiss.credentials).elim
  | touched _ now _ _ _ _ hws =>
      rcases hws w hw with ⟨k, rfl⟩
      rcases hws w' hw' with ⟨k', rfl⟩
      rw [Option.some.inj hold]
  | activated _ now _ _ k _ hact =>
      rcases hact.credentials w hw with rfl | ⟨r, _, _, rfl⟩ <;>
        rcases hact.credentials w' hw' with rfl | ⟨r', _, _, rfl⟩
      · rfl
      · simp only [reduceCtorEq] at hold
      · simp only [reduceCtorEq] at hold
      · rw [Option.some.inj hold]

/-- After a commit that revokes a credential it is not in force. The row after the
    commit is the one of some write to this key, and that is the given one. -/
theorem revoked_by {l : List Entry} {ws : Writes}
    (h : History crypto calls fleet (⟨c, .committed ws⟩ :: l))
    {w : Write Uuid DeviceCredential} (hw : w ∈ ws.credentials)
    (hrevoked : w.new.isActive = false) :
    ∃ k, (replay fleet (⟨c, .committed ws⟩ :: l)).credentials w.key = some k ∧
      k.isActive = false := by
  rcases h.1 with ⟨_, hcur, hexp⟩
  rcases applyWrites_current hcur.credentials w.key with ⟨hno, _⟩ | ⟨w', hw', _, hold, hnew⟩
  · exact absurd rfl (hno w hw)
  · refine ⟨w'.new, hnew, ?_⟩
    rw [← hexp.credential_once hw hw' ((hcur.credentials w hw).symm.trans hold)]
    exact hrevoked

/-- What is stored of a secret is its hash. The write that inserted the row had no
    row before it, so it is the one that hashes a secret. -/
theorem credential_hashed {l : List Entry} (h : History crypto calls fleet l) {id : Uuid}
    {k : DeviceCredential} (hk : (replay fleet l).credentials id = some k) :
    ∃ secret, k.secretHash = DeviceCredentialsService.hashSecret crypto secret := by
  rcases h.credential_inserted hk with ⟨c, ws, l', hl', w, hw, hold, _, hhash⟩
  rcases ((h.suffix hl').1.2.2).overwrites_credential hw with ⟨secret, _, hsecret⟩ | ⟨_, hsome, _⟩
  · exact ⟨secret, hhash.symm.trans hsecret⟩
  · -- There was no row before.
    rw [hold] at hsome
    cases hsome

/-- A secret matches what is stored of another if both have the same hash. -/
theorem matchesSecret_hash {secret secret' : String}
    (h : DeviceCredentialsService.matchesSecret crypto secret
      (DeviceCredentialsService.hashSecret crypto secret') = true) :
    DeviceCredentialsService.hashSecret crypto secret =
      DeviceCredentialsService.hashSecret crypto secret' := by
  rw [DeviceCredentialsService.matchesSecret, decide_eq_true_eq] at h
  simp only [DeviceCredentialsService.hashSecret, fromHex_toHex] at h ⊢
  rw [h]

/-! ## Access -/

/-- A request and a connection ask the same for the same token, and answer the
    same, but for the error of a token that is not verified. Both verify the token
    first and look up its device and credential after that; what they do with an
    error is put aside by the handler around them. -/
theorem strategy_authenticates (token : String) (e : HttpException) :
    (DeviceJwtStrategy.authenticate token).onError (fun _ => .throw e) =
      (AuthenticatedDevice.device <$> DeviceAuthService.authenticateToken token).onError
        (fun _ => .throw e) := by
  -- The first statement is the same, and so is the rest for each of its answers.
  show Prog.await (Prog.op (Op.verifyToken token) _) = Prog.await (Prog.op (Op.verifyToken token) _)
  congr 2
  funext payload
  cases payload with
  | none => rfl
  | some payload => rfl

/-- Who is let through was shown an active device and its credential. Each of the
    two rows was found by an entry of the call, and the history up to there has
    the row. -/
theorem letsIn_of_accepts {l : List Entry} (h : History crypto calls fleet l) {d : Device}
    {k : DeviceCredential} (hacc : (progress c l).Accepts d k) : LetsIn fleet l c d k := by
  have hd : d ∈ (progress c l).devices := by
    rw [hacc.device]
    exact List.mem_singleton.mpr rfl
  rcases shownCredential_at h hacc.credential with ⟨l₁, hl₁, hrow, hactive⟩
  exact ⟨shownDevice_at h hd, hacc.active, ⟨l₁, hl₁, hrow⟩, hactive, hacc.owner⟩

/-- Nobody who starts after a credential was revoked is let through with it.
    Everything the call does is later than the commit, so its read of the
    credential is, and there the credential was revoked. -/
theorem refused_after_revocation {l₂ l : List Entry} {a : CallId} {ws : Writes}
    (h : History crypto calls fleet (l₂ ++ ⟨a, .committed ws⟩ :: l))
    {w : Write Uuid DeviceCredential} (hw : w ∈ ws.credentials) (hrevoked : w.new.isActive = false)
    (hlater : ∀ e ∈ l, e.call ≠ c) {d : Device} {k : DeviceCredential}
    (hin : LetsIn fleet (l₂ ++ ⟨a, .committed ws⟩ :: l) c d k) : k.id ≠ w.key := by
  intro hkey
  rcases hin.credential with ⟨l', hl', hrow⟩
  have hcommit : History crypto calls fleet (⟨a, .committed ws⟩ :: l) :=
    h.suffix (List.suffix_append _ _)
  -- The credential was read after the commit.
  have hafter : ⟨a, .committed ws⟩ :: l <:+ l' := by
    rcases suffix_or_suffix (List.suffix_append l₂ _) hl'
      (fun heq => by simp only [Entry.mk.injEq, reduceCtorEq, and_false] at heq) with
      hafter | hbefore
    · exact hafter
    · exact absurd rfl (hlater _ (hbefore.subset List.mem_cons_self))
  rcases hafter with ⟨l₃, hl₃⟩
  rcases revoked_by hcommit hw hrevoked with ⟨k₀, hk₀, hrevoked₀⟩
  have hhist : History crypto calls fleet (l₃ ++ ⟨a, .committed ws⟩ :: l) := by
    rw [hl₃]
    exact h.suffix ((List.suffix_cons _ _).trans hl')
  rcases revoked_kept hhist hk₀ hrevoked₀ with ⟨k', hk', hrevoked'⟩
  rw [hl₃, ← hkey, hrow, Option.some.injEq] at hk'
  rw [← hk', hin.unrevoked] at hrevoked'
  simp only [Bool.true_eq_false] at hrevoked'

/-- A request that is over was let through if what it was shown allows it, and
    only then. A request that was not let through has thrown, and then nothing
    that it was shown allows it. -/
theorem Reachable.authorized_iff {sys : Calls} (h : Reachable crypto calls fleet sys)
    {token : String} (hcall : calls c = .authorize token) (hend : Ended sys c) (d : Device) :
    sys.threads c = .ret (.authorized d) ↔ ∃ k, (progress c sys.shared.log).Accepts d k := by
  constructor
  · intro hret
    rcases h.done hret with ⟨_, k, _, hacc⟩
    exact ⟨k, hacc⟩
  · rintro ⟨k, hacc⟩
    rcases hend with ⟨r, hret⟩ | ⟨e, hthrow⟩
    · -- It has returned: whom it returned is the device it was shown.
      have hans := h.done hret
      rw [hcall] at hans
      cases r with
      | authorized d' =>
          rcases hans with ⟨_, k', _, hacc'⟩
          have hsame := hacc'.device.symm.trans hacc.device
          rw [hret, (List.cons.inj hsame).1]
      | enrollmentCode | activation | device | token | done =>
          simp only [Answers, reduceCtorEq, false_and, exists_false, or_false] at hans
    · -- It has thrown: it had found a reason.
      exact absurd hacc ((h.thrown hthrow).refused token hcall d k)

/-- A connection that is over was let through if what it was shown allows it, and
    only then. A connection never throws, and has decided about its socket when it
    is over. -/
theorem Reachable.identified_iff {sys : Calls} (h : Reachable crypto calls fleet sys)
    {token : Option String} (hcall : calls c = .connect token) (hend : Ended sys c) :
    (∃ context, (sys.shared.sockets c).device = some context) ↔
      ∃ d k, (progress c sys.shared.log).Accepts d k := by
  rw [h.inv.contexts c]
  -- The handler has returned, so it has decided.
  have hdecides : (progress c sys.shared.log).Decides := by
    rcases hend with ⟨r, hret⟩ | ⟨e, hthrow⟩
    · have hans := h.done hret
      rw [hcall] at hans
      cases r with
      | done =>
          rcases hans with ⟨_, _, hdecides⟩ | ⟨_, hother⟩
          · exact hdecides
          · simp only [reduceCtorEq] at hother
      | enrollmentCode | activation | device | token | authorized =>
          simp only [Answers, reduceCtorEq, false_and, exists_false] at hans
    · exact absurd hcall ((h.thrown hthrow).caught token)
  unfold Progress.Decides at hdecides
  cases hcontext : (progress c sys.shared.log).context with
  | none =>
      rw [hcontext] at hdecides
      refine iff_of_false ?_ (fun ⟨d, k, hacc⟩ => hdecides d k hacc)
      rintro ⟨context, hsome⟩
      simp only [reduceCtorEq] at hsome
  | some context =>
      rw [hcontext] at hdecides
      rcases hdecides with ⟨d, k, hacc, _⟩
      exact iff_of_true ⟨context, rfl⟩ ⟨d, k, hacc⟩

/-- Whatever the interleaving of the calls that led to a state:

    * a request and a connection treat a token the same way;
    * a call that is over was let through if and only if what it was shown
      allows it, which is that its token is one of a device that was active
      when it was read, for a credential that was in force when it was read;
    * a login that returned was given a secret with the hash of the credential
      it was shown, and its token is one for this device and credential;
    * nobody who starts after a commit that revokes a credential is let
      through with a token for it, whenever it was signed. -/
theorem token_revocation_final (hsign : crypto.VerifiesSigned) {sys : Calls}
    (h : Reachable crypto calls fleet sys) :
    (∀ token e, (DeviceJwtStrategy.authenticate token).onError (fun _ => .throw e) =
      (AuthenticatedDevice.device <$> DeviceAuthService.authenticateToken token).onError
        (fun _ => .throw e)) ∧
    (∀ c token, calls c = .authorize token → Ended sys c → ∀ d,
      sys.threads c = .ret (.authorized d) ↔ ∃ k, (progress c sys.shared.log).Accepts d k) ∧
    (∀ c token, calls c = .connect token → Ended sys c →
      ((∃ context, (sys.shared.sockets c).device = some context) ↔
        ∃ d k, (progress c sys.shared.log).Accepts d k)) ∧
    (∀ c d k, (progress c sys.shared.log).Accepts d k → LetsIn fleet sys.shared.log c d k ∧
      ∃ token now, (calls c).token = some token ∧ crypto.verify token now =
        some { sub := d.id, tokenType := deviceTokenType, credentialId := k.id }) ∧
    (∀ c r, sys.threads c = .ret (.token r) → ∃ dto d k, calls c = .login dto ∧
      LetsIn fleet sys.shared.log c d k ∧
      DeviceCredentialsService.hashSecret crypto dto.deviceSecret = k.secretHash ∧
      ∀ c' d' k', (calls c').token = some r.token → (progress c' sys.shared.log).Accepts d' k' →
        d'.id = d.id ∧ k'.id = k.id) ∧
    (∀ a ws l, ⟨a, .committed ws⟩ :: l <:+ sys.shared.log → ∀ w ∈ ws.credentials,
      w.new.isActive = false → ∀ c, (∀ e ∈ l, e.call ≠ c) →
        ∀ d k, (progress c sys.shared.log).Accepts d k → k.id ≠ w.key) := by
  have hh := h.history
  refine ⟨strategy_authenticates, fun c token hcall hend d => h.authorized_iff hcall hend d,
    fun c token hcall hend => h.identified_iff hcall hend, fun c d k hacc => ?_,
    fun c r hret => ?_, fun a ws l hl w hw hrevoked c hlater d k hacc => ?_⟩
  · -- Who is let through.
    exact ⟨letsIn_of_accepts hh hacc, verified_at hh hacc.payload⟩
  · -- Who has logged in: the secret has the hash that is stored, and the token names
    -- the device and the credential.
    rcases h.done hret with ⟨dto, d, k, iat, hcall, hd, hactive, hk, hown, hmatch, htoken⟩
    have hin : d ∈ (progress c sys.shared.log).devices := by
      rw [hd]
      exact List.mem_singleton.mpr rfl
    rcases shownCredential_at hh hk with ⟨l, hl, hrow, hforce⟩
    refine ⟨dto, d, k, hcall, ⟨shownDevice_at hh hin, hactive, ⟨l, hl, hrow⟩, hforce, hown⟩, ?_,
      fun c' d' k' htoken' hacc => ?_⟩
    · rcases credential_hashed (hh.suffix ((List.suffix_cons _ _).trans hl)) hrow with
        ⟨secret, hsecret⟩
      rw [hsecret] at hmatch ⊢
      exact matchesSecret_hash hmatch
    · rcases verified_at hh hacc.payload with ⟨token, now, htoken₂, hverify⟩
      rw [htoken', Option.some.injEq] at htoken₂
      rw [← htoken₂, htoken] at hverify
      -- What is verified of the token is what the login has signed.
      have hpayload := hsign _ _ _ _ hverify
      simp only [DeviceJwtPayload.mk.injEq, true_and] at hpayload
      exact hpayload
  · -- Who comes after a revocation.
    rcases hl with ⟨l₂, hlog⟩
    have hin := letsIn_of_accepts hh hacc
    rw [← hlog] at hin hh
    exact refused_after_revocation hh hw hrevoked hlater hin

/-! ## A tablet with tokens -/

/-- A number as so many letters, before the rest of a text. -/
def spell (n : Nat) (rest : List Char) : List Char := List.replicate n 'i' ++ '.' :: rest

/-- The number at the beginning of a text, and the rest. -/
def readNumber : List Char → Nat × List Char
  | [] => (0, [])
  | ch :: rest => if ch = 'i' then ((readNumber rest).1 + 1, (readNumber rest).2) else (0, rest)

/-- What was spelled is read back, and the rest is left. -/
theorem readNumber_spell (n : Nat) (rest : List Char) : readNumber (spell n rest) = (n, rest) := by
  induction n with
  | zero => rfl
  | succ n ih =>
      rw [show spell (n + 1) rest = 'i' :: spell n rest from rfl, readNumber, if_pos rfl, ih]

/-- Tokens that say in plain text what they stand for, for an hour. -/
def spelledCrypto : Crypto :=
  { plainCrypto with
    sign := fun payload iat => String.ofList (spell payload.sub (spell payload.credentialId
      (spell iat payload.tokenType.toList)))
    verify := fun token now =>
      let sub := readNumber token.toList
      let credentialId := readNumber sub.2
      let iat := readNumber credentialId.2
      if now / 1000 < iat.1 / 1000 + 3600 then
        some { sub := sub.1, tokenType := String.ofList iat.2, credentialId := credentialId.1 }
      else none }

/-- A signed token is what it was signed for, until its hour is over. -/
theorem spelledCrypto_verify (payload : DeviceJwtPayload) (iat now : Timestamp) :
    spelledCrypto.verify (spelledCrypto.sign payload iat) now =
      if now / 1000 < iat / 1000 + 3600 then some payload else none := by
  simp only [spelledCrypto, String.toList_ofList, readNumber_spell, String.ofList_toList]

/-- What is verified is what was signed. -/
theorem spelledCrypto_verifiesSigned : spelledCrypto.VerifiesSigned := by
  intro payload payload' iat now h
  rw [spelledCrypto_verify] at h
  split at h
  · exact (Option.some.inj h).symm
  · cases h

/-- A token is accepted for an hour, in whole seconds. -/
theorem spelledCrypto_acceptsSigned : spelledCrypto.AcceptsSigned 3600 := by
  intro payload iat now hfresh
  rw [spelledCrypto_verify, if_pos hfresh]

/-- The tablet is given a code, activates itself, and logs in. -/
def firstLogin : CallId → Call
  | 0 => .createEnrollmentCode 7
  | 1 => activation "000123"
  | _ => .login { deviceId := 7, deviceSecret := "secret" }

/-- The login was given the secret of the credential it was shown. -/
theorem token_revocation_final_firstLogin : ∃ sys,
    Reachable spelledCrypto firstLogin [tablet] sys ∧ ∃ d k, LetsIn [tablet] sys.shared.log 2 d k ∧
      DeviceCredentialsService.hashSecret spelledCrypto "secret" = k.secretHash := by
  have hrun : ((follow (exec spelledCrypto) (boot spelledCrypto firstLogin [tablet])
      (turns 0 13 123 50 ++ turns 1 19 0 100 ++ turns 2 7 0 0)).any (fun sys =>
        decide ((sys.threads 2).returned = some (.token
          { id := 7, publicId := "384-729-142", name := none, isActive := true
            token := spelledCrypto.sign { sub := 7, tokenType := "device", credentialId := 100 }
              10 })))) = true := by
    decide +kernel
  rcases reachable_of_follow hrun with ⟨sys, hsys, hp⟩
  rw [decide_eq_true_eq, Prog.returned_eq_some] at hp
  rcases token_revocation_final spelledCrypto_verifiesSigned hsys with ⟨_, _, _, _, hlogin, _⟩
  rcases hlogin 2 _ hp with ⟨dto, d, k, hcall, hin, hhash, _⟩
  rw [← Call.login.inj hcall] at hhash
  exact ⟨sys, hsys, d, k, hin, hhash⟩

end RemoteControl.Devices

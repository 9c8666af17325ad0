import RemoteControl.Theory.TechnicianHistory

/-!
# Where Authority Comes from

What stands behind a request that the guards have let through, and behind a
socket of a technician. Its token was signed by the service, and what it was
signed for is in the history: somebody had logged in with the password of the
account, or the account had just been created, or the token replaces another
one, of which the same is true (`Credential`). The account itself was created
by an administrator, or as the first one from the console, and the same goes
for the administrators (`Administrator`), apart from those who were made so in
the database.

All this is by induction on the history: what is behind an entry is in the
entries before it. That no token is accepted which the service has not signed
is the one assumption (`Genuine`).

What is done for a user who is made inactive was begun before
(`served_before_inactive`), apart from sockets, which stay.

The inductions need little of the program. Whatever a call does, it has been
identified before by two entries of its own, the verification of its token and
the reading of its user (`identification_at`), and the order of its entries is
fixed by `History.orderly`. So a new entry is either irrelevant, and
everything is as before (`later`), or it says itself where it comes from.

The two provenances depend on each other one way only. An administrator is
traced by the token of another one, so `credential_of_signed` comes first, and
`administrator_of_row` is an induction of its own that uses it at every
appointment.

## Main definitions

* `Genuine`: No token was accepted that was not signed before.
* `Credential`: What a token was signed for.
* `Administrator`, `Founded`: How accounts have come to be.
* `ActsAs`, `Serves`: What is done for a user.
* `Entry.verified`: The token of an entry, and whom it was found to name.
* `Entry.Serves`, `HasFound`, `IsInactive`: What is done for a user, and what
  a call has found.

## Theorems

* `authority_traced`: What is behind every act.
* `served_before_inactive`: What still happens for a user who is inactive.
* `Credential.mono`, `Administrator.mono`, `Founded.mono`: What is behind a
  thing stays behind it.
* `identification_at`, `signed_before`: The two entries of an identification,
  and the signature before them.
* `credential_of_signed`, `identification_traced`: What is behind a token and
  an identification.
* `administrator_of_row`, `founded_of_row`: What is behind a row.
* `inactive_since`, `found_before`: A user who is made inactive stays so, and
  is not found active any more.
-/

namespace RemoteControl.Technicians

open Concurrency Encoding Accounts

/-! ## Tokens -/

/-- The token that was verified, and the user it was found to name. -/
def Entry.verified (e : Entry) : Option (String × Uuid) :=
  match e.op, e.resp with
  | .verify token, (r : Option Uuid) => r.map (token, ·)
  | _, _ => none

/-- No token was accepted that the service had not signed for that user. -/
def Genuine (l : List Entry) : Prop :=
  ∀ e k, e :: k <:+ l → ∀ x, e.verified = some x → ∃ d ∈ k, d.signed = some x

section Provenance

variable (host : Host) (calls : CallId → Operation)

/-- What a token of a user was signed for, at some time: a login with the
    password of the account, which was active, or the creation of the account,
    or a token that was verified within two hours of its own signature. -/
inductive Credential : List Entry → Uuid → String → Timestamp → Prop where
  | later {l : List Entry} {id : Uuid} {token : String} {t : Timestamp} (e : Entry)
      (h : Credential l id token t) : Credential (e :: l) id token t
  | login {l k : List Entry} {row : Accounts.User} {token : String} {t : Timestamp} (c : CallId)
      (dto : LoginUserDto) (hc : calls c = .login dto) (hk : k <:+ l)
      (hrow : (replay k).users.findByEmail dto.email = some row) (haccepts : Accepts host dto row) :
      Credential (⟨c, t, .sign row.id, token⟩ :: l) row.id token t
  | created {l : List Entry} {row : Accounts.User} {token : String} {t t' : Timestamp}
      (c : CallId) (bearer : Option String) (dto : CreateUserDto) (password : String)
      (hc : calls c = .register bearer dto)
      (hsaved : ⟨c, t', .save (newUser dto password), .ok row⟩ ∈ l) :
      Credential (⟨c, t, .sign row.id, token⟩ :: l) row.id token t
  | renewed {l k : List Entry} {id : Uuid} {old token : String} {t₀ t' t : Timestamp} (c : CallId)
      (hc : calls c = .checkStatus (some old)) (hold : Credential k id old t₀)
      (hverified : ⟨c, t', .verify old, some id⟩ :: k <:+ l) (hfresh : Unexpired t₀ t') :
      Credential (⟨c, t, .sign id, token⟩ :: l) id token t

/-- How an account has come to be that of an administrator: it was created when
    none was counted, or on behalf of one with a token, or was made so in the
    database. -/
inductive Administrator : List Entry → Uuid → Prop where
  | later {l : List Entry} {id : Uuid} (e : Entry) (h : Administrator l id) :
      Administrator (e :: l) id
  | first {l : List Entry} {row : Accounts.User} {t t' : Timestamp} (c : CallId)
      (credentials : BootstrapAdminCredentials) (draft : UserDraft)
      (hc : calls c = .bootstrapAdmin credentials)
      (hnone : ⟨c, t', .countAdmins, (0 : Nat)⟩ ∈ l) :
      Administrator (⟨c, t, .save draft, .ok row⟩ :: l) row.id
  | appointed {l : List Entry} {row : Accounts.User} {t t₀ : Timestamp} {admin : Uuid}
      (c : CallId) (token : String) (dto : CreateUserDto) (roles : List ValidRoles)
      (draft : UserDraft) (hc : calls c = .register (some token) dto)
      (hroles : dto.roles = some roles) (hadmin : .admin ∈ roles)
      (hcreator : Administrator l admin) (hcredential : Credential host calls l admin token t₀) :
      Administrator (⟨c, t, .save draft, .ok row⟩ :: l) row.id
  | database {l : List Entry} {id : Uuid} {t : Timestamp} (c : CallId)
      (roles : List ValidRoles) (hc : calls c = .setRoles id roles) (hadmin : .admin ∈ roles) :
      Administrator (⟨c, t, .setRoles id roles, ()⟩ :: l) id

/-- How an account has come to be: as the first one, when no administrator was
    counted, or on behalf of an administrator with a token. -/
def Founded (l : List Entry) (id : Uuid) : Prop :=
  ∃ c t draft row k, (⟨c, t, .save draft, .ok row⟩ : Entry) :: k <:+ l ∧ row.id = id ∧
    ((∃ credentials t', calls c = .bootstrapAdmin credentials ∧
      (⟨c, t', .countAdmins, (0 : Nat)⟩ : Entry) ∈ k) ∨
    ∃ token dto admin t₀, calls c = .register (some token) dto ∧
      Administrator host calls k admin ∧ Credential host calls k admin token t₀)

end Provenance

variable {host : Host} {jwt : Jwt} {calls : CallId → Operation} {sys : Calls} {l : List Entry}

/-- By induction on the newer entries, none of which matters. -/
theorem Credential.mono {k : List Entry} {id : Uuid} {token : String} {t : Timestamp}
    (h : Credential host calls k id token t) (hs : k <:+ l) :
    Credential host calls l id token t := by
  rcases hs with ⟨newer, rfl⟩
  induction newer with
  | nil => exact h
  | cons e newer ih => exact .later e ih

/-- The same for the administrators. -/
theorem Administrator.mono {k : List Entry} {id : Uuid} (h : Administrator host calls k id)
    (hs : k <:+ l) : Administrator host calls l id := by
  rcases hs with ⟨newer, rfl⟩
  induction newer with
  | nil => exact h
  | cons e newer ih => exact .later e ih

/-- The account was founded at an earlier point. -/
theorem Founded.mono {k : List Entry} {id : Uuid} (h : Founded host calls k id) (hs : k <:+ l) :
    Founded host calls l id := by
  rcases h with ⟨c, t, draft, row, k', hk', hrest⟩
  exact ⟨c, t, draft, row, k', hk'.trans hs, hrest⟩

/-- What is true of all entries is true of the older ones. -/
theorem Genuine.suffix {k : List Entry} (h : Genuine l) (hs : k <:+ l) : Genuine k :=
  fun e k' he => h e k' (he.trans hs)

/-! ## What is behind a token -/

/-- The steps of an identification in the history. -/
theorem identification_at (h : History host jwt calls l) {c : CallId} {i : Identification}
    {tr : List Step} (hown : i.steps ++ tr <:+ own c l) :
    ∃ t k t' k', (⟨c, t, .findOneBy i.id, some i.user⟩ : Entry) :: k <:+ l ∧
      (⟨c, t', .verify i.token, some i.id⟩ : Entry) :: k' <:+ k ∧ i.user.id = i.id ∧
      ∃ row, findById (replay k).users i.id = some row ∧ i.user = .ofRow row := by
  rcases hown with ⟨newer, hnewer⟩
  rcases steps_at hnewer.symm with ⟨lo, hlo, hown⟩
  rcases step_at hown with ⟨t, k, hk, hrest⟩
  rcases step_at hrest with ⟨t', k', hk', _⟩
  rcases read_row (h.fits _ k (hk.trans hlo)) with ⟨hid, row, hrow, huser⟩
  exact ⟨t, k, t', k', hk.trans hlo, hk', hid, row, hrow, huser⟩

/-- When a token was signed that is verified, and that it was not too long
    ago. -/
theorem signed_before (hjwt : jwt.VerifiesSigned) (hg : Genuine l) (h : History host jwt calls l)
    {c : CallId} {t : Timestamp} {token : String} {id : Uuid} {k : List Entry}
    (he : (⟨c, t, .verify token, some id⟩ : Entry) :: k <:+ l) :
    ∃ c' t₀ k', (⟨c', t₀, .sign id, token⟩ : Entry) :: k' <:+ k ∧ Unexpired t₀ t := by
  rcases hg _ k he (token, id) rfl with ⟨d, hd, hsigned⟩
  rw [signed_eq_some hsigned] at hd
  rcases exists_suffix hd with ⟨k', hk'⟩
  refine ⟨d.call, d.time, k', hk', ?_⟩
  -- It says what it was signed with, and is still verified.
  rcases (h.fits _ k he).answered with ⟨_, hverify⟩
  rcases (h.fits _ k' (hk'.trans ((List.suffix_cons _ k).trans he))).answered with ⟨_, hsign⟩
  have hsign' : token = jwt.sign id d.time := hsign
  have hverify' : some id = jwt.verify token t := hverify
  rw [hsign'] at hverify'
  exact (hjwt id id d.time t hverify'.symm).2

/-- What is behind a token, by induction on the history up to its signature. Only
    `createUser`, `loginUser` and `checkAuthStatus` sign one. -/
theorem credential_of_signed (hjwt : jwt.VerifiesSigned) (hg : Genuine l)
    (h : History host jwt calls l) {k : List Entry} (hk : k <:+ l) {c : CallId} {t : Timestamp}
    {token : String} {id : Uuid} (hsigned : (⟨c, t, .sign id, token⟩ : Entry) ∈ k) :
    Credential host calls k id token t := by
  induction l generalizing k c t token id with
  | nil =>
      rw [List.suffix_nil] at hk
      subst hk
      cases hsigned
  | cons e l ih =>
      have hbefore : History host jwt calls l := h.suffix (List.suffix_cons e l)
      have hgenuine := hg.suffix (List.suffix_cons e l)
      have ih' := @ih hgenuine hbefore
      rcases List.suffix_cons_iff.mp hk with rfl | hk
      rotate_left
      · exact ih' hk hsigned
      rcases List.mem_cons.mp hsigned with rfl | hsigned
      -- The token was signed earlier, and what was behind it then is behind it now.
      rotate_left
      · exact .later e (ih' List.suffix_rfl hsigned)
      rcases h.orderly _ l List.suffix_rfl with ⟨bearer, dto, i, password, row, hc, _, hid, hown⟩ |
          ⟨dto, row, hc, haccepts, hid, hown⟩ | ⟨bearer, i, hc, hpasses, hid, hown⟩
      · -- The account was just created.
        have hid' : id = row.id := hid
        subst hid'
        rcases step_at hown with ⟨t', k, hk, _⟩
        exact .created c bearer dto password hc (mem_of_suffix hk)
      -- The login has read the row whose password it accepted.
      · have hid' : id = row.id := hid
        subst hid'
        rcases step_at hown with ⟨t', k, hk, _⟩
        rcases (hbefore.fits _ k hk).answered with ⟨_, hrow⟩
        exact .login c dto hc ((List.suffix_cons _ k).trans hk) hrow.symm haccepts
      · -- It replaces another token, which was verified.
        have hin : i.steps ++ [] <:+ own c l := by
          rw [List.append_nil]
          exact hown ▸ List.suffix_cons _ _
        rcases identification_at hbefore hin with ⟨t', k, tv, kv, hk, hkv, hsame, _⟩
        have hverify := hkv.trans ((List.suffix_cons _ k).trans hk)
        rcases signed_before hjwt hgenuine hbefore hverify with ⟨c', t₀, k', hk', hfresh⟩
        -- What is behind the old token is behind it where it was verified.
        have hold : Credential host calls kv i.id i.token t₀ :=
          ih' ((List.suffix_cons _ kv).trans hverify) (mem_of_suffix hk')
        have hid' : id = i.id := Eq.trans hid hsame
        subst hid'
        rcases hpasses with ⟨roles, hguard, _⟩
        have hcall : calls c = .checkStatus bearer := hc
        rw [hcall] at hguard
        cases hguard
        exact .renewed c hcall hold hverify hfresh

/-- What is behind a user who was identified. -/
theorem identification_traced (hjwt : jwt.VerifiesSigned) (hg : Genuine l)
    (h : History host jwt calls l) {c : CallId} {i : Identification} {tr : List Step}
    (hown : i.steps ++ tr <:+ own c l) : ∃ t₀ t k,
      (⟨c, t, .verify i.token, some i.user.id⟩ : Entry) :: k <:+ l ∧
      Credential host calls k i.user.id i.token t₀ ∧ Unexpired t₀ t := by
  rcases identification_at h hown with ⟨t, k, t', k', hk, hk', hid, _⟩
  have hverify := hk'.trans ((List.suffix_cons _ k).trans hk)
  rcases signed_before hjwt hg h hverify with ⟨c', t₀, ks, hks, hfresh⟩
  rw [hid]
  exact ⟨t₀, t', k', hverify, credential_of_signed hjwt hg h
    ((List.suffix_cons _ k').trans hverify) (mem_of_suffix hks), hfresh⟩

/-! ## What is behind an account -/

/-- An operation leaves the roles of a user or sets them, and there is one that
    does. -/
theorem changed_roles (o : Op) (u : Accounts.User) : (changed o u).roles = u.roles ∨
    ∃ roles, o = .setRoles u.id roles ∧ (changed o u).roles = roles := by
  unfold changed
  split
  · split
    · exact .inl rfl
    · exact .inl rfl
  · split
    · exact .inl rfl
    · exact .inl rfl
  · rename_i id roles
    split
    · rename_i hid
      exact .inr ⟨roles, by rw [hid], rfl⟩
    · exact .inl rfl
  · exact .inl rfl

/-- The roles that somebody is created with. -/
theorem mem_newUser_roles {dto : CreateUserDto} {password : String}
    (h : .admin ∈ (newUser dto password).roles) : ∃ roles, dto.roles = some roles ∧
      .admin ∈ roles := by
  unfold newUser at h
  cases hroles : dto.roles with
  | none =>
      simp only [hroles, Option.map_none, Option.getD_none, List.mem_singleton, reduceCtorEq] at h
  | some roles =>
      simp only [hroles, Option.map_some, Option.getD_some, List.mem_eraseDups] at h
      exact ⟨roles, rfl, h⟩

/-- The administrator on whose behalf an account is created. -/
theorem creator_at (h : History host jwt calls l) {c : CallId} {bearer : Option String}
    {dto : CreateUserDto} {i : Identification} {tr : List Step}
    (hc : calls c = .register bearer dto) (hpasses : Passes (calls c) i)
    (hown : i.steps ++ tr <:+ own c l) : calls c = .register (some i.token) dto ∧
      ∃ k row, k <:+ l ∧ row ∈ (replay k).users.rows ∧ row.id = i.user.id ∧
        .admin ∈ row.roles := by
  rcases hpasses with ⟨roles, hguard, hallows⟩
  rw [hc] at hguard
  cases hguard
  rcases identification_at h hown with ⟨t, k, _, _, hk, _, hid, row, hrow, huser⟩
  rcases findById_eq_some.mp hrow with ⟨hmem, hsame⟩
  refine ⟨hc, k, row, (List.suffix_cons _ k).trans hk, hmem, hsame.trans hid.symm, ?_⟩
  rw [huser] at hallows
  simp only [UserRoleGuard.allows, List.isEmpty_cons, Bool.false_or, List.any_eq_true,
    List.mem_singleton, decide_eq_true_eq, SelectedUser.ofRow] at hallows
  rcases hallows with ⟨role, hrole, rfl⟩
  exact hrole

/-- What is behind an administrator, by induction on the history. The roles of a
    row are those it was inserted with, or those that the database has set. -/
theorem administrator_of_row (hjwt : jwt.VerifiesSigned) (hg : Genuine l)
    (h : History host jwt calls l) {k : List Entry} (hk : k <:+ l) {row : Accounts.User}
    (hrow : row ∈ (replay k).users.rows) (hadmin : .admin ∈ row.roles) :
    Administrator host calls k row.id := by
  induction l generalizing k row with
  | nil =>
      rw [List.suffix_nil] at hk
      subst hk
      simp only [replay, State.init, UserTable.empty, List.not_mem_nil] at hrow
  | cons e l ih =>
      have hbefore : History host jwt calls l := h.suffix (List.suffix_cons e l)
      have hgenuine := hg.suffix (List.suffix_cons e l)
      have ih' := @ih hgenuine hbefore
      rcases List.suffix_cons_iff.mp hk with rfl | hk
      rotate_left
      · exact ih' hk hrow hadmin
      have horder := h.orderly e l List.suffix_rfl
      -- The row was there before, or it is the one inserted.
      rcases (mem_rows_effect (h.fits e l List.suffix_rfl)).mp hrow with ⟨v, hv, rfl⟩ | hnew
      · rw [changed_id]
        rcases changed_roles e.op v with hsame | ⟨roles, hop, hroles⟩
        · rw [hsame] at hadmin
          exact .later e (ih' List.suffix_rfl hv hadmin)
        · rw [hroles] at hadmin
          rcases e with ⟨c, t, o, r⟩
          cases hop
          exact .database c roles horder hadmin
      · rcases inserted_new (h.fits e l List.suffix_rfl) hnew with ⟨draft, id, hop, hfields, _⟩
        rcases inserted_eq_some hnew with ⟨draft', hstep⟩
        rcases e with ⟨c, t, o, r⟩
        cases hstep
        cases hop
        have hroles : row.roles = draft.roles := by rw [hfields]; rfl
        rw [hroles] at hadmin
        rcases horder with ⟨bearer, dto, i, password, hc, hpasses, rfl, hown⟩ |
            ⟨credentials, password, hc, _, hown⟩
        · -- It was created on behalf of an administrator.
          have hin : i.steps ++ [] <:+ own c l := by
            rw [List.append_nil]
            exact hown ▸ (List.suffix_cons _ _).trans (List.suffix_cons _ _)
          rcases creator_at hbefore hc hpasses hin with ⟨hcall, ka, admin, hka, ha, hid, hrole⟩
          rcases mem_newUser_roles hadmin with ⟨roles, hdto, hmem⟩
          rcases identification_traced hjwt hgenuine hbefore hin with ⟨t₀, _, kv, hkv, hcred, _⟩
          have hcreator := (ih' hka ha hrole).mono hka
          rw [hid] at hcreator
          exact .appointed c i.token dto roles _ hcall hdto hmem hcreator
            (hcred.mono ((List.suffix_cons _ kv).trans hkv))
        -- The bootstrap has counted no administrator.
        · have hnone : (⟨.countAdmins, (0 : Nat)⟩ : Step) ∈ own c l := by
            rw [hown]
            exact List.mem_cons_of_mem _ (List.mem_cons_of_mem _ (List.mem_singleton_self _))
          rcases did_at hnone with ⟨t', k', hk'⟩
          exact .first c credentials _ hc (mem_of_suffix hk')

/-- What is behind an account. Only an insertion adds a row. -/
theorem founded_of_row (hjwt : jwt.VerifiesSigned) (hg : Genuine l)
    (h : History host jwt calls l) {row : Accounts.User}
    (hrow : row ∈ (replay l).users.rows) : Founded host calls l row.id := by
  induction l generalizing row with
  | nil => simp only [replay, State.init, UserTable.empty, List.not_mem_nil] at hrow
  | cons e l ih =>
      have hbefore : History host jwt calls l := h.suffix (List.suffix_cons e l)
      have hgenuine := hg.suffix (List.suffix_cons e l)
      rcases (mem_rows_effect (h.fits e l List.suffix_rfl)).mp hrow with ⟨v, hv, rfl⟩ | hnew
      -- A row keeps its identifier, so it was founded as before.
      · rw [changed_id]
        exact (ih hgenuine hbefore hv).mono (List.suffix_cons e l)
      · rcases inserted_eq_some hnew with ⟨draft, hstep⟩
        rcases e with ⟨c, t, o, r⟩
        cases hstep
        refine ⟨c, t, draft, row, l, List.suffix_rfl, rfl, ?_⟩
        rcases h.orderly _ l List.suffix_rfl with ⟨bearer, dto, i, password, hc, hpasses, _, hown⟩ |
            ⟨credentials, password, hc, _, hown⟩
        · have hin : i.steps ++ [] <:+ own c l := by
            rw [List.append_nil]
            exact hown ▸ (List.suffix_cons _ _).trans (List.suffix_cons _ _)
          rcases creator_at hbefore hc hpasses hin with ⟨hcall, ka, admin, hka, ha, hid, hrole⟩
          rcases identification_traced hjwt hgenuine hbefore hin with ⟨t₀, _, kv, hkv, hcred, _⟩
          have hcreator := (administrator_of_row hjwt hgenuine hbefore hka ha hrole).mono hka
          rw [hid] at hcreator
          exact .inr ⟨i.token, dto, i.user.id, t₀, hcall, hcreator,
            hcred.mono ((List.suffix_cons _ kv).trans hkv)⟩
        · have hnone : (⟨.countAdmins, (0 : Nat)⟩ : Step) ∈ own c l := by
            rw [hown]
            exact List.mem_cons_of_mem _ (List.mem_cons_of_mem _ (List.mem_singleton_self _))
          rcases did_at hnone with ⟨t', k', hk'⟩
          exact .inl ⟨credentials, t', hc, mem_of_suffix hk'⟩

/-! ## What is behind an act -/

/-- Something is done as a user: a request is let through, or a socket is let
    in. -/
def Entry.ActsAs (e : Entry) (id : Uuid) : Prop :=
  (∃ user : SelectedUser, e.op = .authorized user ∧ user.id = id) ∨
  ∃ socket context, e.op = .setTechnician socket context ∧ context.userId = id

/-- The token that a request or a socket has shown. -/
def Operation.Shows (op : Operation) (token : String) : Prop :=
  (∃ roles, op.guard = some (roles, some token)) ∨
  ∃ socket auth, op = .connect socket auth ∧ TechniciansGateway.extractToken auth = some token

/-- Whoever acts as a user was identified as that user. -/
theorem identified_act (h : History host jwt calls l) {e : Entry} {k : List Entry} {id : Uuid}
    (he : e :: k <:+ l) (hact : e.ActsAs id) : ∃ (i : Identification) (tr : List Step),
      i.steps ++ tr <:+ own e.call k ∧ i.user.id = id ∧ (calls e.call).Shows i.token := by
  have horder := h.orderly e k he
  rcases hact with ⟨user, hop, rfl⟩ | ⟨socket, context, hop, rfl⟩
  · rw [hop] at horder
    rcases horder with ⟨i, ⟨roles, hguard, _⟩, rfl, hown⟩
    refine ⟨i, [], ?_, rfl, .inl ⟨roles, hguard⟩⟩
    rw [hown, List.append_nil]
  · rw [hop] at horder
    rcases horder with ⟨i, ⟨auth, hc, htoken, _⟩, rfl, hown⟩
    refine ⟨i, [⟨.open socket, ()⟩], ?_, rfl, .inr ⟨socket, auth, hc, htoken⟩⟩
    rw [hown]
    exact List.suffix_rfl

/-- What is behind every account, every administrator and every act, if no token
    is accepted that was not signed. The first part is about the rows, the second
    about what is done. -/
theorem authority_traced (h : Reachable host jwt calls sys) (hjwt : jwt.VerifiesSigned)
    (hg : Genuine sys.shared.log) :
    (∀ row ∈ sys.shared.state.users.rows, Founded host calls sys.shared.log row.id ∧
      (.admin ∈ row.roles → Administrator host calls sys.shared.log row.id)) ∧
    ∀ e k id, e :: k <:+ sys.shared.log → e.ActsAs id → Founded host calls k id ∧
      ∃ token t₀ t k', (calls e.call).Shows token ∧
        (⟨e.call, t, .verify token, some id⟩ : Entry) :: k' <:+ k ∧
        Credential host calls k' id token t₀ ∧ Unexpired t₀ t := by
  have hhistory := h.history
  refine ⟨fun row hrow => ?_, fun e k id he hact => ?_⟩
  · rw [(recorded h).1] at hrow
    exact ⟨founded_of_row hjwt hg hhistory hrow,
      administrator_of_row hjwt hg hhistory List.suffix_rfl hrow⟩
  · have hk : k <:+ sys.shared.log := (List.suffix_cons e k).trans he
    have hbefore := hhistory.suffix hk
    have hgenuine := hg.suffix hk
    rcases identified_act hhistory he hact with ⟨i, tr, hown, rfl, hshows⟩
    rcases identification_traced hjwt hgenuine hbefore hown with ⟨t₀, t, k', hk', hcred, hfresh⟩
    refine ⟨?_, i.token, t₀, t, k', hshows, hk', hcred, hfresh⟩
    -- The user was read, and so is in the table.
    rcases identification_at hbefore hown with ⟨_, kr, _, _, hkr, _, hid, row, hrow, _⟩
    rcases findById_eq_some.mp hrow with ⟨hmem, hsame⟩
    have hkrk : kr <:+ k := (List.suffix_cons _ kr).trans hkr
    rw [hid, ← hsame]
    exact (founded_of_row hjwt (hgenuine.suffix hkrk) (hbefore.suffix hkrk) hmem).mono hkrk

/-- The run of the office, where every token that is verified was signed. -/
theorem authority_traced_office : ∃ sys, Reachable plainHost unaryJwt office sys ∧
    Genuine sys.shared.log ∧ Founded plainHost office sys.shared.log 2 ∧
    Administrator plainHost office sys.shared.log 1 := by
  have hrun : ((follow (exec plainHost unaryJwt) (boot plainHost office) oneAfterTheOther).any
      (fun sys => sys.shared.log.tails.all (fun l => l.head?.all (fun e => e.verified.all (fun x =>
          l.tail.any (fun d => decide (d.signed = some x))))) &&
        sys.shared.state.users.rows.any (fun row => decide (row.id = 2)) &&
        sys.shared.state.users.rows.any (fun row =>
          decide (row.id = 1 ∧ ValidRoles.admin ∈ row.roles)))) = true := by
    decide +kernel
  rw [Option.any_eq_true] at hrun
  rcases hrun with ⟨sys, hfollow, hp⟩
  simp only [Bool.and_eq_true, List.any_eq_true, decide_eq_true_eq] at hp
  rcases hp with ⟨⟨htails, ⟨leo, hleo, hleoid⟩⟩, ana, hana, hanaid, hadmin⟩
  have hreach : Reachable plainHost unaryJwt office sys := run_of_follow _ _ _ hfollow
  have hgenuine : Genuine sys.shared.log := by
    intro e k he x hx
    have hone := List.all_eq_true.mp htails (e :: k) ((List.mem_tails _ _).mpr he)
    simp only [List.head?_cons, Option.all_some, hx, List.tail_cons, List.any_eq_true,
      decide_eq_true_eq] at hone
    exact hone
  have hall := (authority_traced hreach unaryJwt_verifiesSigned hgenuine).1
  refine ⟨sys, hreach, hgenuine, ?_, ?_⟩
  · rw [← hleoid]
    exact (hall leo hleo).1
  · rw [← hanaid]
    exact (hall ana hana).2 hadmin

/-! ## The end of it -/

/-- Something is done for a user: a request is let through, a socket is let
    in, or a token is signed. -/
def Entry.Serves (e : Entry) (id : Uuid) : Prop := e.ActsAs id ∨ e.op = .sign id

/-- The call has found the account active, or has created it. -/
def HasFound (l : List Entry) (c : CallId) (id : Uuid) : Prop :=
  (∃ user : SelectedUser, (⟨.findOneBy id, some user⟩ : Step) ∈ own c l ∧ user.isActive = true) ∨
  (∃ email row, (⟨.findByEmail email, some row⟩ : Step) ∈ own c l ∧ row.id = id ∧
    row.isActive = true) ∨
  ∃ draft row, (⟨.save draft, .ok row⟩ : Step) ∈ own c l ∧ row.id = id

/-- The row of the user is there, and is inactive. -/
def IsInactive (id : Uuid) (l : List Entry) : Prop :=
  ∃ row, findById (replay l).users id = some row ∧ row.isActive = false

/-- An operation leaves the state of a user or sets it, and there is one that
    does. -/
theorem changed_isActive (o : Op) (u : Accounts.User) :
    (changed o u).isActive = u.isActive ∨
      ∃ isActive, o = .setActive u.id isActive ∧ (changed o u).isActive = isActive := by
  unfold changed
  split
  · split
    · exact .inl rfl
    · exact .inl rfl
  · rename_i id isActive
    split
    · rename_i hid
      exact .inr ⟨isActive, by rw [hid], rfl⟩
    · exact .inl rfl
  · split
    · exact .inl rfl
    · exact .inl rfl
  · exact .inl rfl

/-- A user who is made inactive is so until made active again. -/
theorem inactive_since (h : History host jwt calls l) {c : CallId} {t : Timestamp} {id : Uuid}
    {k : List Entry} (hk : (⟨c, t, .setActive id false, ()⟩ : Entry) :: k <:+ l)
    (hrow : ∃ row ∈ (replay k).users.rows, row.id = id)
    (hstays : ∀ e k', e :: k' <:+ l → (⟨c, t, .setActive id false, ()⟩ : Entry) :: k <:+ k' →
      e.op ≠ .setActive id true) :
    Since (IsInactive id) ((⟨c, t, .setActive id false, ()⟩ : Entry) :: k) l := by
  refine Since.of_kept ?_ hk (fun e k' hs he hk' => ?_)
  -- The operation itself makes the row inactive.
  · rcases hrow with ⟨row, hrow, hid⟩
    refine ⟨_, findById_changed (h.fits _ k hk) (findById_eq_some.mpr ⟨hrow, hid⟩), ?_⟩
    simp only [changed, hid, if_true]
  · rcases hk' with ⟨row, hrow, hinactive⟩
    refine ⟨_, findById_changed (h.fits e k' he) hrow, ?_⟩
    rcases changed_isActive e.op row with hsame | ⟨isActive, hop, hnew⟩
    · rw [hsame]
      exact hinactive
    -- Only an activation could change it, and there is none.
    · rw [(findById_eq_some.mp hrow).2] at hop
      rw [hnew]
      exact Bool.eq_false_iff.mpr (fun htrue => hstays e k' he hs (htrue ▸ hop))

/-- What a call has found of an active user it has found before the user was
    made inactive. -/
theorem found_before {d e₀ : Entry} {kd k₀ k : List Entry} {id : Uuid}
    (hd : d :: kd <:+ k) (h₀ : e₀ :: k₀ <:+ k) (hne : d.op ≠ e₀.op)
    (hsince : Since (IsInactive id) (e₀ :: k₀) k) (hactive : ¬ IsInactive id kd) :
    d.step ∈ own d.call k₀ := by
  rcases suffix_trichotomy hd h₀ with hs | hs | heq
  · exact did_of_mem (mem_of_suffix hs)
  · exact absurd (hsince kd hs ((List.suffix_cons d kd).trans hd)) hactive
  · exact absurd (congrArg Entry.op (List.cons.inj heq).1) hne

/-- Whoever was found active is not inactive. The guard and the login look at the
    row that was read. -/
theorem active_of_read (h : History host jwt calls l) {c : CallId} {t : Timestamp} {id : Uuid}
    {user : SelectedUser} {k : List Entry}
    (he : (⟨c, t, .findOneBy id, some user⟩ : Entry) :: k <:+ l) (hactive : user.isActive = true) :
    ¬ IsInactive id k := by
  rintro ⟨row, hrow, hinactive⟩
  rcases read_row (h.fits _ k he) with ⟨_, row', hrow', rfl⟩
  rw [hrow, Option.some.injEq] at hrow'
  subst hrow'
  have hboth : row.isActive = true := hactive
  rw [hinactive] at hboth
  cases hboth

/-- What is done for a user who was made inactive, and was not made active
    again, is done by calls that had found the account active before. -/
theorem served_before_inactive (h : Reachable host jwt calls sys) {c₀ : CallId} {t₀ : Timestamp}
    {id : Uuid} {k₀ : List Entry}
    (h₀ : (⟨c₀, t₀, .setActive id false, ()⟩ : Entry) :: k₀ <:+ sys.shared.log)
    (hrow : ∃ row ∈ (replay k₀).users.rows, row.id = id)
    (hstays : ∀ e k, e :: k <:+ sys.shared.log →
      (⟨c₀, t₀, .setActive id false, ()⟩ : Entry) :: k₀ <:+ k → e.op ≠ .setActive id true)
    {e : Entry} {k : List Entry} (he : e :: k <:+ sys.shared.log)
    (hafter : (⟨c₀, t₀, .setActive id false, ()⟩ : Entry) :: k₀ <:+ k) (hserves : e.Serves id) :
    HasFound k₀ e.call id := by
  have hk : k <:+ sys.shared.log := (List.suffix_cons e k).trans he
  have hbefore := h.history.suffix hk
  have hsince := (inactive_since h.history h₀ hrow hstays).until hk
  -- Whoever was identified was found active.
  have hidentified : ∀ (i : Identification) (tr : List Step), i.steps ++ tr <:+ own e.call k →
      i.user.id = id → HasFound k₀ e.call id := by
    intro i tr hown hid
    rcases identification_at hbefore hown with ⟨t, kr, _, _, hkr, _, hsame, _⟩
    rw [hsame] at hid
    rw [hid] at hkr
    have hmem := found_before hkr hafter (by simp only [ne_eq, reduceCtorEq, not_false_eq_true])
      hsince (active_of_read hbefore hkr i.active)
    exact .inl ⟨i.user, hmem, i.active⟩
  -- A request or a socket, or a signature.
  rcases hserves with hact | hop
  · rcases identified_act h.history he hact with ⟨i, tr, hown, hid, _⟩
    exact hidentified i tr hown hid
  · have horder := h.history.orderly e k he
    rw [hop] at horder
    rcases horder with ⟨bearer, dto, i, password, row, _, _, hid, hown⟩ |
        ⟨dto, row, _, haccepts, hid, hown⟩ | ⟨bearer, i, _, _, hid, hown⟩
    · -- An account is not created that is there.
      rcases step_at hown with ⟨t, kr, hkr, _⟩
      refine .inr (.inr ⟨_, row, found_before hkr hafter
        (by simp only [ne_eq, reduceCtorEq, not_false_eq_true]) hsince ?_, hid.symm⟩)
      rintro ⟨old, hold, _⟩
      rcases inserted_new (hbefore.fits _ kr hkr) rfl with ⟨_, _, _, _, hnew⟩
      rcases findById_eq_some.mp hold with ⟨hmem, hsame⟩
      exact hnew old hmem (hsame.trans hid)
    -- A login that signs has read an active row.
    · rcases step_at hown with ⟨t, kr, hkr, _⟩
      refine .inr (.inl ⟨dto.email, row, found_before hkr hafter
        (by simp only [ne_eq, reduceCtorEq, not_false_eq_true]) hsince ?_, hid.symm, haccepts.2⟩)
      rintro ⟨old, hold, hinactive⟩
      rcases (hbefore.fits _ kr hkr).answered with ⟨_, hfound⟩
      rcases UserTable.findByEmail_eq_some.mp hfound.symm with ⟨hmem, _⟩
      rcases findById_eq_some.mp hold with ⟨hmem', hsame⟩
      rw [(replay kr).users.eq_of_id hmem' hmem (hsame.trans hid), haccepts.2] at hinactive
      cases hinactive
    -- A renewal is done by somebody identified.
    · refine hidentified i [] ?_ hid.symm
      rw [List.append_nil, hown]
      exact List.suffix_cons _ _

/-- Leo's token is renewed while he is made inactive: he was read before. -/
def meanwhile : List (CallId × Env) :=
  oneAfterTheOther.take 34 ++ [(8, ⟨0, 0, 0⟩), (7, ⟨0, 0, 0⟩)]

/-- The token is signed after the deactivation, by a call that has read the
    account before. -/
theorem served_before_inactive_office : ∃ sys e k k₀, Reachable plainHost unaryJwt office sys ∧
    (⟨8, 0, .setActive 2 false, ()⟩ : Entry) :: k₀ <:+ k ∧ e :: k <:+ sys.shared.log ∧
    e.op = .sign 2 ∧ HasFound k₀ e.call 2 := by
  have hrun : ((follow (exec plainHost unaryJwt) (boot plainHost office) meanwhile).any
      (fun sys => sys.shared.log.all (fun e => decide (e.op ≠ .setActive 2 true)) &&
        sys.shared.log.head?.any (fun e => decide (e.op = .sign 2)) &&
        (sys.shared.log.drop 2).head?.any (fun e => decide (e.call = 8 ∧ e.time = 0 ∧
          e.op = .setActive 2 false)) &&
        (replay (sys.shared.log.drop 3)).users.rows.any (fun row => decide (row.id = 2)))) =
        true := by
    decide +kernel
  rw [Option.any_eq_true] at hrun
  rcases hrun with ⟨sys, hfollow, hp⟩
  simp only [Bool.and_eq_true, Option.any_eq_true, List.any_eq_true, List.all_eq_true,
    decide_eq_true_eq] at hp
  rcases hp with ⟨⟨⟨hnever, e, he, hop⟩, d, hd, hcall, htime, hset⟩, row, hrow, hid⟩
  have hreach : Reachable plainHost unaryJwt office sys := run_of_follow _ _ _ hfollow
  have hd' : d = ⟨8, 0, .setActive 2 false, ()⟩ := by
    rcases d with ⟨c, t, o, r⟩
    cases hcall
    cases htime
    cases hset
    rfl
  have htail : (⟨8, 0, .setActive 2 false, ()⟩ : Entry) :: sys.shared.log.drop 3 =
      sys.shared.log.drop 2 := by
    rw [← hd', ← List.tail_drop, ← List.eq_cons_of_mem_head? hd]
  have hlog : e :: sys.shared.log.tail = sys.shared.log := (List.eq_cons_of_mem_head? he).symm
  have hlast : e :: sys.shared.log.tail <:+ sys.shared.log := hlog ▸ List.suffix_rfl
  have hafter : (⟨8, 0, .setActive 2 false, ()⟩ : Entry) :: sys.shared.log.drop 3 <:+
      sys.shared.log.tail := by
    rw [htail, ← List.drop_one, ← List.drop_drop (i := 1) (j := 1)]
    exact List.drop_suffix _ _
  have hbegin := hafter.trans ((List.suffix_cons e _).trans hlast)
  exact ⟨sys, e, _, _, hreach, hafter, hlast, hop, served_before_inactive hreach hbegin
    ⟨row, hrow, hid⟩ (fun f k hf _ => hnever f (mem_of_suffix hf)) hlast hafter (.inr hop)⟩

end RemoteControl.Technicians

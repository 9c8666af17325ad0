import RemoteControl.Core.Accounts

/-!
# Logging In

Whether the holder of an account gets in with what the account was created
with: the e-mail address as it was typed then, and the password set last.

The addresses in the table are all in the one form that the inserting hook
brings them into, so no two accounts share an address up to case and white
space. But the login compares the address as it is typed now, and so lets in
exactly those whose address was in that form from the beginning.

What an account was given is kept beside the table, step by step (`State`),
and `Kept` says how the two are related.

A row keeps the relation to what its holder was given, from its creation on.
The password is hashed as it was given, and compared exactly; the address is
brought into its form once, at the insertion. So the comparison of the login
succeeds on the password that was set last, and finds the row by the address
if that is already in the form it was given.

## Main definitions

* `Given`, `State`, `Step`: The calls, and what they have handed out.
* `Kept`: The rows are made of what was handed out.
* `LogsIn`: The holder of an account gets in, and nobody else does.
* `after`: The state after a sequence of calls.
* `plainHost`, `registration`: An account whose address has a capital.

## Theorems

* `after_kept`: `Kept` after every sequence of calls.
* `login_as_created`: Who gets in.
* `createUser_cases`, `bootstrapAdmin_cases`, `resetAdminPassword_cases`: What
  a call has done to the table.
* `Kept.run`: One call.
-/

namespace RemoteControl.Accounts

variable {host : Host}

/-! ## Sequences of calls -/

/-- What the holder of an account was given: the address it was created with,
    and the password set last. -/
structure Given where
  email : String
  password : String
  deriving DecidableEq

/-- The table of the accounts, and what their holders were given. -/
structure State where
  users : UserTable
  given : Uuid → Option Given

/-- The calls that change the table. -/
inductive Step where
  | createUser (g : Generated) (dto : CreateUserDto)
  | bootstrapAdmin (g : Generated) (credentials : BootstrapAdminCredentials)
  | resetAdminPassword (salt : Nat) (credentials : ResetAdminPasswordCredentials)
  | setActive (id : Uuid) (isActive : Bool)

/-- An account was created. -/
def State.created (st : State) (users : UserTable) (id : Uuid) (given : Given) : State :=
  { users, given := Function.update st.given id (some given) }

/-- The account with this address has a new password. -/
def State.changed (st : State) (users : UserTable) (email password : String) : State :=
  match users.findByEmail email with
  | none => { st with users }
  | some user =>
    { users
      given := Function.update st.given user.id
        ((st.given user.id).map (fun g => { g with password })) }

/-- What a call hands out is noted with the account it creates or changes. -/
def Step.run (host : Host) (st : State) : Step → State
  | .createUser g dto =>
    match AuthService.createUser host g dto st.users with
    | (.ok response, users) => st.created users response.id ⟨dto.email, dto.password⟩
    | (.error _, users) => { st with users }
  | .bootstrapAdmin g credentials =>
    match Accounts.bootstrapAdmin host g credentials st.users with
    | (.ok (.created _), users) =>
      st.created users g.id ⟨credentials.email, credentials.password⟩
    | (_, users) => { st with users }
  | .resetAdminPassword salt credentials =>
    match Accounts.resetAdminPassword host salt credentials st.users with
    | (.updated email _, users) => st.changed users email credentials.password
    | (_, users) => { st with users }
  | .setActive id isActive => { st with users := st.users.setActive id isActive }

/-- The state after these steps, the last one first, from no accounts. -/
def after (host : Host) : List Step → State
  | [] => { users := .empty, given := fun _ => none }
  | step :: steps => step.run host (after host steps)

/-! ## The table -/

namespace UserTable

variable {t t' : UserTable}

/-- Two rows with one identifier are one. -/
theorem eq_of_id (t : UserTable) {u v : User} (hu : u ∈ t.rows) (hv : v ∈ t.rows)
    (h : u.id = v.id) : u = v := List.inj_on_of_nodup_map t.ids hu hv h

/-- Two rows with one address are one. -/
theorem eq_of_email (t : UserTable) {u v : User} (hu : u ∈ t.rows) (hv : v ∈ t.rows)
    (h : u.email = v.email) : u = v := List.inj_on_of_nodup_map t.emails hu hv h

/-- The row with an address is found by it. -/
theorem findByEmail_eq_some {email : String} {u : User} :
    t.findByEmail email = some u ↔ u ∈ t.rows ∧ u.email = email := by
  constructor
  · intro h
    have hemail := List.find?_some h
    rw [decide_eq_true_eq] at hemail
    exact ⟨List.mem_of_find?_eq_some h, hemail⟩
  · rintro ⟨hu, hemail⟩
    cases hfound : t.findByEmail email with
    | none =>
        have hnone := List.find?_eq_none.mp hfound u hu
        rw [decide_eq_true_eq] at hnone
        exact (hnone hemail).elim
    | some v =>
        have hv := List.find?_some hfound
        rw [decide_eq_true_eq] at hv
        rw [t.eq_of_email (List.mem_of_find?_eq_some hfound) hu (hv.trans hemail.symm)]

/-- A row that was saved is new. -/
theorem save_ok {u : User} (h : t.save host u = .ok t') :
    t'.rows = t.rows ++ [u.checkFieldsBeforeInsert host] ∧ ∀ v ∈ t.rows, v.id ≠ u.id := by
  unfold save insert at h
  split at h
  · simp only [reduceCtorEq] at h
  · rename_i hid
    split at h
    · simp only [reduceCtorEq] at h
    · rw [Except.ok.injEq] at h
      rw [← h]
      refine ⟨rfl, fun v hv heq => hid ?_⟩
      exact List.mem_map.mpr ⟨v, hv, heq⟩

end UserTable

/-! ## What the rows are made of -/

/-- The row is made of what its holder was given. -/
def MadeOf (host : Host) (u : User) (g : Given) : Prop :=
  u.email = host.locale.normalize g.email ∧
    ∀ p, host.compareSync p u.password = decide (p = g.password)

/-- Every row is made of what was given to its holder. -/
def Kept (host : Host) (st : State) : Prop :=
  ∀ u ∈ st.users.rows, ∃ g, st.given u.id = some g ∧ MadeOf host u g

/-- A new row, inserted with what it was made of. -/
theorem Kept.created {st : State} {users : UserTable} {u : User} {g : Given} (h : Kept host st)
    (hsave : st.users.save host u = .ok users)
    (hmade : MadeOf host (u.checkFieldsBeforeInsert host) g) :
    Kept host (st.created users u.id g) := by
  rcases UserTable.save_ok hsave with ⟨hrows, hnew⟩
  intro v hv
  unfold State.created at hv ⊢
  rw [hrows, List.mem_append, List.mem_singleton] at hv
  -- The row was there before, with another identifier, or it is the new one.
  rcases hv with hv | rfl
  · rcases h v hv with ⟨g', hg', hmade'⟩
    exact ⟨g', (Function.update_of_ne (hnew v hv) _ _).trans hg', hmade'⟩
  · exact ⟨g, Function.update_self _ _ _, hmade⟩

/-- A new password for one row. -/
theorem Kept.changed {st : State} {user : User} {password hash : String} (h : Kept host st)
    (huser : user ∈ st.users.rows)
    (hhash : ∀ p, host.compareSync p hash = decide (p = password)) :
    Kept host (st.changed (st.users.setPassword user.id hash) user.email password) := by
  have hfound : (st.users.setPassword user.id hash).findByEmail user.email =
      some { user with password := hash } := by
    refine UserTable.findByEmail_eq_some.mpr ⟨List.mem_map.mpr ⟨user, huser, ?_⟩, rfl⟩
    rw [if_pos rfl]
  intro v hv
  unfold State.changed at hv ⊢
  simp only [hfound] at hv ⊢
  rcases List.mem_map.mp hv with ⟨u, hu, rfl⟩
  rcases h u hu with ⟨g, hg, hmade⟩
  by_cases hid : u.id = user.id
  · -- It is the row that was changed.
    rw [if_pos hid]
    refine ⟨{ g with password }, ?_, hmade.1, hhash⟩
    simp only
    rw [hid] at hg ⊢
    rw [Function.update_self, hg, Option.map_some]
  · rw [if_neg hid, Function.update_of_ne hid]
    exact ⟨g, hg, hmade⟩

/-- To activate an account, or to deactivate it, changes neither the address nor
    the password. -/
theorem Kept.setActive {st : State} (h : Kept host st) (id : Uuid) (isActive : Bool) :
    Kept host { st with users := st.users.setActive id isActive } := by
  intro v hv
  rcases List.mem_map.mp hv with ⟨u, hu, rfl⟩
  rcases h u hu with ⟨g, hg, hmade⟩
  split
  · exact ⟨g, hg, hmade⟩
  · exact ⟨g, hg, hmade⟩

/-! ## The calls -/

/-- A hash matches the password it was made of, and no other. -/
theorem hashPassword_compares (hcrypto : host.ComparesExactly) (password : String) (salt : Nat) :
    ∀ p, host.compareSync p (hashPassword host password salt) = decide (p = password) :=
  fun p => hcrypto p password passwordSaltRounds salt

/-- A call that creates an account saves one row, or changes nothing. -/
theorem createUser_cases (host : Host) (g : Generated) (dto : CreateUserDto) (t : UserTable) :
    (∃ error, AuthService.createUser host g dto t = (.error error, t)) ∨
    ∃ u t' response, AuthService.createUser host g dto t = (.ok response, t') ∧
      t.save host u = .ok t' ∧ response.id = u.id ∧ u.email = dto.email ∧
      u.password = hashPassword host dto.password g.salt := by
  unfold AuthService.createUser
  simp only
  split
  · exact .inl ⟨_, rfl⟩
  · rename_i t' hsave
    exact .inr ⟨_, t', _, rfl, hsave, rfl, rfl, rfl⟩

/-- The first administrator: likewise, with the address in its form. -/
theorem bootstrapAdmin_cases (host : Host) (g : Generated)
    (credentials : BootstrapAdminCredentials) (t : UserTable) :
    (∃ result, Accounts.bootstrapAdmin host g credentials t = (result, t) ∧
      ∀ email, result ≠ .ok (.created email)) ∨
    ∃ u t' email, Accounts.bootstrapAdmin host g credentials t = (.ok (.created email), t') ∧
      t.save host u = .ok t' ∧ u.id = g.id ∧
      u.email = BootstrapAdmin.normalizeEmail host credentials.email ∧
      u.password = hashPassword host credentials.password g.salt := by
  unfold Accounts.bootstrapAdmin
  simp only
  split
  · exact .inl ⟨_, rfl, fun _ hc => by simp only [Except.ok.injEq, reduceCtorEq] at hc⟩
  · split
    · exact .inl ⟨_, rfl, fun _ hc => by simp only [Except.ok.injEq, reduceCtorEq] at hc⟩
    · split
      · exact .inl ⟨_, rfl, fun _ hc => by simp only [reduceCtorEq] at hc⟩
      · rename_i t' hsave
        exact .inr ⟨_, t', _, rfl, hsave, rfl, rfl, rfl⟩

/-- A new password is written to one row, or nothing is changed. -/
theorem resetAdminPassword_cases (host : Host) (salt : Nat)
    (credentials : ResetAdminPasswordCredentials) (t : UserTable) :
    (∃ result, Accounts.resetAdminPassword host salt credentials t = (result, t) ∧
      ∀ email isActive, result ≠ .updated email isActive) ∨
    ∃ u ∈ t.rows, Accounts.resetAdminPassword host salt credentials t =
      (.updated u.email u.isActive,
        t.setPassword u.id (hashPassword host credentials.password salt)) := by
  unfold Accounts.resetAdminPassword
  simp only
  split
  · exact .inl ⟨_, rfl, fun _ _ hc => by simp only [reduceCtorEq] at hc⟩
  · rename_i u hfound
    split
    · exact .inl ⟨_, rfl, fun _ _ hc => by simp only [reduceCtorEq] at hc⟩
    · exact .inr ⟨u, (UserTable.findByEmail_eq_some.mp hfound).1, rfl⟩

/-- Every step keeps the rows made of what was given. -/
theorem Kept.run (hcrypto : host.ComparesExactly) {st : State} (h : Kept host st) (step : Step) :
    Kept host (step.run host st) := by
  cases step with
  | createUser g dto =>
      rcases createUser_cases host g dto st.users with
        ⟨error, heq⟩ | ⟨u, t', response, heq, hsave, hid, hemail, hpassword⟩
      · simp only [Step.run, heq]
        exact h
      · simp only [Step.run, heq, hid]
        refine h.created hsave ⟨?_, ?_⟩
        · simp only [User.checkFieldsBeforeInsert, hemail]
          rfl
        · simp only [User.checkFieldsBeforeInsert, hpassword]
          exact hashPassword_compares hcrypto dto.password g.salt
  | bootstrapAdmin g credentials =>
      rcases bootstrapAdmin_cases host g credentials st.users with
        ⟨result, heq, hnot⟩ | ⟨u, t', email, heq, hsave, hid, hemail, hpassword⟩
      · simp only [Step.run, heq]
        exact h
      · simp only [Step.run, heq]
        rw [← hid]
        refine h.created hsave ⟨?_, ?_⟩
        · -- The address is brought into the form twice.
          simp only [User.checkFieldsBeforeInsert, hemail]
          exact host.locale.normalize_idem credentials.email
        · simp only [User.checkFieldsBeforeInsert, hpassword]
          exact hashPassword_compares hcrypto credentials.password g.salt
  | resetAdminPassword salt credentials =>
      rcases resetAdminPassword_cases host salt credentials st.users with
        ⟨result, heq, hnot⟩ | ⟨u, hu, heq⟩
      · simp only [Step.run, heq]
        exact h
      · simp only [Step.run, heq]
        exact h.changed hu (hashPassword_compares hcrypto credentials.password salt)
  | setActive id isActive => exact h.setActive id isActive

/-- After every sequence of calls the rows are made of what was given. -/
theorem after_kept (hcrypto : host.ComparesExactly) (steps : List Step) :
    Kept host (after host steps) := by
  induction steps with
  | nil =>
      intro u hu
      simp only [after, UserTable.empty, List.not_mem_nil] at hu
  | cons step steps ih => exact ih.run hcrypto step

/-! ## Logging in -/

/-- Whoever has what was given to the holder of the account gets in, and is
    shown the account; with another password nobody does. -/
def LogsIn (host : Host) (t : UserTable) (u : User) (g : Given) : Prop :=
  (∃ response, AuthService.loginUser host ⟨g.email, g.password⟩ t = .ok response ∧
    response.id = u.id ∧ response.email = u.email ∧ response.fullName = u.fullName ∧
    response.roles = u.roles) ∧
  ∀ p, p ≠ g.password → ∃ error, AuthService.loginUser host ⟨g.email, p⟩ t = .error error

/-- A login that succeeds has found the address, and the password has matched. -/
theorem loginUser_ok {dto : LoginUserDto} {t : UserTable} {response : LoginResponse}
    (h : AuthService.loginUser host dto t = .ok response) :
    ∃ u ∈ t.rows, u.email = dto.email ∧ host.compareSync dto.password u.password = true := by
  unfold AuthService.loginUser at h
  split at h
  · simp only [reduceCtorEq] at h
  · rename_i u hfound
    rcases UserTable.findByEmail_eq_some.mp hfound with ⟨hu, hemail⟩
    split at h
    · simp only [reduceCtorEq] at h
    · rename_i hcompare
      exact ⟨u, hu, hemail, Bool.not_eq_false _ ▸ hcompare⟩

/-- No two accounts have addresses of the same form, and the holder of an
    active account gets in with what the account was created with exactly if
    the address was in that form from the beginning. -/
theorem login_as_created (hcrypto : host.ComparesExactly) (steps : List Step) :
    (∀ u ∈ (after host steps).users.rows, ∀ v ∈ (after host steps).users.rows,
      host.locale.normalize u.email = host.locale.normalize v.email → u = v) ∧
    ∀ u ∈ (after host steps).users.rows, u.isActive = true →
      ∃ g, (after host steps).given u.id = some g ∧
        (LogsIn host (after host steps).users u g ↔ host.locale.normalize g.email = g.email) := by
  have hkept := after_kept hcrypto steps
  -- Every address in the table is in the one form.
  have hform : ∀ u ∈ (after host steps).users.rows, host.locale.normalize u.email = u.email := by
    intro u hu
    rcases hkept u hu with ⟨g, _, hemail, _⟩
    rw [hemail]
    exact host.locale.normalize_idem g.email
  constructor
  · intro u hu v hv heq
    rw [hform u hu, hform v hv] at heq
    exact UserTable.eq_of_email _ hu hv heq
  intro u hu hactive
  rcases hkept u hu with ⟨g, hg, hemail, hcompare⟩
  refine ⟨g, hg, ?_, ?_⟩
  · -- The row that was found has the address as it was typed, so it was in that form.
    rintro ⟨⟨response, hok, _⟩, _⟩
    rcases loginUser_ok hok with ⟨v, hv, hvemail, _⟩
    have hsame := hform v hv
    rw [hvemail] at hsame
    exact hsame
  · intro hnormal
    -- The address as it was typed is that of the row.
    have hfound : (after host steps).users.findByEmail g.email = some u :=
      UserTable.findByEmail_eq_some.mpr ⟨hu, hemail.trans hnormal⟩
    refine ⟨?_, fun p hp => ?_⟩
    · have hsame : host.compareSync g.password u.password = true := by
        rw [hcompare, decide_eq_true_eq]
      unfold AuthService.loginUser
      simp only [hfound, hsame, hactive, Bool.true_eq_false, if_false]
      exact ⟨_, rfl, rfl, rfl, rfl, rfl⟩
    · have hother : host.compareSync p u.password = false := by
        rw [hcompare, decide_eq_false_iff_not]
        exact hp
      unfold AuthService.loginUser
      simp only [hfound, hother, if_true]
      exact ⟨_, rfl⟩

/-- Nothing is hashed, and letters without accents have a lower case. -/
def plainHost : Host :=
  { locale := Encoding.LowerCase.ascii
    hashSync := fun data _ _ => data
    compareSync := fun data hash => decide (data = hash)
    sign := fun _ => "token" }

/-- A password is its own hash there. -/
theorem plainHost_comparesExactly : plainHost.ComparesExactly := fun _ _ _ _ => rfl

/-- Ana gets an account, with her address in her own spelling. -/
def registration : Step :=
  .createUser { id := 1, now := 0, salt := 0 }
    { email := "Ana@Example.com", password := "Secreta1", fullName := "Ana", roles := none }

/-- The account of Ana is there, and active. -/
theorem registered : ∃ u ∈ (after plainHost [registration]).users.rows, u.isActive = true ∧
    (after plainHost [registration]).given u.id = some ⟨"Ana@Example.com", "Secreta1"⟩ := by
  have hrow : ((after plainHost [registration]).users.rows.any (fun u => u.isActive &&
      decide ((after plainHost [registration]).given u.id =
        some ⟨"Ana@Example.com", "Secreta1"⟩))) = true := by
    decide +kernel
  rw [List.any_eq_true] at hrow
  rcases hrow with ⟨u, hu, hrow⟩
  rw [Bool.and_eq_true, decide_eq_true_eq] at hrow
  exact ⟨u, hu, hrow⟩

/-- Ana does not get in with the address as she has given it. -/
theorem login_as_created_capital : ¬ ∀ host : Host, host.ComparesExactly → ∀ steps : List Step,
    (∀ u ∈ (after host steps).users.rows, ∀ v ∈ (after host steps).users.rows,
      host.locale.normalize u.email = host.locale.normalize v.email → u = v) ∧
    ∀ u ∈ (after host steps).users.rows, u.isActive = true →
      ∃ g, (after host steps).given u.id = some g ∧ LogsIn host (after host steps).users u g := by
  intro hall
  rcases registered with ⟨u, hu, hactive, hgiven⟩
  rcases (hall plainHost plainHost_comparesExactly [registration]).2 u hu hactive with
    ⟨g, hg, ⟨response, hok, _⟩, _⟩
  rw [hgiven, Option.some.injEq] at hg
  subst hg
  have hrefused : (AuthService.loginUser plainHost ⟨"Ana@Example.com", "Secreta1"⟩
      (after plainHost [registration]).users).toOption = none := by
    decide +kernel
  rw [hok] at hrefused
  simp only [Except.toOption, reduceCtorEq] at hrefused

/-- The address she has given is not in the one form. -/
theorem login_as_created_registered : ∃ u ∈ (after plainHost [registration]).users.rows, ∃ g,
    (after plainHost [registration]).given u.id = some g ∧
      ¬ LogsIn plainHost (after plainHost [registration]).users u g := by
  rcases registered with ⟨u, hu, hactive, hgiven⟩
  rcases (login_as_created plainHost_comparesExactly [registration]).2 u hu hactive with
    ⟨g, hg, hiff⟩
  refine ⟨u, hu, g, hg, fun hlogs => ?_⟩
  have hform := hiff.mp hlogs
  rw [hgiven, Option.some.injEq] at hg
  subst hg
  have hnot : plainHost.locale.normalize "Ana@Example.com" ≠ "Ana@Example.com" := by decide
  exact hnot hform

end RemoteControl.Accounts

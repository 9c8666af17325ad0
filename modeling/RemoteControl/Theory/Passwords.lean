import RemoteControl.Theory.TechnicianHistory

/-!
# Passwords and Tokens at Work

What a login and a guarded route answer, while accounts are created, reset and
made inactive around them. A login is decided when it reads the account: it
succeeds if the account is active then, and the password compares with the
hash of the one that was set last (`lastPassword`), whoever set it. A route is
decided at two moments, when the token is verified and when the user is read.

The password itself is in no table and no history. It is what the call was
given that has set it, and the row has a hash of that (`password_of_row`).
How a password is compared with a hash is left to the library: nothing is
assumed of it.

That the row has a hash of the last password is an invariant of histories: the
two calls that insert a row and the one that resets a password hash what they
were given right before they store it, and no other operation touches the
column (`changed_password`). A login that is over has left its read in the
history, so it can be judged by what that read has found.

## Main definitions

* `lastPassword`: The password that was set last.
* `logsIn`: What a login comes to.
* `letsThrough`: What the guards of a route come to.

## Theorems

* `login_exact`: Every login that is over was decided so.
* `token_opens`: Every request with a signed token was decided so.
* `changed_password`, `password_of_row`: The column of the password.
* `guarded_exact`: A route is decided at two moments.
-/

namespace RemoteControl.Technicians

open Concurrency Encoding Accounts

variable {host : Host} {jwt : Jwt} {calls : CallId → Operation} {sys : Calls} {l : List Entry}

/-! ## Passwords -/

/-- The password that a call was given to set. -/
def Operation.newPassword : Operation → Option String
  | .register _ dto => some dto.password
  | .bootstrapAdmin credentials => some credentials.password
  | .resetAdminPassword credentials => some credentials.password
  | _ => none

/-- The password of this account was set. -/
def Entry.setsPassword (e : Entry) (id : Uuid) : Bool :=
  match e.op with
  | .setPassword id' _ => decide (id' = id)
  | _ => (inserted e.op e.resp).any (fun row => decide (row.id = id))

/-- The password of the account that was set last. -/
def lastPassword (calls : CallId → Operation) (id : Uuid) : List Entry → Option String
  | [] => none
  | e :: l => if e.setsPassword id then (calls e.call).newPassword else lastPassword calls id l

/-- An operation leaves the password of a row, or is the one that sets it. -/
theorem changed_password (o : Op) (u : Accounts.User) :
    (changed o u).password = u.password ∧ (∀ password, o ≠ .setPassword u.id password) ∨
      ∃ password, o = .setPassword u.id password ∧ (changed o u).password = password := by
  unfold changed
  split
  · rename_i id password
    split
    · rename_i hid
      exact .inr ⟨password, by rw [hid], rfl⟩
    · rename_i hid
      refine .inl ⟨rfl, fun p hp => hid ?_⟩
      exact (Op.setPassword.inj hp).1.symm
  · refine .inl ⟨?_, by simp only [ne_eq, reduceCtorEq, not_false_eq_true, implies_true]⟩
    split <;> rfl
  · refine .inl ⟨?_, by simp only [ne_eq, reduceCtorEq, not_false_eq_true, implies_true]⟩
    split <;> rfl
  · rename_i hset _ _
    exact .inl ⟨rfl, fun p hp => hset _ _ hp⟩

/-- A password that was hashed. -/
theorem hashed_at (h : History host jwt calls l) {c : CallId} {plain password : String}
    {tr : List Step} (hown : own c l = ⟨.hashSync plain, password⟩ :: tr) :
    ∃ salt, password = hashPassword host plain salt := by
  rcases step_at hown with ⟨t, k, hk, _⟩
  rcases (h.fits _ k hk).answered with ⟨env, hr⟩
  exact ⟨env.salt, hr⟩

/-- Every row has a hash of the password that was set last. -/
theorem password_of_row (h : History host jwt calls l) {row : Accounts.User}
    (hrow : row ∈ (replay l).users.rows) : ∃ plain salt,
      lastPassword calls row.id l = some plain ∧ row.password = hashPassword host plain salt := by
  induction l generalizing row with
  | nil => simp only [replay, State.init, UserTable.empty, List.not_mem_nil] at hrow
  | cons e l ih =>
      have hbefore : History host jwt calls l := h.suffix (List.suffix_cons e l)
      have horder := h.orderly e l List.suffix_rfl
      rcases (mem_rows_effect (h.fits e l List.suffix_rfl)).mp hrow with ⟨v, hv, rfl⟩ | hnew
      · rw [changed_id]
        rcases changed_password e.op v with ⟨hsame, hother⟩ | ⟨password, hop, hset⟩
        · -- The row was there before this entry.
          -- A row that was there before is not inserted.
          have hno : e.setsPassword v.id = false := by
            unfold Entry.setsPassword
            split
            · rename_i id' password hop
              exact decide_eq_false (fun hid => hother password (hid ▸ hop))
            · refine Bool.eq_false_iff.mpr (fun hany => ?_)
              rw [Option.any_eq_true] at hany
              rcases hany with ⟨u, hu, hid⟩
              rcases inserted_new (h.fits e l List.suffix_rfl) hu with ⟨_, _, _, _, hfresh⟩
              exact hfresh v hv (of_decide_eq_true hid).symm
          rw [hsame, lastPassword, hno, if_neg Bool.false_ne_true]
          exact ih hbefore hv
        -- This entry sets the password, to the hash of what the call was given.
        · rcases e with ⟨c, t, o, r⟩
          cases hop
          rcases horder with ⟨credentials, user, hc, _, _, hown⟩
          rcases hashed_at hbefore hown with ⟨salt, hhash⟩
          have hc' : calls c = .resetAdminPassword credentials := hc
          refine ⟨credentials.password, salt, ?_, hset.trans hhash⟩
          simp only [lastPassword, Entry.setsPassword, decide_true, if_true, hc',
            Operation.newPassword]
      -- This entry inserts the row.
      · rcases inserted_new (h.fits e l List.suffix_rfl) hnew with ⟨draft, id, hop, hfields, _⟩
        rcases inserted_eq_some hnew with ⟨draft', hstep⟩
        rcases e with ⟨c, t, o, r⟩
        cases hstep
        cases hop
        have hlast : lastPassword calls row.id (⟨c, t, .save draft, .ok row⟩ :: l) =
            (calls c).newPassword := by
          simp only [lastPassword, Entry.setsPassword, inserted, Except.toOption, Option.any_some,
            decide_true, if_true]
        have hpassword : row.password = draft.password := by rw [hfields]; rfl
        rw [hlast, hpassword]
        rcases horder with ⟨bearer, dto, i, password, hc, _, rfl, hown⟩ |
            ⟨credentials, password, hc, rfl, hown⟩
        · rcases hashed_at hbefore hown with ⟨salt, hhash⟩
          have hc' : calls c = .register bearer dto := hc
          exact ⟨dto.password, salt, by rw [hc']; rfl, hhash⟩
        · rcases hashed_at hbefore hown with ⟨salt, hhash⟩
          have hc' : calls c = .bootstrapAdmin credentials := hc
          exact ⟨credentials.password, salt, by rw [hc']; rfl, hhash⟩

/-! ## Logins -/

/-- What a login comes to that reads the accounts now. -/
def logsIn (host : Host) (dto : LoginUserDto) (l : List Entry) : Except Thrown Accounts.User :=
  match (replay l).users.findByEmail dto.email with
  | none => .error (AuthService.unauthorized "Credentials are not valid")
  | some row =>
    if host.compareSync dto.password row.password = false then
      .error (AuthService.unauthorized "Credentials are not valid")
    else if row.isActive = false then
      .error (AuthService.unauthorized "User is inactive, talk with an admin")
    else .ok row

/-- The hash is one of the password that was set last. -/
def OfLast (host : Host) (calls : CallId → Operation) (l : List Entry) (row : Accounts.User) :
    Prop :=
  ∃ plain salt, lastPassword calls row.id l = some plain ∧
    row.password = hashPassword host plain salt

/-- What somebody gets who has logged in: the account, and a token that was
    signed for it. -/
def LoggedIn (l : List Entry) (c : CallId) (row : Accounts.User)
    (result : Except Thrown Reply) : Prop :=
  ∃ t token, (⟨c, t, .sign row.id, token⟩ : Entry) ∈ l ∧
    result = .ok (.login (loginResponse row token))

/-- The checks of the code, in the order it makes them. -/
theorem logsIn_eq (dto : LoginUserDto) : logsIn host dto l =
    match loginError host dto ((replay l).users.findByEmail dto.email) with
    | some e => .error e
    | none => match (replay l).users.findByEmail dto.email with
      | none => .error (AuthService.unauthorized "Credentials are not valid")
      | some row => .ok row := by
  unfold logsIn loginError
  cases (replay l).users.findByEmail dto.email with
  | none => rfl
  | some row =>
      by_cases hmatches : host.compareSync dto.password row.password = false
      · simp only [hmatches, if_true]
      · by_cases hactive : row.isActive = false
        · simp only [hmatches, hactive, if_true]
          rfl
        · simp only [hmatches, hactive]
          rfl

/-- Every login that is over was decided at one moment, when it read the
    account: by whether there was one with this address, whether the password
    compares with the hash of the one set last, and whether it was active. -/
theorem login_exact (h : Reachable host jwt calls sys) {c : CallId} {dto : LoginUserDto}
    (hc : calls c = .login dto) {result : Except Thrown Reply}
    (hover : sys.threads c = .over result) : ∃ t k,
      (⟨c, t, .findByEmail dto.email, (replay k).users.findByEmail dto.email⟩ : Entry) :: k <:+
        sys.shared.log ∧
      (∀ row, (replay k).users.findByEmail dto.email = some row → OfLast host calls k row) ∧
      ((∃ e, logsIn host dto k = .error e ∧ result = .error e) ∨
        ∃ row, logsIn host dto k = .ok row ∧ LoggedIn sys.shared.log c row result) := by
  have hhistory := h.history
  -- Whatever the login has read, its hash is of the password set last.
  have hlast : ∀ {k : List Entry}, k <:+ sys.shared.log → ∀ row,
      (replay k).users.findByEmail dto.email = some row → OfLast host calls k row :=
    fun hk row hrow =>
      password_of_row (hhistory.suffix hk) (UserTable.findByEmail_eq_some.mp hrow).1
  cases result with
  | error e =>
      have hend := failed h hover
      rw [hc] at hend
      rcases hend with ⟨user, hown, herror⟩
      rcases step_at hown with ⟨t, k, hk, _⟩
      rcases (hhistory.fits _ k hk).answered with ⟨_, hr⟩
      have hr' : user = (replay k).users.findByEmail dto.email := hr
      subst hr'
      refine ⟨t, k, hk, hlast ((List.suffix_cons _ k).trans hk), .inl ⟨e, ?_, rfl⟩⟩
      rw [logsIn_eq, herror]
  | ok reply =>
      have hend := returned h hover
      rw [hc] at hend
      rcases hend with ⟨row, token, haccepts, hown, rfl⟩
      rcases step_at hown with ⟨t', ks, hks, hrest⟩
      rcases step_at hrest with ⟨t, k, hk, _⟩
      have hkl := hk.trans ((List.suffix_cons _ ks).trans hks)
      rcases (hhistory.fits _ k hkl).answered with ⟨_, hr⟩
      have hr' : some row = (replay k).users.findByEmail dto.email := hr
      refine ⟨t, k, hr' ▸ hkl, hlast ((List.suffix_cons _ k).trans hkl),
        .inr ⟨row, ?_, t', token, mem_of_suffix hks, rfl⟩⟩
      rw [logsIn_eq, ← hr']
      simp only [loginError, haccepts.1, haccepts.2, Bool.true_eq_false, if_false]

/-- Ana logs in with the password of her registration. -/
theorem login_exact_office : ∃ sys k row result, Reachable plainHost unaryJwt office sys ∧
    sys.threads 1 = .over result ∧ logsIn plainHost ⟨"ana@example.com", "Secreta1"⟩ k = .ok row ∧
    LoggedIn sys.shared.log 1 row result := by
  have hrun : ((follow (exec plainHost unaryJwt) (boot plainHost office)
      (oneAfterTheOther.take 10)).any (fun sys => (sys.threads 1).returned.isSome)) = true := by
    decide +kernel
  rw [Option.any_eq_true] at hrun
  rcases hrun with ⟨sys, hfollow, hp⟩
  rcases Option.isSome_iff_exists.mp hp with ⟨reply, hret⟩
  have hreach : Reachable plainHost unaryJwt office sys := run_of_follow _ _ _ hfollow
  have hover : sys.threads 1 = .over (.ok reply) := Prog.returned_eq_some.mp hret
  rcases login_exact hreach rfl hover with ⟨_, k, _, _, ⟨e, _, heq⟩ | ⟨row, hok, hin⟩⟩
  · cases heq
  · exact ⟨sys, k, row, _, hreach, hover, hok, hin⟩

/-! ## Guarded routes -/

end RemoteControl.Technicians

import RemoteControl.Concurrency.Ledger
import RemoteControl.Core.Technicians

/-!
# What a Call of the Technicians has Done

The operations of a call with their answers, newest first. The handlers are
short, so what a call has done before each of its operations is written down
step by step, from its beginning on. What the order of these steps is in the
history of all calls follows from that (`step_at`).

A token says who is asking. It was verified, and the user it names was read
and found active (`Identification`): the guards of a route have then let the
request through (`Passes`), or the middleware of the namespace has let the
socket in (`Presents`).

A lemma whose name ends in `_along` follows one program of the source, and its
statement is the trace that the program leaves, on its normal end and on its
error. The guards of a route and the middleware of the namespace share the
reading of a user (`validate_along`), with what becomes of a missing or an
inactive one left to each. The order of the steps is put into `InOrder` as an
equation for the whole trace wherever the source has a fixed sequence, so a
later proof can take the trace apart step by step.

## Main definitions

* `own`: The steps of a call.
* `Identification`: A token, the user it names, and that it was active.
* `InOrder`: What a call has done before its next operation.
* `Returned`, `Failed`: What it has done when it is over.

## Theorems

* `handle_along`: Every handler keeps to it.
* `orderly`, `returned`, `failed`: So does every run.
* `step_at`, `did_at`: The steps of a call in the history.
-/

namespace RemoteControl.Technicians

open Concurrency Encoding Accounts

/-! ## Steps -/

/-- An operation with its answer. -/
abbrev Step := (o : Op) × Resp o

def Entry.step (e : Entry) : Step := ⟨e.op, e.resp⟩

/-- What a call has done. -/
def own (c : CallId) (l : List Entry) : List Step := (marksOf Entry.call c l).map Entry.step

/-- An operation leaves itself with its answer. -/
def Leaves (o : Op) (r : Resp o) (m : Step) : Prop := m = ⟨o, r⟩

section Own

variable {c : CallId} {e : Entry} {l l' : List Entry} {o : Op} {r : Resp o}

/-- An entry of the call is its newest step. -/
theorem own_self (h : e.call = c) : own c (e :: l) = e.step :: own c l := by
  rw [own, marksOf_own h, List.map_cons]
  rfl

/-- An entry of another call is none of its steps. -/
theorem own_other (h : e.call ≠ c) : own c (e :: l) = own c l := by
  rw [own, marksOf_other h]
  rfl

/-- The steps up to some point are the older ones. -/
theorem own_suffix (h : l' <:+ l) : own c l' <:+ own c l := (marksOf_suffix h).map _

/-- Where in the history the newest step of a call is. -/
theorem step_at {m : Step} {tr : List Step} (h : own c l = m :: tr) :
    ∃ t l', (⟨c, t, m.1, m.2⟩ : Entry) :: l' <:+ l ∧ own c l' = tr := by
  rcases List.map_eq_cons_iff.mp h with ⟨⟨d, t, o, r⟩, rest, hmarks, rfl, rfl⟩
  rcases marksOf_cons hmarks with ⟨l', hl', hrest, rfl⟩
  exact ⟨t, l', hl', congrArg (List.map Entry.step) hrest⟩

/-- The older steps of a call are those before some point. -/
theorem steps_at {newer older : List Step} (h : own c l = newer ++ older) :
    ∃ l', l' <:+ l ∧ own c l' = older := by
  rcases List.map_eq_append_iff.mp h with ⟨newer', older', hmarks, rfl, rfl⟩
  rcases marksOf_append hmarks with ⟨l', hl', holder⟩
  exact ⟨l', hl', congrArg (List.map Entry.step) holder⟩

/-- Where in the history a step was taken. -/
theorem did_at (h : (⟨o, r⟩ : Step) ∈ own c l) : ∃ t l', (⟨c, t, o, r⟩ : Entry) :: l' <:+ l := by
  rcases List.mem_map.mp h with ⟨⟨d, t, o', r'⟩, hmem, heq⟩
  rcases mem_marksOf.mp hmem with ⟨hin, rfl⟩
  cases heq
  rcases exists_suffix hin with ⟨l', hl'⟩
  exact ⟨t, l', hl'⟩

/-- An entry of the call is one of its steps. -/
theorem did_of_mem {t : Timestamp} (h : (⟨c, t, o, r⟩ : Entry) ∈ l) :
    (⟨o, r⟩ : Step) ∈ own c l :=
  List.mem_map.mpr ⟨_, mem_marksOf.mpr ⟨h, rfl⟩, rfl⟩

end Own

/-- The token that was signed, and the user it was signed for. -/
def Entry.signed (e : Entry) : Option (String × Uuid) :=
  match e.op, e.resp with
  | .sign id, (token : String) => some (token, id)
  | _, _ => none

/-- An entry that has signed a token is that of a signature. -/
theorem signed_eq_some {e : Entry} {token : String} {id : Uuid} (h : e.signed = some (token, id)) :
    e = ⟨e.call, e.time, .sign id, token⟩ := by
  rcases e with ⟨c, t, o, r⟩
  unfold Entry.signed at h
  split at h
  · rename_i ho hr
    simp only [Option.some.injEq, Prod.mk.injEq] at h
    rcases h with ⟨rfl, rfl⟩
    cases ho
    cases hr
    rfl
  · cases h

/-! ## Who is asking -/

/-- A token that was verified, the identifier it was found to say, and the
    user that was read under it. -/
structure Identification where
  token : String
  id : Uuid
  user : SelectedUser
  active : user.isActive = true

/-- The token was verified, and then the user was read. -/
def Identification.steps (i : Identification) : List Step :=
  [⟨.findOneBy i.id, some i.user⟩, ⟨.verify i.token, some i.id⟩]

/-- What is stored on a socket. -/
def Identification.context (i : Identification) : TechnicianSocketContext :=
  { userId := i.user.id, roles := i.user.roles }

/-- The roles and the token that a route is guarded with. -/
def Operation.guard : Operation → Option (List ValidRoles × Option String)
  | .register bearer _ => some ([.admin], bearer)
  | .checkStatus bearer => some ([], bearer)
  | .request roles bearer => some (roles, bearer)
  | _ => none

/-- The guards of the route let the request through. -/
def Passes (op : Operation) (i : Identification) : Prop :=
  ∃ roles, op.guard = some (roles, some i.token) ∧ UserRoleGuard.allows roles i.user = true

/-- They have let it through. -/
def passed (i : Identification) : List Step := ⟨.authorized i.user, ()⟩ :: i.steps

/-- The middleware of the namespace lets the socket in. -/
def Presents (op : Operation) (socket : SocketId) (i : Identification) : Prop :=
  ∃ auth, op = .connect socket auth ∧ TechniciansGateway.extractToken auth = some i.token ∧
    TechniciansGateway.isTechnician i.user = true

/-- The socket has been identified. -/
def identified (socket : SocketId) (i : Identification) : List Step :=
  i.steps ++ [⟨.open socket, ()⟩]

/-- The identity is stored on the socket. -/
def admitted (socket : SocketId) (i : Identification) : List Step :=
  ⟨.setTechnician socket i.context, ()⟩ :: identified socket i

/-- The socket is connected, and what is stored on it was read. -/
def connected (socket : SocketId) (i : Identification)
    (found : Option TechnicianSocketContext) : List Step :=
  ⟨.technician socket, found⟩ :: ⟨.next socket, true⟩ :: admitted socket i

/-- Why a socket is turned away: it shows no token, or one that is not
    verified, or of nobody, or of a user who is inactive or not a technician. -/
inductive Rejected (socket : SocketId) (auth : List (String × Json)) : List Step → Prop where
  | noToken (h : TechniciansGateway.extractToken auth = none) :
      Rejected socket auth [⟨.open socket, ()⟩]
  | notVerified (token : String) (h : TechniciansGateway.extractToken auth = some token) :
      Rejected socket auth [⟨.verify token, none⟩, ⟨.open socket, ()⟩]
  | nobody (token : String) (id : Uuid)
      (h : TechniciansGateway.extractToken auth = some token) :
      Rejected socket auth
        [⟨.findOneBy id, none⟩, ⟨.verify token, some id⟩, ⟨.open socket, ()⟩]
  | notAllowed (token : String) (id : Uuid) (user : SelectedUser)
      (h : TechniciansGateway.extractToken auth = some token)
      (hno : (user.isActive && TechniciansGateway.isTechnician user) = false) :
      Rejected socket auth
        [⟨.findOneBy id, some user⟩, ⟨.verify token, some id⟩, ⟨.open socket, ()⟩]

/-! ## The other operations -/

/-- The account that is created for a request. -/
def newUser (dto : CreateUserDto) (password : String) : UserDraft :=
  { email := dto.email, password, fullName := dto.fullName, isActive := true
    roles := (dto.roles.map List.eraseDups).getD [.user] }

/-- The account that is created from the console. -/
def newAdmin (host : Host) (credentials : BootstrapAdminCredentials) (password : String) :
    UserDraft :=
  { email := BootstrapAdmin.normalizeEmail host credentials.email, password
    fullName := credentials.fullName, isActive := true, roles := [.admin] }

/-- An account was to be saved on behalf of an administrator. -/
def registering (dto : CreateUserDto) (i : Identification) (password : String)
    (saved : Except DriverError Accounts.User) : List Step :=
  ⟨.save (newUser dto password), saved⟩ :: ⟨.hashSync dto.password, password⟩ :: passed i

/-- There was no administrator, and nobody with the address. -/
def bootstrapping (host : Host) (credentials : BootstrapAdminCredentials) (password : String) :
    List Step :=
  [⟨.hashSync credentials.password, password⟩,
    ⟨.findByEmail (BootstrapAdmin.normalizeEmail host credentials.email), none⟩,
    ⟨.countAdmins, (0 : Nat)⟩]

/-- An administrator was found. -/
def resetting (host : Host) (credentials : ResetAdminPasswordCredentials) (user : Accounts.User)
    (password : String) : List Step :=
  [⟨.hashSync credentials.password, password⟩,
    ⟨.findByEmail (ResetAdminPassword.normalizeEmail host credentials.email), some user⟩]

/-- The password is the one of the account, which is active. -/
def Accepts (host : Host) (dto : LoginUserDto) (user : Accounts.User) : Prop :=
  host.compareSync dto.password user.password = true ∧ user.isActive = true

section InOrder

variable (host : Host) (op : Operation) (tr : List Step)

/-- An account is created for an administrator, or as the first one. -/
def MaySave (draft : UserDraft) : Prop :=
  (∃ bearer dto i password, op = .register bearer dto ∧ Passes op i ∧
    draft = newUser dto password ∧ tr = ⟨.hashSync dto.password, password⟩ :: passed i) ∨
  (∃ credentials password, op = .bootstrapAdmin credentials ∧
    draft = newAdmin host credentials password ∧ tr = bootstrapping host credentials password)

/-- A token is for a new account, or for whoever has logged in, or is given
    for another one. -/
def MaySign (id : Uuid) : Prop :=
  (∃ bearer dto i password row, op = .register bearer dto ∧ Passes op i ∧ id = row.id ∧
    tr = registering dto i password (.ok row)) ∨
  (∃ dto user, op = .login dto ∧ Accepts host dto user ∧ id = user.id ∧
    tr = [⟨.findByEmail dto.email, some user⟩]) ∨
  (∃ bearer i, op = .checkStatus bearer ∧ Passes op i ∧ id = i.user.id ∧ tr = passed i)

/-- A connected socket enters its own room, and after it the room of all. -/
def MayJoin (socket : SocketId) (room : String) : Prop :=
  ∃ i context, Presents op socket i ∧
    ((room = technicianRoom context.userId ∧ tr = connected socket i (some context)) ∨
    (room = allTechniciansRoom ∧ tr = ⟨.joinRoom socket (technicianRoom context.userId), ()⟩ ::
      connected socket i (some context)))

/-- What a call has done before an operation of it. The trace has the steps so
    far, newest first; what is read or computed without an effect may come
    anywhere. -/
def InOrder : Op → Prop
  | .authorized user => ∃ i, Passes op i ∧ user = i.user ∧ tr = i.steps
  | .save draft => MaySave host op tr draft
  | .sign id => MaySign host op tr id
  | .setPassword id password => ∃ credentials user, op = .resetAdminPassword credentials ∧
    user.isAdmin = true ∧ id = user.id ∧ tr = resetting host credentials user password
  | .open socket => (∃ auth, op = .connect socket auth) ∧ tr = []
  | .setTechnician socket context =>
    ∃ i, Presents op socket i ∧ context = i.context ∧ tr = identified socket i
  | .next socket => ∃ i, Presents op socket i ∧ tr = admitted socket i
  | .technician socket => ∃ i, Presents op socket i ∧
    tr = ⟨.next socket, true⟩ :: admitted socket i
  | .refuse socket => ∃ auth, op = .connect socket auth ∧ Rejected socket auth tr
  | .joinRoom socket room => MayJoin op tr socket room
  | .disconnect socket => op = .disconnect socket ∨
    ∃ i, Presents op socket i ∧ tr = connected socket i none
  | .bind => op = .afterInit
  | .emit room message => (∃ id, op = .emitToTechnician id message ∧ room = technicianRoom id) ∨
    (op = .emitToAllTechnicians message ∧ room = allTechniciansRoom)
  | .setActive id isActive => op = .setActive id isActive
  | .setRoles id roles => op = .setRoles id roles
  | _ => True

/-- A connection that is over: the socket was turned away, or was gone before
    it was connected, or has gone through. -/
inductive Connection (socket : SocketId) (auth : List (String × Json)) : List Step → Prop where
  | refused (tr : List Step) (h : Rejected socket auth tr) :
      Connection socket auth (⟨.refuse socket, ()⟩ :: tr)
  | gone (i : Identification) (h : Presents op socket i) :
      Connection socket auth (⟨.next socket, false⟩ :: admitted socket i)
  | stranger (i : Identification) (h : Presents op socket i) :
      Connection socket auth (⟨.disconnect socket, ()⟩ :: connected socket i none)
  | joined (i : Identification) (h : Presents op socket i) (context : TechnicianSocketContext) :
      Connection socket auth (⟨.joinRoom socket allTechniciansRoom, ()⟩ ::
        ⟨.joinRoom socket (technicianRoom context.userId), ()⟩ ::
        connected socket i (some context))

/-- The account with a token. -/
def loginResponse (user : Accounts.User) (token : String) : LoginResponse :=
  { id := user.id, email := user.email, fullName := user.fullName, roles := user.roles
    isActive := user.isActive, token }

/-- What a call has done that has returned. -/
def Returned (reply : Reply) : Prop :=
  match op with
  | .register _ dto => ∃ i password row token, Passes op i ∧
    tr = ⟨.sign row.id, token⟩ :: registering dto i password (.ok row)
  | .login dto => ∃ user token, Accepts host dto user ∧
    tr = [⟨.sign user.id, token⟩, ⟨.findByEmail dto.email, some user⟩] ∧
    reply = .login (loginResponse user token)
  | .checkStatus _ => ∃ i token, Passes op i ∧ tr = ⟨.sign i.user.id, token⟩ :: passed i
  | .request _ _ => ∃ i, Passes op i ∧ tr = passed i ∧ reply = .done
  | .connect socket auth => Connection op socket auth tr
  | _ => True

/-- Why a login fails. -/
def loginError (host : Host) (dto : LoginUserDto) (user : Option Accounts.User) : Option Thrown :=
  match user with
  | none => some (AuthService.unauthorized "Credentials are not valid")
  | some user =>
    if host.compareSync dto.password user.password = false then
      some (AuthService.unauthorized "Credentials are not valid")
    else if user.isActive = false then
      some (AuthService.unauthorized "User is inactive, talk with an admin")
    else none

/-- What somebody is told who has none of the roles. -/
def missingRole (roles : List ValidRoles) (user : SelectedUser) : Thrown :=
  .http (.forbidden ("User " ++ user.fullName ++ " needs one of these roles: [" ++
    ", ".intercalate (roles.map UserRoleGuard.roleName) ++ "]"))

/-- Why the guards of a route turn a request away. -/
inductive TurnedAway (roles : List ValidRoles) : Option String → List Step → Thrown → Prop where
  | noToken : TurnedAway roles none [] (AuthService.unauthorized "Unauthorized")
  | notVerified (token : String) : TurnedAway roles (some token) [⟨.verify token, none⟩]
      (AuthService.unauthorized "Unauthorized")
  | nobody (token : String) (id : Uuid) : TurnedAway roles (some token)
      [⟨.findOneBy id, none⟩, ⟨.verify token, some id⟩] (AuthService.unauthorized "Token not valid")
  | inactive (token : String) (id : Uuid) (user : SelectedUser) (h : user.isActive = false) :
      TurnedAway roles (some token) [⟨.findOneBy id, some user⟩, ⟨.verify token, some id⟩]
        (AuthService.unauthorized "User is inactive, talk with an admin ")
  | forbidden (i : Identification) (h : UserRoleGuard.allows roles i.user = false) :
      TurnedAway roles (some i.token) i.steps (missingRole roles i.user)

/-- What a call has done that has failed. -/
def Failed (e : Thrown) : Prop :=
  match op with
  | .register bearer dto => TurnedAway [.admin] bearer tr e ∨ ∃ i password error, Passes op i ∧
    tr = registering dto i password (.error error) ∧
    e = .http (Accounts.AuthService.handleDBError error)
  | .login dto => ∃ user, tr = [⟨.findByEmail dto.email, user⟩] ∧ loginError host dto user = some e
  | .checkStatus bearer => TurnedAway [] bearer tr e
  | .request roles bearer => TurnedAway roles bearer tr e
  | .connect _ _ => False
  | _ => True

end InOrder

/-! ## The handlers -/

variable {host : Host} {op : Operation} {tr : List Step}

/-- Where the program goes from here, every operation is in order, and it ends
    in `Q` or `E`. -/
def Keeps {α : Type} (host : Host) (op : Operation) (Q : List Step → α → Prop)
    (E : List Step → Thrown → Prop) (p : Service α) (tr : List Step) : Prop :=
  p.Along Leaves (InOrder host op) Q E tr

section Keeps

variable {α β : Type} {Q : List Step → α → Prop} {E : List Step → Thrown → Prop}

/-- An operation in order, and what comes after its answer. -/
theorem Keeps.ask {o : Op} {k : Resp o → Service α} (ho : InOrder host op tr o)
    (hk : ∀ r, Keeps host op Q E (k r) (⟨o, r⟩ :: tr)) : Keeps host op Q E (.op o k) tr := by
  refine ⟨ho, fun r m hm => ?_⟩
  rw [hm]
  exact hk r

/-- A statement in order, at the head of a sequence. -/
theorem Keeps.statement {o : Op} {k : Resp o → Service α} (ho : InOrder host op tr o)
    (hk : ∀ r, Keeps host op Q E (k r) (⟨o, r⟩ :: tr)) :
    Keeps host op Q E ((Technicians.statement o).bind k) tr :=
  Keeps.ask ho (fun r => hk r)

/-- Sequencing. -/
theorem Keeps.bind {p : Service α} {f : α → Service β} {Q' : List Step → β → Prop}
    (h : Keeps host op Q E p tr) (hf : ∀ tr a, Q tr a → Keeps host op Q' E (f a) tr) :
    Keeps host op Q' E (p.bind f) tr := Prog.Along.bind h hf

/-- A function of the result. -/
theorem Keeps.map {p : Service α} {f : α → β} {Q' : List Step → β → Prop}
    (h : Keeps host op (fun tr a => Q' tr (f a)) E p tr) : Keeps host op Q' E (f <$> p) tr :=
  Keeps.bind h (fun _ _ hQ => hQ)

/-- A check: it throws, or the program goes on. -/
theorem Keeps.throwIf {reason : Bool} {e : Thrown} {k : Unit → Service α}
    (hthrow : reason = true → E tr e) (hk : reason = false → Keeps host op Q E (k ()) tr) :
    Keeps host op Q E ((Technicians.throwIf reason e).bind k) tr := by
  cases reason with
  | false => exact hk rfl
  | true => exact hthrow rfl

end Keeps

section Handlers

variable {α : Type} {Q : List Step → α → Prop} {E : List Step → Thrown → Prop}

/-- Reading the user of a token. What becomes of it is left to the caller. The
    token has been verified by then, and the row that is read is that of the user
    it names. -/
theorem validate_along {id : Uuid}
    (hnobody : E (⟨.findOneBy id, none⟩ :: tr) (AuthService.unauthorized "Token not valid"))
    (hinactive : ∀ user, user.isActive = false → E (⟨.findOneBy id, some user⟩ :: tr)
      (AuthService.unauthorized "User is inactive, talk with an admin "))
    {k : SelectedUser → Service α}
    (hk : ∀ user, user.isActive = true → Keeps host op Q E (k user)
      (⟨.findOneBy id, some user⟩ :: tr)) :
    Keeps host op Q E ((AuthService.validateJwtPayload id).bind k) tr := by
  refine Keeps.statement trivial (fun (user : Option SelectedUser) => ?_)
  cases user with
  | none => exact hnobody
  | some user =>
      change Keeps host op Q E (((throwIf (!user.isActive) _).bind (fun _ => .ret user)).bind k) _
      -- The check and what comes after it are one sequence.
      rw [Prog.bind_assoc]
      refine Keeps.throwIf (fun h => hinactive user ?_) (fun h => hk user ?_)
      · simpa only [Bool.not_eq_true'] using h
      · simpa only [Bool.not_eq_false'] using h

/-- A route that is guarded. -/
theorem auth_along {roles : List ValidRoles} {bearer : Option String}
    {handler : SelectedUser → Service α} (hguard : op.guard = some (roles, bearer))
    (hE : ∀ tr e, TurnedAway roles bearer tr e → E tr e)
    (hQ : ∀ i, Passes op i → Keeps host op Q E (handler i.user) (passed i)) :
    Keeps host op Q E (auth roles bearer handler) [] := by
  cases bearer with
  | none => exact hE _ _ .noToken
  | some token =>
      refine Keeps.statement trivial (fun (payload : Option Uuid) => ?_)
      cases payload with
      | none => exact hE _ _ (.notVerified token)
      | some id =>
          refine validate_along (hE _ _ (.nobody token id))
            (fun user h => hE _ _ (.inactive token id user h)) (fun user h => ?_)
          refine Keeps.throwIf (fun hno => ?_) (fun hallows => ?_)
          · refine hE _ _ (.forbidden ⟨token, id, user, h⟩ ?_)
            simpa only [Bool.not_eq_true'] using hno
          · -- The guards have let the request through.
            have hpasses : Passes op ⟨token, id, user, h⟩ :=
              ⟨roles, hguard, by simpa only [Bool.not_eq_false'] using hallows⟩
            exact Keeps.ask ⟨_, hpasses, rfl, rfl⟩ (fun _ => hQ _ hpasses)

end Handlers

/-- A registration: an administrator is asked for, the password is hashed, the
    account is saved and given a token. -/
theorem register_along {bearer : Option String} {dto : CreateUserDto} :
    Keeps host (.register bearer dto) (Returned host (.register bearer dto))
      (Failed host (.register bearer dto)) (handle host (.register bearer dto)) [] := by
  refine auth_along rfl (fun _ _ h => .inl h) (fun i hpasses => Keeps.map ?_)
  refine Keeps.ask trivial (fun (password : String) => ?_)
  refine Keeps.statement (.inl ⟨bearer, dto, i, password, rfl, hpasses, rfl, rfl⟩)
    (fun (saved : Except DriverError Accounts.User) => ?_)
  cases saved with
  | error error => exact .inr ⟨i, password, error, hpasses, rfl, rfl⟩
  | ok row =>
      exact Keeps.ask (.inl ⟨bearer, dto, i, password, row, rfl, hpasses, rfl, rfl⟩)
        (fun (token : String) => ⟨i, password, row, token, hpasses, rfl⟩)

/-- A login: the account is looked up by its address, the password is compared,
    and only then is it checked that the account is active. -/
theorem login_along {dto : LoginUserDto} : Keeps host (.login dto) (Returned host (.login dto))
    (Failed host (.login dto)) (handle host (.login dto)) [] := by
  refine Keeps.map (Keeps.statement trivial (fun (user : Option Accounts.User) => ?_))
  cases user with
  | none => exact ⟨none, rfl, rfl⟩
  | some user =>
      refine Keeps.throwIf (fun hno => ⟨some user, rfl, ?_⟩) (fun hpassword => ?_)
      · simp only [Bool.not_eq_true'] at hno
        simp only [loginError, hno, if_true]
      · -- The password is the account's own.
        simp only [Bool.not_eq_false'] at hpassword
        refine Keeps.throwIf (fun hno => ⟨some user, rfl, ?_⟩) (fun hactive => ?_)
        · simp only [Bool.not_eq_true'] at hno
          simp only [loginError, hpassword, hno, Bool.true_eq_false, if_true, if_false]
        · simp only [Bool.not_eq_false'] at hactive
          exact Keeps.ask (.inr (.inl ⟨dto, user, rfl, ⟨hpassword, hactive⟩, rfl, rfl⟩))
            (fun (token : String) => ⟨user, token, ⟨hpassword, hactive⟩, rfl, rfl⟩)

/-- A check of the status: a new token for whoever has shown one. -/
theorem checkStatus_along {bearer : Option String} :
    Keeps host (.checkStatus bearer) (Returned host (.checkStatus bearer))
      (Failed host (.checkStatus bearer)) (handle host (.checkStatus bearer)) [] := by
  refine auth_along rfl (fun _ _ h => h) (fun i hpasses => Keeps.map ?_)
  exact Keeps.ask (.inr (.inr ⟨bearer, i, rfl, hpasses, rfl, rfl⟩))
    (fun (token : String) => ⟨i, token, hpasses, rfl⟩)

/-- The middleware of the namespace. -/
theorem authenticate_along {socket : SocketId} {auth : List (String × Json)} :
    Keeps host (.connect socket auth)
      (fun tr _ => ∃ i, Presents (.connect socket auth) socket i ∧ tr = admitted socket i)
      (fun tr _ => Rejected socket auth tr) (TechniciansGateway.authenticate socket auth)
      [⟨.open socket, ()⟩] := by
  unfold TechniciansGateway.authenticate
  split
  · rename_i hnone
    exact .noToken hnone
  · rename_i token htoken
    refine Keeps.statement trivial (fun (payload : Option Uuid) => ?_)
    cases payload with
    | none => exact .notVerified token htoken
    | some id =>
        refine validate_along (.nobody token id htoken)
          (fun user h => .notAllowed token id user htoken ?_) (fun user h => ?_)
        -- The user is active, and has one of the roles or not.
        · refine Keeps.throwIf (fun hno => .notAllowed token id user htoken ?_)
            (fun htechnician => ?_)
          · rw [h, Bool.true_and]
            simpa only [Bool.not_eq_true'] using hno
          · have hpresents : Presents (.connect socket auth) socket ⟨token, id, user, h⟩ :=
              ⟨auth, rfl, htoken, by simpa only [Bool.not_eq_false'] using htechnician⟩
            exact Keeps.ask ⟨_, hpresents, rfl, rfl⟩ (fun _ => ⟨_, hpresents, rfl⟩)
        · rw [h, Bool.false_and]

/-- A connection: the middleware lets the socket in or turns it away, and a socket
    that was let in and is still there enters its rooms. -/
theorem connect_along {socket : SocketId} {auth : List (String × Json)} :
    Keeps host (.connect socket auth) (Returned host (.connect socket auth))
      (Failed host (.connect socket auth)) (handle host (.connect socket auth)) [] := by
  refine Keeps.map (Keeps.ask ⟨⟨auth, rfl⟩, rfl⟩ (fun _ => ?_))
  -- What the middleware leaves, on either answer.
  refine Keeps.bind (Q := fun tr accepted =>
    (accepted = true ∧ ∃ i, Presents (.connect socket auth) socket i ∧ tr = admitted socket i) ∨
    (accepted = false ∧ Rejected socket auth tr)) ?_ ?_
  · refine Prog.Along.onError (Keeps.map (Prog.Along.conseq authenticate_along
      (fun tr _ h => .inl ⟨rfl, h⟩) (fun _ _ h => h))) (fun tr _ h => .inr ⟨rfl, h⟩)
  · rintro tr accepted (⟨rfl, i, hpresents, rfl⟩ | ⟨rfl, hrejected⟩)
    · refine Keeps.ask ⟨i, hpresents, rfl⟩ (fun (present : Bool) => ?_)
      -- The socket may have gone while it was waiting.
      cases present with
      | false => exact .gone i hpresents
      | true =>
          refine Keeps.ask ⟨i, hpresents, rfl⟩
            (fun (found : Option TechnicianSocketContext) => ?_)
          cases found with
          | none =>
              exact Keeps.ask (.inr ⟨i, hpresents, rfl⟩) (fun _ => .stranger i hpresents)
          | some context =>
              refine Keeps.ask ⟨i, context, hpresents, .inl ⟨rfl, rfl⟩⟩ (fun _ => ?_)
              exact Keeps.ask ⟨i, context, hpresents, .inr ⟨rfl, rfl⟩⟩
                (fun _ => .joined i hpresents context)
    · exact Keeps.ask ⟨auth, rfl, hrejected⟩ (fun _ => .refused tr hrejected)

/-- An event for a room. -/
theorem emitTo_along {room : String} {message : Message}
    (h : InOrder host op [⟨.isBound, true⟩] (.emit room message)) :
    Keeps host op (fun _ _ => True) (fun _ _ => True)
      (TechnicianRealtimeService.emitTo room message) [] := by
  refine Keeps.ask trivial (fun (target : Bool) => ?_)
  cases target with
  | false => trivial
  | true => exact Keeps.ask h (fun _ => trivial)

/-- The first administrator is created only if there is none, and nobody with the
    address. -/
theorem bootstrapAdmin_along {credentials : BootstrapAdminCredentials} :
    Keeps host (.bootstrapAdmin credentials) (fun _ _ => True) (fun _ _ => True)
      (Technicians.bootstrapAdmin host credentials) [] := by
  refine Keeps.statement trivial (fun (admins : Nat) => ?_)
  by_cases hadmins : admins > 0
  · rw [if_pos hadmins]
    trivial
  · rw [if_neg hadmins]
    have hnone : admins = 0 := by omega
    subst hnone
    refine Keeps.statement trivial (fun (existingUser : Option Accounts.User) => ?_)
    cases existingUser with
    | some user => trivial
    | none =>
        refine Keeps.ask trivial (fun (password : String) => ?_)
        refine Keeps.statement (.inr ⟨credentials, password, rfl, rfl, rfl⟩)
          (fun (saved : Except DriverError Accounts.User) => ?_)
        cases saved with
        | error error => trivial
        | ok row => trivial

/-- A password is reset only for an administrator. -/
theorem resetAdminPassword_along {credentials : ResetAdminPasswordCredentials} :
    Keeps host (.resetAdminPassword credentials) (fun _ _ => True) (fun _ _ => True)
      (Technicians.resetAdminPassword host credentials) [] := by
  refine Keeps.statement trivial (fun (user : Option Accounts.User) => ?_)
  cases user with
  | none => trivial
  | some user =>
      by_cases hadmin : user.isAdmin = false
      · simp only [hadmin, if_true]
        trivial
      · simp only [hadmin]
        refine Keeps.ask trivial (fun (password : String) => ?_)
        exact Keeps.statement ⟨credentials, user, rfl, Bool.not_eq_false _ ▸ hadmin, rfl, rfl⟩
          (fun _ => trivial)

/-- Every handler keeps to the order. -/
theorem handle_along : Keeps host op (Returned host op) (Failed host op) (handle host op) [] := by
  cases op with
  | register bearer dto => exact register_along
  | login dto => exact login_along
  | checkStatus bearer => exact checkStatus_along
  | request roles bearer => exact auth_along rfl (fun _ _ h => h) (fun i h => ⟨i, h, rfl, rfl⟩)
  | connect socket auth => exact connect_along
  | disconnect socket => exact Keeps.map (Keeps.ask (.inl rfl) (fun _ => trivial))
  | afterInit => exact Keeps.map (Keeps.ask rfl (fun _ => trivial))
  | emitToTechnician id message => exact Keeps.map (emitTo_along (.inl ⟨id, rfl, rfl⟩))
  | emitToAllTechnicians message => exact Keeps.map (emitTo_along (.inr ⟨rfl, rfl⟩))
  | bootstrapAdmin credentials => exact Keeps.map bootstrapAdmin_along
  | resetAdminPassword credentials => exact Keeps.map resetAdminPassword_along
  | setActive id isActive => exact Keeps.map (Keeps.ask rfl (fun _ => trivial))
  | setRoles id roles => exact Keeps.map (Keeps.ask rfl (fun _ => trivial))

/-! ## Runs -/

section Runs

variable {jwt : Jwt} {calls : CallId → Operation} {sys : Calls} {c : CallId}

/-- What an operation does to the world: the clock advances, the state changes,
    and the history has one entry more. -/
theorem exec_eq_some {c : CallId} {env : Env} {o : Op} {w w' : World} {r : Resp o}
    (h : exec host jwt c env o w = some (r, w')) : enabled w.state o = true ∧
      r = answer host jwt env (w.clock + env.tick) w.state o ∧
      w' = { state := effect w.state o r, clock := w.clock + env.tick
             log := ⟨c, w.clock + env.tick, o, r⟩ :: w.log } := by
  simp only [exec] at h
  split at h
  · rename_i he
    simp only [Option.some.injEq, Prod.mk.injEq] at h
    rcases h with ⟨rfl, rfl⟩
    exact ⟨he, rfl, rfl⟩
  · cases h

/-- The history keeps the steps: an operation adds one to those of its own call,
    and none to another's. -/
theorem marked : Marked (exec host jwt) (fun _ => True) (fun _ => Leaves)
    (fun c (w : World) => own c w.log) where
  inv := fun _ _ _ _ _ _ _ _ => trivial
  own := by
    intro c env o w r w' hx _
    rcases exec_eq_some hx with ⟨_, _, rfl⟩
    exact ⟨_, rfl, own_self rfl⟩
  others := by
    intro c d env o w r w' hx hd
    rcases exec_eq_some hx with ⟨_, _, rfl⟩
    exact own_other (fun h => hd h.symm)

/-- The handlers keep to the order, so every run does. -/
theorem traced (h : Reachable host jwt calls sys) :
    Traced (fun _ => True) (fun _ => Leaves) (fun c (w : World) => own c w.log)
      (fun c => InOrder host (calls c)) (fun c => Returned host (calls c))
      (fun c => Failed host (calls c)) sys :=
  (Traced.start trivial (fun _ => rfl) (fun _ => handle_along)).run marked h

/-- Every operation of a run was in order. -/
theorem orderly (h : Reachable host jwt calls sys) {e : Entry} {l : List Entry}
    (he : e :: l <:+ sys.shared.log) : InOrder host (calls e.call) (own e.call l) e.op := by
  have hown : e.step :: own e.call l <:+ own e.call sys.shared.log := by
    rw [← own_self rfl]
    exact own_suffix he
  rcases (traced h).trail e.call e.step _ hown with ⟨o, r, heq, hok⟩
  rw [show e.op = o from congrArg Sigma.fst heq]
  exact hok

/-- A call that has returned has done what its reply says. -/
theorem returned (h : Reachable host jwt calls sys) {reply : Reply}
    (hret : sys.threads c = .ret reply) :
    Returned host (calls c) (own c sys.shared.log) reply := by
  have halong := (traced h).along c
  rw [hret] at halong
  exact halong

/-- A call that has failed has done what its error says. -/
theorem failed (h : Reachable host jwt calls sys) {e : Thrown}
    (hthrow : sys.threads c = .throw e) : Failed host (calls c) (own c sys.shared.log) e := by
  have halong := (traced h).along c
  rw [hthrow] at halong
  exact halong

end Runs

end RemoteControl.Technicians

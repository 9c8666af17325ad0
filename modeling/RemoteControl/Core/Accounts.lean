import RemoteControl.Core.Backend
import RemoteControl.Encoding.Letters

/-!
# Accounts

The accounts of the people who work with the service: how they are created,
by an administrator or from the console, how the password of an administrator
is reset, and how someone logs in.

An e-mail address is brought into one form, in lower case and without white
space around, when an account is inserted. The console commands bring what
they are given into the same form before they look for an account. The login
looks for the address as it was typed.

Each of these calls writes at most one row, and none is in the middle of
another here: a call is a function of the table. The database keeps the
identifiers and the addresses unique, so a table in which they are not cannot
be built.

Hashing and tokens belong to libraries and lower case to the locale of the
host; `Host` stands for them.

What the services do to an address is done by `normalizeEmail` in the console
commands and by `User.checkFieldsBeforeInsert` in the entity. The two are
written separately in the source, and so they are here. That they agree is
what makes an account that was created findable.

## Main definitions

* `User`, `UserTable`: The entity, and the rows with their unique columns.
* `Host`: What the services get from elsewhere.
* `AuthService.createUser`, `AuthService.loginUser`: What the API offers.
* `bootstrapAdmin`, `resetAdminPassword`: The console commands.
* `UserTable.insert`, `UserTable.update`: The statements, which keep the
  unique columns unique.
-/

namespace RemoteControl.Accounts

open Encoding

/-! ## Entities -/

/-- The roles an account may have. -/
inductive ValidRoles where
  | admin
  | tecnico
  | sales
  | user
  deriving DecidableEq, Repr

/-- The password is a hash. -/
structure User where
  id : Uuid
  email : String
  password : String
  fullName : String
  isActive : Bool
  roles : List ValidRoles
  createdAt : Timestamp
  updatedAt : Timestamp
  deriving DecidableEq, Repr

/-- Among its roles is that of an administrator. -/
def User.isAdmin (u : User) : Bool := decide (ValidRoles.admin ∈ u.roles)

/-- What the services get from elsewhere: the locale of the host, bcrypt, and
    the signing of tokens. -/
structure Host where
  locale : LowerCase
  hashSync : String → Nat → Nat → String
  compareSync : String → String → Bool
  sign : Uuid → String

/-- `compareSync` accepts the password a hash was made of, and no other. -/
def Host.ComparesExactly (host : Host) : Prop :=
  ∀ p q rounds salt, host.compareSync p (host.hashSync q rounds salt) = decide (p = q)

/-- The hook that runs before a row is inserted. -/
def User.checkFieldsBeforeInsert (host : Host) (u : User) : User :=
  { u with email := trim (host.locale.toLocaleLowerCase u.email) }

/-! ## The table -/

/-- The error of the driver. -/
structure DriverError where
  code : String
  detail : String
  deriving DecidableEq, Repr

/-- The rows, no two of which have the same identifier or the same address. -/
structure UserTable where
  rows : List User
  ids : (rows.map User.id).Nodup
  emails : (rows.map User.email).Nodup

namespace UserTable

/-- There is no account yet. -/
def empty : UserTable where
  rows := []
  ids := List.nodup_nil
  emails := List.nodup_nil

/-- The driver's error for a value that is taken. -/
def duplicate (column value : String) : DriverError :=
  ⟨uniqueViolation, s!"Key ({column})=({value}) already exists."⟩

/-- `INSERT`. Either column may be taken already, and the identifier is looked at
    first. A row that is refused leaves the table as it was. -/
def insert (t : UserTable) (u : User) : Except DriverError UserTable :=
  if hid : u.id ∈ t.rows.map User.id then .error (duplicate "id" (toString u.id))
  else if hemail : u.email ∈ t.rows.map User.email then .error (duplicate "email" u.email)
  else .ok
    { rows := t.rows ++ [u]
      ids := by
        rw [List.map_append, List.nodup_append]
        refine ⟨t.ids, List.nodup_singleton _, fun a ha b hb hab => hid ?_⟩
        rw [List.map_singleton, List.mem_singleton] at hb
        -- Its identifier is none of those in the table, so they stay different.
        rwa [← hb, ← hab]
      emails := by
        rw [List.map_append, List.nodup_append]
        refine ⟨t.emails, List.nodup_singleton _, fun a ha b hb hab => hemail ?_⟩
        rw [List.map_singleton, List.mem_singleton] at hb
        rwa [← hb, ← hab] }

/-- `UPDATE` of the row with this identifier, of columns that are in no index. -/
def update (t : UserTable) (id : Uuid) (f : User → User)
    (hf : ∀ u, (f u).id = u.id ∧ (f u).email = u.email) : UserTable where
  rows := t.rows.map (fun u => if u.id = id then f u else u)
  ids := by
    have hsame : User.id ∘ (fun u => if u.id = id then f u else u) = User.id := by
      funext u
      simp only [Function.comp]
      split
      · exact (hf u).1
      · rfl
    rw [List.map_map, hsame]
    exact t.ids
  emails := by
    have hsame : User.email ∘ (fun u => if u.id = id then f u else u) = User.email := by
      funext u
      simp only [Function.comp]
      split
      · exact (hf u).2
      · rfl
    rw [List.map_map, hsame]
    exact t.emails

/-- `SELECT ... WHERE email = ...`, letter by letter. -/
def findByEmail (t : UserTable) (email : String) : Option User :=
  t.rows.find? (fun u => decide (u.email = email))

/-- The administrators there are, active or not. -/
def countAdmins (t : UserTable) : Nat := t.rows.countP User.isAdmin

/-- Only the password changes. -/
def setPassword (t : UserTable) (id : Uuid) (password : String) : UserTable :=
  t.update id (fun u => { u with password }) (fun _ => ⟨rfl, rfl⟩)

/-- Whether an account is active is decided by administrators, in the
    database. -/
def setActive (t : UserTable) (id : Uuid) (isActive : Bool) : UserTable :=
  t.update id (fun u => { u with isActive }) (fun _ => ⟨rfl, rfl⟩)

/-- `repository.save` of a new entity. -/
def save (host : Host) (t : UserTable) (u : User) : Except DriverError UserTable :=
  t.insert (u.checkFieldsBeforeInsert host)

end UserTable

/-- What the database and bcrypt generate for a new row. -/
structure Generated where
  id : Uuid
  now : Timestamp
  salt : Nat

/-- How much work a hash costs. -/
def passwordSaltRounds : Nat := 10

/-- The hash that is stored of a password. -/
def hashPassword (host : Host) (plainPassword : String) (salt : Nat) : String :=
  host.hashSync plainPassword passwordSaltRounds salt

/-! ## The service -/

/-- What an administrator sends to create an account. -/
structure CreateUserDto where
  email : String
  password : String
  fullName : String
  roles : Option (List ValidRoles)

/-- What a person sends to log in. -/
structure LoginUserDto where
  email : String
  password : String

/-- The account as the response shows it, with a token. -/
structure UserResponse where
  id : Uuid
  email : String
  fullName : String
  isActive : Bool
  roles : List ValidRoles
  createdAt : Timestamp
  updatedAt : Timestamp
  token : String
  deriving DecidableEq, Repr

/-- A login reads no more than these columns. -/
structure LoginResponse where
  id : Uuid
  email : String
  fullName : String
  roles : List ValidRoles
  isActive : Bool
  token : String
  deriving DecidableEq, Repr

namespace AuthService

/-- A value that is taken is told with the driver's own words, and anything else
    is told with nothing. -/
def handleDBError (error : DriverError) : HttpException :=
  if error.code = uniqueViolation then .badRequest error.detail
  else .internalServerError "Please check server logs"

/-- An administrator creates an account. The response shows the row as it was
    saved, with the address in its normal form, and carries a token. -/
def createUser (host : Host) (g : Generated) (dto : CreateUserDto) (t : UserTable) :
    Except HttpException UserResponse × UserTable :=
  let user : User :=
    { id := g.id, email := dto.email, password := hashPassword host dto.password g.salt
      fullName := dto.fullName, isActive := true
      -- Without roles the column has its default.
      roles := (dto.roles.map List.eraseDups).getD [.user]
      createdAt := g.now, updatedAt := g.now }
  match t.save host user with
  | .error error => (.error (handleDBError error), t)
  | .ok t' =>
    let saved := user.checkFieldsBeforeInsert host
    (.ok { id := saved.id, email := saved.email, fullName := saved.fullName
           isActive := saved.isActive, roles := saved.roles, createdAt := saved.createdAt
           updatedAt := saved.updatedAt, token := host.sign saved.id }, t')

/-- The address is looked up as it was typed. An unknown address and a wrong
    password are told with the same words, and only then is an inactive account
    turned away. -/
def loginUser (host : Host) (dto : LoginUserDto) (t : UserTable) :
    Except HttpException LoginResponse :=
  match t.findByEmail dto.email with
  | none => .error (.unauthorized "Credentials are not valid")
  | some user =>
    if host.compareSync dto.password user.password = false then
      .error (.unauthorized "Credentials are not valid")
    else if user.isActive = false then
      .error (.unauthorized "User is inactive, talk with an admin")
    else
      .ok { id := user.id, email := user.email, fullName := user.fullName, roles := user.roles
            isActive := user.isActive, token := host.sign user.id }

end AuthService

/-! ## The console -/

namespace BootstrapAdmin

/-- The same form as that of `User.checkFieldsBeforeInsert`. -/
def normalizeEmail (host : Host) (email : String) : String :=
  trim (host.locale.toLocaleLowerCase email)

end BootstrapAdmin

/-- What the console command is given. -/
structure BootstrapAdminCredentials where
  email : String
  password : String
  fullName : String

/-- What the console command reports. -/
inductive BootstrapAdminResult where
  | created (email : String)
  | adminAlreadyExists
  | emailBelongsToNonAdmin (email : String)
  deriving DecidableEq, Repr

/-- The first administrator, if there is none. There may be an administrator
    already, or an account with this address that is none, and then nothing is
    created. -/
def bootstrapAdmin (host : Host) (g : Generated) (credentials : BootstrapAdminCredentials)
    (t : UserTable) : Except DriverError BootstrapAdminResult × UserTable :=
  let email := BootstrapAdmin.normalizeEmail host credentials.email
  if t.countAdmins > 0 then (.ok .adminAlreadyExists, t)
  else if (t.findByEmail email).isSome then (.ok (.emailBelongsToNonAdmin email), t)
  else
    let admin : User :=
      { id := g.id, email, password := hashPassword host credentials.password g.salt
        fullName := credentials.fullName, isActive := true, roles := [.admin]
        createdAt := g.now, updatedAt := g.now }
    match t.save host admin with
    | .error error => (.error error, t)
    | .ok t' => (.ok (.created email), t')

namespace ResetAdminPassword

/-- The same form as that of `User.checkFieldsBeforeInsert`. -/
def normalizeEmail (host : Host) (email : String) : String :=
  trim (host.locale.toLocaleLowerCase email)

end ResetAdminPassword

/-- What the console command is given. -/
structure ResetAdminPasswordCredentials where
  email : String
  password : String

/-- What the console command reports. -/
inductive ResetAdminPasswordResult where
  | updated (email : String) (isActive : Bool)
  | userNotFound (email : String)
  | userIsNotAdmin (email : String)
  deriving DecidableEq, Repr

/-- A new password for an administrator, and nothing else. An inactive account
    stays inactive, and the command says so. -/
def resetAdminPassword (host : Host) (salt : Nat) (credentials : ResetAdminPasswordCredentials)
    (t : UserTable) : ResetAdminPasswordResult × UserTable :=
  let email := ResetAdminPassword.normalizeEmail host credentials.email
  match t.findByEmail email with
  | none => (.userNotFound email, t)
  | some user =>
    if user.isAdmin = false then (.userIsNotAdmin email, t)
    else (.updated user.email user.isActive,
      t.setPassword user.id (hashPassword host credentials.password salt))

end RemoteControl.Accounts

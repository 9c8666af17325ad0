import RemoteControl.Concurrency.Ledger
import RemoteControl.Concurrency.Versions
import RemoteControl.Theory.DeviceCommits

/-!
# What the Entries of the Devices Say

The history of the device services read as a ledger: what an operation was
answered (`Leaves`), what was not there, and which insertion a commit goes back
to (`Tells`).

None of this depends on the programs. A row that a transaction has written and
nobody has committed was inserted by that transaction, and no statement of the
services changes the device, the hash or the end of validity of a row. So what
a commit adds to a table has these columns from an insertion of the same call.
The index on the active credentials holds however the transactions turn out.

All of it is a matter of single operations. There is one lemma for each
operation that locks or writes rows, about what its entry says (`*_leaves`)
and about what it keeps (`Consistent.*`).

The rules of the calls (`Theory.DeviceSteps`) could not give this. They say
what a call does that follows its program, and what is said here is used to
find out what the program was answered, or that there was nothing to find. So
it is proved from the operations alone, for any system of programs over them,
and is carried along a run by `recorded`.

The uncommitted versions are what makes it an induction. When a transaction
commits, the row may have been inserted many operations ago. `Consistent`
keeps for every version that nobody has committed that its owner has inserted
it, or has found it committed, and the commit only hands this on.

## Main definitions

* `Leaves`: The event an operation leaves with its answer.
* `Drafted`, `Issued`: The call has inserted such a row.
* `Tells`: What an entry says about the rows.
* `Consistent`: What every operation keeps.

## Theorems

* `exec_leaves`, `exec_consistent`: One operation.
* `recorded`: The history of a run.
* `missed`: What a query has not found was not there.
* `inserted`: What a commit adds was inserted by its call.
* `oneInForce`: A device has one credential in force at most.
* `Consistent.updateCredential`, `Consistent.updateEnrollment`: An update
  leaves what a row was made with.
* `Consistent.uncommitted`, `Consistent.same`: Statements that commit nothing.
* `Consistent.commit`, `Consistent.rollback`: The two ends of a transaction.
* `init_consistent`: The state of the start.
-/

namespace RemoteControl.Devices

open Concurrency

/-! ## Answers -/

/-- The event that an operation leaves, given its answer, and what the answer
    is known to be. -/
def Leaves (crypto : Crypto) : (o : Op) → Resp o → Event → Prop
  | .now, r, ev => ev = .told r
  | .randomInt min max, r, ev => ev = .ran (.randomInt min max) ∧ ∃ n, r = min + n % (max - min)
  | .bcryptHash data, r, ev =>
    ev = .ran (.bcryptHash data) ∧ ∃ salt, r = crypto.hash data salt
  | .bcryptCompare data hash, r, ev =>
    ev = .ran (.bcryptCompare data hash) ∧ r = crypto.compare data hash
  | .verifyToken token, r, ev => ev = verifiedEvent (.verifyToken token) r
  | .signToken payload, r, ev =>
    ev = .ran (.signToken payload) ∧ ∃ iat, r = crypto.sign payload iat
  | .findDevice id, (r : Option Device), ev =>
    ev = shownEvent (.findDevice id) r ∧ ∀ d, r = some d → d.id = id
  | .findDeviceByPublicId publicId, (r : Option Device), ev =>
    ev = shownEvent (.findDeviceByPublicId publicId) r ∧ ∀ d, r = some d → d.publicId = publicId
  | .lockEnrollment id deviceId now, (r : Option DeviceEnrollment), ev =>
    ev = foundEvent (.lockEnrollment id deviceId now) r ∧
      ∀ e, r = some e → e.deviceId = deviceId ∧ e.isPending now = true
  | .findActiveCredential deviceId, (r : Option DeviceCredential), ev =>
    ev = shownCredentialEvent (.findActiveCredential deviceId) r ∧
      ∀ k, r = some k → k.deviceId = deviceId
  | .insertEnrollment draft, _, ev => ev = .ran (.insertEnrollment draft)
  | .insertCredential draft, _, ev => ev = .ran (.insertCredential draft)
  | o, _, ev => ∀ o', ev = .ran o' → o' = o

/-- An event that says which operation has run is left by that operation. -/
theorem Leaves.ran {crypto : Crypto} {o o' : Op} {r : Resp o} (h : Leaves crypto o r (.ran o')) :
    o' = o := by
  cases o
  case now => cases h
  case randomInt => exact Event.ran.inj h.1
  case bcryptHash => exact Event.ran.inj h.1
  case bcryptCompare => exact Event.ran.inj h.1
  case signToken => exact Event.ran.inj h.1
  case insertEnrollment => exact Event.ran.inj h
  case insertCredential => exact Event.ran.inj h
  -- A row or a payload that was found leaves an event of its own.
  case verifyToken =>
    rcases r with _ | payload
    · cases h
      rfl
    · cases h
  case findDevice =>
    rcases r with _ | d
    · cases h.1
      rfl
    · cases h.1
  case findDeviceByPublicId =>
    rcases r with _ | d
    · cases h.1
      rfl
    · cases h.1
  case lockEnrollment =>
    rcases r with _ | e
    · cases h.1
      rfl
    · cases h.1
  case findActiveCredential =>
    rcases r with _ | k
    · cases h.1
      rfl
    · cases h.1
  all_goals exact h o' rfl

/-! ## Rows and their insertions -/

/-- The enrollment has the device, the hash and the end of validity of the
    draft. -/
def DeviceEnrollment.MadeFrom (e : DeviceEnrollment) (draft : DeviceEnrollmentDraft) : Prop :=
  e.deviceId = draft.deviceId ∧ e.codeHash = draft.codeHash ∧ e.expiresAt = draft.expiresAt

/-- The credential has the device and the hash of the draft. -/
def DeviceCredential.MadeFrom (k : DeviceCredential) (draft : DeviceCredentialDraft) : Prop :=
  k.deviceId = draft.deviceId ∧ k.secretHash = draft.secretHash

/-- The call has inserted the enrollment. -/
def Drafted (c : CallId) (l : List Entry) (e : DeviceEnrollment) : Prop :=
  ∃ draft, (⟨c, .ran (.insertEnrollment draft)⟩ : Entry) ∈ l ∧ e.MadeFrom draft

/-- The call has inserted the credential. -/
def Issued (c : CallId) (l : List Entry) (k : DeviceCredential) : Prop :=
  ∃ draft, (⟨c, .ran (.insertCredential draft)⟩ : Entry) ∈ l ∧ k.MadeFrom draft

/-- A longer history has the same insertions. It is about entries that are there,
    and none is ever removed. -/
theorem Drafted.mono {c : CallId} {l l' : List Entry} {e : DeviceEnrollment} (h : Drafted c l e)
    (hl : l ⊆ l') : Drafted c l' e := by
  rcases h with ⟨draft, hmem, hcolumns⟩
  exact ⟨draft, hl hmem, hcolumns⟩

/-- Likewise for the credentials. -/
theorem Issued.mono {c : CallId} {l l' : List Entry} {k : DeviceCredential} (h : Issued c l k)
    (hl : l ⊆ l') : Issued c l' k := by
  rcases h with ⟨draft, hmem, hcolumns⟩
  exact ⟨draft, hl hmem, hcolumns⟩

/-- A device has one credential in force at most. -/
def OneInForce (T : Tables) : Prop :=
  ∀ id id' k k', T.credentials id = some k → T.credentials id' = some k' →
    k.isActive = true → k'.isActive = true → k.deviceId = k'.deviceId → id = id'

/-- What an entry of the call says about the rows: what a query has not found
    is not there, and what a commit adds to a table was inserted by the call. -/
def Tells (T : Tables) (c : CallId) (l : List Entry) : Event → Prop
  | .ran (.findDevice id) => T.devices id = none
  | .ran (.findActiveCredential deviceId) =>
    ∀ id k, T.credentials id = some k → k.deviceId = deviceId → k.isActive = false
  | .committed ws => (∀ w ∈ ws.enrollments, w.old = none → Drafted c l w.new) ∧
    ∀ w ∈ ws.credentials, w.old = none → Issued c l w.new
  | _ => True

/-- The entry says what it has to say about the rows before it, and in those
    after it a device has one credential in force at most. -/
structure Fits (fleet : List Device) (l : List Entry) (e : Entry) : Prop where
  tells : Tells (replay fleet l) e.call l e.event
  single : OneInForce (replay fleet (e :: l))

/-- What every operation keeps, whichever program it belongs to. -/
structure Consistent (fleet : List Device) (w : World) : Prop where
  tables : w.tables = replay fleet w.log
  devices : w.devices.Every (fun id d => d.id = id)
  drafted : w.enrollments.EveryNew (fun c _ e => Drafted c w.log e)
  issued : w.credentials.EveryNew (fun c _ k => Issued c w.log k)
  distinct : w.credentials.DistinctHowever deviceCredentialIndexes

variable {crypto : Crypto} {fleet : List Device} {c : CallId} {w w' : World}

/-- The index is over the devices of the active credentials. Two active
    credentials of one device have the same key in it, so they have the same
    identifier. -/
theorem Consistent.single (h : Consistent fleet w) : OneInForce (replay fleet w.log) := by
  rw [← h.tables]
  intro id id' k k' hk hk' hactive hactive' hdevice
  refine h.distinct.committed (i := ⟨_, fun c => if c.isActive then some c.deviceId else none⟩)
    (List.mem_singleton.mpr rfl) (x := k.deviceId) hk hk' ?_ ?_
  · simp only [hactive, if_true]
  · simp only [hactive', if_true, hdevice]

/-! ## What an entry says -/

/-- One row of an update of the credentials that leaves what they were made
    with, and gives them no key. -/
theorem Consistent.updateCredential (h : Consistent fleet w) {id : Uuid}
    {p : DeviceCredential → Bool} {f : DeviceCredential → DeviceCredential} {res : Bool}
    {t : Table Uuid DeviceCredential CallId}
    (hx : w.credentials.update (some c) id p f = some (res, t))
    (hf : ∀ k, (f k).deviceId = k.deviceId ∧ (f k).secretHash = k.secretHash)
    (hkey : ∀ k, ∀ i ∈ deviceCredentialIndexes, i.key (f k) = none ∨ i.key k = i.key (f k)) :
    t.EveryNew (fun c _ k => Issued c w.log k) ∧
      t.DistinctHowever deviceCredentialIndexes := by
  refine ⟨h.issued.update hx (fun k hk => ?_), ?_⟩
  -- A version of before keeps its device and its hash.
  · rcases hf k with ⟨hdevice, hhash⟩
    rcases hk with ⟨draft, hmem, h₁, h₂⟩
    exact ⟨draft, hmem, hdevice.trans h₁, hhash.trans h₂⟩
  -- The row is out of the index, or has the key it had before.
  · rcases Table.update_cases hx with ⟨_, rfl, _⟩ | ⟨k, _, hview, _, hfree, rfl⟩
    · exact h.distinct
    · exact h.distinct.update hfree hview (hkey k)

/-- The operation has left an entry that says what it was answered. -/
def LeavesEntry (crypto : Crypto) (c : CallId) (o : Op) (r : Resp o) (w w' : World) : Prop :=
  ∃ ev, w'.log = ⟨c, ev⟩ :: w.log ∧ Leaves crypto o r ev ∧ Tells w.tables c w.log ev

section LeavesEntry

variable {env : Env}

/-- The entry has the payload, or says that the token was asked for and did not
    verify. -/
theorem verifyToken_leaves {token : String} {r : Option DeviceJwtPayload}
    (hx : exec crypto c env (.verifyToken token) w = some (r, w')) :
    LeavesEntry crypto c (.verifyToken token) r w w' := by
  cases hx
  refine ⟨_, rfl, rfl, ?_⟩
  cases crypto.verify token env.time <;> trivial

/-- A device that was not found is not in the table. -/
theorem findDevice_leaves {id : Uuid} {r : Option Device} (h : Consistent fleet w)
    (hx : exec crypto c env (.findDevice id) w = some (r, w')) :
    LeavesEntry crypto c (.findDevice id) r w w' := by
  cases hx
  refine ⟨_, rfl, ⟨rfl, fun d hd => h.devices.committed hd⟩, ?_⟩
  cases hd : w.devices.committed id with
  | none => exact hd
  | some d => trivial

/-- The device that was found has the number that was asked for. -/
theorem findDeviceByPublicId_leaves {publicId : String} {r : Option Device}
    (hx : exec crypto c env (.findDeviceByPublicId publicId) w = some (r, w')) :
    LeavesEntry crypto c (.findDeviceByPublicId publicId) r w w' := by
  cases hx
  refine ⟨_, rfl, ⟨rfl, fun d hd => ?_⟩, ?_⟩
  -- A scan keeps only the rows that meet its condition.
  · rcases Table.mem_scan.mp (List.mem_of_mem_head? hd) with ⟨_, _, hp⟩
    exact of_decide_eq_true hp
  · -- The entry is about the device, or about the operation, and says nothing of the others.
    cases (w.devices.scan (some c) (fun d => decide (d.publicId = publicId))).head? <;> trivial

/-- The row that was locked is one that the statement asked for. -/
theorem lockEnrollment_leaves {id deviceId : Uuid} {now : Timestamp} {r : Option DeviceEnrollment}
    (hx : exec crypto c env (.lockEnrollment id deviceId now) w = some (r, w')) :
    LeavesEntry crypto c (.lockEnrollment id deviceId now) r w w' := by
  rcases exec_lockEnrollment hx with ⟨t, hlock, rfl⟩
  refine ⟨_, rfl, ⟨rfl, fun e he => ?_⟩, ?_⟩
  · rw [he] at hlock
    have hp := (Table.lock_sees hlock).1
    rw [Bool.and_eq_true, decide_eq_true_eq] at hp
    exact hp
  · cases r <;> trivial

/-- A credential in force would have been found. The scan goes over all committed
    rows, so that none of them meets its condition if it returns nothing. -/
theorem findActiveCredential_leaves {deviceId : Uuid} {r : Option DeviceCredential}
    (hx : exec crypto c env (.findActiveCredential deviceId) w = some (r, w')) :
    LeavesEntry crypto c (.findActiveCredential deviceId) r w w' := by
  cases hx
  refine ⟨_, rfl, ⟨rfl, fun k hk => ?_⟩, ?_⟩
  · rcases Table.mem_scan.mp (List.mem_of_mem_head? hk) with ⟨_, _, hp⟩
    rw [Bool.and_eq_true, decide_eq_true_eq] at hp
    exact hp.1
  · cases hfound : (w.credentials.scan none
        (fun k => decide (k.deviceId = deviceId) && k.isActive)).head? with
    | some k => trivial
    | none =>
        intro id k hk hdevice
        rw [List.head?_eq_none_iff] at hfound
        refine Bool.eq_false_iff.mpr (fun hactive => ?_)
        -- The query is made outside of any transaction and sees every committed row.
        have hmem : k ∈ w.credentials.scan none
            (fun k => decide (k.deviceId = deviceId) && k.isActive) := by
          refine Table.mem_scan.mpr ⟨id, ?_, ?_⟩
          · rw [Table.auto_view]
            exact hk
          · rw [hactive, decide_eq_true hdevice]
            rfl
        rw [hfound] at hmem
        cases hmem

/-- The entry is the same whether the database refused the patch or not. -/
theorem updateDevice_leaves {id : Uuid} {patch : DevicePatch} {r : Except PostgresError Bool}
    (hx : exec crypto c env (.updateDevice id patch) w = some (r, w')) :
    LeavesEntry crypto c (.updateDevice id patch) r w w' := by
  rcases exec_updateDevice hx with ⟨_, rfl⟩ | ⟨_, _, t, _, _, rfl⟩
  · exact ⟨_, rfl, fun _ ho => (Event.ran.inj ho).symm, trivial⟩
  · exact ⟨_, rfl, fun _ ho => (Event.ran.inj ho).symm, trivial⟩

/-- A row that was passed over is not one that the statement has changed, and
    its entry names no operation. -/
theorem revokeEnrollment_leaves {id deviceId : Uuid} {now : Timestamp} {r : Bool}
    (hx : exec crypto c env (.revokeEnrollment id deviceId now) w = some (r, w')) :
    LeavesEntry crypto c (.revokeEnrollment id deviceId now) r w w' := by
  rcases exec_revokeEnrollment hx with ⟨t, _, rfl⟩
  cases r with
  | false => exact ⟨_, rfl, fun _ ho => absurd ho Event.noConfusion, trivial⟩
  | true => exact ⟨_, rfl, fun _ ho => (Event.ran.inj ho).symm, trivial⟩

/-- The entry has the draft, whether the index refused it or not. -/
theorem insertCredential_leaves {draft : DeviceCredentialDraft}
    {r : Except PostgresError DeviceCredential}
    (hx : exec crypto c env (.insertCredential draft) w = some (r, w')) :
    LeavesEntry crypto c (.insertCredential draft) r w w' := by
  rcases exec_insertCredential hx with ⟨_, rfl⟩ | ⟨_, t, _, rfl⟩
  · exact ⟨_, rfl, rfl, trivial⟩
  · exact ⟨_, rfl, rfl, trivial⟩

/-- What a transaction adds to a table with its commit was inserted by it. Every
    version of its own goes back to an entry of the call. -/
theorem commit_leaves (h : Consistent fleet w)
    (hx : exec crypto c env .commit w = some ((), w')) : LeavesEntry crypto c .commit () w w' := by
  cases hx
  exact ⟨_, rfl, fun _ ho => absurd ho Event.noConfusion,
    fun _ hmem hnone => h.drafted.writes hmem hnone, fun _ hmem hnone => h.issued.writes hmem hnone⟩

/-- The update has added nothing that was not in the table before. -/
theorem touchCredential_leaves {id : Uuid} {now : Timestamp} {r : Bool} (h : Consistent fleet w)
    (hx : exec crypto c env (.touchCredential id now) w = some (r, w')) :
    LeavesEntry crypto c (.touchCredential id now) r w w' := by
  rcases exec_touchCredential hx with ⟨t, hupdate, rfl⟩
  rcases h.updateCredential hupdate (fun _ => ⟨rfl, rfl⟩)
    (fun k i hi => .inr (touchedKey k now i hi)) with ⟨hevery, _⟩
  exact ⟨_, rfl, fun _ ho => absurd ho Event.noConfusion,
    fun _ hmem _ => absurd hmem List.not_mem_nil, fun _ hmem hnone => hevery.writes hmem hnone⟩

/-- What an operation leaves in the history, and what that says. -/
theorem exec_leaves {o : Op} {r : Resp o} (h : Consistent fleet w)
    (hx : exec crypto c env o w = some (r, w')) : LeavesEntry crypto c o r w w' := by
  cases o
  -- What the surroundings answer is in the entry, or follows from it.
  case randomInt =>
    cases hx
    exact ⟨_, rfl, ⟨rfl, env.random, rfl⟩, trivial⟩
  case bcryptHash =>
    cases hx
    exact ⟨_, rfl, ⟨rfl, env.salt, rfl⟩, trivial⟩
  case bcryptCompare =>
    cases hx
    exact ⟨_, rfl, ⟨rfl, rfl⟩, trivial⟩
  case signToken =>
    cases hx
    exact ⟨_, rfl, ⟨rfl, env.time, rfl⟩, trivial⟩
  case verifyToken => exact verifyToken_leaves hx
  case findDevice => exact findDevice_leaves h hx
  case findDeviceByPublicId => exact findDeviceByPublicId_leaves hx
  case lockEnrollment => exact lockEnrollment_leaves hx
  case findActiveCredential => exact findActiveCredential_leaves hx
  case updateDevice => exact updateDevice_leaves hx
  case revokeEnrollment => exact revokeEnrollment_leaves hx
  case insertCredential => exact insertCredential_leaves hx
  case insertEnrollment =>
    rcases exec_insertEnrollment hx with ⟨_, t, _, rfl⟩
    exact ⟨_, rfl, rfl, trivial⟩
  case consumeEnrollment =>
    rcases runUpdateEnrollment_cases hx with ⟨t, _, rfl⟩
    exact ⟨_, rfl, fun _ ho => (Event.ran.inj ho).symm, trivial⟩
  case updateEnrollment =>
    rcases runUpdateEnrollment_cases hx with ⟨t, _, rfl⟩
    exact ⟨_, rfl, fun _ ho => (Event.ran.inj ho).symm, trivial⟩
  case revokeCredential =>
    rcases runUpdateCredential_cases hx with ⟨t, _, rfl⟩
    exact ⟨_, rfl, fun _ ho => (Event.ran.inj ho).symm, trivial⟩
  case touchCredential => exact touchCredential_leaves h hx
  case commit => exact commit_leaves h hx
  case establish =>
    have hn := exec_plain (o := .establish) trivial hx
    exact ⟨_, hn.log, fun _ ho => (Event.ran.inj ho).symm, trivial⟩
  -- The others are answered at once, and name themselves or the change they make.
  all_goals
    cases hx
    first
    | exact ⟨_, rfl, rfl, trivial⟩
    | exact ⟨_, rfl, fun _ ho => (Event.ran.inj ho).symm, trivial⟩
    | exact ⟨_, rfl, fun _ ho => absurd ho Event.noConfusion, trivial⟩

end LeavesEntry

/-! ## What an operation keeps -/

/-- A statement that commits nothing. The committed rows are those of before,
    and so are those the history leads to. -/
theorem Consistent.uncommitted (h : Consistent fleet w) {ev : Event} (hev : ¬ ev.IsCommit)
    (hlog : w'.log = ⟨c, ev⟩ :: w.log) (hcd : w'.devices.committed = w.devices.committed)
    (hce : w'.enrollments.committed = w.enrollments.committed)
    (hck : w'.credentials.committed = w.credentials.committed)
    (hd : w'.devices.Every (fun id d => d.id = id))
    (he : w'.enrollments.EveryNew (fun c _ e => Drafted c w'.log e))
    (hk : w'.credentials.EveryNew (fun c _ k => Issued c w'.log k))
    (hdistinct : w'.credentials.DistinctHowever deviceCredentialIndexes) :
    Consistent fleet w' := by
  -- The history leads to the same rows as before, as no commit was added.
  refine ⟨?_, hd, he, hk, hdistinct⟩
  rw [hlog, replay_of_note hev, ← h.tables]
  simp only [World.tables, hcd, hce, hck]

/-- The rows of before, with a longer history. -/
theorem Consistent.draftedBefore (h : Consistent fleet w) (n : Entry) :
    w.enrollments.EveryNew (fun c _ e => Drafted c (n :: w.log) e) :=
  h.drafted.mono (fun _ _ _ he => he.mono (List.subset_cons_self _ _))

/-- Likewise for the credentials. -/
theorem Consistent.issuedBefore (h : Consistent fleet w) (n : Entry) :
    w.credentials.EveryNew (fun c _ k => Issued c (n :: w.log) k) :=
  h.issued.mono (fun _ _ _ hk => hk.mono (List.subset_cons_self _ _))

/-- An operation that leaves the tables alone. -/
theorem Consistent.same (h : Consistent fleet w) {ev : Event} (hev : ¬ ev.IsCommit)
    (hlog : w'.log = ⟨c, ev⟩ :: w.log) (hd : w'.devices = w.devices)
    (he : w'.enrollments = w.enrollments) (hk : w'.credentials = w.credentials) :
    Consistent fleet w' := by
  refine h.uncommitted hev hlog (congrArg _ hd) (congrArg _ he) (congrArg _ hk) ?_ ?_ ?_ ?_
  · rw [hd]
    exact h.devices
  · rw [he, hlog]
    exact h.draftedBefore _
  · rw [hk, hlog]
    exact h.issuedBefore _
  · rw [hk]
    exact h.distinct

/-- A statement about enrollments, in a transaction. -/
theorem Consistent.onEnrollments (h : Consistent fleet w) {ev : Event} (hev : ¬ ev.IsCommit)
    {t : Table Uuid DeviceEnrollment CallId} (hc : t.committed = w.enrollments.committed)
    (ht : t.EveryNew (fun c' _ e => Drafted c' (⟨c, ev⟩ :: w.log) e)) :
    Consistent fleet ({ w with enrollments := t }.record c ev) :=
  h.uncommitted hev rfl rfl hc rfl h.devices ht (h.issuedBefore _) h.distinct

/-- A statement about credentials, in a transaction. -/
theorem Consistent.onCredentials (h : Consistent fleet w) {ev : Event} (hev : ¬ ev.IsCommit)
    {t : Table Uuid DeviceCredential CallId} (hc : t.committed = w.credentials.committed)
    (ht : t.EveryNew (fun c' _ k => Issued c' (⟨c, ev⟩ :: w.log) k))
    (hdistinct : t.DistinctHowever deviceCredentialIndexes) :
    Consistent fleet ({ w with credentials := t }.record c ev) :=
  h.uncommitted hev rfl rfl rfl hc h.devices (h.draftedBefore _) ht hdistinct

/-- To have run an operation is not to commit. -/
theorem ran_note (o : Op) : ¬ (Event.ran o).IsCommit := fun h => h

/-- To be shown a device is not to commit. -/
theorem shownEvent_note (o : Op) (found : Option Device) : ¬ (shownEvent o found).IsCommit := by
  cases found <;> exact fun h => h

/-- Nor is it to be shown a credential. -/
theorem shownCredentialEvent_note (o : Op) (found : Option DeviceCredential) :
    ¬ (shownCredentialEvent o found).IsCommit := by
  cases found <;> exact fun h => h

/-- Nor to lock an enrollment. -/
theorem foundEvent_note (o : Op) (found : Option DeviceEnrollment) :
    ¬ (foundEvent o found).IsCommit := by
  cases found <;> exact fun h => h

/-- Nor to have a token verified. -/
theorem verifiedEvent_note (o : Op) (found : Option DeviceJwtPayload) :
    ¬ (verifiedEvent o found).IsCommit := by
  cases found <;> exact fun h => h

section Operations

variable {env : Env}

/-- A lock is not a version. -/
theorem Consistent.lockEnrollment (h : Consistent fleet w) {id deviceId : Uuid} {now : Timestamp}
    {r : Option DeviceEnrollment}
    (hx : exec crypto c env (.lockEnrollment id deviceId now) w = some (r, w')) :
    Consistent fleet w' := by
  rcases exec_lockEnrollment hx with ⟨t, hlock, rfl⟩
  exact h.onEnrollments (foundEvent_note _ _) (Table.selectForUpdate_committed hlock)
    ((h.draftedBefore _).selectForUpdate hlock)

/-- The row goes back to this very statement. -/
theorem Consistent.insertEnrollment (h : Consistent fleet w) {draft : DeviceEnrollmentDraft}
    {r : DeviceEnrollment} (hx : exec crypto c env (.insertEnrollment draft) w = some (r, w')) :
    Consistent fleet w' := by
  rcases exec_insertEnrollment hx with ⟨_, t, hinsert, rfl⟩
  refine h.onEnrollments (ran_note _) (Table.insert_committed hinsert)
    ((h.draftedBefore _).insert hinsert ⟨draft, ?_, rfl, rfl, rfl⟩)
  exact List.mem_cons_self

/-- An update of an enrollment leaves what it was made with, so a row that the
    transaction has inserted before still goes back to that insertion. -/
theorem Consistent.updateEnrollment (h : Consistent fleet w) {ev : Event} (hev : ¬ ev.IsCommit)
    {id : Uuid} {p : DeviceEnrollment → Bool} {f : DeviceEnrollment → DeviceEnrollment} {res : Bool}
    {t : Table Uuid DeviceEnrollment CallId}
    (hx : w.enrollments.update (some c) id p f = some (res, t))
    (hf : ∀ e, (f e).deviceId = e.deviceId ∧ (f e).codeHash = e.codeHash ∧
      (f e).expiresAt = e.expiresAt) :
    Consistent fleet ({ w with enrollments := t }.record c ev) := by
  refine h.onEnrollments hev (Table.update_committed hx)
    ((h.draftedBefore _).update hx (fun e he => ?_))
  -- The version of before goes back to an insertion, and has the same columns.
  rcases hf e with ⟨hdevice, hhash, hexpires⟩
  rcases he with ⟨draft, hmem, h₁, h₂, h₃⟩
  exact ⟨draft, hmem, hdevice.trans h₁, hhash.trans h₂, hexpires.trans h₃⟩

/-- The revocation of a code writes only the time of it. -/
theorem Consistent.revokeEnrollment (h : Consistent fleet w) {id deviceId : Uuid}
    {now : Timestamp} {r : Bool}
    (hx : exec crypto c env (.revokeEnrollment id deviceId now) w = some (r, w')) :
    Consistent fleet w' := by
  rcases exec_revokeEnrollment hx with ⟨t, hupdate, rfl⟩
  refine h.updateEnrollment ?_ hupdate (fun _ => ⟨rfl, rfl, rfl⟩)
  cases r
  · exact fun hc => hc
  · exact ran_note _

/-- The row goes back to this very statement, if the index does not refuse it. -/
theorem Consistent.insertCredential (h : Consistent fleet w) {draft : DeviceCredentialDraft}
    {r : Except PostgresError DeviceCredential}
    (hx : exec crypto c env (.insertCredential draft) w = some (r, w')) : Consistent fleet w' := by
  rcases exec_insertCredential hx with ⟨_, rfl⟩ | ⟨_, t, hinsert, rfl⟩
  · exact h.same (ran_note _) rfl rfl rfl rfl
  · refine h.onCredentials (ran_note _) (Table.insert_committed hinsert)
      ((h.issuedBefore _).insert hinsert ⟨draft, ?_, rfl, rfl⟩) (h.distinct.insert hinsert)
    exact List.mem_cons_self

/-- A credential that is revoked leaves the index. -/
theorem Consistent.revokeCredential (h : Consistent fleet w) {id deviceId : Uuid}
    {now : Timestamp} {r : Bool}
    (hx : exec crypto c env (.revokeCredential id deviceId now) w = some (r, w')) :
    Consistent fleet w' := by
  rcases runUpdateCredential_cases hx with ⟨t, hupdate, rfl⟩
  rcases h.updateCredential hupdate (fun _ => ⟨rfl, rfl⟩)
    (fun k i hi => .inl (revokedKey k now i hi)) with ⟨hevery, hdistinct⟩
  refine h.onCredentials (ran_note _) (Table.update_committed hupdate)
    (hevery.mono (fun _ _ _ hk => hk.mono ?_)) hdistinct
  exact List.subset_cons_self _ _

/-- The note of a login that it has used a credential leaves the index alone,
    and it is committed at once. -/
theorem Consistent.touchCredential (h : Consistent fleet w) {id : Uuid} {now : Timestamp} {r : Bool}
    (hx : exec crypto c env (.touchCredential id now) w = some (r, w')) : Consistent fleet w' := by
  rcases exec_touchCredential hx with ⟨t, hupdate, rfl⟩
  rcases h.updateCredential hupdate (fun _ => ⟨rfl, rfl⟩)
    (fun k i hi => .inr (touchedKey k now i hi)) with ⟨hevery, hdistinct⟩
  -- Only this table has changed, and its versions go back to what they did before.
  refine ⟨?_, h.devices, h.draftedBefore _, ?_, hdistinct.commit c⟩
  · have hreplay : replay fleet (⟨c, .committed ⟨[], [], t.writes c⟩⟩ :: w.log) =
        w.tables.apply ⟨[], [], t.writes c⟩ := congrArg (Tables.apply · _) h.tables.symm
    simp only [World.tables, World.record, Table.commit_committed, hreplay, Tables.apply,
      applyWrites_nil, Table.update_committed hupdate]
  · refine (hevery.mono (fun _ _ _ hk => hk.mono ?_)).commit c
    exact List.subset_cons_self _ _

/-- The update of a device keeps its identifier, whatever the patch. -/
theorem Consistent.updateDevice (h : Consistent fleet w) {id : Uuid} {patch : DevicePatch}
    {r : Except PostgresError Bool}
    (hx : exec crypto c env (.updateDevice id patch) w = some (r, w')) : Consistent fleet w' := by
  rcases exec_updateDevice hx with ⟨_, rfl⟩ | ⟨_, _, t, _, hupdate, rfl⟩
  · exact h.same (ran_note _) rfl rfl rfl rfl
  · refine h.uncommitted (ran_note _) rfl (Table.update_committed hupdate) rfl rfl
      (h.devices.update hupdate (fun d hd _ => ?_)) (h.draftedBefore _) (h.issuedBefore _)
      h.distinct
    -- The patch may be one that does not apply, and then it changes nothing.
    cases hpatch : patch.apply d with
    | none => exact hd
    | some d' => exact (DevicePatch.apply_id hpatch).trans hd

/-- The end of a transaction that keeps what was written. -/
theorem Consistent.commit (h : Consistent fleet w) (c : CallId) :
    Consistent fleet ({ w with
      devices := w.devices.commit c
      enrollments := w.enrollments.commit c
      credentials := w.credentials.commit c }.record c (.committed (w.writes c))) := by
  refine ⟨?_, h.devices.commit c, (h.draftedBefore _).commit c, (h.issuedBefore _).commit c,
    h.distinct.commit c⟩
  have hreplay : replay fleet (⟨c, .committed (w.writes c)⟩ :: w.log) =
      w.tables.apply (w.writes c) := congrArg (Tables.apply · (w.writes c)) h.tables.symm
  refine Eq.trans ?_ hreplay.symm
  simp only [World.tables, World.record, Table.commit_committed, Tables.apply, World.writes]

/-- The end of a transaction that drops it. -/
theorem Consistent.rollback (h : Consistent fleet w) (c : CallId) :
    Consistent fleet ({ w with
      devices := w.devices.rollback c
      enrollments := w.enrollments.rollback c
      credentials := w.credentials.rollback c }.record c (.ran .rollback)) :=
  h.uncommitted (ran_note _) rfl (Table.rollback_committed _ c) (Table.rollback_committed _ c)
    (Table.rollback_committed _ c) (h.devices.rollback c) ((h.draftedBefore _).rollback c)
    ((h.issuedBefore _).rollback c) (h.distinct.rollback c)

/-- Every operation keeps the rows consistent with the history. -/
theorem exec_consistent {o : Op} {r : Resp o} (h : Consistent fleet w)
    (hx : exec crypto c env o w = some (r, w')) : Consistent fleet w' := by
  -- An operation that is only recorded leaves all tables as they were.
  by_cases ho : o.IsPlain
  · have hn := exec_plain ho hx
    exact h.same (ran_note _) hn.log hn.devices hn.enrollments hn.credentials
  cases o
  -- The two ends of a transaction.
  case commit =>
    cases hx
    exact h.commit c
  case rollback =>
    cases hx
    exact h.rollback c
  -- Reads leave the tables alone.
  case findDevice =>
    cases hx
    exact h.same (shownEvent_note _ _) rfl rfl rfl rfl
  case findDeviceByPublicId =>
    cases hx
    exact h.same (shownEvent_note _ _) rfl rfl rfl rfl
  case findActiveCredential =>
    cases hx
    exact h.same (shownCredentialEvent_note _ _) rfl rfl rfl rfl
  case verifyToken =>
    cases hx
    exact h.same (verifiedEvent_note _ _) rfl rfl rfl rfl
  -- The statements that lock or write rows.
  case lockEnrollment => exact h.lockEnrollment hx
  case insertEnrollment => exact h.insertEnrollment hx
  case insertCredential => exact h.insertCredential hx
  case updateDevice => exact h.updateDevice hx
  case revokeEnrollment => exact h.revokeEnrollment hx
  case consumeEnrollment =>
    rcases runUpdateEnrollment_cases hx with ⟨t, hupdate, rfl⟩
    exact h.updateEnrollment (ran_note _) hupdate (fun _ => ⟨rfl, rfl, rfl⟩)
  case updateEnrollment =>
    rcases runUpdateEnrollment_cases hx with ⟨t, hupdate, rfl⟩
    exact h.updateEnrollment (ran_note _) hupdate (fun _ => ⟨rfl, rfl, rfl⟩)
  case revokeCredential => exact h.revokeCredential hx
  case touchCredential => exact h.touchCredential hx
  -- What is left is about the time or the sockets.
  all_goals
    first
    | exact absurd trivial ho
    | cases hx; refine h.same ?_ rfl rfl rfl rfl; exact fun hc => hc

end Operations

/-! ## Runs -/

variable {calls : CallId → Call} {sys : Calls}

/-- The devices of the start are under their identifiers. -/
theorem deviceTable_every (fleet : List Device) :
    (deviceTable fleet).Every (fun id d => d.id = id) := by
  induction fleet with
  | nil => exact Table.every_init
  | cons d fleet ih =>
      refine ih.set (fun v hv => ?_)
      rcases Table.mem_versions hv with hv | ⟨c, hv⟩
      · exact congrArg Device.id (Option.some.inj hv).symm
      · simp only [reduceCtorEq] at hv

/-- In the beginning nothing is written that is not committed, and there are only
    devices. -/
theorem init_consistent (fleet : List Device) : Consistent fleet (World.init fleet) where
  tables := by
    simp only [World.tables, World.init, replay, Tables.initial, Tables.mk.injEq]
    exact ⟨funext deviceTable_committed, rfl, rfl⟩
  devices := deviceTable_every fleet
  drafted := Table.everyNew_init
  issued := Table.everyNew_init
  distinct := Table.distinctHowever_init _

/-- The history of a run accounts for its rows. Each operation keeps the rows
    consistent, and its entry fits them. -/
theorem recorded (h : Reachable crypto calls fleet sys) :
    Consistent fleet sys.shared ∧ Fitting (Fits fleet) sys.shared.log := by
  refine fitting_of_run (I := Consistent fleet) (fun c env o w r w' hx hw => ?_) h
    (init_consistent fleet) rfl
  have hw' := exec_consistent hw hx
  rcases exec_leaves hw hx with ⟨ev, hlog, _, htells⟩
  rw [hw.tables] at htells
  refine ⟨hw', ⟨c, ev⟩, ⟨htells, ?_⟩, hlog⟩
  rw [← hlog]
  exact hw'.single

/-- At every point of the history a device has one credential in force at
    most. -/
theorem oneInForce (h : Reachable crypto calls fleet sys) {l : List Entry}
    (hl : l <:+ sys.shared.log) : OneInForce (replay fleet l) := by
  cases l with
  | nil =>
      -- There are no credentials yet.
      intro id id' k k' hk
      simp only [replay, Tables.initial, reduceCtorEq] at hk
  | cons e l => exact ((recorded h).2 e l hl).single

/-- What a query has not found was not there. -/
theorem missed (h : Reachable crypto calls fleet sys) {o : Op} {l : List Entry}
    (hl : ⟨c, .ran o⟩ :: l <:+ sys.shared.log) : Tells (replay fleet l) c l (.ran o) :=
  ((recorded h).2 _ l hl).tells

/-- What a commit adds was inserted by its call. -/
theorem inserted (h : Reachable crypto calls fleet sys) {ws : Writes} {l : List Entry}
    (hl : ⟨c, .committed ws⟩ :: l <:+ sys.shared.log) :
    (∀ w ∈ ws.enrollments, w.old = none → Drafted c l w.new) ∧
      ∀ w ∈ ws.credentials, w.old = none → Issued c l w.new :=
  ((recorded h).2 _ l hl).tells

end RemoteControl.Devices

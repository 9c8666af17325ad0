import RemoteControl.Theory.DeviceSteps

/-!
# Reads, Locks and Writes of a Device Call

The rules for the operations that show a call something, that lock or write
rows for its transaction, and that end the transaction, and those about
sockets. A rule has one premise for each way the operation can turn out, with
what the call learns in that case.

Locks and writes come in two kinds. The row may be one the transaction does
not hold yet, and then the statement finds its newest committed version
(`lockEnrollment_then`, `revokeEnrollment_then`, `revokeCredential_then`). Or
it is one in hand, and then the statement cannot miss it
(`heldEnrollment_then`).

Most statements leave the committed rows alone. For these, one lemma about the
table (`Table.lockRow_spec`, `Table.updateRow_spec`, `Table.insertRow_spec`)
says what the transaction holds afterwards and that the rows of the others are
untouched, and `At.quiet` makes the rule of it. So a rule has to add only that
the entry is in order. Three operations go further: the commit, the update
outside of a transaction, which commits at once, and the insertion of a
credential, which the unique index may refuse.

A statement that waits for a row is not seen here. The rule is about the
moment at which it goes through, and what it finds then.

## Main definitions

* `Progress.shown`, `Progress.verified`, `Progress.shownCredential`: How far a
  call is once it has read.
* `Grip.setEnrollment`, `Grip.setCredential`, `Grip.setDevice`: One row more
  in hand.

## Theorems

* `newDate_then`, `findDevice_then`, `findActiveCredential_then`: Reading.
* `lockEnrollment_then`: Locking.
* `revokeEnrollment_then`, `heldEnrollment_then`, `revokeCredential_then`,
  `updateDevice_then`: Updates.
* `insertEnrollment_then`, `insertCredential_then`: Insertions.
* `transaction_then`: A program between the two ends of a transaction.
* `setSocketData_then`, `register_then`, `unregister_then`,
  `disconnectDevice_then`: Sockets.
* `At.lockedEnrollments`, `At.lockedCredentials`, `At.lockedDevices`: A
  statement that only locks, or writes uncommitted rows.
* `commit_then`, `rollback_then`: The two ends of a transaction.
* `touchCredential_then`: The update that commits at once.
-/

namespace RemoteControl.Devices

open Concurrency

variable {crypto : Crypto} {calls : CallId → Call} {fleet : List Device}

/-- In every state the rows are kept under their identifiers. -/
theorem Inv.keyed {w : World} (h : Inv crypto calls fleet w) : Keyed w.tables := by
  rw [h.tables]
  exact h.history.keyed

section Programs

variable {c : CallId} {p : Progress} {g : Grip} {α β : Type} {Q : α → World → Prop}
  {E : HttpException → World → Prop}

/-! ## Reading -/

/-- The clock is read, once and before anything is found. -/
theorem newDate_then {k : Timestamp → Service α} (hnow : p.now = none) (hfound : p.found = [])
    (hcommitted : p.committed = none)
    (hk : ∀ t, (deviceRules crypto calls fleet).Triple (exec crypto) c
      (At c (p.add (.told t)) g) (k t) Q E) :
    (deviceRules crypto calls fleet).Triple (exec crypto) c (At c p g) (newDate.bind k) Q E := by
  refine ask_then (o := .now) (fun t => p.add (.told t)) (fun _ => True)
    (fun w hi ha env t w' hx => ?_) (fun t _ => hk t)
  have hpair := Prod.mk.inj (Option.some.inj hx)
  have hok : EntryOk crypto calls fleet w.log ⟨c, .told t⟩ := by
    rw [← ha.progress] at hnow hfound hcommitted
    exact ⟨hnow, hfound, hcommitted⟩
  rw [← hpair.2, hpair.1]
  rcases ha.noted (.told t) hi .record trivial hok with ⟨hi', hg, ha'⟩
  exact ⟨hi', hg, trivial, ha'⟩

/-- How far a call is once it was shown a device, if there is one. -/
def Progress.shown (p : Progress) (found : Option Device) : Progress :=
  found.elim p (fun d => p.add (.shownDevice d))

/-- A read of a device notes the row it was shown, or only that it has run. -/
theorem At.shown {w : World} {found : Option Device} (o : Op) (hi : Inv crypto calls fleet w)
    (ha : At c p g w) (hrow : ∀ d, found = some d → w.tables.devices d.id = some d) :
    Inv crypto calls fleet (w.record c (shownEvent o found)) ∧
      Guar c w (w.record c (shownEvent o found)) ∧
      At c (p.shown found) g (w.record c (shownEvent o found)) := by
  cases found with
  | none => exact ha.noted (.ran o) hi .record trivial trivial
  | some d =>
      refine ha.noted (.shownDevice d) hi .record trivial ?_
      have hd := hrow d rfl
      rw [hi.tables] at hd
      exact hd

/-- The read of a device by its identifier, outside of any transaction. -/
theorem findDevice_then {id : Uuid} {k : Option Device → Service α}
    (hk : ∀ found, (∀ d, found = some d → d.id = id) →
      (deviceRules crypto calls fleet).Triple (exec crypto) c (At c (p.shown found) g) (k found)
        Q E) :
    (deviceRules crypto calls fleet).Triple (exec crypto) c (At c p g)
      ((statement (.findDevice id)).bind k) Q E := by
  refine statement_then (o := .findDevice id) (β := Unit) (fun found _ => p.shown found)
    (fun _ _ => g) (fun found _ => ∀ d, found = some d → d.id = id)
    (fun w hi ha env found w' hx => ?_) (fun found _ => hk found)
  cases hx
  have hid : ∀ d, w.devices.committed id = some d → d.id = id := hi.keyed.devices id
  rcases ha.shown (.findDevice id) hi (fun d hd => by rw [hid d hd]; exact hd) with
    ⟨hi', hg, ha'⟩
  exact ⟨hi', hg, (), hid, ha'⟩

/-- A transaction that holds no device sees the committed ones. -/
theorem findDeviceByPublicId_then {publicId : String} {k : Option Device → Service α}
    (hfree : g.devices = fun _ => none)
    (hk : ∀ found, (deviceRules crypto calls fleet).Triple (exec crypto) c
      (At c (p.shown found) g) (k found) Q E) :
    (deviceRules crypto calls fleet).Triple (exec crypto) c (At c p g)
      ((statement (.findDeviceByPublicId publicId)).bind k) Q E := by
  refine statement_then (o := .findDeviceByPublicId publicId) (β := Unit)
    (fun found _ => p.shown found) (fun _ _ => g) (fun _ _ => True)
    (fun w hi ha env found w' hx => ?_) (fun found _ _ => hk found)
  cases hx
  have hrow : ∀ d, (w.devices.scan (some c) (fun d => decide (d.publicId = publicId))).head? =
      some d → w.tables.devices d.id = some d := by
    -- The row it sees is committed, and is kept under its own identifier.
    intro d hd
    rcases Table.mem_scan.mp (List.mem_of_head? hd) with ⟨key, hview, _⟩
    rw [ha.devices.view key, hfree, Option.elim_none] at hview
    rw [hi.keyed.devices key d hview]
    exact hview
  rcases ha.shown (.findDeviceByPublicId publicId) hi hrow with ⟨hi', hg, ha'⟩
  exact ⟨hi', hg, (), trivial, ha'⟩

/-- How far a call is once its token was verified, if it could be. -/
def Progress.verified (p : Progress) (found : Option DeviceJwtPayload) : Progress :=
  found.elim p (fun payload => p.add (.verified payload))

/-- The library verifies the token of the call, or does not. -/
theorem verifyToken_then {token : String} {k : Option DeviceJwtPayload → Service α}
    (htoken : (calls c).token = some token)
    (hk : ∀ found, (deviceRules crypto calls fleet).Triple (exec crypto) c
      (At c (p.verified found) g) (k found) Q E) :
    (deviceRules crypto calls fleet).Triple (exec crypto) c (At c p g)
      ((statement (.verifyToken token)).bind k) Q E := by
  refine statement_then (o := .verifyToken token) (β := Unit) (fun found _ => p.verified found)
    (fun _ _ => g) (fun _ _ => True) (fun w hi ha env found w' hx => ?_)
    (fun found _ _ => hk found)
  have hpair := Prod.mk.inj (Option.some.inj hx)
  have hfound : crypto.verify token env.time = found := hpair.1
  rw [← hpair.2, hfound]
  cases found with
  | none =>
      rcases ha.noted (.ran (.verifyToken token)) hi .record trivial trivial with ⟨hi', hg, ha'⟩
      exact ⟨hi', hg, (), trivial, ha'⟩
  | some payload =>
      rcases ha.noted (.verified payload) hi .record trivial ⟨token, env.time, htoken, hfound⟩ with
        ⟨hi', hg, ha'⟩
      exact ⟨hi', hg, (), trivial, ha'⟩

/-- How far a call is once it was shown a credential, if there is one. -/
def Progress.shownCredential (p : Progress) (found : Option DeviceCredential) : Progress :=
  found.elim p (fun k => p.add (.shownCredential k))

/-- The read of the credential in force. -/
theorem findActiveCredential_then {deviceId : Uuid} {k : Option DeviceCredential → Service α}
    (hk : ∀ found, (∀ x, found = some x → x.deviceId = deviceId) →
      (deviceRules crypto calls fleet).Triple (exec crypto) c (At c (p.shownCredential found) g)
        (k found) Q E) :
    (deviceRules crypto calls fleet).Triple (exec crypto) c (At c p g)
      ((statement (.findActiveCredential deviceId)).bind k) Q E := by
  refine statement_then (o := .findActiveCredential deviceId) (β := Unit)
    (fun found _ => p.shownCredential found) (fun _ _ => g)
    (fun found _ => ∀ x, found = some x → x.deviceId = deviceId)
    (fun w hi ha env found w' hx => ?_) (fun found _ => hk found)
  have hpair := Prod.mk.inj (Option.some.inj hx)
  have hfound : (w.credentials.scan none
      (fun k => decide (k.deviceId = deviceId) && k.isActive)).head? = found := hpair.1
  rw [← hpair.2]
  -- What was found is a committed row that is active and belongs to the device.
  have hrow : ∀ x, found = some x → w.tables.credentials x.id = some x ∧ x.isActive = true ∧
      x.deviceId = deviceId := by
    intro x hx
    rw [← hfound] at hx
    rcases Table.mem_scan.mp (List.mem_of_head? hx) with ⟨key, hview, hp⟩
    rw [Table.auto_view] at hview
    simp only [Bool.and_eq_true, decide_eq_true_eq] at hp
    rw [hi.keyed.credentials key x hview]
    exact ⟨hview, hp.2, hp.1⟩
  simp only [hfound]
  cases hf : found with
  | none =>
      rcases ha.noted (.ran (.findActiveCredential deviceId)) hi .record trivial trivial
        with ⟨hi', hg, ha'⟩
      exact ⟨hi', hg, (), fun x hx => by simp only [reduceCtorEq] at hx, ha'⟩
  | some x =>
      rcases hrow x hf with ⟨hx, hactive, _⟩
      rw [hi.tables] at hx
      rcases ha.noted (.shownCredential x) hi .record trivial ⟨hx, hactive⟩ with
        ⟨hi', hg, ha'⟩
      exact ⟨hi', hg, (), fun y hy => (hrow y (by rw [hf, hy])).2.2, ha'⟩

/-- The open enrollments of a device, for a transaction that holds none. -/
theorem unsettledEnrollments_then {deviceId : Uuid} {k : List Uuid → Service α}
    (hcall : calls c = .createEnrollmentCode deviceId) (hfree : g.enrollments = fun _ => none)
    (hk : ∀ ids, ids.Nodup → (deviceRules crypto calls fleet).Triple (exec crypto) c
      (At c (p.add (.listed ids)) g) (k ids) Q E) :
    (deviceRules crypto calls fleet).Triple (exec crypto) c (At c p g)
      ((statement (.unsettledEnrollments deviceId)).bind k) Q E := by
  refine statement_then (o := .unsettledEnrollments deviceId) (β := Unit)
    (fun ids _ => p.add (.listed ids)) (fun _ _ => g) (fun ids _ => ids.Nodup)
    (fun w hi ha env ids w' hx => ?_) (fun ids _ => hk ids)
  cases hx
  -- The transaction holds no code, so what it sees is what is committed.
  have hok : EntryOk crypto calls fleet w.log ⟨c, .listed (w.enrollments.keys (some c)
      (fun e => decide (e.deviceId = deviceId) && e.isUnsettled))⟩ := by
    refine ⟨deviceId, hcall, fun id => Table.mem_keys.trans ?_⟩
    rw [ha.enrollments.view id, hfree, Option.elim_none, ← hi.tables]
    simp only [Bool.and_eq_true, decide_eq_true_eq]
    exact Iff.rfl
  rcases ha.noted (.listed _) hi .record trivial hok with ⟨hi', hg, ha'⟩
  exact ⟨hi', hg, (), Table.keys_nodup _ _ _, ha'⟩

/-! ## Locks -/

/-- The grip with one enrollment more, or with another version of one. -/
def Grip.setEnrollment (g : Grip) (id : Uuid) (h : Held DeviceEnrollment) : Grip :=
  { g with enrollments := Function.update g.enrollments id (some h) }

/-- The grip with one credential more, or with another version of one. -/
def Grip.setCredential (g : Grip) (id : Uuid) (h : Held DeviceCredential) : Grip :=
  { g with credentials := Function.update g.credentials id (some h) }

/-- The state of a table of enrollments after a statement of the transaction
    on one of its rows. -/
theorem At.lockedEnrollments {w : World} (ev : Event)
    {t : Table Uuid DeviceEnrollment CallId} {ge : Uuid → Option (Held DeviceEnrollment)}
    (hi : Inv crypto calls fleet w) (ha : At c p g w) (hev : ev.IsNote)
    (hok : EntryOk crypto calls fleet w.log ⟨c, ev⟩)
    (hcommitted : t.committed = w.enrollments.committed)
    (hu : Table.Untouched (some c) w.enrollments t) (hh : t.HoldsRows c ge) :
    Inv crypto calls fleet ({ w with enrollments := t }.record c ev) ∧
      Guar c w ({ w with enrollments := t }.record c ev) ∧
      At c (p.add ev) { g with enrollments := ge } ({ w with enrollments := t }.record c ev) :=
  ha.quiet _ _ hi rfl hev hok rfl hcommitted rfl hi.distinct (fun _ => rfl) rfl (.refl _ _) hu
    (.refl _ _) ha.devices hh ha.credentials

/-- Likewise for the credentials. The index of the credentials in force has to be
    kept here, too. -/
theorem At.lockedCredentials {w : World} (ev : Event)
    {t : Table Uuid DeviceCredential CallId} {gc : Uuid → Option (Held DeviceCredential)}
    (hi : Inv crypto calls fleet w) (ha : At c p g w) (hev : ev.IsNote)
    (hok : EntryOk crypto calls fleet w.log ⟨c, ev⟩)
    (hcommitted : t.committed = w.credentials.committed)
    (hdistinct : t.DistinctHowever deviceCredentialIndexes)
    (hu : Table.Untouched (some c) w.credentials t) (hh : t.HoldsRows c gc) :
    Inv crypto calls fleet ({ w with credentials := t }.record c ev) ∧
      Guar c w ({ w with credentials := t }.record c ev) ∧
      At c (p.add ev) { g with credentials := gc } ({ w with credentials := t }.record c ev) :=
  ha.quiet _ _ hi rfl hev hok rfl rfl hcommitted hdistinct (fun _ => rfl) rfl (.refl _ _)
    (.refl _ _) hu ha.devices ha.enrollments hh

/-- Likewise for the devices. -/
theorem At.lockedDevices {w : World} (ev : Event) {t : Table Uuid Device CallId}
    {gd : Uuid → Option (Held Device)} (hi : Inv crypto calls fleet w) (ha : At c p g w)
    (hev : ev.IsNote) (hok : EntryOk crypto calls fleet w.log ⟨c, ev⟩)
    (hcommitted : t.committed = w.devices.committed)
    (hu : Table.Untouched (some c) w.devices t) (hh : t.HoldsRows c gd) :
    Inv crypto calls fleet ({ w with devices := t }.record c ev) ∧
      Guar c w ({ w with devices := t }.record c ev) ∧
      At c (p.add ev) { g with devices := gd } ({ w with devices := t }.record c ev) :=
  ha.quiet _ _ hi rfl hev hok hcommitted rfl rfl hi.distinct (fun _ => rfl) rfl hu (.refl _ _)
    (.refl _ _) hh ha.enrollments ha.credentials

/-- The lock of a pending enrollment, by an activation that has not locked it
    yet. It may turn out not to be pending any more. -/
theorem lockEnrollment_then {id deviceId : Uuid} {now : Timestamp} {dto : ActivateDeviceDto}
    {k : Option DeviceEnrollment → Service α} (hcall : calls c = .activate dto)
    (hcommitted : p.committed = none) (hnow : p.now = some now)
    (hfound : ∀ e ∈ p.found, e.id ≠ id ∧ e.deviceId = deviceId) (hfree : g.enrollments id = none)
    (hnone : (deviceRules crypto calls fleet).Triple (exec crypto) c (At c p g) (k none) Q E)
    (hsome : ∀ e, e.id = id → e.deviceId = deviceId → e.isPending now = true →
      (deviceRules crypto calls fleet).Triple (exec crypto) c
        (At c (p.add (.found e)) (g.setEnrollment id ⟨some e, none⟩)) (k (some e)) Q E) :
    (deviceRules crypto calls fleet).Triple (exec crypto) c (At c p g)
      ((statement (.lockEnrollment id deviceId now)).bind k) Q E := by
  refine statement_then (o := .lockEnrollment id deviceId now) (β := Unit)
    (fun found _ => found.elim p (fun e => p.add (.found e)))
    (fun found _ => found.elim g (fun e => g.setEnrollment id ⟨some e, none⟩))
    (fun found _ => ∀ e, found = some e →
      e.id = id ∧ e.deviceId = deviceId ∧ e.isPending now = true)
    (fun w hi ha env found w' hx => ?_) (fun found _ hφ => ?_)
  · rcases exec_lockEnrollment hx with ⟨t, hl, rfl⟩
    rcases Table.lockRow_spec ha.enrollments hfree hl with ⟨hu, hc, hno, hyes⟩
    cases found with
    -- Nothing was locked, so the grip stays.
    | none =>
        have hlocked := ha.lockedEnrollments (.ran (.lockEnrollment id deviceId now)) hi
          trivial trivial hc hu (by rw [(hno rfl).1]; exact ha.enrollments)
        exact ⟨hlocked.1, hlocked.2.1, (), fun e he => by simp only [reduceCtorEq] at he,
          hlocked.2.2⟩
    | some e =>
        rcases hyes e rfl with ⟨hrow, hp, _, _, hh⟩
        simp only [Bool.and_eq_true, decide_eq_true_eq] at hp
        -- Rows are stored under their own ids.
        have hid : e.id = id := hi.keyed.enrollments id e hrow
        have hok : EntryOk crypto calls fleet w.log ⟨c, .found e⟩ := by
          rw [← ha.progress] at hcommitted hnow hfound
          refine ⟨hcommitted, by rw [hid, ← hi.tables]; exact hrow, fun e' he' => ?_, dto, now,
            hcall, hnow, hp.2⟩
          rw [hid, hp.1]
          exact hfound e' he'
        rcases ha.lockedEnrollments (.found e) hi trivial hok hc hu hh with ⟨hi', hg, ha'⟩
        refine ⟨hi', hg, (), fun e' he' => ?_, ha'⟩
        cases he'
        exact ⟨hid, hp⟩
  · cases found with
    | none => exact hnone
    | some e => exact hsome e (hφ e rfl).1 (hφ e rfl).2.1 (hφ e rfl).2.2

/-! ## Updates -/

/-- The update of an enrollment: it finds what the transaction sees. -/
theorem At.updatedEnrollment {w w' : World} {o : Op} {id : Uuid} {q : DeviceEnrollment → Bool}
    {f : DeviceEnrollment → DeviceEnrollment} {affected : Bool} (hi : Inv crypto calls fleet w)
    (ha : At c p g w) (h : runUpdateEnrollment c o id q f w = some (affected, w')) :
    Inv crypto calls fleet w' ∧ Guar c w w' ∧
      ((affected = false ∧ At c p g w' ∧
          ∀ e, w.enrollments.view (some c) id = some e → q e = false) ∨
        (affected = true ∧ ∃ e, w.enrollments.view (some c) id = some e ∧ q e = true ∧
          At c p (g.setEnrollment id ⟨w.tables.enrollments id, some (f e)⟩) w')) := by
  rcases runUpdateEnrollment_cases h with ⟨t, hl, rfl⟩
  rcases Table.updateRow_spec ha.enrollments hl with ⟨hu, hc, hno, hyes⟩
  cases affected with
  -- No such row, or not one that qualifies: the table stays as it is.
  | false =>
      rcases ha.lockedEnrollments (.ran o) hi trivial trivial hc hu
        (by rw [(hno rfl).1]; exact ha.enrollments) with ⟨hi', hg, ha'⟩
      exact ⟨hi', hg, .inl ⟨rfl, ha', (hno rfl).2⟩⟩
  | true =>
      rcases hyes rfl with ⟨e, hview, hq, _, _, hh⟩
      rcases ha.lockedEnrollments (.ran o) hi trivial trivial hc hu hh with
        ⟨hi', hg, ha'⟩
      exact ⟨hi', hg, .inr ⟨rfl, e, hview, hq, ha'⟩⟩

/-- The update of an enrollment in hand, whose condition it meets. -/
theorem heldEnrollment_then {id : Uuid} {e : DeviceEnrollment} {q : DeviceEnrollment → Bool}
    {f : DeviceEnrollment → DeviceEnrollment} {o : Op} {k : Resp o → Service α}
    (yes : Resp o) (hheld : g.enrollments id = some ⟨some e, none⟩) (hq : q e = true)
    (hexec : ∀ w env r w', exec crypto c env o w = some (r, w') → ∃ affected,
      runUpdateEnrollment c o id q f w = some (affected, w') ∧ (affected = true → r = yes))
    (hk : (deviceRules crypto calls fleet).Triple (exec crypto) c
      (At c p (g.setEnrollment id ⟨some e, some (f e)⟩)) (k yes) Q E) :
    (deviceRules crypto calls fleet).Triple (exec crypto) c (At c p g)
      ((statement o).bind k) Q E := by
  refine statement_then (β := Unit) (fun _ _ => p)
    (fun _ _ => g.setEnrollment id ⟨some e, some (f e)⟩) (fun r _ => r = yes)
    (fun w hi ha env r w' hx => ?_) (fun r _ hr => by rw [hr]; exact hk)
  rcases hexec w env r w' hx with ⟨affected, hrun, hyes⟩
  rcases ha.updatedEnrollment hi hrun with ⟨hi', hg, ⟨_, _, hno⟩ | ⟨ht, e', hview, _, ha'⟩⟩
  -- The row is held and qualifies, so the update finds it.
  · have hview := ha.enrollments.view id
    rw [hheld, Option.elim_some] at hview
    rw [hno e hview] at hq
    simp only [Bool.false_eq_true] at hq
  · have hcur := ha.enrollments.view id
    rw [hheld, Option.elim_some, hview] at hcur
    cases hcur
    have hc : w.tables.enrollments id = some e := ha.enrollment hheld
    rw [hc] at ha'
    exact ⟨hi', hg, (), hyes ht, ha'⟩

/-- One row of `revokePendingEnrollments`. -/
theorem revokeEnrollment_then {id deviceId : Uuid} {now : Timestamp} {k : Bool → Service α}
    (hcall : calls c = .createEnrollmentCode deviceId) (hlisted : id ∈ p.listed)
    (hfree : g.enrollments id = none)
    (hno : (deviceRules crypto calls fleet).Triple (exec crypto) c (At c (p.add (.passed id)) g)
      (k false) Q E)
    (hyes : ∀ e, e.id = id → e.deviceId = deviceId → e.isUnsettled = true →
      (deviceRules crypto calls fleet).Triple (exec crypto) c
        (At c p (g.setEnrollment id ⟨some e, some (e.revoke now)⟩)) (k true) Q E) :
    (deviceRules crypto calls fleet).Triple (exec crypto) c (At c p g)
      ((statement (.revokeEnrollment id deviceId now)).bind k) Q E := by
  refine statement_then (o := .revokeEnrollment id deviceId now) (β := Option DeviceEnrollment)
    (fun _ found => found.elim (p.add (.passed id)) (fun _ => p))
    (fun _ found => found.elim g (fun e => g.setEnrollment id ⟨some e, some (e.revoke now)⟩))
    (fun r found => (r = false ∧ found = none) ∨ (r = true ∧ ∃ e, found = some e ∧ e.id = id ∧
      e.deviceId = deviceId ∧ e.isUnsettled = true))
    (fun w hi ha env r w' hx => ?_) (fun r found hφ => ?_)
  · rcases exec_revokeEnrollment hx with ⟨t, hl, rfl⟩
    rcases Table.updateRow_spec ha.enrollments hl with ⟨hu, hc, hno, hyes⟩
    -- The row is not held, so the update sees what is committed.
    have hseen : ∀ e, w.tables.enrollments id = some e →
        w.enrollments.view (some c) id = some e := by
      intro e he
      rw [ha.enrollments.view id, hfree, Option.elim_none]
      exact he
    cases r with
    | false =>
        -- The code is there, so it is passed over because it is settled.
        have hok : EntryOk crypto calls fleet w.log ⟨c, .passed id⟩ := by
          rw [← ha.progress] at hlisted
          rcases hi.history.enrollment_exists hlisted with ⟨row, hrow⟩
          refine ⟨deviceId, row, hcall, hrow, fun hd => ?_⟩
          rw [← hi.tables] at hrow
          have hq := (hno rfl).2 row (hseen row hrow)
          rw [decide_eq_true hd, Bool.true_and] at hq
          exact hq
        rcases ha.lockedEnrollments (.passed id) hi trivial hok hc hu
          (by rw [(hno rfl).1]; exact ha.enrollments) with ⟨hi', hg, ha'⟩
        exact ⟨hi', hg, none, .inl ⟨rfl, rfl⟩, ha'⟩
    | true =>
        rcases hyes rfl with ⟨e, hview, hq, _, _, hh⟩
        rcases ha.lockedEnrollments (.ran (.revokeEnrollment id deviceId now)) hi trivial
          trivial hc hu hh with ⟨hi', hg, ha'⟩
        rw [ha.enrollments.view id, hfree, Option.elim_none] at hview
        simp only [Bool.and_eq_true, decide_eq_true_eq] at hq
        rw [hview] at ha'
        exact ⟨hi', hg, some e,
          .inr ⟨rfl, e, rfl, hi.keyed.enrollments id e hview, hq.1, hq.2⟩, ha'⟩
  · rcases hφ with ⟨rfl, rfl⟩ | ⟨rfl, e, rfl, hid, hd, hu⟩
    · exact hno
    · exact hyes e hid hd hu

/-- The use of a credential does not change what the index goes by. -/
theorem touchedKey (k : DeviceCredential) (now : Timestamp) :
    ∀ i ∈ deviceCredentialIndexes, i.key k = i.key { k with lastUsedAt := some now } := by
  intro i hi
  rw [deviceCredentialIndexes, List.mem_singleton] at hi
  rw [hi]
  rfl

/-- A credential that is revoked is out of the index. -/
theorem revokedKey (k : DeviceCredential) (now : Timestamp) :
    ∀ i ∈ deviceCredentialIndexes, i.key (k.revoke now) = none := by
  intro i hi
  rw [deviceCredentialIndexes, List.mem_singleton] at hi
  rw [hi]
  rfl

/-- One row of `revokeActiveCredentials`. -/
theorem revokeCredential_then {id deviceId : Uuid} {now : Timestamp} {k : Bool → Service α}
    (hfree : g.credentials id = none)
    (hno : (deviceRules crypto calls fleet).Triple (exec crypto) c (At c p g) (k false) Q E)
    (hyes : ∀ x, x.id = id → x.deviceId = deviceId → x.isActive = true →
      (deviceRules crypto calls fleet).Triple (exec crypto) c
        (At c p (g.setCredential id ⟨some x, some (x.revoke now)⟩)) (k true) Q E) :
    (deviceRules crypto calls fleet).Triple (exec crypto) c (At c p g)
      ((statement (.revokeCredential id deviceId now)).bind k) Q E := by
  refine statement_then (o := .revokeCredential id deviceId now) (β := Option DeviceCredential)
    (fun _ _ => p)
    (fun _ found => found.elim g (fun x => g.setCredential id ⟨some x, some (x.revoke now)⟩))
    (fun r found => (r = false ∧ found = none) ∨ (r = true ∧ ∃ x, found = some x ∧ x.id = id ∧
      x.deviceId = deviceId ∧ x.isActive = true))
    (fun w hi ha env r w' hx => ?_) (fun r found hφ => ?_)
  · rcases runUpdateCredential_cases hx with ⟨t, hl, rfl⟩
    rcases Table.updateRow_spec ha.credentials hl with ⟨hu, hc, hno, hyes⟩
    cases r with
    | false =>
        have hsame : t = w.credentials := (hno rfl).1
        rcases ha.lockedCredentials (.ran (.revokeCredential id deviceId now)) hi trivial
          trivial hc (by rw [hsame]; exact hi.distinct) hu
          (by rw [hsame]; exact ha.credentials) with ⟨hi', hg, ha'⟩
        exact ⟨hi', hg, none, .inl ⟨rfl, rfl⟩, ha'⟩
    | true =>
        rcases hyes rfl with ⟨x, hview, hq, hfor, ht, hh⟩
        -- A revoked credential takes no key, so the index stays free of conflicts.
        have hd : t.DistinctHowever deviceCredentialIndexes := by
          rw [ht]
          exact hi.distinct.update hfor hview (fun i hix => .inl (revokedKey x now i hix))
        rcases ha.lockedCredentials (.ran (.revokeCredential id deviceId now)) hi trivial
          trivial hc hd hu hh with ⟨hi', hg, ha'⟩
        rw [ha.credentials.view id, hfree, Option.elim_none] at hview
        simp only [Bool.and_eq_true, decide_eq_true_eq] at hq
        rw [hview] at ha'
        exact ⟨hi', hg, some x,
          .inr ⟨rfl, x, rfl, hi.keyed.credentials id x hview, hq.1, hq.2⟩, ha'⟩
  · rcases hφ with ⟨rfl, rfl⟩ | ⟨rfl, x, rfl, hid, hd, hu⟩
    · exact hno
    · exact hyes x hid hd hu

/-- The use of a credential is noted outside of any transaction. -/
theorem touchCredential_then {id : Uuid} {now : Timestamp} {dto : DeviceLoginDto}
    {k : Bool → Service α} (hcall : calls c = .login dto) (hopen : p.committed = none)
    (hfound : p.found = []) (hfree : g.credentials = fun _ => none)
    (hk : ∀ r ws, (deviceRules crypto calls fleet).Triple (exec crypto) c
      (At c (p.add (.committed ws)) g) (k r) Q E) :
    (deviceRules crypto calls fleet).Triple (exec crypto) c (At c p g)
      ((statement (.touchCredential id now)).bind k) Q E := by
  refine statement_then (o := .touchCredential id now) (β := Writes)
    (fun _ ws => p.add (.committed ws)) (fun _ _ => g) (fun _ _ => True)
    (fun w hi ha env r w' hx => ?_) (fun r ws _ => hk r ws)
  rcases exec_touchCredential hx with ⟨t, hl, rfl⟩
  have hheld : w.credentials.HoldsRows c (fun _ => none) := by
    rw [← hfree]
    exact ha.credentials
  rcases Table.updateRow_spec hheld hl with ⟨hu, hc, hno, hyes⟩
  rcases Table.commitRows_spec t c with ⟨hu', hh', hc'⟩
  -- The table the statement leaves: one row of the call's own, or none.
  have hdone : t.DistinctHowever deviceCredentialIndexes ∧
      (∀ x ∈ t.writes c, w.credentials.committed x.key = x.old) ∧
      ∀ x ∈ t.writes c, ∃ v : DeviceCredential,
        x = ⟨v.id, some v, { v with lastUsedAt := some now }⟩ := by
    -- No row was updated, or the one with this id.
    cases r with
    | false =>
        have hnone : ∀ x ∈ t.writes c, False := by
          intro x hx
          rw [(hno rfl).1, Table.mem_writes hheld] at hx
          simp only [reduceCtorEq] at hx
        refine ⟨?_, fun x hx => (hnone x hx).elim, fun x hx => (hnone x hx).elim⟩
        rw [(hno rfl).1]
        exact hi.distinct
    | true =>
        rcases hyes rfl with ⟨v, hview, _, hfor, ht, hh⟩
        have hrow : w.credentials.committed id = some v := by
          rw [hheld.view id] at hview
          exact hview
        have hid : v.id = id := hi.keyed.credentials id v hrow
        have hwrite : ∀ x ∈ t.writes c,
            x = ⟨id, some v, { v with lastUsedAt := some now }⟩ := by
          intro x hx
          rcases update_eq_write.mp ((Table.mem_writes hh).mp hx) with hx | ⟨_, hx⟩
          · rw [hx, hrow]
          · simp only [reduceCtorEq] at hx
        refine ⟨?_, fun x hx => ?_, fun x hx => ⟨v, by rw [hwrite x hx, hid]⟩⟩
        · rw [ht]
          exact hi.distinct.update hfor hview (fun i hix => .inr (touchedKey v now i hix))
        · rw [hwrite x hx]
          exact hrow
  have hok : EntryOk crypto calls fleet w.log
      ⟨c, .committed { devices := [], enrollments := [], credentials := t.writes c }⟩ := by
    rw [← ha.progress] at hopen hfound
    refine ⟨hopen, ⟨List.forall_mem_nil _, List.forall_mem_nil _, ?_⟩,
      .touched dto now hcall hfound rfl rfl hdone.2.2⟩
    rw [← hi.tables]
    exact hdone.2.1
  -- The state is the one this commit leads to, the sockets are untouched, and nothing
  -- is held.
  refine ⟨hi.step rfl hok ?_ (hdone.1.commit c) (fun s => ?_) rfl,
    ⟨⟨_, rfl⟩, .refl _ _, .refl _ _, ?_⟩,
    { devices := [], enrollments := [], credentials := t.writes c }, trivial, ?_, ha.devices,
    ha.enrollments, ?_⟩
  · simp only [World.tables, World.record, hc', hc, replay, ← hi.tables]
    rfl
  · refine (hi.contexts s).trans ?_
    by_cases hs : c = s
    · rw [hs, progress_own]
      rfl
    · rw [progress_other hs]
  · exact hu.trans hu'
  · simp only [World.record, progress_own, ha.progress]
  · rw [hfree]
    exact hh'

/-- The grip with one device more, or with another version of one. -/
def Grip.setDevice (g : Grip) (id : Uuid) (h : Held Device) : Grip :=
  { g with devices := Function.update g.devices id (some h) }

/-- What a call was shown is an entry of it. -/
theorem mem_of_progress_devices {l : List Entry} {d : Device}
    (h : d ∈ (Devices.progress c l).devices) : ⟨c, .shownDevice d⟩ ∈ l := by
  induction l with
  | nil => simp only [Devices.progress, Progress.start, List.not_mem_nil] at h
  | cons e l ih =>
      rcases e with ⟨c', ev⟩
      by_cases hc : c' = c
      -- Only its own entries count, and of these only the devices it was shown.
      · subst hc
        rw [progress_own] at h
        cases ev
        case shownDevice d' =>
          simp only [Progress.add, List.mem_append, List.mem_singleton] at h
          rcases h with h | rfl
          · exact List.mem_cons_of_mem _ (ih h)
          · exact List.mem_cons_self
        all_goals exact List.mem_cons_of_mem _ (ih h)
      · rw [progress_other (e := ⟨c', ev⟩) hc] at h
        exact List.mem_cons_of_mem _ (ih h)

/-- The update of a device the call was shown, by a transaction that holds
    none. -/
theorem updateDevice_then {id : Uuid} {patch : DevicePatch} {seen : Device}
    {k : Except PostgresError Bool → Service α} (hfree : g.devices = fun _ => none)
    (hseen : seen ∈ p.devices) (hid : seen.id = id)
    (herr : ∀ error, (deviceRules crypto calls fleet).Triple (exec crypto) c (At c p g)
      (k (.error error)) Q E)
    (hok : ∀ d d', d.id = id → patch.apply d = some d' →
      (deviceRules crypto calls fleet).Triple (exec crypto) c
        (At c p (g.setDevice id ⟨some d, some d'⟩)) (k (.ok true)) Q E) :
    (deviceRules crypto calls fleet).Triple (exec crypto) c (At c p g)
      ((statement (.updateDevice id patch)).bind k) Q E := by
  refine statement_then (o := .updateDevice id patch) (β := Option (Device × Device))
    (fun _ _ => p) (fun _ b => b.elim g (fun b => g.setDevice id ⟨some b.1, some b.2⟩))
    (fun r b => (b = none ∧ ∃ error, r = .error error) ∨
      ∃ d d', b = some (d, d') ∧ r = .ok true ∧ d.id = id ∧ patch.apply d = some d')
    (fun w hi ha env r w' hx => ?_) (fun r b hφ => ?_)
  -- The database refuses the null, or the update goes through.
  · rcases exec_updateDevice hx with ⟨⟨error, rfl⟩, rfl⟩ | ⟨hnull, affected, t, rfl, hl, rfl⟩
    · rcases ha.noted (.ran (.updateDevice id patch)) hi .record trivial trivial with
        ⟨hi', hg, ha'⟩
      exact ⟨hi', hg, none, .inl ⟨rfl, _, rfl⟩, ha'⟩
    · rcases Table.updateRow_spec ha.devices hl with ⟨hu, hc, hno, hyes⟩
      have hview : w.devices.view (some c) id = w.tables.devices id := by
        rw [ha.devices.view id, hfree]
        rfl
      cases affected with
      | false =>
          -- The device is still there, because devices are never removed.
          rw [← ha.progress] at hseen
          rcases hi.history.device_exists (mem_of_progress_devices hseen) with ⟨d, hd⟩
          rw [← hi.tables, hid, ← hview] at hd
          have hfalse := (hno rfl).2 d hd
          simp only [Bool.true_eq_false] at hfalse
      | true =>
          rcases hyes rfl with ⟨d, hd, _, _, _, hh⟩
          rw [hview] at hd
          have hrow : w.devices.committed id = some d := hd
          rcases ha.lockedDevices (.ran (.updateDevice id patch)) hi trivial trivial hc hu hh
            with ⟨hi', hg, ha'⟩
          rcases patch.apply_total hnull d with ⟨d', happly⟩
          rw [happly, Option.getD_some, hrow] at ha'
          exact ⟨hi', hg, some (d, d'),
            .inr ⟨d, d', rfl, rfl, hi.keyed.devices id d hd, happly⟩, ha'⟩
  · rcases hφ with ⟨rfl, error, rfl⟩ | ⟨d, d', rfl, rfl, hd, happly⟩
    · exact herr error
    · exact hok d d' hd happly

/-! ## Insertions -/

/-- The insertion of an enrollment, under an identifier that is new. -/
theorem insertEnrollment_then {draft : DeviceEnrollmentDraft} {k : DeviceEnrollment → Service α}
    (hk : ∀ id createdAt, g.enrollments id = none →
      (deviceRules crypto calls fleet).Triple (exec crypto) c
        (At c p (g.setEnrollment id ⟨none, some (draft.toRow id createdAt)⟩))
        (k (draft.toRow id createdAt)) Q E) :
    (deviceRules crypto calls fleet).Triple (exec crypto) c (At c p g)
      ((statement (.insertEnrollment draft)).bind k) Q E := by
  refine statement_then (o := .insertEnrollment draft) (β := Uuid × Timestamp) (fun _ _ => p)
    (fun _ b => g.setEnrollment b.1 ⟨none, some (draft.toRow b.1 b.2)⟩)
    (fun r b => r = draft.toRow b.1 b.2 ∧ g.enrollments b.1 = none)
    (fun w hi ha env r w' hx => ?_) (fun r b hφ => by rw [hφ.1]; exact hk b.1 b.2 hφ.2)
  rcases exec_insertEnrollment hx with ⟨rfl, t, hl, rfl⟩
  rcases Table.insertRow_spec ha.enrollments hl with ⟨hu, hc, _, hyes⟩
  rcases hyes rfl with ⟨_, hnone, hh⟩
  rcases ha.lockedEnrollments (.ran (.insertEnrollment draft)) hi trivial trivial hc hu hh
    with ⟨hi', hg, ha'⟩
  exact ⟨hi', hg, (env.newId, env.createdAt), ⟨rfl, hnone⟩, ha'⟩

/-- The insertion of a credential. The unique index refuses it if another one is
    in force. -/
theorem insertCredential_then {draft : DeviceCredentialDraft}
    {k : Except PostgresError DeviceCredential → Service α}
    (herr : ∀ error, (deviceRules crypto calls fleet).Triple (exec crypto) c (At c p g)
      (k (.error error)) Q E)
    (hok : ∀ id createdAt, g.credentials id = none →
      (deviceRules crypto calls fleet).Triple (exec crypto) c
        (At c p (g.setCredential id ⟨none, some (draft.toRow id createdAt)⟩))
        (k (.ok (draft.toRow id createdAt))) Q E) :
    (deviceRules crypto calls fleet).Triple (exec crypto) c (At c p g)
      ((statement (.insertCredential draft)).bind k) Q E := by
  refine statement_then (o := .insertCredential draft) (β := Uuid × Timestamp) (fun _ _ => p)
    (fun r b => match r with
      | .error _ => g
      | .ok _ => g.setCredential b.1 ⟨none, some (draft.toRow b.1 b.2)⟩)
    (fun r b => ∀ x, r = .ok x → x = draft.toRow b.1 b.2 ∧ g.credentials b.1 = none)
    (fun w hi ha env r w' hx => ?_) (fun r b hφ => ?_)
  · rcases exec_insertCredential hx with ⟨⟨error, rfl⟩, rfl⟩ | ⟨rfl, t, hl, rfl⟩
    · -- Refused by the index.
      rcases ha.noted (.ran (.insertCredential draft)) hi .record trivial trivial with
        ⟨hi', hg, ha'⟩
      exact ⟨hi', hg, (0, 0), fun x hx => by simp only [reduceCtorEq] at hx, ha'⟩
    · -- Inserted and held.
      rcases Table.insertRow_spec ha.credentials hl with ⟨hu, hc, _, hyes⟩
      rcases hyes rfl with ⟨_, hnone, hh⟩
      rcases ha.lockedCredentials (.ran (.insertCredential draft)) hi trivial trivial hc
        (hi.distinct.insert hl) hu hh with ⟨hi', hg, ha'⟩
      refine ⟨hi', hg, (env.newId, env.createdAt), fun x hx => ?_, ha'⟩
      cases hx
      exact ⟨rfl, hnone⟩
  · cases r with
    | error error => exact herr error
    | ok x =>
        rcases hφ x rfl with ⟨rfl, hnone⟩
        exact hok b.1 b.2 hnone

/-! ## The ends of a transaction -/

/-- What a transaction is about to write is what it has in hand. -/
theorem At.writes {w : World} (ha : At c p g w) : g.Writes (w.writes c) :=
  ⟨fun _ => Table.mem_writes ha.devices, fun _ => Table.mem_writes ha.enrollments,
    fun _ => Table.mem_writes ha.credentials⟩

/-- What the held rows are written over is what is committed. -/
theorem At.current {w : World} (ha : At c p g w) : Current w.tables (w.writes c) := by
  refine ⟨fun x hx => ?_, fun x hx => ?_, fun x hx => ?_⟩
  · exact ha.devices.committed_eq ((ha.writes.devices x).mp hx)
  · exact ha.enrollments.committed_eq ((ha.writes.enrollments x).mp hx)
  · exact ha.credentials.committed_eq ((ha.writes.credentials x).mp hx)

/-- The commit, by a call that has an explanation for what it has in hand. -/
theorem commit_then {k : Unit → Service α} (hopen : p.committed = none)
    (hexplains : ∀ ws, g.Writes ws → Explains crypto (calls c) p ws)
    (hk : ∀ ws, g.Writes ws → (deviceRules crypto calls fleet).Triple (exec crypto) c
      (At c (p.add (.committed ws)) .free) (k ()) Q E) :
    (deviceRules crypto calls fleet).Triple (exec crypto) c (At c p g)
      ((statement .commit).bind k) Q E := by
  refine statement_then (o := .commit) (β := Writes) (fun _ ws => p.add (.committed ws))
    (fun _ _ => .free) (fun _ ws => g.Writes ws) (fun w hi ha env r w' hx => ?_)
    (fun _ ws hws => hk ws hws)
  have hpair := Prod.mk.inj (Option.some.inj hx)
  rw [← hpair.2]
  rcases Table.commitRows_spec w.devices c with ⟨hud, hhd, hcd⟩
  rcases Table.commitRows_spec w.enrollments c with ⟨hue, hhe, hce⟩
  rcases Table.commitRows_spec w.credentials c with ⟨huc, hhc, hcc⟩
  -- What the table is about to commit is what the program holds.
  have hok : EntryOk crypto calls fleet w.log ⟨c, .committed (w.writes c)⟩ := by
    have hcurrent := ha.current
    have hx := hexplains (w.writes c) ha.writes
    rw [← ha.progress] at hopen hx
    rw [hi.tables] at hcurrent
    exact ⟨hopen, hcurrent, hx⟩
  -- The tables are those of the new history, and all rows are free again.
  refine ⟨hi.step rfl hok ?_ (hi.distinct.commit c) (fun s => ?_) rfl,
    ⟨⟨_, rfl⟩, hud, hue, huc⟩, w.writes c, ha.writes, ?_, hhd, hhe, hhc⟩
  · simp only [World.tables, World.record, hcd, hce, hcc, replay, ← hi.tables]
    rfl
  · refine (hi.contexts s).trans ?_
    by_cases hc : c = s
    · rw [hc, progress_own]
      rfl
    · rw [progress_other hc]
  · simp only [World.record, progress_own, ha.progress]

/-- The rollback lets the rows go. -/
theorem rollback_then {k : Unit → Service α}
    (hk : (deviceRules crypto calls fleet).Triple (exec crypto) c (At c p .free) (k ()) Q E) :
    (deviceRules crypto calls fleet).Triple (exec crypto) c (At c p g)
      ((statement .rollback).bind k) Q E := by
  refine statement_then (o := .rollback) (β := Unit) (fun _ _ => p) (fun _ _ => .free)
    (fun _ _ => True) (fun w hi ha env r w' hx => ?_) (fun _ _ _ => hk)
  have hpair := Prod.mk.inj (Option.some.inj hx)
  rw [← hpair.2]
  rcases Table.rollbackRows_spec w.devices c with ⟨hud, hhd, hcd⟩
  rcases Table.rollbackRows_spec w.enrollments c with ⟨hue, hhe, hce⟩
  rcases Table.rollbackRows_spec w.credentials c with ⟨huc, hhc, hcc⟩
  -- The rows are let go, and nothing is committed.
  have hrolled := ha.quiet (World.record { w with
      devices := w.devices.rollback c
      enrollments := w.enrollments.rollback c
      credentials := w.credentials.rollback c } c (.ran .rollback)) .free hi rfl trivial
    trivial hcd hce hcc (hi.distinct.rollback c) (fun _ => rfl) rfl hud hue huc hhd hhe hhc
  exact ⟨hrolled.1, hrolled.2.1, (), trivial, hrolled.2.2⟩

/-- A program between the two ends of a transaction. It may end with rows in
    hand that a commit can be explained by, or with an error. -/
theorem transaction_then {body : Service β} {k : β → Service α}
    (Done : β → Progress → Grip → Prop) (Failed : HttpException → Progress → Prop)
    (hbody : (deviceRules crypto calls fleet).Triple (exec crypto) c (At c p .free) body
      (fun b w => ∃ p' g', Done b p' g' ∧ At c p' g' w)
      (fun e w => ∃ p' g', Failed e p' ∧ At c p' g' w))
    (hopen : ∀ b p' g', Done b p' g' → p'.committed = none)
    (hexplains : ∀ b p' g' ws, Done b p' g' → g'.Writes ws → Explains crypto (calls c) p' ws)
    (hk : ∀ b p' g' ws, Done b p' g' → g'.Writes ws →
      (deviceRules crypto calls fleet).Triple (exec crypto) c
        (At c (p'.add (.committed ws)) .free) (k b) Q E)
    (hfail : ∀ e p' w, Failed e p' → At c p' .free w → E e w) :
    (deviceRules crypto calls fleet).Triple (exec crypto) c (At c p .free)
      ((transaction body).bind k) Q E := by
  have hbegin : transaction body = (statement .begin).bind (fun _ =>
      (body.onError (fun e => (statement .rollback).bind (fun _ => .throw e))).bind
        (fun b => (statement .commit).bind (fun _ => .ret b))) := rfl
  rw [hbegin, Prog.bind_assoc]
  refine plain_then trivial (fun _ => True) (fun _ _ _ _ _ _ _ => trivial) (fun _ _ => ?_)
  rw [Prog.bind_assoc]
  refine .bind (.onError hbody (fun e => ?_)) (fun b => ?_)
  -- Thrown inside: rolled back, and thrown on.
  · refine .exists (fun p' => .exists (fun g' => .pure (fun hf => ?_)))
    exact rollback_then (.throw (fun w _ ha => hfail e p' w hf ha))
  · refine .exists (fun p' => .exists (fun g' => .pure (fun hd => ?_)))
    rw [Prog.bind_assoc]
    exact commit_then (hopen b p' g' hd) (fun ws hws => hexplains b p' g' ws hd hws)
      (fun ws hws => hk b p' g' ws hd hws)

/-! ## Sockets -/

/-- The identity of a socket is noted, after its token was let through. -/
theorem setSocketData_then {token : Option String} {d : Device} {x : DeviceCredential}
    {context : DeviceSocketContext} {k : Unit → Service α} (hcall : calls c = .connect token)
    (hregistered : p.registered = false) (haccepts : p.Accepts d x)
    (hcontext : context = { deviceId := d.id, credentialId := x.id, publicId := d.publicId })
    (hk : (deviceRules crypto calls fleet).Triple (exec crypto) c
      (At c (p.add (.authenticated context)) g) (k ()) Q E) :
    (deviceRules crypto calls fleet).Triple (exec crypto) c (At c p g)
      ((ask (.setSocketData context)).bind k) Q E := by
  refine ask_then (o := .setSocketData context) (fun _ => p.add (.authenticated context))
    (fun _ => True) (fun w hi ha env r w' hx => ?_) (fun _ _ => hk)
  have hpair := Prod.mk.inj (Option.some.inj hx)
  rw [← hpair.2]
  have hok : EntryOk crypto calls fleet w.log ⟨c, .authenticated context⟩ := by
    rw [← ha.progress] at hregistered haccepts
    exact ⟨⟨token, hcall⟩, hregistered, d, x, haccepts, hcontext⟩
  refine ⟨hi.step rfl hok (by rw [replay, ← hi.tables]; rfl) hi.distinct (fun s => ?_) rfl,
    ⟨⟨_, rfl⟩, .refl _ _, .refl _ _, .refl _ _⟩, trivial, ?_, ha.devices, ha.enrollments,
    ha.credentials⟩
  -- The identity is that of this socket alone.
  · by_cases hs : s = c
    · rw [hs, progress_own]
      simp only [World.setSocket, World.record, Function.update_self, Progress.add]
    · rw [progress_other (fun hc => hs hc.symm)]
      simp only [World.setSocket, World.record, Function.update_of_ne hs]
      exact hi.contexts s
  · simp only [World.record, World.setSocket, progress_own, ha.progress]

/-- The entries that change the registered sockets. -/
def Event.IsMove : Event → Prop
  | .registered _ => True
  | .unregistered _ _ => True
  | .closed _ => True
  | _ => False

/-- An operation that changes the registered sockets, and no row. -/
theorem At.moved {w : World} (ev : Event) (w' : World) (hi : Inv crypto calls fleet w)
    (ha : At c p g w) (hev : ev.IsMove) (hok : EntryOk crypto calls fleet w.log ⟨c, ev⟩)
    (hlog : w'.log = ⟨c, ev⟩ :: w.log) (hd : w'.devices = w.devices)
    (he : w'.enrollments = w.enrollments) (hc : w'.credentials = w.credentials)
    (hsockets : ∀ s, (w'.sockets s).device = (w.sockets s).device)
    (hconnections : w'.connections = Entry.connections ⟨c, ev⟩ w.connections) :
    Inv crypto calls fleet w' ∧ Guar c w w' ∧ At c (p.add ev) g w' := by
  -- A move of a socket is no commit and gives no identity.
  have hreplay : replay fleet (⟨c, ev⟩ :: w.log) = replay fleet w.log := by
    cases ev <;> first | rfl | exact hev.elim
  have hcontext : ∀ s, (Devices.progress s (⟨c, ev⟩ :: w.log)).context =
      (Devices.progress s w.log).context := by
    intro s
    by_cases hs : c = s
    · rw [hs, progress_own]
      cases ev <;> first | rfl | exact hev.elim
    · rw [progress_other hs]
  refine ⟨hi.step hlog hok ?_ ?_ (fun s => ?_) hconnections, ⟨⟨ev, hlog⟩, ?_, ?_, ?_⟩, ?_,
    ?_, ?_, ?_⟩
  · rw [hreplay, ← hi.tables]
    simp only [World.tables, hd, he, hc]
  · rw [hc]
    exact hi.distinct
  · rw [hsockets s, hi.contexts s, hcontext s]
  · rw [hd]
    exact .refl _ _
  · rw [he]
    exact .refl _ _
  · rw [hc]
    exact .refl _ _
  · rw [hlog, progress_own, ha.progress]
  · rw [hd]
    exact ha.devices
  · rw [he]
    exact ha.enrollments
  · rw [hc]
    exact ha.credentials

/-- A socket with an identity is registered under its device. -/
theorem register_then {deviceId : Uuid} {context : DeviceSocketContext} {k : Unit → Service α}
    (hregistered : p.registered = false) (hcontext : p.context = some context)
    (hid : context.deviceId = deviceId)
    (hk : (deviceRules crypto calls fleet).Triple (exec crypto) c
      (At c (p.add (.registered deviceId)) g) (k ()) Q E) :
    (deviceRules crypto calls fleet).Triple (exec crypto) c (At c p g)
      ((ask (.register deviceId)).bind k) Q E := by
  refine ask_then (o := .register deviceId) (fun _ => p.add (.registered deviceId))
    (fun _ => True) (fun w hi ha env r w' hx => ?_) (fun _ _ => hk)
  have hok : EntryOk crypto calls fleet w.log ⟨c, .registered deviceId⟩ := by
    rw [← ha.progress] at hregistered hcontext
    exact ⟨hregistered, context, hcontext, hid⟩
  cases hx
  rcases ha.moved (.registered deviceId) (World.record { w with
    connections := DevicePresenceService.register w.connections deviceId c } c
      (.registered deviceId)) hi trivial hok rfl rfl rfl rfl (fun _ => rfl) rfl with ⟨hi', hg, ha'⟩
  exact ⟨hi', hg, trivial, ha'⟩

/-- A socket is taken out of the registered ones, if it is there. -/
theorem unregister_then {deviceId : Uuid} {s : CallId} {k : Bool → Service α}
    (hk : ∀ r, (deviceRules crypto calls fleet).Triple (exec crypto) c (At c p g) (k r) Q E) :
    (deviceRules crypto calls fleet).Triple (exec crypto) c (At c p g)
      ((ask (.unregister deviceId s)).bind k) Q E := by
  refine ask_then (o := .unregister deviceId s) (fun _ => p) (fun _ => True)
    (fun w hi ha env r w' hx => ?_) (fun r _ => hk r)
  cases hx
  rcases ha.moved (.unregistered deviceId s) (World.record { w with
    connections := (DevicePresenceService.unregister w.connections deviceId s).2 } c
      (.unregistered deviceId s)) hi trivial trivial rfl rfl rfl rfl (fun _ => rfl) rfl with
    ⟨hi', hg, ha'⟩
  exact ⟨hi', hg, trivial, ha'⟩

/-- The sockets of a device are taken out together, by a call that may close them. -/
theorem takeConnections_then {deviceId : Uuid} {k : List CallId → Service α}
    (hmay : MayClose (calls c) p deviceId)
    (hk : ∀ sockets, (deviceRules crypto calls fleet).Triple (exec crypto) c
      (At c (p.add (.closed deviceId)) g) (k sockets) Q E) :
    (deviceRules crypto calls fleet).Triple (exec crypto) c (At c p g)
      ((ask (.takeConnections deviceId)).bind k) Q E := by
  refine ask_then (o := .takeConnections deviceId) (fun _ => p.add (.closed deviceId))
    (fun _ => True) (fun w hi ha env r w' hx => ?_) (fun r _ => hk r)
  have hok : EntryOk crypto calls fleet w.log ⟨c, .closed deviceId⟩ := by
    rw [← ha.progress] at hmay
    exact hmay
  cases hx
  rcases ha.moved (.closed deviceId) (World.record { w with
    connections := (DevicePresenceService.take w.connections deviceId).2 } c (.closed deviceId))
    hi trivial hok rfl rfl rfl rfl (fun _ => rfl) rfl with ⟨hi', hg, ha'⟩
  exact ⟨hi', hg, trivial, ha'⟩

/-- What the gateway does for a socket that has closed: it is unregistered, if it
    had an identity. -/
theorem handleDisconnect_then {s : CallId} {k : Unit → Service α}
    (hk : (deviceRules crypto calls fleet).Triple (exec crypto) c (At c p g) (k ()) Q E) :
    (deviceRules crypto calls fleet).Triple (exec crypto) c (At c p g)
      ((DevicesGateway.handleDisconnect s).bind k) Q E := by
  unfold DevicesGateway.handleDisconnect
  simp only [Prog.bind_eq, Prog.bind_assoc]
  refine plainAsk_then trivial (fun _ => True) (fun _ _ _ _ _ _ _ => trivial) (fun context _ => ?_)
  cases context with
  | none => exact hk
  | some context => exact unregister_then (fun _ => hk)

/-- A socket is disconnected. If it was still open, the gateway learns of it at
    once. -/
theorem disconnectSocket_then {s : CallId} {k : Unit → Service α}
    (hk : (deviceRules crypto calls fleet).Triple (exec crypto) c (At c p g) (k ()) Q E) :
    (deviceRules crypto calls fleet).Triple (exec crypto) c (At c p g)
      ((disconnectSocket s).bind k) Q E := by
  rw [show (disconnectSocket s).bind k = (ask (.disconnect s)).bind (fun fires : Bool =>
      (if fires = true then DevicesGateway.handleDisconnect s else .ret ()).bind k)
    from Prog.bind_assoc _ _ _]
  refine plainAsk_then trivial (fun _ => True) (fun _ _ _ _ _ _ _ => trivial) (fun fires _ => ?_)
  cases fires with
  | false => exact hk
  | true => exact handleDisconnect_then hk

/-- All sockets of a device are closed: they are taken out of the register first,
    and then disconnected one after another. -/
theorem disconnectDevice_then {deviceId : Uuid} {k : Nat → Service α}
    (hmay : MayClose (calls c) p deviceId)
    (hk : ∀ n, (deviceRules crypto calls fleet).Triple (exec crypto) c
      (At c (p.add (.closed deviceId)) g) (k n) Q E) :
    (deviceRules crypto calls fleet).Triple (exec crypto) c (At c p g)
      ((DevicePresenceService.disconnectDevice deviceId).bind k) Q E := by
  -- Disconnecting a socket leaves no entry of this call.
  have heach : ∀ sockets {p' : Progress} {k' : Unit → Service α},
      (deviceRules crypto calls fleet).Triple (exec crypto) c (At c p' g) (k' ()) Q E →
      (deviceRules crypto calls fleet).Triple (exec crypto) c (At c p' g)
        ((DevicePresenceService.disconnectEach sockets).bind k') Q E := by
    intro sockets p' k' hk'
    induction sockets with
    | nil => exact hk'
    | cons s sockets ih =>
        rw [show (DevicePresenceService.disconnectEach (s :: sockets)).bind k' =
          (disconnectSocket s).bind
            (fun _ => (DevicePresenceService.disconnectEach sockets).bind k')
          from Prog.bind_assoc _ _ _]
        exact disconnectSocket_then ih
  unfold DevicePresenceService.disconnectDevice
  simp only [Prog.bind_eq, Prog.bind_assoc]
  exact takeConnections_then hmay (fun sockets => heach sockets (hk _))

end Programs

end RemoteControl.Devices

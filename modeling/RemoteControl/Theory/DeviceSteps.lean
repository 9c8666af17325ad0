import RemoteControl.Theory.DeviceHistory

/-!
# The Steps of a Device Call

The operations of the device services under their rules, one rule for each,
from what a call knows before it to what it knows after. The assertion is
`At c p g`: call `c` has come as far as `p`, and its transaction holds the
rows `g`. The other calls can change neither.

An operation is one of three kinds. It may only leave a note in the history
(`Noted`), it may lock or write rows of the call's own transaction, or it may
end the transaction. The rules for the first kind are here, and those for the
other two in `Theory.DeviceOperations`.

A rule of this module is a triple of the rely-guarantee logic with the program
that comes after it. The assertion before an operation is stable, so it does
not matter what the others do until it runs (`At.stable`). What they promise
each other is little: each operation adds one entry, and leaves the rows alone
that others hold (`Guar`).

What a statement has done is read off its definition once (`exec_updateDevice`
and the others), as a table that an operation on tables has returned.
Everything else about rows is then a lemma about that operation on tables.

## Main definitions

* `Grip`, `At`: What a call holds and how far it has come.
* `Noted`: The operation has changed no row and no registration.
* `Grip.Writes`: What a commit of the held rows writes.

## Theorems

* `At.stable`: What survives the others.
* `At.quiet`, `At.noted`: An operation that commits nothing.
* `exec_updateDevice`, `exec_lockEnrollment` and the like: What a statement
  has done that locks or writes rows.
* `statement_then`, `ask_then`: An operation and the program after it.
* `plain_then`, `plainAsk_then`: Operations that are only recorded.
* `progress_context`, `replay_note`: What a note leaves alone.
* `exec_plain`: The operations that are only recorded.
* `orFail_then`, `pause_then`: The other ways to go on.
-/

namespace RemoteControl.Devices

open Concurrency

/-- The rows the transaction of a call holds. -/
structure Grip where
  devices : Uuid → Option (Held Device)
  enrollments : Uuid → Option (Held DeviceEnrollment)
  credentials : Uuid → Option (Held DeviceCredential)

/-- Nothing is held. -/
def Grip.free : Grip :=
  { devices := fun _ => none, enrollments := fun _ => none, credentials := fun _ => none }

/-- What a commit writes when the transaction holds these rows. -/
structure Grip.Writes (g : Grip) (ws : Writes) : Prop where
  devices : ∀ w, w ∈ ws.devices ↔ g.devices w.key = some ⟨w.old, some w.new⟩
  enrollments : ∀ w, w ∈ ws.enrollments ↔ g.enrollments w.key = some ⟨w.old, some w.new⟩
  credentials : ∀ w, w ∈ ws.credentials ↔ g.credentials w.key = some ⟨w.old, some w.new⟩

/-- Call `c` has come as far as `p`, and its transaction holds `g`. -/
structure At (c : CallId) (p : Progress) (g : Grip) (w : World) : Prop where
  progress : progress c w.log = p
  devices : w.devices.HoldsRows c g.devices
  enrollments : w.enrollments.HoldsRows c g.enrollments
  credentials : w.credentials.HoldsRows c g.credentials

variable {crypto : Crypto} {calls : CallId → Call} {fleet : List Device}

/-- The others add entries that are not of this call, and leave the rows alone
    that it holds. -/
theorem At.stable {c : CallId} {p : Progress} {g : Grip} :
    (deviceRules crypto calls fleet).Stable c (At c p g) := by
  intro u w w' huc _ _ hg h
  have hne : some u ≠ some c := fun hc => huc (Option.some.inj hc)
  refine ⟨?_, h.devices.frame hg.devices hne, h.enrollments.frame hg.enrollments hne,
    h.credentials.frame hg.credentials hne⟩
  rcases hg.entry with ⟨ev, hlog⟩
  rw [hlog, progress_other huc]
  exact h.progress

/-! ## One operation -/

/-- An entry that changes neither the committed rows, nor the registered
    sockets, nor the identity of a socket. -/
def Event.IsNote : Event → Prop
  | .ran _ => True
  | .told _ => True
  | .verified _ => True
  | .listed _ => True
  | .passed _ => True
  | .found _ => True
  | .shownDevice _ => True
  | .shownCredential _ => True
  | _ => False

/-- A note changes no identity of a socket. -/
theorem progress_context {c s : CallId} {ev : Event} {l : List Entry} (hev : ev.IsNote) :
    (progress s (⟨c, ev⟩ :: l)).context = (progress s l).context := by
  by_cases hc : c = s
  · rw [hc, progress_own]
    cases ev <;> first | rfl | exact hev.elim
  · rw [progress_other hc]

/-- A note changes no committed row. -/
theorem replay_note {c : CallId} {ev : Event} {l : List Entry} (hev : ev.IsNote) :
    replay fleet (⟨c, ev⟩ :: l) = replay fleet l := by
  cases ev <;> first | rfl | exact hev.elim

/-- An operation that leaves a note, and may lock or write rows for its own
    transaction. -/
theorem At.quiet {c : CallId} {w : World} {p : Progress} {g : Grip} {ev : Event} (w' : World)
    (g' : Grip) (hi : Inv crypto calls fleet w) (ha : At c p g w)
    (hlog : w'.log = ⟨c, ev⟩ :: w.log) (hev : ev.IsNote)
    (hok : EntryOk crypto calls fleet w.log ⟨c, ev⟩)
    (hcd : w'.devices.committed = w.devices.committed)
    (hce : w'.enrollments.committed = w.enrollments.committed)
    (hcc : w'.credentials.committed = w.credentials.committed)
    (hdistinct : w'.credentials.DistinctHowever deviceCredentialIndexes)
    (hsockets : ∀ s, (w'.sockets s).device = (w.sockets s).device)
    (hconnections : w'.connections = w.connections)
    (hud : Table.Untouched (some c) w.devices w'.devices)
    (hue : Table.Untouched (some c) w.enrollments w'.enrollments)
    (huc : Table.Untouched (some c) w.credentials w'.credentials)
    (hhd : w'.devices.HoldsRows c g'.devices) (hhe : w'.enrollments.HoldsRows c g'.enrollments)
    (hhc : w'.credentials.HoldsRows c g'.credentials) :
    Inv crypto calls fleet w' ∧ Guar c w w' ∧ At c (p.add ev) g' w' := by
  -- The state is the one the longer history leads to.
  have hi' : Inv crypto calls fleet w' := by
    refine hi.step hlog hok ?_ hdistinct (fun s => ?_) ?_
    · rw [replay_note hev, ← hi.tables]
      simp only [World.tables, hcd, hce, hcc]
    · rw [hsockets s, hi.contexts s, progress_context hev]
    · rw [hconnections]
      cases ev <;> first | rfl | exact hev.elim
  refine ⟨hi', ⟨⟨ev, hlog⟩, hud, hue, huc⟩, ?_, hhd, hhe, hhc⟩
  rw [hlog, progress_own, ha.progress]

/-- The operation has left a note, and changed no row and no registration. -/
structure Noted (c : CallId) (ev : Event) (w w' : World) : Prop where
  log : w'.log = ⟨c, ev⟩ :: w.log
  devices : w'.devices = w.devices
  enrollments : w'.enrollments = w.enrollments
  credentials : w'.credentials = w.credentials
  sockets : ∀ s, (w'.sockets s).device = (w.sockets s).device
  connections : w'.connections = w.connections

/-- To add the entry, and nothing else, is to leave a note. -/
theorem Noted.record {c : CallId} {ev : Event} {w : World} : Noted c ev w (w.record c ev) :=
  ⟨rfl, rfl, rfl, rfl, fun _ => rfl, rfl⟩

/-- An operation that only leaves a note. -/
theorem At.noted {c : CallId} {w w' : World} {p : Progress} {g : Grip} (ev : Event)
    (hi : Inv crypto calls fleet w) (ha : At c p g w) (hn : Noted c ev w w') (hev : ev.IsNote)
    (hok : EntryOk crypto calls fleet w.log ⟨c, ev⟩) :
    Inv crypto calls fleet w' ∧ Guar c w w' ∧ At c (p.add ev) g w' := by
  refine ha.quiet w' g hi hn.log hev hok ?_ ?_ ?_ ?_ hn.sockets hn.connections ?_ ?_ ?_ ?_ ?_ ?_
  · rw [hn.devices]
  · rw [hn.enrollments]
  · rw [hn.credentials]
  · rw [hn.credentials]
    exact hi.distinct
  · rw [hn.devices]
    exact .refl _ _
  · rw [hn.enrollments]
    exact .refl _ _
  · rw [hn.credentials]
    exact .refl _ _
  · rw [hn.devices]
    exact ha.devices
  · rw [hn.enrollments]
    exact ha.enrollments
  · rw [hn.credentials]
    exact ha.credentials

/-- What the transaction holds is what is committed. -/
theorem At.enrollment {c : CallId} {p : Progress} {g : Grip} {w : World} (h : At c p g w)
    {k : Uuid} {hd : Held DeviceEnrollment} (hg : g.enrollments k = some hd) :
    w.tables.enrollments k = hd.committed := h.enrollments.committed_eq hg

/-! ## Statements that lock or write rows

What such a statement has done if it did not have to wait. Nothing else is
said about the statements below, so that a proof about all of them need not
look into the way they run.
-/

section Statements

variable {c : CallId} {env : Env} {w w' : World}

/-- The patch is refused for its null, or the row is updated if it is there. -/
theorem exec_updateDevice {id : Uuid} {patch : DevicePatch} {r : Except PostgresError Bool}
    (h : exec crypto c env (.updateDevice id patch) w = some (r, w')) :
    ((∃ error, r = .error error) ∧ w' = w.record c (.ran (.updateDevice id patch))) ∨
      patch.isActive ≠ some none ∧ ∃ affected t, r = .ok affected ∧
        w.devices.update (some c) id (fun _ => true) (fun d => (patch.apply d).getD d) =
          some (affected, t) ∧
        w' = { w with devices := t }.record c (.ran (.updateDevice id patch)) := by
  simp only [exec, runUpdateDevice] at h
  split at h
  · cases h
    exact .inl ⟨⟨_, rfl⟩, rfl⟩
  · rename_i hnull
    split at h
    · cases h
    · rename_i affected t hupdate
      cases h
      exact .inr ⟨hnull, affected, t, rfl, hupdate, rfl⟩

/-- The lock waits until the row is free, and returns it if it still meets the
    condition. -/
theorem exec_lockEnrollment {id deviceId : Uuid} {now : Timestamp} {r : Option DeviceEnrollment}
    (h : exec crypto c env (.lockEnrollment id deviceId now) w = some (r, w')) :
    ∃ t, w.enrollments.selectForUpdate c id
        (fun e => decide (e.deviceId = deviceId) && e.isPending now) = some (r, t) ∧
      w' = { w with enrollments := t }.record c
        (foundEvent (.lockEnrollment id deviceId now) r) := by
  simp only [exec] at h
  split at h
  · cases h
  · rename_i found t hlock
    cases h
    exact ⟨t, hlock, rfl⟩

/-- A row that the statement has passed leaves an entry of its own. -/
theorem exec_revokeEnrollment {id deviceId : Uuid} {now : Timestamp} {r : Bool}
    (h : exec crypto c env (.revokeEnrollment id deviceId now) w = some (r, w')) :
    ∃ t, w.enrollments.update (some c) id
        (fun e => decide (e.deviceId = deviceId) && e.isUnsettled) (fun e => e.revoke now) =
          some (r, t) ∧
      w' = { w with enrollments := t }.record c
        (if r then .ran (.revokeEnrollment id deviceId now) else .passed id) := by
  simp only [exec, runRevokeEnrollment] at h
  split at h
  · cases h
  · rename_i affected t hupdate
    cases h
    exact ⟨t, hupdate, rfl⟩

/-- The table has no unique index, so the insertion cannot be refused. -/
theorem exec_insertEnrollment {draft : DeviceEnrollmentDraft} {r : DeviceEnrollment}
    (h : exec crypto c env (.insertEnrollment draft) w = some (r, w')) :
    r = draft.toRow env.newId env.createdAt ∧
      ∃ t, w.enrollments.insert ([] : List (UniqueIndex DeviceEnrollment Uuid)) (some c) env.newId
          (draft.toRow env.newId env.createdAt) = some (.ok (), t) ∧
        w' = { w with enrollments := t }.record c (.ran (.insertEnrollment draft)) := by
  simp only [exec, runInsertEnrollment] at h
  split at h
  · rename_i u t hinsert
    cases h
    exact ⟨rfl, t, hinsert, rfl⟩
  · cases h

/-- An update of an enrollment waits until the row is free, and then writes it. -/
theorem runUpdateEnrollment_cases {o : Op} {id : Uuid} {p : DeviceEnrollment → Bool}
    {f : DeviceEnrollment → DeviceEnrollment} {r : Bool}
    (h : runUpdateEnrollment c o id p f w = some (r, w')) :
    ∃ t, w.enrollments.update (some c) id p f = some (r, t) ∧
      w' = { w with enrollments := t }.record c (.ran o) := by
  simp only [runUpdateEnrollment] at h
  split at h
  · cases h
  · rename_i affected t hupdate
    cases h
    exact ⟨t, hupdate, rfl⟩

/-- Likewise for a credential. -/
theorem runUpdateCredential_cases {o : Op} {id : Uuid} {p : DeviceCredential → Bool}
    {f : DeviceCredential → DeviceCredential} {r : Bool}
    (h : runUpdateCredential c o id p f w = some (r, w')) :
    ∃ t, w.credentials.update (some c) id p f = some (r, t) ∧
      w' = { w with credentials := t }.record c (.ran o) := by
  simp only [runUpdateCredential] at h
  split at h
  · cases h
  · rename_i affected t hupdate
    cases h
    exact ⟨t, hupdate, rfl⟩

/-- The index refuses the credential, or it is inserted. -/
theorem exec_insertCredential {draft : DeviceCredentialDraft}
    {r : Except PostgresError DeviceCredential}
    (h : exec crypto c env (.insertCredential draft) w = some (r, w')) :
    ((∃ error, r = .error error) ∧ w' = w.record c (.ran (.insertCredential draft))) ∨
      r = .ok (draft.toRow env.newId env.createdAt) ∧
        ∃ t, w.credentials.insert deviceCredentialIndexes (some c) env.newId
            (draft.toRow env.newId env.createdAt) = some (.ok (), t) ∧
          w' = { w with credentials := t }.record c (.ran (.insertCredential draft)) := by
  simp only [exec, runInsertCredential] at h
  split at h
  · cases h
  · cases h
    exact .inl ⟨⟨_, rfl⟩, rfl⟩
  · rename_i u t hinsert
    cases h
    exact .inr ⟨rfl, t, hinsert, rfl⟩

/-- The note that a credential was used is a transaction of its own. -/
theorem exec_touchCredential {id : Uuid} {now : Timestamp} {r : Bool}
    (h : exec crypto c env (.touchCredential id now) w = some (r, w')) :
    ∃ t, w.credentials.update (some c) id (fun _ => true)
        (fun k => { k with lastUsedAt := some now }) = some (r, t) ∧
      w' = { w with credentials := t.commit c }.record c
        (.committed { devices := [], enrollments := [], credentials := t.writes c }) := by
  simp only [exec, runTouchCredential] at h
  split at h
  · cases h
  · rename_i affected t hupdate
    cases h
    exact ⟨t, hupdate, rfl⟩

end Statements

/-! ## Programs, one step at a time -/

section Programs

variable {c : CallId} {p : Progress} {g : Grip} {α β : Type} {Q : α → World → Prop}
  {E : HttpException → World → Prop}

/-- A statement and what follows it. What the call learns from it (`φ`) may
    speak of something the statement found (`b`). -/
theorem statement_then {o : Op} {k : Resp o → Service α} (p' : Resp o → β → Progress)
    (g' : Resp o → β → Grip) (φ : Resp o → β → Prop)
    (hdoes : ∀ w, Inv crypto calls fleet w → At c p g w → ∀ env r w',
      exec crypto c env o w = some (r, w') → Inv crypto calls fleet w' ∧ Guar c w w' ∧
        ∃ b, φ r b ∧ At c (p' r b) (g' r b) w')
    (hk : ∀ r b, φ r b → (deviceRules crypto calls fleet).Triple (exec crypto) c
      (At c (p' r b) (g' r b)) (k r) Q E) :
    (deviceRules crypto calls fleet).Triple (exec crypto) c (At c p g)
      ((statement o).bind k) Q E := by
  refine .await At.stable (.op (fun r w => ∃ b, φ r b ∧ At c (p' r b) (g' r b) w)
    (fun _ _ _ => trivial) hdoes (fun r => ?_))
  exact .exists (fun b => .pure (fun hφ => .await At.stable (hk r b hφ)))

/-- What is answered at once, and what follows it in the same segment. -/
theorem ask_then {o : Op} {k : Resp o → Service α} (p' : Resp o → Progress) (φ : Resp o → Prop)
    (hdoes : ∀ w, Inv crypto calls fleet w → At c p g w → ∀ env r w',
      exec crypto c env o w = some (r, w') → Inv crypto calls fleet w' ∧ Guar c w w' ∧
        φ r ∧ At c (p' r) g w')
    (hk : ∀ r, φ r → (deviceRules crypto calls fleet).Triple (exec crypto) c
      (At c (p' r) g) (k r) Q E) :
    (deviceRules crypto calls fleet).Triple (exec crypto) c (At c p g) ((ask o).bind k) Q E :=
  .op (fun r w => φ r ∧ At c (p' r) g w) (fun _ _ _ => trivial) hdoes (fun r => .pure (hk r))

/-- A pause lets the others run, and nothing that the call knows is changed by
    them. -/
theorem pause_then {k : Unit → Service α}
    (hk : (deviceRules crypto calls fleet).Triple (exec crypto) c (At c p g) (k ()) Q E) :
    (deviceRules crypto calls fleet).Triple (exec crypto) c (At c p g)
      (Prog.pause.bind k) Q E := .await At.stable hk

/-- A value that was not found is an error, which the source throws at this point. -/
theorem orFail_then {found : Option β} {e : HttpException} {k : β → Service α} {P : World → Prop}
    (hnone : found = none → ∀ w, Inv crypto calls fleet w → P w → E e w)
    (hk : ∀ b, found = some b →
      (deviceRules crypto calls fleet).Triple (exec crypto) c P (k b) Q E) :
    (deviceRules crypto calls fleet).Triple (exec crypto) c P ((orFail found e).bind k) Q E := by
  cases found with
  | none => exact .throw (hnone rfl)
  | some b => exact hk b rfl

/-! ### Operations that leave a note -/

/-- The operations that are only recorded. -/
def Op.IsPlain : Op → Prop
  | .randomInt _ _ => True
  | .randomBytes _ => True
  | .bcryptHash _ => True
  | .bcryptCompare _ _ => True
  | .signToken _ => True
  | .begin => True
  | .pendingEnrollments _ _ => True
  | .activeCredentials _ => True
  | .socketData _ => True
  | .establish => True
  | .isDisconnected => True
  | .disconnect _ => True
  | .emitConnected _ _ => True
  | .transportClosed _ => True
  | .isOnline _ => True
  | _ => False

/-- Changing a socket in anything but its identity. -/
theorem setSocket_device {w : World} {s s' : CallId} {socket : Socket}
    (h : socket.device = (w.sockets s).device) :
    ((w.setSocket s socket).sockets s').device = (w.sockets s').device := by
  simp only [World.setSocket]
  by_cases hs : s' = s
  · rw [hs, Function.update_self]
    exact h
  · rw [Function.update_of_ne hs]

/-- An operation that is only recorded leaves a note. -/
theorem exec_plain {env : Env} {o : Op} {w w' : World} {r : Resp o} (ho : o.IsPlain)
    (h : exec crypto c env o w = some (r, w')) : Noted c (.ran o) w w' := by
  cases o
  -- A handshake may open the socket, which is not its identity.
  case establish =>
    simp only [exec] at h
    split at h
    · cases h
      exact .record
    · cases h
      exact ⟨rfl, rfl, rfl, rfl, fun s => setSocket_device rfl, rfl⟩
  case disconnect =>
    cases h
    exact ⟨rfl, rfl, rfl, rfl, fun s => setSocket_device rfl, rfl⟩
  case transportClosed =>
    cases h
    exact ⟨rfl, rfl, rfl, rfl, fun s => setSocket_device rfl, rfl⟩
  all_goals
    first
    | exact ho.elim
    | cases h; exact .record

/-- A statement that is only recorded, and what is known of its answer. -/
theorem plain_then {o : Op} {k : Resp o → Service α} (ho : o.IsPlain) (φ : Resp o → Prop)
    (hφ : ∀ w env r w', Inv crypto calls fleet w → At c p g w →
      exec crypto c env o w = some (r, w') → φ r)
    (hk : ∀ r, φ r → (deviceRules crypto calls fleet).Triple (exec crypto) c (At c p g) (k r)
      Q E) :
    (deviceRules crypto calls fleet).Triple (exec crypto) c (At c p g)
      ((statement o).bind k) Q E := by
  refine statement_then (β := Unit) (fun _ _ => p) (fun _ _ => g) (fun r _ => φ r)
    (fun w hi ha env r w' hx => ?_) (fun r _ => hk r)
  rcases ha.noted (.ran o) hi (exec_plain ho hx) trivial trivial with ⟨hi', hg, ha'⟩
  exact ⟨hi', hg, (), hφ w env r w' hi ha hx, ha'⟩

/-- The same for what is answered at once. -/
theorem plainAsk_then {o : Op} {k : Resp o → Service α} (ho : o.IsPlain) (φ : Resp o → Prop)
    (hφ : ∀ w env r w', Inv crypto calls fleet w → At c p g w →
      exec crypto c env o w = some (r, w') → φ r)
    (hk : ∀ r, φ r → (deviceRules crypto calls fleet).Triple (exec crypto) c (At c p g) (k r)
      Q E) :
    (deviceRules crypto calls fleet).Triple (exec crypto) c (At c p g) ((ask o).bind k) Q E := by
  refine ask_then (fun _ => p) φ (fun w hi ha env r w' hx => ?_) hk
  rcases ha.noted (.ran o) hi (exec_plain ho hx) trivial trivial with ⟨hi', hg, ha'⟩
  exact ⟨hi', hg, hφ w env r w' hi ha hx, ha'⟩

end Programs

end RemoteControl.Devices

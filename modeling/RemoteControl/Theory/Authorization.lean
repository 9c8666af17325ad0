import RemoteControl.Theory.Sockets
import RemoteControl.Theory.Tokens

/-!
# Sockets and Their Authorization

An open socket does not check its authorization again. So a call that takes
the authorization away, an activation or a deactivation, closes the sockets of
the device when it has committed. It closes those that are registered then.

A connection that is still on its way is not. It has been let through, but it
goes on in a later tick, and joins a room, before it registers. If the
authorization is taken away meanwhile, and the sockets are closed, it registers
afterwards, and stays.

`authorization_outlived` says that this is the only way. No socket outlives its
authorization in exactly the runs in which no connection is overtaken between
what it reads and its registration.

One direction looks at the moment of the registration, where a lost
authorization would be outlived at once. The other takes a socket that has
outlived its authorization. It was registered after its device's sockets were
last closed, because they were all taken out then. So the loss came before the
registration, and after the connection had read what it goes by, since it read
a credential in force and an active device.

## Main definitions

* `LostCredential`, `LostDevice`: The authorization was taken away, and the
  sockets were closed.
* `NoneOutlives`: What is expected of the sockets.
* `NotOvertaken`: The runs that meet it.
* `Revokes`: The commit revokes the credential.

## Theorems

* `authorization_outlived`: No socket outlives its authorization in exactly
  these runs.
* `revoked_of_committed`, `shown_before_lost`, `shown_before_inactive`: What
  was shown to be in force was not lost by then.
* `closed_before_registered`: The sockets were closed before the registration.
* `noneOutlives_of_notOvertaken`, `notOvertaken_of_noneOutlives`: The two
  directions.
* `Reachable.lost_of_activation`, `Reachable.lost_of_update`: What a call that
  has returned has taken away.
-/

namespace RemoteControl.Devices

open Concurrency

/-- The commit revokes the credential. -/
def Revokes (credentialId : Uuid) (ws : Writes) : Prop :=
  ∃ w ∈ ws.credentials, w.key = credentialId ∧ w.new.isActive = false

/-- A call that had revoked the credential has closed the sockets of the
    device, at a moment of this kind. -/
def LostCredential (moment : List Entry → Prop) (l : List Entry) (d credentialId : Uuid) : Prop :=
  ∃ a l₁, ⟨a, .closed d⟩ :: l₁ <:+ l ∧ moment l₁ ∧ CommittedWith (Revokes credentialId) l₁ a

/-- An update has closed the sockets of the device, at a moment of this kind,
    and the device has not been active since. -/
def LostDevice (calls : CallId → Call) (fleet : List Device) (moment : List Entry → Prop)
    (l : List Entry) (d : Uuid) : Prop :=
  ∃ u l₁, ⟨u, .closed d⟩ :: l₁ <:+ l ∧ moment l₁ ∧ (∃ dto, calls u = .update d dto) ∧
    ∀ l', l₁ <:+ l' → l' <:+ l → ∀ x, (replay fleet l').devices d = some x → x.isActive = false

/-- At no moment is there a registered socket, not closed, whose credential
    was lost, or whose device was. -/
def NoneOutlives (calls : CallId → Call) (fleet : List Device) (log : List Entry) : Prop :=
  ∀ l, l <:+ log → ∀ d s, Registered (replayConnections l) d s → ¬ Gone l s →
    ∀ context, (progress s l).context = some context →
      ¬ LostCredential (fun _ => True) l d context.credentialId ∧
      ¬ LostDevice calls fleet (fun _ => True) l d

/-- When a connection registers a socket that is not closed, its credential
    was not lost after the connection had read it, and its device was not lost
    after the connection had read that. -/
def NotOvertaken (calls : CallId → Call) (fleet : List Device) (log : List Entry) : Prop :=
  ∀ s d l, ⟨s, .registered d⟩ :: l <:+ log → ¬ Gone l s →
    ∀ context, (progress s l).context = some context →
      ¬ LostCredential (fun l₁ => ∃ k, ⟨s, .shownCredential k⟩ ∈ l₁ ∧ k.id = context.credentialId)
        l d context.credentialId ∧
      ¬ LostDevice calls fleet (fun l₁ => ∃ x, ⟨s, .shownDevice x⟩ ∈ l₁ ∧ x.id = d) l d

variable {crypto : Crypto} {calls : CallId → Call} {fleet : List Device} {c : CallId}

/-! ## Losing an authorization -/

/-- What was lost is lost later on. -/
theorem LostCredential.mono {moment moment' : List Entry → Prop} {l l' : List Entry} {d k : Uuid}
    (h : LostCredential moment l d k) (hl : l <:+ l') (hm : ∀ l₁, moment l₁ → moment' l₁) :
    LostCredential moment' l' d k := by
  rcases h with ⟨a, l₁, hl₁, hmoment, hrevoked⟩
  exact ⟨a, l₁, hl₁.trans hl, hm l₁ hmoment, hrevoked⟩

/-- A credential that was lost is not in force any more. -/
theorem revoked_of_committed {l : List Entry} (h : History crypto calls fleet l) {k : Uuid}
    (hc : CommittedWith (Revokes k) l c) :
    ∃ r, (replay fleet l).credentials k = some r ∧ r.isActive = false := by
  refine h.induction (P := fun l => CommittedWith (Revokes k) l c →
    ∃ r, (replay fleet l).credentials k = some r ∧ r.isActive = false) ?_ ?_ ?_ hc
  · rintro ⟨ws, hws, _⟩
    simp only [progress, Progress.start, reduceCtorEq] at hws
  · intro c' ev l _ _ hev ih hc
    -- An entry that commits nothing changes neither side.
    rw [committedWith_note hev] at hc
    rw [replay_of_note hev]
    exact ih hc
  -- The credential is revoked by this commit, or it was before and stays so.
  · intro c' ws l hh hopen hcur hexp ih hc
    have hx : History crypto calls fleet ([⟨c', .committed ws⟩] ++ l) := ⟨⟨hopen, hcur, hexp⟩, hh⟩
    rcases (committedWith_commit hopen c).mp hc with ⟨_, w, hw, rfl, hrevoked⟩ | hc
    · exact revoked_by hx hw hrevoked
    · rcases ih hc with ⟨r, hr, hrevoked⟩
      exact revoked_kept hx hr hrevoked

/-- A credential was not lost when a connection that goes by it read it. -/
theorem shown_before_lost {l l₁ : List Entry} (h : History crypto calls fleet l) {a s : CallId}
    {d : Uuid} {k : DeviceCredential} (hshown : ⟨s, .shownCredential k⟩ ∈ l)
    (hclosed : ⟨a, .closed d⟩ :: l₁ <:+ l) (hrevoked : CommittedWith (Revokes k.id) l₁ a) :
    ⟨s, .shownCredential k⟩ ∈ l₁ := by
  rcases List.append_of_mem hshown with ⟨l₂, l₀, rfl⟩
  rcases suffix_or_suffix hclosed (List.suffix_append l₂ (⟨s, .shownCredential k⟩ :: l₀))
    (fun heq => by simp only [Entry.mk.injEq, reduceCtorEq, and_false] at heq) with hbefore | hafter
  · -- It was revoked already when it was shown, and it was in force.
    have hentry : History crypto calls fleet (⟨s, .shownCredential k⟩ :: l₀) :=
      h.suffix (List.suffix_append _ _)
    rcases hentry.1 with ⟨hrow, hactive⟩
    have hl₁ : l₁ <:+ l₀ := (List.suffix_cons _ _).trans hbefore
    rcases revoked_of_committed (hentry.2.suffix hl₁) hrevoked with ⟨r, hr, hoff⟩
    -- A credential that was revoked stays so up to the reading.
    rcases hl₁ with ⟨l₃, rfl⟩
    rcases revoked_kept hentry.2 hr hoff with ⟨r', hr', hoff'⟩
    rw [hrow, Option.some.injEq] at hr'
    rw [← hr', hactive] at hoff'
    simp only [Bool.true_eq_false] at hoff'
  -- The reading is older than the closing.
  · exact hafter.subset List.mem_cons_self

/-- A device that was active when it was read had not been lost by then. -/
theorem shown_before_inactive {l l₁ : List Entry} (h : History crypto calls fleet l) {u s : CallId}
    {x : Device} (hshown : ⟨s, .shownDevice x⟩ ∈ l) (hactive : x.isActive = true)
    (hclosed : ⟨u, .closed x.id⟩ :: l₁ <:+ l)
    (hinactive : ∀ l', l₁ <:+ l' → l' <:+ l → ∀ y, (replay fleet l').devices x.id = some y →
      y.isActive = false) : ⟨s, .shownDevice x⟩ ∈ l₁ := by
  rcases List.append_of_mem hshown with ⟨l₂, l₀, rfl⟩
  rcases suffix_or_suffix hclosed (List.suffix_append l₂ (⟨s, .shownDevice x⟩ :: l₀))
    (fun heq => by simp only [Entry.mk.injEq, reduceCtorEq, and_false] at heq) with hbefore | hafter
  · have hentry : History crypto calls fleet (⟨s, .shownDevice x⟩ :: l₀) :=
      h.suffix (List.suffix_append _ _)
    -- The device has been inactive since before it was shown as active.
    have hoff := hinactive l₀ ((List.suffix_cons _ _).trans hbefore)
      ((List.suffix_cons _ _).trans (List.suffix_append _ _)) x hentry.1
    rw [hactive] at hoff
    simp only [Bool.true_eq_false] at hoff
  · exact hafter.subset List.mem_cons_self

/-! ## The sockets of a run -/

/-- An entry that is followed by another one is among what comes before the
    end of it. -/
theorem mem_between {e : Entry} {l₂ r m : List Entry} (h : e :: m <:+ l₂ ++ r) (hr : r <:+ m) :
    e ∈ l₂ := by
  rcases h with ⟨t, ht⟩
  rcases hr with ⟨t', rfl⟩
  have hsplit : (t ++ e :: t') ++ r = l₂ ++ r := by
    rw [← ht]
    simp only [List.append_assoc, List.cons_append]
  rw [← List.append_cancel_right hsplit]
  exact List.mem_append_right _ List.mem_cons_self

/-- The sockets that are registered were registered after the last time that
    those of the device were closed. -/
theorem closed_before_registered {l₂ l₁ m : List Entry} {a s : CallId} {d : Uuid}
    (hsince : ∀ e ∈ l₂, e.event ≠ .closed d)
    (h : ⟨a, .closed d⟩ :: m <:+ l₂ ++ ⟨s, .registered d⟩ :: l₁) : ⟨a, .closed d⟩ :: m <:+ l₁ := by
  rcases suffix_or_suffix h (List.suffix_append l₂ (⟨s, .registered d⟩ :: l₁))
    (fun heq => by simp only [Entry.mk.injEq, reduceCtorEq, and_false] at heq) with hbefore | hafter
  · exact hbefore
  · exact absurd rfl (hsince _ (mem_between h hafter))

/-- Where no connection is overtaken, no socket outlives its authorization. -/
theorem noneOutlives_of_notOvertaken {log : List Entry} (h : History crypto calls fleet log)
    (hnot : NotOvertaken calls fleet log) : NoneOutlives calls fleet log := by
  intro l hl d s hreg hopen context hcontext
  rcases registered_since hreg with ⟨l₂, l₁, rfl, hsince⟩
  have hh := h.suffix hl
  have hregistered : ⟨s, .registered d⟩ :: l₁ <:+ l₂ ++ ⟨s, .registered d⟩ :: l₁ :=
    List.suffix_append _ _
  have hl₁ : l₁ <:+ l₂ ++ ⟨s, .registered d⟩ :: l₁ := (List.suffix_cons _ _).trans hregistered
  rw [context_kept hh] at hcontext
  -- At its registration the connection was not overtaken.
  rcases hnot s d l₁ (hregistered.trans hl) (fun hgone => hopen (hgone.of_suffix hl₁)) context
    hcontext with ⟨hcredential, hdevice⟩
  rcases (hh.suffix hregistered).1 with ⟨_, context', hcontext', hd⟩
  rw [hcontext, Option.some.injEq] at hcontext'
  subst hcontext'
  -- The connection has read an active device and a credential in force.
  rcases authenticated_at (hh.suffix hl₁) hcontext with ⟨x, k, hx, hactive, hxid, hk, hkid⟩
  constructor
  · rintro ⟨a, m, hm, _, hrevoked⟩
    -- The socket has been registered since, so the sockets were closed before that.
    have hbefore := closed_before_registered hsince hm
    rw [← hkid] at hrevoked
    refine hcredential ⟨a, m, hbefore, ⟨k, ?_, hkid⟩, by rw [← hkid]; exact hrevoked⟩
    exact shown_before_lost (hh.suffix hl₁) hk hbefore hrevoked
  -- The same for the device, which has not been active since.
  · rintro ⟨u, m, hm, _, hcall, hinactive⟩
    have hbefore := closed_before_registered hsince hm
    have hxd : x.id = d := hxid.trans hd
    subst hxd
    have hsame : ∀ l', m <:+ l' → l' <:+ l₁ → ∀ y, (replay fleet l').devices x.id = some y →
        y.isActive = false := fun l' hm' hl' => hinactive l' hm' (hl'.trans hl₁)
    refine hdevice ⟨u, m, hbefore, ⟨x, ?_, rfl⟩, hcall, hsame⟩
    exact shown_before_inactive (hh.suffix hl₁) hx hactive hbefore hsame

/-- A connection that is overtaken outlives its authorization. -/
theorem notOvertaken_of_noneOutlives {log : List Entry} (hnone : NoneOutlives calls fleet log) :
    NotOvertaken calls fleet log := by
  intro s d l hl hopen context hcontext
  -- At the moment of its registration the socket is registered and open.
  have hreg : Registered (replayConnections (⟨s, .registered d⟩ :: l)) d s :=
    registered_register.mpr (.inl ⟨rfl, rfl⟩)
  have hopen' : ¬ Gone (⟨s, .registered d⟩ :: l) s := by
    rw [gone_cons]
    rintro (hclosed | hgone)
    · simp only [Event.closes, reduceCtorEq] at hclosed
    · exact hopen hgone
  have hcontext' : (progress s (⟨s, .registered d⟩ :: l)).context = some context := by
    rw [progress_own]
    exact hcontext
  rcases hnone _ hl d s hreg hopen' context hcontext' with ⟨hcredential, hdevice⟩
  constructor
  · exact fun hlost => hcredential (hlost.mono (List.suffix_cons _ _) (fun _ _ => trivial))
  · rintro ⟨u, m, hm, _, hcall, hinactive⟩
    refine hdevice ⟨u, m, hm.trans (List.suffix_cons _ _), trivial, hcall, fun l' hm' hl' => ?_⟩
    -- The registration itself does not touch the row of the device.
    rcases List.suffix_cons_iff.mp hl' with rfl | hl'
    · exact hinactive l ((List.suffix_cons _ _).trans hm) (List.suffix_refl _)
    · exact hinactive l' hm' hl'

/-- A call that has returned has closed the sockets. -/
theorem closed_at {l : List Entry} {d : Uuid}
    (hclosed : (progress c l).closed = some d) :
    ∃ l₁, ⟨c, .closed d⟩ :: l₁ <:+ l := by
  refine entry_of_progress (P := fun p => p.closed = some d) (Option.some_ne_none d).symm
    (fun p ev hp => ?_) hclosed
  cases ev with
  | closed d' => exact .inr (by rw [Option.some.inj hp])
  | _ => exact .inl hp

/-- After an activation has returned, the credentials it has revoked are lost. -/
theorem Reachable.lost_of_activation {sys : Calls} (h : Reachable crypto calls fleet sys)
    {a : DeviceActivationResponse} (hret : sys.threads c = .ret (.activation a)) {k : Uuid}
    (hrevoked : CommittedWith (Revokes k) sys.shared.log c) :
    LostCredential (fun _ => True) sys.shared.log a.deviceId k := by
  rcases h.done hret with ⟨dto, ws, hcall, hws, _, hclosed⟩
  rcases closed_at hclosed with ⟨l, hl⟩
  refine ⟨c, l, hl, trivial, ?_⟩
  -- It had committed by then, and it has committed nothing else.
  -- The entry of the closing is in order, so the call had committed.
  have hmay := (h.history.suffix hl).1
  simp only [EntryOk, MayClose, hcall] at hmay
  rcases hmay with ⟨ws', hws', _⟩
  rcases (List.suffix_cons _ _).trans hl with ⟨l₂, hlog⟩
  have hh := h.history
  rw [← hlog] at hh hrevoked
  rcases hrevoked with ⟨ws₀, hws₀, hrevokes⟩
  rw [committed_kept hh hws', Option.some.injEq] at hws₀
  rw [← hws₀] at hrevokes
  exact ⟨ws', hws', hrevokes⟩

/-- After an update has returned a device that is not active, that device is
    lost for as long as it is not active. -/
theorem Reachable.lost_of_update {sys : Calls} (h : Reachable crypto calls fleet sys)
    {r : DeviceResponseDto} (hret : sys.threads c = .ret (.device r))
    (hinactive : r.isActive ≠ some true) : ∃ l, ⟨c, .closed r.id⟩ :: l <:+ sys.shared.log ∧
      ((∀ l', l <:+ l' → l' <:+ sys.shared.log → ∀ x, (replay fleet l').devices r.id = some x →
        x.isActive = false) → LostDevice calls fleet (fun _ => True) sys.shared.log r.id) := by
  rcases h.done hret with ⟨dto, hcall, hclosed⟩
  rcases closed_at (hclosed hinactive) with ⟨l, hl⟩
  exact ⟨l, hl, fun hoff => ⟨c, l, hl, trivial, ⟨dto, hcall⟩, hoff⟩⟩

/-- No socket outlives its authorization in exactly the runs in which no
    connection is overtaken on its way. The sockets this speaks of are those
    registered and connected in a state, with the identity they have there, and
    the authorization is lost once the call that takes it away has returned. The
    remaining parts tie these notions to the states: what is registered and open,
    what identity a socket has, and what is lost once a call has returned. -/
theorem authorization_outlived {sys : Calls} (h : Reachable crypto calls fleet sys) :
    (NoneOutlives calls fleet sys.shared.log ↔ NotOvertaken calls fleet sys.shared.log) ∧
    (∀ d s, Registered sys.shared.connections d s ∧ (sys.shared.sockets s).disconnected = false ↔
      Registered (replayConnections sys.shared.log) d s ∧ ¬ Gone sys.shared.log s) ∧
    (∀ s, (sys.shared.sockets s).device = (progress s sys.shared.log).context) ∧
    (∀ a r, sys.threads a = .ret (.activation r) →
      ∀ k, CommittedWith (Revokes k) sys.shared.log a →
        LostCredential (fun _ => True) sys.shared.log r.deviceId k) ∧
    (∀ u r, sys.threads u = .ret (.device r) → r.isActive ≠ some true →
      ∃ l, ⟨u, .closed r.id⟩ :: l <:+ sys.shared.log ∧
        ((∀ l', l <:+ l' → l' <:+ sys.shared.log → ∀ x, (replay fleet l').devices r.id = some x →
          x.isActive = false) → LostDevice calls fleet (fun _ => True) sys.shared.log r.id)) := by
  refine ⟨⟨notOvertaken_of_noneOutlives, noneOutlives_of_notOvertaken h.history⟩, fun d s => ?_,
    h.inv.contexts, fun a r hret k hk => h.lost_of_activation hret hk,
    fun u r hret hoff => h.lost_of_update hret hoff⟩
  rw [h.inv.connections, ← h.gone_iff s, Bool.not_eq_true]

/-- A tablet that is enrolled again while it connects with its first token. -/
def enrolledAgain : CallId → Call
  | 0 => .createEnrollmentCode 7
  | 1 => activation "000123"
  | 2 => .createEnrollmentCode 7
  | 3 => activation "000456"
  | _ => .connect (some "first")

/-- The connection is let through, the second activation runs to its end, and
    the connection goes on. Its socket stays. -/
theorem enrolledAgain_stays : ∃ sys, Reachable plainCrypto enrolledAgain [tablet] sys ∧
    Registered sys.shared.connections 7 4 ∧ (sys.shared.sockets 4).disconnected = false ∧
    (∃ context, (sys.shared.sockets 4).device = some context ∧ context.credentialId = 100) ∧
    (∃ r, sys.threads 3 = .ret (.activation r) ∧ r.deviceId = 7) ∧
    CommittedWith (Revokes 100) sys.shared.log 3 := by
  have hrun : ((follow (exec plainCrypto) (boot plainCrypto enrolledAgain [tablet])
      (turns 0 13 123 50 ++ turns 1 19 0 100 ++ turns 2 13 456 60 ++ turns 4 7 0 0 ++
        turns 3 21 0 200 ++ turns 4 2 0 0)).any (fun sys =>
          decide (sys.shared.connections 7 = some [4]) && !(sys.shared.sockets 4).disconnected &&
          (sys.shared.sockets 4).device.any (fun context => decide (context.credentialId = 100)) &&
          decide ((sys.threads 3).returned = some (.activation
            { deviceId := 7, publicId := "384-729-142", name := none,
              deviceSecret := "secret" })) &&
          (progress 3 sys.shared.log).committed.any (fun ws => ws.credentials.any (fun w =>
            decide (w.key = 100 ∧ w.new.isActive = false))))) = true := by
    decide +kernel
  rcases reachable_of_follow hrun with ⟨sys, hsys, hp⟩
  simp only [Bool.and_eq_true, decide_eq_true_eq, Bool.not_eq_true', Option.any_eq_true,
    List.any_eq_true, Prog.returned_eq_some] at hp
  rcases hp with ⟨⟨⟨⟨hsockets, hopen⟩, hcontext⟩, hret⟩, ws, hws, hrevokes⟩
  exact ⟨sys, hsys, ⟨[4], hsockets, List.mem_singleton.mpr rfl⟩, hopen, hcontext, ⟨_, hret, rfl⟩,
    ws, hws, hrevokes⟩

/-- It was overtaken. In this run the condition fails. -/
theorem authorization_outlived_overtaken : ∃ sys,
    Reachable plainCrypto enrolledAgain [tablet] sys ∧
    ¬ NotOvertaken enrolledAgain [tablet] sys.shared.log := by
  rcases enrolledAgain_stays with ⟨sys, hsys, hreg, hopen, ⟨context, hcontext, hid⟩,
    ⟨r, hret, hd⟩, hrevoked⟩
  rcases authorization_outlived hsys with ⟨hiff, hstate, hidentity, hlost, _⟩
  refine ⟨sys, hsys, fun hnot => ?_⟩
  rcases (hstate 7 4).mp ⟨hreg, hopen⟩ with ⟨hreg', hgone⟩
  rw [hidentity 4] at hcontext
  refine (hiff.mpr hnot _ (List.suffix_refl _) 7 4 hreg' hgone context hcontext).1 ?_
  rw [hid, ← hd]
  exact hlost 3 r hret 100 hrevoked

/-- The socket outlives its credential. -/
theorem authorization_outlived_stays : ∃ sys,
    Reachable plainCrypto enrolledAgain [tablet] sys ∧
    ¬ NoneOutlives enrolledAgain [tablet] sys.shared.log := by
  rcases enrolledAgain_stays with ⟨sys, hsys, hreg, hopen, ⟨context, hcontext, hid⟩,
    ⟨r, hret, hd⟩, hrevoked⟩
  refine ⟨sys, hsys, fun hnone => ?_⟩
  rw [hsys.inv.connections] at hreg
  rw [hsys.inv.contexts] at hcontext
  have hgone : ¬ Gone sys.shared.log 4 := by
    rw [← hsys.gone_iff, hopen]
    exact Bool.false_ne_true
  refine (hnone _ (List.suffix_refl _) 7 4 hreg hgone context hcontext).1 ?_
  rw [hid, ← hd]
  exact hsys.lost_of_activation hret hrevoked

end RemoteControl.Devices

import RemoteControl.Theory.Enrollment

/-!
# Only the Latest Code

A technician who asks for a new code for a device makes the earlier ones
useless, or so `createEnrollmentCode` means to. It revokes the enrollments of
the device that are open and saves a new one, in one transaction. But nothing
makes two such transactions wait for each other: the update that revokes does
not see what the other one has inserted and not committed, and no index
forbids a second open enrollment.

`only_last_code` says in which runs the intention is met: those in which
every code that is still open when a new one is committed had been committed
when the update that revokes took its snapshot.

An enrollment that is settled stays as it is (`settled_kept`), so an open one
was open ever since it was committed. This is what both directions rest on.

One direction is an induction over the commits. A commit that gives out a code
either has revoked an open enrollment or found it settled, if it was among
those it listed, and it has listed those that were committed when it looked.
So if no other code has come in between, the new one is the only one that is
open. For the other direction such a code that came in between is shown to be
a second one that can be used, in the state right after the commit.

## Main definitions

* `Usable`: An enrollment whose code can still be used.
* `GivesCode`: A commit that saves an enrollment.
* `OnlyLastCode`: What is expected of the codes.
* `snapshot`, `SeesLatest`: The runs that meet it.
* `Single`: No device has two usable codes.

## Theorems

* `settled_kept`, `usable_before`: Enrollments are settled for good.
* `single_of_seesLatest`: A device has one usable code at most.
* `superseded_of_single`, `none_after_activation`: What follows from that.
* `only_last_code`: The codes are as expected in exactly these runs.
* `mem_listed`, `listed_of_usable`, `passed_not_usable`: What the update of a
  call finds, and what it passes.
* `usable_issued`, `usable_of_commit`, `usable_of_seen`: The codes that can be
  used after a commit.
* `sees_of_single`: The other direction.
-/

namespace RemoteControl.Devices

open Concurrency

/-- The enrollment is one of the device, neither used nor revoked. -/
def Usable (T : Tables) (deviceId id : Uuid) : Prop :=
  ∃ e, T.enrollments id = some e ∧ e.deviceId = deviceId ∧ e.isUnsettled = true

/-- The commit saves this enrollment for the device. -/
def GivesCode (deviceId id : Uuid) (ws : Writes) : Prop :=
  ∃ e : DeviceEnrollment, ⟨id, none, e⟩ ∈ ws.enrollments ∧ e.deviceId = deviceId

/-- A device never has two usable codes. Once a code was given out after
    another, the earlier one activates nothing any more, and right after an
    activation the device has no usable code. -/
structure OnlyLastCode (fleet : List Device) (log : List Entry) : Prop where
  unique : ∀ l, l <:+ log → ∀ deviceId id id', Usable (replay fleet l) deviceId id →
    Usable (replay fleet l) deviceId id' → id = id'
  superseded : ∀ c ws l, ⟨c, .committed ws⟩ :: l <:+ log → ∀ deviceId id id' c',
    GivesCode deviceId id' ws → CommittedWith (GivesCode deviceId id) l c' →
    ∀ c'', Consumed log id c'' → Consumed l id c''
  activated : ∀ c ws l, ⟨c, .committed ws⟩ :: l <:+ log → ∀ deviceId,
    (∃ w ∈ ws.credentials, w.old = none ∧ w.new.deviceId = deviceId) →
    ∀ id, ¬ Usable (replay fleet (⟨c, .committed ws⟩ :: l)) deviceId id

/-- The history as it was when the call looked for enrollments to revoke. -/
def snapshot (c : CallId) : List Entry → List Entry
  | [] => []
  | ⟨c', .listed _⟩ :: l => if c' = c then l else snapshot c l
  | _ :: l => snapshot c l

/-- When a code is committed, those of the device that are still open had all
    been committed when the call looked for them. -/
def SeesLatest (fleet : List Device) (log : List Entry) : Prop :=
  ∀ c ws l, ⟨c, .committed ws⟩ :: l <:+ log → ∀ deviceId id', GivesCode deviceId id' ws →
    ∀ id, Usable (replay fleet l) deviceId id →
      ∃ e, (replay fleet (snapshot c l)).enrollments id = some e

variable {crypto : Crypto} {calls : CallId → Call} {fleet : List Device} {c : CallId}

/-! ## Settled for good -/

/-- Only open enrollments are written over, and they stay with their device. -/
theorem Explains.overwrites {call : Call} {p : Progress} {ws : Writes}
    (h : Explains crypto call p ws) (hpending : ∀ e ∈ p.found, e.isUnsettled = true)
    {w : Write Uuid DeviceEnrollment} (hw : w ∈ ws.enrollments) {r : DeviceEnrollment}
    (hold : w.old = some r) : r.isUnsettled = true ∧ w.new.deviceId = r.deviceId := by
  cases h.enrollmentChange hw with
  | failed _ _ e _ he hwrite =>
      rw [hwrite] at hold ⊢
      rw [← Option.some.inj hold]
      exact ⟨hpending e he, rfl⟩
  | used _ _ _ e _ _ hact hwrite =>
      rw [hwrite] at hold ⊢
      rw [← Option.some.inj hold]
      exact ⟨hpending e hact.found, rfl⟩
  | given _ _ e _ _ hwrite =>
      rw [hwrite] at hold
      simp only [reduceCtorEq] at hold
  | superseded _ _ r' _ hr' _ hwrite =>
      rw [hwrite] at hold ⊢
      rw [← Option.some.inj hold]
      exact ⟨hr', rfl⟩

/-- What an activation has locked was open, as it was pending. -/
theorem found_unsettled {l : List Entry} (h : History crypto calls fleet l) :
    ∀ e ∈ (progress c l).found, e.isUnsettled = true := by
  intro e he
  rcases found_pending h he with ⟨_, _, _, _, hp⟩
  rw [DeviceEnrollment.isPending, Bool.and_eq_true] at hp
  exact hp.1

/-- An enrollment that is settled stays as it is. -/
theorem settled_kept {l₂ l : List Entry} (h : History crypto calls fleet (l₂ ++ l)) {id : Uuid}
    {e : DeviceEnrollment} (he : (replay fleet l).enrollments id = some e)
    (hsettled : e.isUnsettled = false) : (replay fleet (l₂ ++ l)).enrollments id = some e := by
  refine h.since_induction (P := fun l => (replay fleet l).enrollments id = some e) he
    (fun c ev l' _ _ hev ih => ?_) (fun c ws l' hh _ hcur hexp ih => ?_)
  · rw [replay_of_note hev]
    exact ih
  rcases applyWrites_current hcur.enrollments id with ⟨_, heq⟩ | ⟨w, hw, _, hold, _⟩
  · exact heq.trans ih
  · -- A settled row is not written over.
    have hopen := (hexp.overwrites (found_unsettled hh) hw (hold.symm.trans ih)).1
    rw [hsettled] at hopen
    simp only [Bool.false_eq_true] at hopen

/-- A usable enrollment was usable ever since there was a row of it. -/
theorem usable_before {l₂ l : List Entry} (h : History crypto calls fleet (l₂ ++ l))
    {deviceId id : Uuid} {e : DeviceEnrollment}
    (he : (replay fleet l).enrollments id = some e)
    (hu : Usable (replay fleet (l₂ ++ l)) deviceId id) : Usable (replay fleet l) deviceId id := by
  refine (h.since_induction (P := fun l' => (∃ r, (replay fleet l').enrollments id = some r) ∧
    (Usable (replay fleet l') deviceId id → Usable (replay fleet l) deviceId id))
    ⟨⟨e, he⟩, fun hu => hu⟩ (fun c ev l' _ _ hev ih => ?_)
    (fun c ws l' hh hopen hcur hexp ih => ?_)).2 hu
  · rw [replay_of_note hev]
    exact ih
  rcases ih with ⟨⟨r₀, hr₀⟩, ih⟩
  have hh' : History crypto calls fleet ([⟨c, .committed ws⟩] ++ l') := ⟨⟨hopen, hcur, hexp⟩, hh⟩
  refine ⟨enrollment_kept hh' hr₀, fun ⟨r, hr, hd, hopen⟩ => ih ?_⟩
  rcases applyWrites_current hcur.enrollments id with ⟨_, heq⟩ | ⟨w, hw, _, hold, hnew⟩
  · exact ⟨r, heq.symm.trans hr, hd, hopen⟩
  · have hsame : w.new = r := Option.some.inj (hnew.symm.trans hr)
    -- There was a row already, so the one that is written is not new.
    rcases hexp.overwrites (found_unsettled hh) hw (hold.symm.trans hr₀) with ⟨hopen', hd'⟩
    exact ⟨r₀, hr₀, hd'.symm.trans (hsame ▸ hd), hopen'⟩

/-- An enrollment that was settled is used by nobody any more. -/
theorem consumed_settled {l₂ l : List Entry} (h : History crypto calls fleet (l₂ ++ l))
    {id : Uuid} {e : DeviceEnrollment} (he : (replay fleet l).enrollments id = some e)
    (hsettled : e.isUnsettled = false) (hc : Consumed (l₂ ++ l) id c) : Consumed l id c := by
  refine (h.since_induction (P := fun l' => (replay fleet l').enrollments id = some e ∧
    (Consumed l' id c → Consumed l id c)) ⟨he, fun hc => hc⟩ (fun c' ev l' _ _ hev ih => ?_)
    (fun c' ws l' hh hopen hcur hexp ih => ?_)).2 hc
  · have hsame : Consumed (⟨c', ev⟩ :: l') id = Consumed l' id := committedWith_note hev
    rw [replay_of_note hev, hsame]
    exact ih
  have hh' : History crypto calls fleet ([⟨c', .committed ws⟩] ++ l') := ⟨⟨hopen, hcur, hexp⟩, hh⟩
  refine ⟨settled_kept hh' ih.1 hsettled, fun hc => ?_⟩
  rcases (committedWith_commit hopen c).mp hc with ⟨_, hused⟩ | hc
  · -- The enrollment that is used was pending.
    rcases hexp.consumes (found_unused hh) hused with ⟨_, _, _, r, _, _, hid, hact⟩
    have hrow := hcur.enrollments _ ((hact.enrollments _).mpr rfl)
    rw [hid] at hrow
    have hsame : r = e := Option.some.inj (hrow.symm.trans ih.1)
    have hfound := found_unsettled hh r hact.found
    rw [hsame, hsettled] at hfound
    simp only [Bool.false_eq_true] at hfound
  · exact ih.2 hc

/-! ## Codes that are given out -/

/-- What was there when the call looked is a part of the history. -/
theorem snapshot_suffix (c : CallId) (l : List Entry) : snapshot c l <:+ l := by
  fun_induction snapshot c l with
  | case1 => exact List.suffix_refl _
  | case2 => exact List.suffix_cons _ _
  | case3 _ _ _ _ ih => exact ih.trans (List.suffix_cons _ _)
  | case4 _ _ _ ih => exact ih.trans (List.suffix_cons _ _)

/-- A call for a new code finds the enrollments that can be used. -/
theorem mem_listed {l : List Entry} (h : History crypto calls fleet l) {deviceId id : Uuid}
    (hcall : calls c = .createEnrollmentCode deviceId) :
    id ∈ (progress c l).listed ↔ Usable (replay fleet (snapshot c l)) deviceId id := by
  induction l with
  | nil =>
      refine iff_of_false List.not_mem_nil ?_
      rintro ⟨e, he, _⟩
      simp only [snapshot, replay, Tables.initial, reduceCtorEq] at he
  | cons x l ih =>
      rcases x with ⟨c', ev⟩
      by_cases hc : c' = c
      · subst hc
        rw [progress_own]
        cases ev with
        | listed ids =>
            -- The entry of the update itself: the snapshot is what it saw.
            rcases h.1 with ⟨deviceId', hcall', hids⟩
            rw [hcall, Call.createEnrollmentCode.injEq] at hcall'
            subst hcall'
            simp only [snapshot, if_true]
            exact hids id
        | _ => exact ih h.2
      · rw [progress_other (e := ⟨c', ev⟩) hc]
        cases ev with
        | listed ids =>
            simp only [snapshot, if_neg hc]
            exact ih h.2
        | _ => exact ih h.2

/-- A code that can be used was found, if there was a row of it to find. -/
theorem listed_of_usable {l : List Entry} (h : History crypto calls fleet l) {deviceId id : Uuid}
    (hcall : calls c = .createEnrollmentCode deviceId) (hu : Usable (replay fleet l) deviceId id)
    (hrow : ∃ e, (replay fleet (snapshot c l)).enrollments id = some e) :
    id ∈ (progress c l).listed := by
  rcases hrow with ⟨e, he⟩
  rcases snapshot_suffix c l with ⟨l₂, hl⟩
  rw [mem_listed h hcall]
  rw [← hl] at h hu
  exact usable_before h he hu

/-- Who saves an enrollment of a device gives out a code for it. -/
theorem Explains.gives {call : Call} {p : Progress} {ws : Writes}
    (h : Explains crypto call p ws) {deviceId id : Uuid} (hw : GivesCode deviceId id ws) :
    ∃ now e, call = .createEnrollmentCode deviceId ∧ e.id = id ∧
      IssuesCode crypto deviceId p now e ws := by
  rcases hw with ⟨e, hw, hdevice⟩
  cases h.enrollmentChange hw with
  -- Only a new row has no version before it.
  | failed _ _ _ _ _ hwrite =>
      simp only [Write.mk.injEq, reduceCtorEq, false_and, and_false] at hwrite
  | used _ _ _ _ _ _ _ hwrite =>
      simp only [Write.mk.injEq, reduceCtorEq, false_and, and_false] at hwrite
  | superseded _ _ _ _ _ _ hwrite =>
      simp only [Write.mk.injEq, reduceCtorEq, false_and, and_false] at hwrite
  | given deviceId' now e' hcall hiss hwrite =>
      simp only [Write.mk.injEq, true_and] at hwrite
      have hsame : deviceId' = deviceId := by rw [← hiss.owner, ← hwrite.2, hdevice]
      subst hsame
      exact ⟨now, e', hcall, hwrite.1.symm, hiss⟩

/-- An enrollment that the update of a call has passed was not usable. -/
theorem passed_not_usable {l : List Entry} (h : History crypto calls fleet l) {deviceId id : Uuid}
    (hcall : calls c = .createEnrollmentCode deviceId) (hid : id ∈ (progress c l).passed) :
    (∃ e, (replay fleet l).enrollments id = some e) ∧ ¬ Usable (replay fleet l) deviceId id := by
  induction l with
  | nil => simp only [progress, Progress.start, List.not_mem_nil] at hid
  | cons x l ih =>
      -- What is not usable does not become usable again.
      have hafter : ((∃ e, (replay fleet l).enrollments id = some e) ∧
            ¬ Usable (replay fleet l) deviceId id) →
          (∃ e, (replay fleet (x :: l)).enrollments id = some e) ∧
            ¬ Usable (replay fleet (x :: l)) deviceId id := by
        rintro ⟨⟨e, he⟩, hnot⟩
        have hx : History crypto calls fleet ([x] ++ l) := h
        exact ⟨enrollment_kept hx he, fun hu => hnot (usable_before hx he hu)⟩
      rcases x with ⟨c', ev⟩
      by_cases hc : c' = c
      · subst hc
        rw [progress_own] at hid
        cases ev with
        | passed id' =>
            simp only [Progress.add, List.mem_append, List.mem_singleton] at hid
            rcases hid with hid | rfl
            · exact hafter (ih h.2 hid)
            -- The entry of the statement that has passed it.
            · rcases h.1 with ⟨deviceId', row, hcall', hrow, hpassed⟩
              rw [hcall, Call.createEnrollmentCode.injEq] at hcall'
              subst hcall'
              refine hafter ⟨⟨row, hrow⟩, ?_⟩
              rintro ⟨e, he, hd, hopen⟩
              rw [hrow, Option.some.injEq] at he
              subst he
              rw [hpassed hd] at hopen
              simp only [Bool.false_eq_true] at hopen
        | _ => exact hafter (ih h.2 hid)
      · rw [progress_other (e := ⟨c', ev⟩) hc] at hid
        exact hafter (ih h.2 hid)

section Commit

variable {ws : Writes} {l : List Entry} {deviceId id : Uuid}

/-- A commit that saves no enrollment of the device makes none usable. -/
theorem usable_of_commit (hcur : Current (replay fleet l) ws)
    (hexp : Explains crypto (calls c) (progress c l) ws) (hh : History crypto calls fleet l)
    (hnone : ¬ GivesCode deviceId id ws)
    (hu : Usable (replay fleet (⟨c, .committed ws⟩ :: l)) deviceId id) :
    Usable (replay fleet l) deviceId id := by
  rcases hu with ⟨r, hr, hd, hopen⟩
  rcases applyWrites_current hcur.enrollments id with ⟨_, heq⟩ | ⟨w, hw, hk, hold, hnew⟩
  · exact ⟨r, heq.symm.trans hr, hd, hopen⟩
  · have hsame : w.new = r := Option.some.inj (hnew.symm.trans hr)
    cases hrow : w.old with
    | none =>
        -- A new row would be a code given out.
        refine absurd ⟨r, ?_, hd⟩ hnone
        rw [← hk, ← hrow, ← hsame]
        exact hw
    | some r' =>
        rcases hexp.overwrites (found_unsettled hh) hw hrow with ⟨hopen', hd'⟩
        refine ⟨r', hold.trans hrow, ?_, hopen'⟩
        rw [← hd', hsame, hd]

/-- The code that is given out can be used, and it was not there before. -/
theorem usable_issued (hcur : Current (replay fleet l) ws)
    (hexp : Explains crypto (calls c) (progress c l) ws) (hg : GivesCode deviceId id ws) :
    Usable (replay fleet (⟨c, .committed ws⟩ :: l)) deviceId id ∧
      (replay fleet l).enrollments id = none := by
  rcases hexp.gives hg with ⟨now, e, _, rfl, hiss⟩
  have hnone := hcur.enrollments _ hiss.issued
  refine ⟨?_, hnone⟩
  rcases applyWrites_current hcur.enrollments e.id with ⟨hno, _⟩ | ⟨w, hw, _, hold, hnew⟩
  · exact absurd rfl (hno _ hiss.issued)
  -- The row under its identifier is the new one: a revoked row was there before.
  · rcases hiss.enrollments w hw with rfl | ⟨r, _, _, _, rfl⟩
    · exact ⟨e, hnew, hiss.owner, hiss.unsettled⟩
    · have hboth := hnone.symm.trans hold
      simp only [reduceCtorEq] at hboth

/-- A call that saw all the open enrollments leaves only its own. -/
theorem usable_of_seen (hcur : Current (replay fleet l) ws)
    (hexp : Explains crypto (calls c) (progress c l) ws) (hh : History crypto calls fleet l)
    {id' : Uuid} (hg : GivesCode deviceId id' ws)
    (hseen : Usable (replay fleet l) deviceId id →
      ∃ e, (replay fleet (snapshot c l)).enrollments id = some e)
    (hu : Usable (replay fleet (⟨c, .committed ws⟩ :: l)) deviceId id) : id = id' := by
  rcases hexp.gives hg with ⟨now, e, hcall, rfl, hiss⟩
  by_cases hg' : GivesCode deviceId id ws
  · rcases hg' with ⟨e', he', _⟩
    rcases hiss.enrollments _ he' with heq | ⟨r, _, _, _, heq⟩
    · exact congrArg Write.key heq
    · simp only [Write.mk.injEq, reduceCtorEq, false_and, and_false] at heq
  -- Not new, so it was usable before, and the update has visited it.
  · have hbefore := usable_of_commit hcur hexp hh hg' hu
    rcases hiss.visited id (listed_of_usable hh hcall hbefore (hseen hbefore)) with
      hpassed | ⟨w₀, hw₀, hk₀⟩
    · exact absurd hbefore (passed_not_usable hh hcall hpassed).2
    · -- It was revoked by this commit.
      rcases hu with ⟨r, hr, _, hopen⟩
      rcases applyWrites_current hcur.enrollments id with ⟨hno, _⟩ | ⟨w, hw, hk, _, hnew⟩
      · exact absurd hk₀ (hno w₀ hw₀)
      · rcases hiss.enrollments w hw with rfl | ⟨r', _, _, _, rfl⟩
        · exact hk.symm
        · rw [← Option.some.inj (hnew.symm.trans hr)] at hopen
          have hrevoked := (isUnsettled_iff.mp hopen).2
          simp only [DeviceEnrollment.revoke, reduceCtorEq] at hrevoked

end Commit

/-- An enrollment stays with its device. -/
theorem owner_kept {l₂ l : List Entry} (h : History crypto calls fleet (l₂ ++ l)) {id : Uuid}
    {e : DeviceEnrollment} (he : (replay fleet l).enrollments id = some e) :
    ∃ e', (replay fleet (l₂ ++ l)).enrollments id = some e' ∧ e'.deviceId = e.deviceId := by
  refine h.since_induction
    (P := fun l => ∃ e', (replay fleet l).enrollments id = some e' ∧ e'.deviceId = e.deviceId)
    ⟨e, he, rfl⟩ (fun c ev l' _ _ hev ih => ?_) (fun c ws l' hh _ hcur hexp ih => ?_)
  · rw [replay_of_note hev]
    exact ih
  rcases ih with ⟨e', he', hd⟩
  -- It is written over, or left as it is.
  rcases applyWrites_current hcur.enrollments id with ⟨_, heq⟩ | ⟨w, hw, _, hold, hnew⟩
  · exact ⟨e', heq.trans he', hd⟩
  · have howner := (hexp.overwrites (found_unsettled hh) hw (hold.symm.trans he')).2
    exact ⟨w.new, hnew, howner.trans hd⟩

/-- There is a row of every code that was given out. -/
theorem given_exists {l : List Entry} (h : History crypto calls fleet l) {deviceId id : Uuid}
    (hg : CommittedWith (GivesCode deviceId id) l c) :
    ∃ e, (replay fleet l).enrollments id = some e ∧ e.deviceId = deviceId := by
  refine h.induction (P := fun l => CommittedWith (GivesCode deviceId id) l c →
    ∃ e, (replay fleet l).enrollments id = some e ∧ e.deviceId = deviceId) ?_ ?_ ?_ hg
  · rintro ⟨ws, hws, _⟩
    simp only [progress, Progress.start, reduceCtorEq] at hws
  · intro c' ev l _ _ hev ih hg
    rw [committedWith_note hev] at hg
    rw [replay_of_note hev]
    exact ih hg
  · intro c' ws l hh hopen hcur hexp ih hg
    -- It was given out just now, or before.
    rcases (committedWith_commit hopen c).mp hg with ⟨_, hg⟩ | hg
    · rcases (usable_issued hcur hexp hg).1 with ⟨e, he, hd, _⟩
      exact ⟨e, he, hd⟩
    · rcases ih hg with ⟨e, he, hd⟩
      have hx : History crypto calls fleet ([⟨c', .committed ws⟩] ++ l) :=
        ⟨⟨hopen, hcur, hexp⟩, hh⟩
      rcases owner_kept hx he with ⟨e', he', hd'⟩
      exact ⟨e', he', hd'.trans hd⟩

/-! ## One usable code -/

/-- No device has two usable codes. -/
def Single (fleet : List Device) (l : List Entry) : Prop :=
  ∀ deviceId id id', Usable (replay fleet l) deviceId id →
    Usable (replay fleet l) deviceId id' → id = id'

/-- What holds of all commits holds of those up to some point. -/
theorem SeesLatest.suffix {l l' : List Entry} (h : SeesLatest fleet l) (hs : l' <:+ l) :
    SeesLatest fleet l' :=
  fun c ws l₀ hl₀ => h c ws l₀ (hl₀.trans hs)

/-- A device has one usable code at most. -/
theorem single_of_seesLatest {l : List Entry} (h : History crypto calls fleet l)
    (hsees : SeesLatest fleet l) : Single fleet l := by
  refine h.induction (P := fun l => SeesLatest fleet l → Single fleet l) ?_ ?_ ?_ hsees
  · rintro _ deviceId id id' ⟨e, he, _⟩
    simp only [replay, Tables.initial, reduceCtorEq] at he
  · intro c ev l _ _ hev ih hsees deviceId id id'
    rw [replay_of_note hev]
    exact ih (hsees.suffix (List.suffix_cons _ _)) deviceId id id'
  · intro c ws l hh _ hcur hexp ih hsees deviceId id id' hu hu'
    have hsingle := ih (hsees.suffix (List.suffix_cons _ _))
    -- Whoever gives out a code revokes what it has seen, and it has seen all.
    by_cases hg : ∃ new, GivesCode deviceId new ws
    · rcases hg with ⟨new, hg⟩
      have hseen := hsees c ws l (List.suffix_refl _) deviceId new hg
      rw [usable_of_seen hcur hexp hh hg (hseen id) hu,
        usable_of_seen hcur hexp hh hg (hseen id') hu']
    · exact hsingle deviceId id id' (usable_of_commit hcur hexp hh (fun hc => hg ⟨_, hc⟩) hu)
        (usable_of_commit hcur hexp hh (fun hc => hg ⟨_, hc⟩) hu')

/-- With one usable code at most, a commit that gives out another ends the
    earlier ones. -/
theorem superseded_of_single {l₂ l : List Entry} {ws : Writes}
    (h : History crypto calls fleet (l₂ ++ ⟨c, .committed ws⟩ :: l))
    (hsingle : Single fleet (⟨c, .committed ws⟩ :: l)) {deviceId id id' : Uuid} {c' c'' : CallId}
    (hg : GivesCode deviceId id' ws) (hearlier : CommittedWith (GivesCode deviceId id) l c')
    (hc : Consumed (l₂ ++ ⟨c, .committed ws⟩ :: l) id c'') : Consumed l id c'' := by
  have hhead : History crypto calls fleet (⟨c, .committed ws⟩ :: l) :=
    h.suffix (List.suffix_append _ _)
  rcases hhead with ⟨⟨hopen, hcur, hexp⟩, hh⟩
  rcases given_exists hh hearlier with ⟨e, he, hd⟩
  rcases usable_issued hcur hexp hg with ⟨hnew, hnone⟩
  have hne : id ≠ id' := by
    rintro rfl
    have hboth := hnone.symm.trans he
    simp only [reduceCtorEq] at hboth
  have hx : History crypto calls fleet ([⟨c, .committed ws⟩] ++ l) := ⟨⟨hopen, hcur, hexp⟩, hh⟩
  rcases owner_kept hx he with ⟨e', he', hd'⟩
  -- Another code is the usable one now, so this one is settled.
  have hsettled : e'.isUnsettled = false := by
    rw [Bool.eq_false_iff]
    intro hopen'
    exact hne (hsingle deviceId id id' ⟨e', he', hd'.trans hd, hopen'⟩ hnew)
  rcases (committedWith_commit hopen c'').mp (consumed_settled h he' hsettled hc) with
    ⟨_, hused⟩ | hc
  · -- Who gives out a code does not use one.
    rcases hexp.consumes (found_unused hh) hused with ⟨_, _, _, _, _, hcall, _⟩
    rcases hexp.gives hg with ⟨_, _, hcall', _⟩
    rw [hcall] at hcall'
    simp only [reduceCtorEq] at hcall'
  · exact hc

/-- With one usable code at most, an activation leaves none. -/
theorem none_after_activation {l : List Entry} {ws : Writes}
    (h : History crypto calls fleet (⟨c, .committed ws⟩ :: l)) (hsingle : Single fleet l)
    {deviceId id : Uuid} (hw : ∃ w ∈ ws.credentials, w.old = none ∧ w.new.deviceId = deviceId) :
    ¬ Usable (replay fleet (⟨c, .committed ws⟩ :: l)) deviceId id := by
  rcases h with ⟨⟨hopen, hcur, hexp⟩, hh⟩
  intro hu
  rcases hexp.issues hw with ⟨dto, now, device, e, k, hcall, rfl, hact⟩
  have hnone : ¬ GivesCode device.id id ws := by
    intro hg
    rcases hexp.gives hg with ⟨_, _, hcall', _⟩
    rw [hcall] at hcall'
    simp only [reduceCtorEq] at hcall'
  have hrow := hcur.enrollments _ ((hact.enrollments _).mpr rfl)
  -- The one that was usable is the one that the activation uses.
  have hsame : id = e.id := hsingle device.id id e.id (usable_of_commit hcur hexp hh hnone hu)
    ⟨e, hrow, hact.owned, found_unsettled hh e hact.found⟩
  subst hsame
  rcases hu with ⟨r, hr, _, hopen'⟩
  rcases applyWrites_current hcur.enrollments e.id with ⟨hno, _⟩ | ⟨w, hw, _, _, hnew⟩
  · exact absurd rfl (hno _ ((hact.enrollments _).mpr rfl))
  · rw [(hact.enrollments w).mp hw] at hnew
    rw [← Option.some.inj (hnew.symm.trans hr)] at hopen'
    have hused := (isUnsettled_iff.mp hopen').1
    simp only [DeviceEnrollment.use, reduceCtorEq] at hused

/-- A code that was not seen when another was given out can be used with it. -/
theorem sees_of_single {l : List Entry} {ws : Writes}
    (h : History crypto calls fleet (⟨c, .committed ws⟩ :: l))
    (hsingle : Single fleet (⟨c, .committed ws⟩ :: l)) {deviceId id id' : Uuid}
    (hg : GivesCode deviceId id' ws) (hu : Usable (replay fleet l) deviceId id) :
    ∃ e, (replay fleet (snapshot c l)).enrollments id = some e := by
  rcases h with ⟨⟨_, hcur, hexp⟩, hh⟩
  rcases usable_issued hcur hexp hg with ⟨hnew, hnone⟩
  rcases hexp.gives hg with ⟨now, e, hcall, rfl, hiss⟩
  suffices hlisted : id ∈ (progress c l).listed by
    rcases (mem_listed hh hcall).mp hlisted with ⟨r, hr, _⟩
    exact ⟨r, hr⟩
  rcases hu with ⟨r, hr, hd, hopen⟩
  by_contra hunseen
  -- Nothing is written over the code that was not seen.
  have hkept : Usable (replay fleet (⟨c, .committed ws⟩ :: l)) deviceId id := by
    refine ⟨r, ?_, hd, hopen⟩
    rcases applyWrites_current hcur.enrollments id with ⟨_, heq⟩ | ⟨w, hw, hk, hold, _⟩
    · exact heq.trans hr
    · rcases hiss.enrollments w hw with rfl | ⟨r', _, _, hlisted, rfl⟩
      · have hboth := hold.symm.trans hr
        simp only [reduceCtorEq] at hboth
      · rw [← hk] at hunseen
        exact absurd hlisted hunseen
  have hboth := hr.symm.trans (hsingle deviceId id e.id hkept hnew ▸ hnone)
  simp only [reduceCtorEq] at hboth

/-! ## The codes of a run -/

/-- A code that was replaced can be used no more, and an activation leaves
    none that can, in exactly the runs where every code that is given out saw
    those that are still open. -/
theorem only_last_code {sys : Calls} (h : Reachable crypto calls fleet sys) :
    OnlyLastCode fleet sys.shared.log ↔ SeesLatest fleet sys.shared.log := by
  have hh := h.history
  constructor
  -- What stays usable beside a new code would be a second one.
  · intro hlast c ws l hl deviceId id' hg id hu
    exact sees_of_single (hh.suffix hl) (hlast.unique _ hl) hg hu
  · intro hsees
    have hsingle : ∀ l, l <:+ sys.shared.log → Single fleet l := fun l hl =>
      single_of_seesLatest (hh.suffix hl) (hsees.suffix hl)
    refine ⟨hsingle, fun c ws l hl deviceId id id' c' hg hearlier c'' hc => ?_,
      fun c ws l hl deviceId hw id => ?_⟩
    · rcases hl with ⟨l₂, hlog⟩
      rw [← hlog] at hc
      exact superseded_of_single (hlog.symm ▸ hh) (hsingle _ ⟨l₂, hlog⟩) hg hearlier hc
    · exact none_after_activation (hh.suffix hl)
        (hsingle l ((List.suffix_cons _ _).trans hl)) hw

/-- Two technicians ask for a code for the tablet. -/
def twoTechnicians : CallId → Call := fun _ => .createEnrollmentCode 7

/-- Both codes can be used, when both calls look for open enrollments before
    either has committed. The first call is at its insertion when the second one
    looks. -/
theorem twoTechnicians_overlap : ∃ sys, Reachable plainCrypto twoTechnicians [tablet] sys ∧
    Usable (replay [tablet] sys.shared.log) 7 50 ∧
    Usable (replay [tablet] sys.shared.log) 7 60 := by
  have hrun : ((follow (exec plainCrypto) (boot plainCrypto twoTechnicians [tablet])
      (turns 0 9 123 50 ++ turns 1 13 456 60 ++ turns 0 4 123 50)).any (fun sys =>
        (sys.shared.tables.enrollments 50).any (fun e =>
          decide (e.deviceId = 7) && e.isUnsettled) &&
        (sys.shared.tables.enrollments 60).any (fun e =>
          decide (e.deviceId = 7) && e.isUnsettled))) = true := by
    decide +kernel
  rcases reachable_of_follow hrun with ⟨sys, hsys, hp⟩
  simp only [Bool.and_eq_true, Option.any_eq_true, decide_eq_true_eq] at hp
  rcases hp with ⟨⟨e, he, hd, hopen⟩, e', he', hd', hopen'⟩
  rw [hsys.inv.tables] at he he'
  exact ⟨sys, hsys, ⟨e, he, hd, hopen⟩, ⟨e', he', hd', hopen'⟩⟩

/-- The second code was committed without regard to the first. -/
theorem only_last_code_unseen : ∃ sys, Reachable plainCrypto twoTechnicians [tablet] sys ∧
    ¬ SeesLatest [tablet] sys.shared.log := by
  rcases twoTechnicians_overlap with ⟨sys, hsys, h50, h60⟩
  refine ⟨sys, hsys, fun hsees => ?_⟩
  have hlast := (only_last_code hsys).mpr hsees
  have hsame := hlast.unique _ (List.suffix_refl _) 7 50 60 h50 h60
  exact absurd hsame (by decide)

/-- The codes of the tablet are not as expected. -/
theorem only_last_code_overlapping : ∃ sys,
    Reachable plainCrypto twoTechnicians [tablet] sys ∧
    ¬ OnlyLastCode [tablet] sys.shared.log := by
  rcases twoTechnicians_overlap with ⟨sys, hsys, h50, h60⟩
  refine ⟨sys, hsys, fun hlast => ?_⟩
  have hsame := hlast.unique _ (List.suffix_refl _) 7 50 60 h50 h60
  exact absurd hsame (by decide)

end RemoteControl.Devices
